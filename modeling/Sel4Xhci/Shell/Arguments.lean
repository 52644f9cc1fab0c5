import Sel4Xhci.Shell.Reset

/-!
# Arguments that are not there

A line has any number of words, and `parsedArgs` is null behind the last of them. A command
that follows a null entry faults; FatFs answers a null path, but it has been passed one all
the same. Three commands look at their arguments first. Two of them stop if there are not as
many as they need; `fatwrite` goes on.

## Main definitions

* `SafeArguments` — no missing argument is passed on, and a rejected command does nothing
* `Command.FitsWords` — the number of words with which a command keeps to that

## Main results

* `safeArguments_iff` — which lines are safe
-/

set_option autoImplicit false

namespace Sel4Xhci.Shell

open Semantics Semantics.CString Semantics.Program Umass

variable {RQ : Fifo BlkReq} {SQ : Fifo Answer}

/-- No null entry of `parsedArgs` is passed to a function, and a command that rejects its
arguments carries out no operation. -/
structure SafeArguments (s : ShellState RQ SQ) : Prop where
  present : ∀ f, .passes f none ∉ (decodeCommand s).events
  rejected : ∀ c, selected s.toEditor = some c → c.rejects (lineArgs s.toEditor) = true →
    ∀ e ∈ (decodeCommand s).events, ¬ e.IsOperation

/-- The numbers of words, the command itself among them, with which a command is safe. -/
def Command.FitsWords (c : Command) (n : ℕ) : Prop :=
  match c with
  | .fatls => 2 ≤ n
  | .fatread => 2 ≤ n
  | .getdev => 2 ≤ n
  | .fatwrite => n = 3
  | _ => True

instance (c : Command) (n : ℕ) : Decidable (c.FitsWords n) := by
  cases c <;> unfold Command.FitsWords <;> infer_instance

/-! ## Lines with the words they need -/

section Fits

variable {c : Command} {args : List (List Byte)}

/-- The arguments that a command uses behind its check are there, if the words fit. -/
theorem lt_length_of_used (hfits : c.FitsWords args.length) (hproceeds : c.Proceeds args) {i : ℕ}
    (hused : i ∈ c.used) : i < args.length := by
  have hchecked : c ≠ .fatwrite → c.rejects args = false := fun hc =>
    hproceeds.resolve_right hc
  cases c with
  | read =>
    have hargs := hchecked (by decide)
    have hlong : 3 < args.length := by
      simp [Command.rejects] at hargs
      omega
    have hthree : ∀ i ∈ Command.read.used, i ≤ 3 := by decide
    exact (hthree i hused).trans_lt hlong
  | write =>
    have hargs := hchecked (by decide)
    have hlong : 4 < args.length := by
      simp [Command.rejects] at hargs
      omega
    have hfour : ∀ i ∈ Command.write.used, i ≤ 4 := by decide
    exact (hfour i hused).trans_lt hlong
  | fatwrite =>
    have hthree : args.length = 3 := hfits
    have htwo : ∀ i ∈ Command.fatwrite.used, i ≤ 2 := by decide
    exact hthree ▸ Nat.lt_succ_of_le (htwo i hused)
  | fatls | fatread | getdev =>
    have htwo : 2 ≤ args.length := hfits
    obtain rfl := List.mem_singleton.mp hused
    omega
  | _ => cases hused

theorem parsedArg_ne_none {i : ℕ} (hi : i < args.length) : parsedArg args i ≠ none := by
  rw [parsedArg, List.getElem?_eq_getElem hi]
  exact nofun

/-- A command whose words fit goes on only if it accepts them. -/
theorem rejects_eq_false (hfits : c.FitsWords args.length) (hproceeds : c.Proceeds args) :
    c.rejects args = false := by
  rcases hproceeds with hargs | rfl
  · exact hargs
  · have hthree : args.length = 3 := hfits
    simp [Command.rejects, hthree]

/-- What a command does whose words fit. -/
theorem commandEvent_fits {h : History} {e : Event} (hfits : c.FitsWords args.length)
    (he : CommandEvent c args h e) :
    (∀ f, e ≠ .passes f none) ∧ (c.rejects args = true → ¬ e.IsOperation) := by
  cases he with
  | acts he =>
    cases he with
    | passes f hused hproceeds =>
      refine ⟨fun g heq => ?_, fun _ => id⟩
      have hnone := (Event.passes.inj heq).2
      exact parsedArg_ne_none (lt_length_of_used hfits hproceeds hused) hnone
    | operation hop hproceeds htransfer =>
      have hfalse := rejects_eq_false hfits hproceeds
      refine ⟨fun f heq => ?_, fun htrue => ?_⟩
      · rw [heq] at hop
        exact hop
      · rw [hfalse] at htrue
        cases htrue
    | _ => exact ⟨nofun, fun _ => id⟩
  | _ => exact ⟨nofun, fun _ => id⟩

/-- Nor does the preparation of a line pass anything on. -/
theorem Prepares.fits {editor : Editor} {e : Event} (he : Prepares editor e) :
    (∀ f, e ≠ .passes f none) ∧ ¬ e.IsOperation := by
  cases he <;> exact ⟨nofun, id⟩

end Fits

section Line

variable {s : ShellState RQ SQ}

/-- A line whose words fit the command they select is safe. -/
theorem safeArguments_of_fits {word : List Byte}
    (hword : parsedArg (lineArgs s.toEditor) 0 = some word)
    (hfits : (commandOf word).FitsWords (lineArgs s.toEditor).length) : SafeArguments s := by
  have hevents : ∀ e ∈ (decodeCommand s).events, (∀ f, e ≠ .passes f none) ∧
      ((commandOf word).rejects (lineArgs s.toEditor) = true → ¬ e.IsOperation) := by
    intro e he
    cases lineEvent_of_mem he with
    | prompt => exact ⟨nofun, fun _ => id⟩
    | prepares _ he => exact ⟨he.fits.1, fun _ => he.fits.2⟩
    | compares _ =>
      rw [hword]
      exact ⟨nofun, fun _ => id⟩
    | runs _ hfirst he =>
      obtain rfl := Option.some.inj (hword.symm.trans hfirst)
      exact commandEvent_fits hfits he
  constructor
  case present => exact fun f hf => (hevents _ hf).1 f rfl
  case rejected =>
    intro c hc hrejects e he
    rw [selected, hword] at hc
    obtain rfl := Option.some.inj hc
    exact (hevents e he).2 hrejects

end Line

/-! ## Lines without them -/

section Misses

variable {w : World RQ SQ} {args : List (List Byte)} {d : Periphery RQ SQ}

/-- A null entry is passed on before anything else becomes of it. -/
theorem passTo_none_mem {σ : Type} (f : Callee) (d : σ) :
    .passes f none ∈ (passTo f none d : Outcome σ Event Stop (List Byte)).events :=
  List.mem_singleton.mpr rfl

theorem getdevCommand_misses (harg : parsedArg args 1 = none) :
    .passes .atoi none ∈ (getdevCommand args d).events := by
  unfold getdevCommand
  rw [harg]
  exact mem_events_first (mem_events_first (passTo_none_mem .atoi d))

theorem fatlsCommand_misses (harg : parsedArg args 1 = none) :
    .passes .fOpendir none ∈ (fatlsCommand w args d).events := by
  unfold fatlsCommand
  rw [harg]
  exact mem_events_second rfl <| mem_events_second rfl <| mem_events_first List.mem_cons_self

theorem fatreadCommand_misses (harg : parsedArg args 1 = none) :
    .passes .fOpen none ∈ (fatreadCommand w args d).events := by
  unfold fatreadCommand
  rw [harg]
  exact mem_events_second rfl <| mem_events_first List.mem_cons_self

/-- The check of `fatwrite` returns whatever its outcome. -/
theorem fatwrite_check {σ : Type} (args : List (List Byte)) (d : σ) :
    (when (Command.fatwrite.rejects args = true)
        (printInvalid "Usage: fatwrite [filename] [text]\n") d :
      Outcome σ Event Stop Unit).result = .ok () ∧
    (when (Command.fatwrite.rejects args = true)
        (printInvalid "Usage: fatwrite [filename] [text]\n") d :
      Outcome σ Event Stop Unit).state = d := by
  unfold Program.when
  split_ifs <;> exact ⟨rfl, rfl⟩

theorem fatwriteCommand_misses (harg : parsedArg args 2 = none) :
    .passes .strlen none ∈ (fatwriteCommand w args d).events := by
  unfold fatwriteCommand
  rw [harg]
  exact mem_events_second (fatwrite_check args d).1 <| mem_events_second rfl <|
    mem_events_first (passTo_none_mem .strlen _)

/-- With too many words `fatwrite` mounts the drive, although it has rejected them. -/
theorem fatwriteCommand_mounts {teststr : List Byte} (harg : parsedArg args 2 = some teststr) :
    .fatfs .mount ∈ (fatwriteCommand w args d).events := by
  unfold fatwriteCommand
  rw [harg]
  exact mem_events_second (fatwrite_check args d).1 <| mem_events_second rfl <|
    mem_events_second rfl <| mem_events_second rfl <| mem_events_second rfl <|
    mem_events_first (List.mem_singleton.mpr rfl)

/-- A command whose words do not fit passes on a null entry, or goes on behind its check. -/
theorem act_misses {c : Command} (hfits : ¬ c.FitsWords args.length) :
    (∃ f, .passes f none ∈ (c.act w args d).events) ∨
      c.rejects args = true ∧ .fatfs .mount ∈ (c.act w args d).events := by
  cases c with
  | fatls =>
    have htwo : args.length ≤ 1 := Nat.le_of_lt_succ (not_le.mp hfits)
    exact .inl ⟨_, fatlsCommand_misses (List.getElem?_eq_none htwo)⟩
  | fatread =>
    have htwo : args.length ≤ 1 := Nat.le_of_lt_succ (not_le.mp hfits)
    exact .inl ⟨_, fatreadCommand_misses (List.getElem?_eq_none htwo)⟩
  | getdev =>
    have htwo : args.length ≤ 1 := Nat.le_of_lt_succ (not_le.mp hfits)
    exact .inl ⟨_, getdevCommand_misses (List.getElem?_eq_none htwo)⟩
  | fatwrite =>
    have hthree : args.length ≠ 3 := hfits
    cases harg : parsedArg args 2 with
    | none => exact .inl ⟨_, fatwriteCommand_misses harg⟩
    | some teststr =>
      obtain ⟨htwo, -⟩ := List.getElem?_eq_some_iff.mp harg
      have hfour : 3 < args.length := by omega
      refine .inr ⟨?_, fatwriteCommand_mounts harg⟩
      simp [Command.rejects, hfour]
  | _ => exact absurd trivial hfits

/-- What such a command does, the line does. -/
theorem mem_runCommand {c : Command} {hist : Memory HIST_SIZE} {s : ShellState RQ SQ} {e : Event}
    (hfits : ¬ c.FitsWords args.length) (he : e ∈ (c.act w args s.toPeriphery).events) :
    e ∈ (runCommand w args hist c s).events := by
  have hcommon : c ≠ .mousetest ∧ c ≠ .utstest ∧ c ≠ .kbdtest ∧ c ≠ .history := by
    refine ⟨?_, ?_, ?_, ?_⟩ <;> exact fun hc => hfits (hc ▸ trivial)
  obtain ⟨hmouse, huts, hkbd, hhistory⟩ := hcommon
  rw [runCommand_of_common hmouse huts hkbd]
  apply mem_events_first
  rw [carryOut, if_neg hhistory]
  exact he

end Misses

/-- A line is safe exactly when it has words, and as many as the command it selects can do
with. -/
theorem safeArguments_iff (s : ShellState RQ SQ) :
    SafeArguments s ↔ (0 < s.cmdLen → ∃ c, selected s.toEditor = some c ∧
      c.FitsWords (lineArgs s.toEditor).length) := by
  by_cases h : 0 < s.cmdLen
  case neg =>
    have hprompt : (decodeCommand s).events = [.printf ("\n" ++ prompt)] := by
      rw [decodeCommand_empty h]
    refine iff_of_true ⟨?_, ?_⟩ fun hlen => absurd hlen h
    · simp [hprompt]
    · simp [hprompt, Event.IsOperation]
  rw [forall_prop_of_true h]
  -- A line of blanks has no first word, and `strcmp` gets a null pointer.
  cases hword : parsedArg (lineArgs s.toEditor) 0 with
  | none =>
    have hselected : selected s.toEditor = none := by rw [selected, hword]; rfl
    refine iff_of_false (fun hsafe => ?_) (by simp [hselected])
    apply hsafe.present .strcmp
    rw [decodeCommand_none h hword]
    exact List.mem_append_right _ (List.mem_singleton.mpr rfl)
  | some word =>
    have hselected : selected s.toEditor = some (commandOf word) := by rw [selected, hword]; rfl
    constructor
    · intro hsafe
      refine ⟨commandOf word, hselected, ?_⟩
      by_contra hfits
      have hmem : ∀ e ∈ ((commandOf word).act (s.upcoming 0) (lineArgs s.toEditor)
          (prepared s).toPeriphery).events, e ∈ (decodeCommand s).events := by
        intro e he
        rw [decodeCommand_some h hword]
        exact List.mem_append_right _ (mem_runCommand hfits he)
      rcases act_misses (w := s.upcoming 0) (d := (prepared s).toPeriphery) hfits with
        ⟨f, hf⟩ | ⟨hrejects, hmount⟩
      · exact hsafe.present f (hmem _ hf)
      · exact hsafe.rejected _ hselected hrejects _ (hmem _ hmount) trivial
    · rintro ⟨c, hc, hfits⟩
      obtain rfl := Option.some.inj (hselected.symm.trans hc)
      exact safeArguments_of_fits hword hfits

/-- `getdev` without a device. -/
theorem getdev_passes_null :
    let s := atPrompt (ascii ['g', 'e', 't', 'd', 'e', 'v']) .empty clearWorld
    .passes .atoi none ∈ (decodeCommand s).events ∧ ¬ SafeArguments s := by
  intro s
  have hnull : .passes .atoi none ∈ (decodeCommand s).events := by
    rw [decodeCommand_some (by decide)
      (by decide : _ = some (ascii ['g', 'e', 't', 'd', 'e', 'v']))]
    exact List.mem_append_right _ <| mem_runCommand (by decide) (getdevCommand_misses (by decide))
  exact ⟨hnull, fun hsafe => hsafe.present .atoi hnull⟩

end Sel4Xhci.Shell
