import Mathlib.Data.List.Basic

/-!
# Programs with a state, visible events and early stops

A program transforms a state, leaves a trail of events, and either returns a value or stops
for a reason. What it did before it stopped stays done.

## Main definitions

* `Program`, `Outcome` — a program, and what one run of it amounts to
* `get`, `modify`, `emit`, `stop`, `when`, `focus` — the basic programs, and a program on a
  part of the state
* `Returns` — a program returns, with a value and a state
* `Emits` — all events of a program satisfy a condition
* `Ensures` — so do a value that is returned and the state with it
* `Keeps` — some part of the state is left as it was

## Main results

* `Ensures.bind`, `Ensures.focus` and so on — a rule for each way to build a program
* `bind_ok` — what a sequence does whose first part returns
-/

set_option autoImplicit false

namespace Sel4Xhci.Semantics

/-- What a run amounts to: a value or the reason why it stopped, the events, and the state
at the end. -/
structure Outcome (σ ε θ α : Type) where
  result : Except θ α
  events : List ε
  state : σ

/-- A run that comes behind the events `before`. -/
def Outcome.after {σ ε θ α : Type} (before : List ε) (o : Outcome σ ε θ α) : Outcome σ ε θ α :=
  { o with events := before ++ o.events }

/-- A program on states `σ` with events `ε`, which stops for reasons `θ`. -/
def Program (σ ε θ α : Type) := σ → Outcome σ ε θ α

namespace Program

variable {σ τ ε θ α β : Type}

instance : Monad (Program σ ε θ) where
  pure a := fun s => ⟨.ok a, [], s⟩
  bind p f := fun s =>
    match p s with
    | ⟨.ok a, events, s'⟩ => (f a s').after events
    | ⟨.error t, events, s'⟩ => ⟨.error t, events, s'⟩

/-- The state. -/
def get : Program σ ε θ σ := fun s => ⟨.ok s, [], s⟩

/-- A change of the state. -/
def modify (f : σ → σ) : Program σ ε θ Unit := fun s => ⟨.ok (), [], f s⟩

/-- Visible events. -/
def emit (events : List ε) : Program σ ε θ Unit := fun s => ⟨.ok (), events, s⟩

/-- The end of the whole run. -/
def stop (t : θ) : Program σ ε θ α := fun s => ⟨.error t, [], s⟩

/-- A program on the part `part s` of a state; `put` replaces the part. -/
def focus (part : σ → τ) (put : σ → τ → σ) (p : Program τ ε θ α) : Program σ ε θ α := fun s =>
  let o := p (part s)
  ⟨o.result, o.events, put s o.state⟩

/-- A program that is run only if `c` holds. -/
def when (c : Prop) [Decidable c] (p : Program σ ε θ Unit) : Program σ ε θ Unit :=
  if c then p else pure ()

/-! ## Runs -/

theorem pure_run (a : α) (s : σ) : (pure a : Program σ ε θ α) s = ⟨.ok a, [], s⟩ := rfl

theorem get_run (s : σ) : (get : Program σ ε θ σ) s = ⟨.ok s, [], s⟩ := rfl

theorem focus_run {part : σ → τ} {put : σ → τ → σ} {p : Program τ ε θ α} {s : σ}
    {o : Outcome τ ε θ α} (h : p (part s) = o) :
    focus part put p s = ⟨o.result, o.events, put s o.state⟩ := by
  rw [← h, focus]

theorem bind_ok {p : Program σ ε θ α} {f : α → Program σ ε θ β} {s s' : σ} {a : α}
    {events : List ε} (h : p s = ⟨.ok a, events, s'⟩) : (p >>= f) s = (f a s').after events := by
  change (match p s with
    | ⟨.ok a, events, s'⟩ => (f a s').after events
    | ⟨.error t, events, s'⟩ => ⟨.error t, events, s'⟩) = _
  rw [h]

theorem after_nil (o : Outcome σ ε θ α) : o.after [] = o := rfl

theorem modify_run (g : σ → σ) (s : σ) :
    (modify g : Program σ ε θ Unit) s = ⟨.ok (), [], g s⟩ := rfl

theorem after_after (first second : List ε) (o : Outcome σ ε θ α) :
    (o.after second).after first = o.after (first ++ second) := by
  simp [Outcome.after]

theorem bind_error {p : Program σ ε θ α} {f : α → Program σ ε θ β} {s s' : σ} {t : θ}
    {events : List ε} (h : p s = ⟨.error t, events, s'⟩) :
    (p >>= f) s = ⟨.error t, events, s'⟩ := by
  change (match p s with
    | ⟨.ok a, events, s'⟩ => (f a s').after events
    | ⟨.error t, events, s'⟩ => ⟨.error t, events, s'⟩) = _
  rw [h]

theorem bind_assoc {γ : Type} (p : Program σ ε θ α) (f : α → Program σ ε θ β)
    (g : β → Program σ ε θ γ) : (p >>= f) >>= g = p >>= fun a => f a >>= g := by
  funext s
  rcases hp : p s with ⟨result, events, s'⟩
  cases result with
  | error t => rw [bind_error hp, bind_error (bind_error hp)]
  | ok a =>
    rw [bind_ok hp]
    rcases hf : f a s' with ⟨result, more, s''⟩
    have hfirst : (p >>= f) s = ⟨result, events ++ more, s''⟩ := by
      rw [bind_ok hp, hf]
      rfl
    cases result with
    | error t =>
      rw [bind_error hfirst, bind_error hf]
      rfl
    | ok b => rw [bind_ok hfirst, bind_ok hf, after_after]

theorem pure_bind (a : α) (f : α → Program σ ε θ β) : (pure a >>= f) = f a := by
  funext s
  rw [bind_ok (pure_run a s), after_nil]

/-- A sequence that returns has run its first part, and then the second one from there. -/
theorem bind_returns {p : Program σ ε θ α} {f : α → Program σ ε θ β} {s : σ} {b : β}
    (h : ((p >>= f) s).result = .ok b) :
    ∃ a, (p s).result = .ok a ∧ (f a (p s).state).result = .ok b ∧
      ((p >>= f) s).state = (f a (p s).state).state := by
  rcases hp : p s with ⟨result, events, s'⟩
  cases result with
  | ok a =>
    rw [bind_ok hp] at h ⊢
    exact ⟨a, rfl, h, rfl⟩
  | error t =>
    rw [bind_error hp] at h
    cases h

/-- The events of a sequence are those of the first part, and of the second if it comes to
that. -/
theorem mem_bind_events {p : Program σ ε θ α} {f : α → Program σ ε θ β} {s : σ} {e : ε} :
    e ∈ ((p >>= f) s).events ↔ e ∈ (p s).events ∨
      ∃ a, (p s).result = .ok a ∧ e ∈ (f a (p s).state).events := by
  rcases hp : p s with ⟨result, events, s'⟩
  cases result with
  | ok a => simp [bind_ok hp, Outcome.after]
  | error t => simp [bind_error hp]

theorem mem_events_first {p : Program σ ε θ α} {f : α → Program σ ε θ β} {s : σ} {e : ε}
    (h : e ∈ (p s).events) : e ∈ ((p >>= f) s).events := mem_bind_events.mpr (.inl h)

theorem mem_events_second {p : Program σ ε θ α} {f : α → Program σ ε θ β} {s : σ} {e : ε} {a : α}
    (ha : (p s).result = .ok a) (h : e ∈ (f a (p s).state).events) :
    e ∈ ((p >>= f) s).events := mem_bind_events.mpr (.inr ⟨a, ha, h⟩)

/-- What a sequence does depends on what its second part does behind the first. -/
theorem bind_congr_run {p : Program σ ε θ α} {f g : α → Program σ ε θ β} {s : σ}
    (h : ∀ a, (p s).result = .ok a → f a (p s).state = g a (p s).state) :
    (p >>= f) s = (p >>= g) s := by
  rcases hp : p s with ⟨result, events, s'⟩
  cases result with
  | ok a =>
    rw [hp] at h
    rw [bind_ok hp, bind_ok hp, h a rfl]
  | error t => rw [bind_error hp, bind_error hp]

/-- From `s` the program returns `a` and leaves the state `s'`. -/
def Returns (p : Program σ ε θ α) (s : σ) (a : α) (s' : σ) : Prop :=
  p s = ⟨.ok a, (p s).events, s'⟩

namespace Returns

variable {p : Program σ ε θ α} {f : α → Program σ ε θ β} {s s' s'' : σ} {a : α} {b : β}

theorem of_run {events : List ε} (h : p s = ⟨.ok a, events, s'⟩) : Returns p s a s' := by
  rw [Returns, h]

theorem pure (a : α) (s : σ) : Returns (pure a : Program σ ε θ α) s a s := rfl

theorem get (s : σ) : Returns (get : Program σ ε θ σ) s s s := rfl

theorem modify (g : σ → σ) (s : σ) : Returns (modify g : Program σ ε θ Unit) s () (g s) := rfl

theorem emit (events : List ε) (s : σ) : Returns (emit events : Program σ ε θ Unit) s () s := rfl

theorem bind (hp : Returns p s a s') (hf : Returns (f a) s' b s'') :
    Returns (p >>= f) s b s'' := by
  rw [Returns, bind_ok hp, hf]
  rfl

/-- The events of a sequence whose first part returns. -/
theorem mem_bind_events {e : ε} (h : Returns p s a s') :
    e ∈ ((p >>= f) s).events ↔ e ∈ (p s).events ∨ e ∈ (f a s').events := by
  rw [bind_ok h, Outcome.after, List.mem_append]

/-- How a sequence ends whose first part returns. -/
theorem bind_result (h : Returns p s a s') : ((p >>= f) s).result = (f a s').result := by
  rw [bind_ok h]
  rfl

theorem result (h : Returns p s a s') : (p s).result = .ok a := by rw [h]

theorem state (h : Returns p s a s') : (p s).state = s' := by rw [h]

theorem of_result (h : (p s).result = .ok a) : Returns p s a (p s).state := by
  rw [Returns, ← h]

/-- A program returns one value at most, with one state. -/
theorem unique {a' : α} (h : Returns p s a s') (h' : Returns p s a' s'') : a = a' ∧ s' = s'' :=
  ⟨Except.ok.inj (h.result.symm.trans h'.result), h.state.symm.trans h'.state⟩

/-- A sequence that returns passes through a state between its parts. -/
theorem of_bind {t : σ} (h : Returns (p >>= f) s b t) :
    ∃ a u, Returns p s a u ∧ Returns (f a) u b t := by
  obtain ⟨a, ha, hb, hstate⟩ := bind_returns h.result
  rw [← h.state, hstate]
  exact ⟨a, _, of_result ha, of_result hb⟩

/-- A sequence whose first part returns returns what the second part does. -/
theorem bind_iff {t : σ} (h : Returns p s a s') :
    Returns (p >>= f) s b t ↔ Returns (f a) s' b t := by
  refine ⟨fun hall => ?_, h.bind⟩
  obtain ⟨a', u, ha, hb⟩ := hall.of_bind
  obtain ⟨rfl, rfl⟩ := h.unique ha
  exact hb

theorem focus {part : σ → τ} {put : σ → τ → σ} {p : Program τ ε θ α} {s : σ} {t : τ}
    (h : Returns p (part s) a t) : Returns (focus part put p) s a (put s t) :=
  .of_run (focus_run h)

/-- A program on a part returns what it returns on the part. -/
theorem focus_iff {part : σ → τ} {put : σ → τ → σ} {p : Program τ ε θ α} {s s' : σ} :
    Returns (Program.focus part put p) s a s' ↔ ∃ t, Returns p (part s) a t ∧ s' = put s t := by
  constructor
  · intro h
    exact ⟨_, .of_result h.result, h.state.symm⟩
  · rintro ⟨t, h, rfl⟩
    exact h.focus

end Returns

/-! ## Rules -/

/-- All events of the program satisfy `E`. -/
def Emits (E : ε → Prop) (p : Program σ ε θ α) : Prop := ∀ s, ∀ e ∈ (p s).events, E e

namespace Emits

variable {E E' : ε → Prop} {p q : Program σ ε θ α} {f : α → Program σ ε θ β}

theorem pure (a : α) : Emits E (pure a : Program σ ε θ α) := fun _ => nofun

theorem bind (hp : Emits E p) (hf : ∀ a, Emits E (f a)) : Emits E (p >>= f) := by
  intro s e he
  rcases mem_bind_events.mp he with he | ⟨a, -, he⟩
  · exact hp s e he
  · exact hf a _ e he

theorem ite {c : Prop} [Decidable c] (hp : c → Emits E p) (hq : ¬ c → Emits E q) :
    Emits E (if c then p else q) := by
  split_ifs with h
  · exact hp h
  · exact hq h

theorem when {c : Prop} [Decidable c] {p : Program σ ε θ Unit} (h : c → Emits E p) :
    Emits E (when c p) := .ite h fun _ => .pure ()

theorem get : Emits E (get : Program σ ε θ σ) := fun _ => nofun

theorem modify {g : σ → σ} : Emits E (modify g : Program σ ε θ Unit) := fun _ => nofun

theorem emit {events : List ε} (h : ∀ e ∈ events, E e) :
    Emits E (emit events : Program σ ε θ Unit) := fun _ => h

theorem stop {t : θ} : Emits E (stop t : Program σ ε θ α) := fun _ => nofun

theorem focus {part : σ → τ} {put : σ → τ → σ} {p : Program τ ε θ α} (h : Emits E p) :
    Emits E (focus part put p) := fun s => h (part s)

theorem mono (h : Emits E p) (hE : ∀ e, E e → E' e) : Emits E' p := fun s e he =>
  hE e (h s e he)

end Emits

section Filter

variable {P : ε → Bool} {p : Program σ ε θ α} {f : α → Program σ ε θ β}

theorem filter_after {before : List ε} (h : before.filter P = []) (o : Outcome σ ε θ α) :
    (o.after before).events.filter P = o.events.filter P := by
  rw [Outcome.after, List.filter_append, h, List.nil_append]

theorem Emits.filter_eq_nil (h : Emits (fun e => P e = false) p) (s : σ) :
    (p s).events.filter P = [] :=
  List.filter_eq_nil_iff.mpr fun e he => by simp [h s e he]

/-- A second part without events that satisfy `P` adds none to those of the first. -/
theorem filter_bind (hf : ∀ a, Emits (fun e => P e = false) (f a)) (s : σ) :
    ((p >>= f) s).events.filter P = (p s).events.filter P := by
  rcases hp : p s with ⟨result, events, s'⟩
  cases result with
  | ok a =>
    rw [bind_ok hp, Outcome.after, List.filter_append, (hf a).filter_eq_nil, List.append_nil]
  | error t => rw [bind_error hp]

end Filter

/-- From a state with `P`, all events of the program satisfy `E`; and when it returns, value
and state satisfy `Q`. -/
def Ensures (P : σ → Prop) (p : Program σ ε θ α) (Q : α → σ → Prop) (E : ε → Prop) : Prop :=
  ∀ s, P s → (∀ e ∈ (p s).events, E e) ∧ ∀ a, (p s).result = .ok a → Q a (p s).state

namespace Ensures

variable {P P' : σ → Prop} {Q Q' : α → σ → Prop} {R : β → σ → Prop} {E E' : ε → Prop}
  {p : Program σ ε θ α} {f : α → Program σ ε θ β}

theorem pure {a : α} (h : ∀ s, P s → Q a s) : Ensures P (pure a : Program σ ε θ α) Q E := by
  intro s hs
  refine ⟨nofun, fun b hb => ?_⟩
  obtain rfl := Except.ok.inj hb
  exact h s hs

theorem bind (hp : Ensures P p Q E) (hf : ∀ a, Ensures (Q a) (f a) R E) :
    Ensures P (p >>= f) R E := by
  intro s hs
  obtain ⟨hevents, hvalue⟩ := hp s hs
  constructor
  · intro e he
    rcases mem_bind_events.mp he with he | ⟨a, ha, he⟩
    · exact hevents e he
    · exact (hf a _ (hvalue a ha)).1 e he
  · intro b hb
    obtain ⟨a, ha, hb, hstate⟩ := bind_returns hb
    rw [hstate]
    exact (hf a _ (hvalue a ha)).2 b hb

theorem ite {c : Prop} [Decidable c] {q : Program σ ε θ α} (hp : c → Ensures P p Q E)
    (hq : ¬ c → Ensures P q Q E) : Ensures P (if c then p else q) Q E := by
  split_ifs with h
  · exact hp h
  · exact hq h

/-- Once the state has been read, it is known. -/
theorem get_bind {f : σ → Program σ ε θ β} (h : ∀ s, P s → Ensures (· = s) (f s) R E) :
    Ensures P (Program.get >>= f) R E := by
  intro s hs
  rw [bind_ok (get_run s)]
  exact h s hs s rfl

theorem mono (h : Ensures P p Q E) (hP : ∀ s, P' s → P s) (hQ : ∀ a s, Q a s → Q' a s)
    (hE : ∀ e, E e → E' e) : Ensures P' p Q' E' := by
  intro s hs
  obtain ⟨hevents, hvalue⟩ := h s (hP s hs)
  exact ⟨fun e he => hE e (hevents e he), fun a ha => hQ a _ (hvalue a ha)⟩

theorem get {Q : σ → σ → Prop} (h : ∀ s, P s → Q s s) :
    Ensures P (get : Program σ ε θ σ) Q E := by
  intro s hs
  refine ⟨nofun, fun b hb => ?_⟩
  obtain rfl := Except.ok.inj hb
  exact h s hs

theorem modify {g : σ → σ} {Q : Unit → σ → Prop} (h : ∀ s, P s → Q () (g s)) :
    Ensures P (modify g : Program σ ε θ Unit) Q E :=
  fun s hs => ⟨nofun, fun _ _ => h s hs⟩

theorem emit {events : List ε} {Q : Unit → σ → Prop} (hE : ∀ e ∈ events, E e)
    (h : ∀ s, P s → Q () s) : Ensures P (emit events : Program σ ε θ Unit) Q E :=
  fun s hs => ⟨hE, fun _ _ => h s hs⟩

theorem stop {t : θ} : Ensures P (stop t : Program σ ε θ α) Q E := fun _ _ => ⟨nofun, nofun⟩

theorem focus {part : σ → τ} {put : σ → τ → σ} {p : Program τ ε θ α} {P : τ → Prop}
    {Q : α → τ → Prop} (h : Ensures P p Q E) {R : α → σ → Prop} {S : σ → Prop}
    (hS : ∀ s, S s → P (part s)) (hR : ∀ s a t, S s → Q a t → R a (put s t)) :
    Ensures S (focus part put p) R E := by
  intro s hs
  obtain ⟨hevents, hvalue⟩ := h (part s) (hS s hs)
  exact ⟨hevents, fun a ha => hR s a _ hs (hvalue a ha)⟩

end Ensures

/-- Whether it returns or stops, the program leaves `f` of the state as it was. -/
def Keeps (f : σ → τ) (p : Program σ ε θ α) : Prop := ∀ s, f (p s).state = f s

namespace Keeps

variable {f : σ → τ} {p q : Program σ ε θ α} {g : α → Program σ ε θ β}

theorem pure (a : α) : Keeps f (pure a : Program σ ε θ α) := fun _ => rfl

theorem get : Keeps f (get : Program σ ε θ σ) := fun _ => rfl

theorem emit (events : List ε) : Keeps f (emit events : Program σ ε θ Unit) := fun _ => rfl

theorem stop (t : θ) : Keeps f (stop t : Program σ ε θ α) := fun _ => rfl

theorem modify {h : σ → σ} (hh : ∀ s, f (h s) = f s) :
    Keeps f (modify h : Program σ ε θ Unit) := hh

/-- A second part that keeps `f` leaves it as the first part does. -/
theorem bind_state (hg : ∀ a, Keeps f (g a)) (s : σ) :
    f ((p >>= g) s).state = f (p s).state := by
  rcases hp : p s with ⟨result, events, s'⟩
  cases result with
  | ok a =>
    rw [bind_ok hp]
    exact hg a s'
  | error t => rw [bind_error hp]

theorem bind (hp : Keeps f p) (hg : ∀ a, Keeps f (g a)) : Keeps f (p >>= g) := fun s =>
  (bind_state hg s).trans (hp s)

theorem ite {c : Prop} [Decidable c] (hp : c → Keeps f p) (hq : ¬ c → Keeps f q) :
    Keeps f (if c then p else q) := by
  split_ifs with h
  · exact hp h
  · exact hq h

theorem when {c : Prop} [Decidable c] {p : Program σ ε θ Unit} (h : c → Keeps f p) :
    Keeps f (when c p) := .ite h fun _ => .pure ()

/-- A program on another part of the state. -/
theorem focus {υ : Type} {part : σ → υ} {put : σ → υ → σ} (p : Program υ ε θ α)
    (hput : ∀ s t, f (put s t) = f s) : Keeps f (focus part put p) := fun s => hput s _

end Keeps

end Program

end Sel4Xhci.Semantics
