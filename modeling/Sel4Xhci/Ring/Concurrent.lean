import Sel4Xhci.Semantics.Channel
import Sel4Xhci.Ring.Basic

/-!
# One producer and one consumer on a shared ring

`enqueue` in one protection domain and `dequeue` or `driver_dequeue` in another,
one shared load or store at a time. Memory is sequentially consistent, so the
release fences between a side's own accesses order nothing that program order does
not, and each index has one writer. Loads of the ring go through a register of the
side that made them: the two index loads of a full or empty test happen at
different moments, in either order, and every later use of the own index loads it
again.

An enqueue counts as successful when it stores the advanced `write_idx`, a dequeue
when it stores the advanced `read_idx`; each is the last shared access of its call.

## Main definitions

* `Spsc`, `spsc` — the two sides and the ring as a machine
* `Represents` — what a reachable state says about the channel it implements

## Main results

* `spsc_simulates` — the ring refines an ordered lossless channel
* `exec_enqueue_alone`, `exec_take_alone` — a side that is not interrupted computes
  `enqueue`, `dequeue` and `driverDequeue`
* `delivered_isPrefix_enqueued`
-/

set_option autoImplicit false

namespace Sel4Xhci.Ring

open Semantics Semantics.FreeRunning

/-- Where the producer is inside `enqueue` of `d`. An `Option` is a register that the
side's next load fills. -/
inductive ProducerPc
  | idle
  | test (d : BuffDesc) (writeIdx readIdx : Option (BitVec 32))
  | field (d : BuffDesc) (f : Field) (writeIdx : Option (BitVec 32))
  | advance (d : BuffDesc) (writeIdx : Option (BitVec 32))
  deriving DecidableEq

/-- Where the consumer is inside `dequeue` or `driver_dequeue`; `out` are the variables
its results go to. -/
inductive ConsumerPc
  | idle
  | test (t : Taker) (out : BuffDesc) (writeIdx readIdx : Option (BitVec 32))
  | field (t : Taker) (out : BuffDesc) (f : Field) (readIdx : Option (BitVec 32))
  | advance (out : BuffDesc) (readIdx : Option (BitVec 32))
  deriving DecidableEq

/-- The branch on `ring_full`, once both indices are loaded. -/
def ProducerPc.tested (d : BuffDesc) : Option (BitVec 32) → Option (BitVec 32) → ProducerPc
  | some w, some r => if fullTest w r then .idle else .field d .encodedAddr none
  | w, r => .test d w r

/-- The branch on `ring_empty`, once both indices are loaded. -/
def ConsumerPc.tested (t : Taker) (out : BuffDesc) :
    Option (BitVec 32) → Option (BitVec 32) → ConsumerPc
  | some w, some r => if emptyTest w r then .idle else .field t out .encodedAddr none
  | w, r => .test t out w r

/-- What follows the store of a field. -/
def ProducerPc.stored (d : BuffDesc) : Field → ProducerPc
  | .encodedAddr => .field d .len none
  | .len => .field d .cookie none
  | .cookie => .advance d none

/-- What follows the load of a field. -/
def ConsumerPc.loaded (t : Taker) (out : BuffDesc) : Field → ConsumerPc
  | .encodedAddr => .field t out .len none
  | .len => .field t out .cookie none
  | .cookie => .advance out none

/-- The pair that the contract speaks about. -/
def BuffDesc.pair (d : BuffDesc) : BitVec 64 × BitVec 32 := (d.encodedAddr, d.len)

/-- The ring, both sides, and the history of successful calls. -/
structure Spsc where
  ring : RingBuffer
  producer : ProducerPc
  consumer : ConsumerPc
  enqueued : List (BitVec 64 × BitVec 32)
  delivered : List (BitVec 64 × BitVec 32)

/-- Two idle sides around a ring, before any call. -/
def Spsc.initial (ring : RingBuffer) : Spsc := ⟨ring, .idle, .idle, [], []⟩

/-- Whose turn it is, and at a call or a test what it does. -/
inductive Access
  | callEnqueue (d : BuffDesc)
  | producerLoadsWrite
  | producerLoadsRead
  | producer
  | callTake (t : Taker) (out : BuffDesc)
  | consumerLoadsWrite
  | consumerLoadsRead
  | consumer

namespace Spsc

variable (s : Spsc)

/-- The accesses of `enqueue` behind the full test. -/
def producerStep : Option Spsc :=
  match s.producer with
  -- Every use of `write_idx` loads it again.
  | .field d f none => some { s with producer := .field d f (some s.ring.writeIdx) }
  | .field d f (some w) =>
    some { s with ring := s.ring.storeField w d f, producer := .stored d f }
  | .advance d none => some { s with producer := .advance d (some s.ring.writeIdx) }
  | .advance d (some w) =>
    some { s with
      ring := { s.ring with writeIdx := w + 1#32 }
      producer := .idle
      enqueued := s.enqueued ++ [d.pair] }
  | _ => none

/-- The accesses of `dequeue` and `driver_dequeue` behind the empty test. The cookie of
`driver_dequeue` is computed from the index, so its third access is the index load. -/
def consumerStep : Option Spsc :=
  match s.consumer with
  | .field t out f none => some { s with consumer := .field t out f (some s.ring.readIdx) }
  | .field t out f (some r) =>
    some { s with consumer := .loaded t (out.copyField (t.outputs s.ring r) f) f }
  | .advance out none => some { s with consumer := .advance out (some s.ring.readIdx) }
  | .advance out (some r) =>
    some { s with
      ring := { s.ring with readIdx := r + 1#32 }
      consumer := .idle
      delivered := s.delivered ++ [out.pair] }
  | _ => none

/-- One shared access. -/
def step : Access → Option Spsc
  | .callEnqueue d =>
    if s.producer = .idle then some { s with producer := .test d none none } else none
  | .producerLoadsWrite =>
    match s.producer with
    | .test d none r => some { s with producer := .tested d (some s.ring.writeIdx) r }
    | _ => none
  | .producerLoadsRead =>
    match s.producer with
    | .test d w none => some { s with producer := .tested d w (some s.ring.readIdx) }
    | _ => none
  | .producer => s.producerStep
  | .callTake t out =>
    if s.consumer = .idle then some { s with consumer := .test t out none none } else none
  | .consumerLoadsWrite =>
    match s.consumer with
    | .test t out none r => some { s with consumer := .tested t out (some s.ring.writeIdx) r }
    | _ => none
  | .consumerLoadsRead =>
    match s.consumer with
    | .test t out w none => some { s with consumer := .tested t out w (some s.ring.readIdx) }
    | _ => none
  | .consumer => s.consumerStep

end Spsc

/-- The shared ring as a machine: it starts with both sides idle and equal indices. -/
def spsc : Machine Spsc Access where
  start s := ∃ ring : RingBuffer, ring.writeIdx = ring.readIdx ∧ s = .initial ring
  step := Spsc.step

/-! ## What each side knows

`n` is the number of descriptors the ring stores. The producer's view of `read_idx`
may be stale, but a stale `read_idx` only makes the ring look fuller; likewise a stale
`write_idx` only makes it look emptier to the consumer. -/

/-- The fields of a descriptor that come before `f` agree. -/
def AgreeBefore (a b : BuffDesc) : Field → Prop
  | .encodedAddr => True
  | .len => a.encodedAddr = b.encodedAddr
  | .cookie => a.encodedAddr = b.encodedAddr ∧ a.len = b.len

/-- What the producer has established at each point of `enqueue`. -/
def ProducerKnows (ring : RingBuffer) (n : ℕ) : ProducerPc → Prop
  | .idle => True
  | .test _ w r => (∀ w' ∈ w, w' = ring.writeIdx) ∧
      ∀ r' ∈ r, n ≤ (ring.writeIdx - r').toNat ∧ (ring.writeIdx - r').toNat < SIZE
  | .field d f w => n + 1 < SIZE ∧ (∀ w' ∈ w, w' = ring.writeIdx) ∧
      AgreeBefore (ring.entry ring.writeIdx) d f
  | .advance d w => n + 1 < SIZE ∧ (∀ w' ∈ w, w' = ring.writeIdx) ∧
      ring.entry ring.writeIdx = d

/-- What the consumer has established at each point of `dequeue` or `driver_dequeue`,
about the descriptors `q` that the ring stores. -/
def ConsumerKnows (ring : RingBuffer) (q : List BuffDesc) : ConsumerPc → Prop
  | .idle => True
  | .test _ _ w r => (∀ r' ∈ r, r' = ring.readIdx) ∧
      ∀ w' ∈ w, (w' - ring.readIdx).toNat ≤ q.length
  | .field _ out f r => (∀ r' ∈ r, r' = ring.readIdx) ∧
      ∃ d rest, q = d :: rest ∧ AgreeBefore out d f
  | .advance out r => (∀ r' ∈ r, r' = ring.readIdx) ∧
      ∃ d rest, q = d :: rest ∧ out.pair = d.pair

/-- The state implements the channel `c`: the ring stores the pairs in transit, and each
side is where its own accesses can have brought it. -/
def Represents (s : Spsc) (c : Channel (BitVec 64 × BitVec 32)) : Prop :=
  c.sent = s.enqueued ∧ c.received = s.delivered ∧
    ∃ q, s.ring.Stores q ∧ c.inTransit = q.map BuffDesc.pair ∧
      ProducerKnows s.ring q.length s.producer ∧ ConsumerKnows s.ring q s.consumer

theorem AgreeBefore.copyField {a b d : BuffDesc} (ha : AgreeBefore a d .cookie)
    (hb : b.cookie = d.cookie) : { a with cookie := b.cookie } = d := by
  obtain ⟨haddr, hlen⟩ := ha
  cases a
  cases d
  simp_all

/-- What the producer knows survives a consumer that takes descriptors. -/
theorem ProducerKnows.mono {ring ring' : RingBuffer} {n n' : ℕ} {pc : ProducerPc}
    (h : ProducerKnows ring n pc) (hn : n' ≤ n) (hw : ring'.writeIdx = ring.writeIdx)
    (hbuf : ring'.buffers = ring.buffers) : ProducerKnows ring' n' pc := by
  have hentry : ring'.entry = ring.entry := funext fun i => congrFun hbuf (slot SIZE i)
  cases pc with
  | idle => trivial
  | test d w r =>
    refine ⟨hw ▸ h.1, fun r' hr' => ?_⟩
    rw [hw]
    exact ⟨hn.trans (h.2 r' hr').1, (h.2 r' hr').2⟩
  | field d f w =>
    obtain ⟨hroom, hreg, hagree⟩ := h
    exact ⟨by omega, hw ▸ hreg, by rwa [hw, hentry]⟩
  | advance d w =>
    obtain ⟨hroom, hreg, hslot⟩ := h
    exact ⟨by omega, hw ▸ hreg, by rwa [hw, hentry]⟩

/-- What the consumer knows survives a producer that appends descriptors. -/
theorem ConsumerKnows.mono {ring ring' : RingBuffer} {q q' : List BuffDesc} {pc : ConsumerPc}
    (h : ConsumerKnows ring q pc) (hq : q <+: q') (hr : ring'.readIdx = ring.readIdx) :
    ConsumerKnows ring' q' pc := by
  obtain ⟨more, rfl⟩ := hq
  cases pc with
  | idle => trivial
  | test t out w r =>
    refine ⟨hr ▸ h.1, fun w' hw' => ?_⟩
    have hle := h.2 w' hw'
    rw [hr, List.length_append]
    omega
  | field t out f r =>
    obtain ⟨hreg, d, rest, rfl, hagree⟩ := h
    exact ⟨hr ▸ hreg, d, rest ++ more, rfl, hagree⟩
  | advance out r =>
    obtain ⟨hreg, d, rest, rfl, hpair⟩ := h
    exact ⟨hr ▸ hreg, d, rest ++ more, rfl, hpair⟩

/-- A full test that passes on loaded indices leaves room for one more descriptor: the
loaded `read_idx` is never ahead of the real one. -/
theorem ProducerKnows.tested {ring : RingBuffer} {n : ℕ} {d : BuffDesc}
    {w r : Option (BitVec 32)} (h : ProducerKnows ring n (.test d w r)) :
    ProducerKnows ring n (.tested d w r) := by
  rcases w with _ | w
  · exact h
  rcases r with _ | r
  · exact h
  obtain ⟨hw, hr⟩ := h
  obtain rfl := hw w rfl
  obtain ⟨hle, hlt⟩ := hr r rfl
  simp only [ProducerPc.tested]
  split_ifs with hfull
  · trivial
  · rw [fullTest_iff] at hfull
    change _ < 512 at hlt
    refine ⟨?_, by simp, trivial⟩
    change n + 1 < 512
    omega

/-- An empty test that fails on loaded indices means a stored descriptor: the loaded
`write_idx` is never ahead of the real one. -/
theorem ConsumerKnows.tested {ring : RingBuffer} {q : List BuffDesc} {t : Taker}
    {out : BuffDesc} {w r : Option (BitVec 32)}
    (h : ConsumerKnows ring q (.test t out w r)) :
    ConsumerKnows ring q (.tested t out w r) := by
  rcases w with _ | w
  · exact h
  rcases r with _ | r
  · exact h
  obtain ⟨hr, hw⟩ := h
  obtain rfl := hr r rfl
  have hle := hw w rfl
  simp only [ConsumerPc.tested]
  split_ifs with hempty
  · trivial
  · rw [emptyTest_iff] at hempty
    refine ⟨by simp, ?_⟩
    cases q with
    | nil =>
      rw [List.length_nil] at hle
      omega
    | cons d rest => exact ⟨d, rest, rfl, trivial⟩

theorem represents_initial {ring : RingBuffer} (h : ring.writeIdx = ring.readIdx) :
    Represents (.initial ring) Channel.empty :=
  ⟨rfl, rfl, [], .of_eq h, rfl, trivial, trivial⟩

/-- A step that leaves the ring and the histories alone leaves the channel alone. -/
private theorem stutter {s' : Spsc} {c : Channel (BitVec 64 × BitVec 32)}
    (h : Represents s' c) :
    ∃ ops c', Channel.machine.exec c ops = some c' ∧ Represents s' c' :=
  ⟨[], c, rfl, h⟩

/-- Behind the full test, the producer writes the free slot field by field and then
sends its pair. -/
theorem represents_producerStep {s s' : Spsc} {c : Channel (BitVec 64 × BitVec 32)}
    (h : Represents s c) (hs : s.producerStep = some s') :
    ∃ ops c', Channel.machine.exec c ops = some c' ∧ Represents s' c' := by
  obtain ⟨hsent, hreceived, q, hq, htransit, hprod, hcons⟩ := h
  cases hpc : s.producer with
  | idle => simp [Spsc.producerStep, hpc] at hs
  | test d w r => simp [Spsc.producerStep, hpc] at hs
  | field d f w =>
    rw [hpc] at hprod
    obtain ⟨hroom, hw, hagree⟩ := hprod
    cases w with
    | none =>
      simp only [Spsc.producerStep, hpc, Option.some.injEq] at hs
      subst hs
      exact stutter ⟨hsent, hreceived, q, hq, htransit, ⟨hroom, by simp, hagree⟩, hcons⟩
    | some w =>
      obtain rfl := hw w rfl
      simp only [Spsc.producerStep, hpc, Option.some.injEq] at hs
      subst hs
      -- The store hits a free slot, so the stored descriptors stay as they are.
      refine stutter ⟨hsent, hreceived, q, hq.storeField d f, htransit, ?_,
        hcons.mono List.prefix_rfl rfl⟩
      cases f with
      | encodedAddr => exact ⟨hroom, by simp, by simp [AgreeBefore, BuffDesc.copyField]⟩
      | len =>
        refine ⟨hroom, by simp, ?_⟩
        simpa [AgreeBefore, BuffDesc.copyField] using hagree
      | cookie =>
        refine ⟨hroom, by simp, ?_⟩
        simp only [storeField_writeIdx, entry_storeField]
        exact hagree.copyField rfl
  | advance d w =>
    rw [hpc] at hprod
    obtain ⟨hroom, hw, hslot⟩ := hprod
    cases w with
    | none =>
      simp only [Spsc.producerStep, hpc, Option.some.injEq] at hs
      subst hs
      exact stutter ⟨hsent, hreceived, q, hq, htransit, ⟨hroom, by simp, hslot⟩, hcons⟩
    | some w =>
      obtain rfl := hw w rfl
      simp only [Spsc.producerStep, hpc, Option.some.injEq] at hs
      subst hs
      -- The new index publishes the descriptor: this is the send.
      have hq' := hq.advance_writeIdx hroom
      rw [hslot] at hq'
      refine ⟨[.send d.pair], c.send d.pair, c.exec_send d.pair, ?_, hreceived, q ++ [d], hq', ?_,
        trivial, hcons.mono (List.prefix_append _ _) rfl⟩
      · simp [hsent]
      · simp [Channel.send, htransit]

/-- Behind the empty test, the consumer reads the oldest slot field by field and then
receives its pair. -/
theorem represents_consumerStep {s s' : Spsc} {c : Channel (BitVec 64 × BitVec 32)}
    (h : Represents s c) (hs : s.consumerStep = some s') :
    ∃ ops c', Channel.machine.exec c ops = some c' ∧ Represents s' c' := by
  obtain ⟨hsent, hreceived, q, hq, htransit, hprod, hcons⟩ := h
  cases hpc : s.consumer with
  | idle => simp [Spsc.consumerStep, hpc] at hs
  | test t out w r => simp [Spsc.consumerStep, hpc] at hs
  | field t out f r =>
    rw [hpc] at hcons
    obtain ⟨hr, d, rest, hd, hagree⟩ := hcons
    cases r with
    | none =>
      simp only [Spsc.consumerStep, hpc, Option.some.injEq] at hs
      subst hs
      exact stutter ⟨hsent, hreceived, q, hq, htransit, hprod, by simp, d, rest, hd, hagree⟩
    | some r =>
      obtain rfl := hr r rfl
      simp only [Spsc.consumerStep, hpc, Option.some.injEq] at hs
      subst hs
      -- The slot still holds the oldest descriptor: the producer writes only behind the last.
      have hentry : s.ring.entry s.ring.readIdx = d := by
        rw [hd] at hq
        exact hq.entry_readIdx
      refine stutter ⟨hsent, hreceived, q, hq, htransit, hprod, ?_⟩
      cases f with
      | encodedAddr =>
        exact ⟨by simp, d, rest, hd, by simp [AgreeBefore, BuffDesc.copyField, hentry]⟩
      | len =>
        refine ⟨by simp, d, rest, hd, ?_⟩
        simpa [AgreeBefore, BuffDesc.copyField, hentry] using hagree
      | cookie =>
        refine ⟨by simp, d, rest, hd, ?_⟩
        simpa [AgreeBefore, BuffDesc.copyField, BuffDesc.pair] using hagree
  | advance out r =>
    rw [hpc] at hcons
    obtain ⟨hr, d, rest, hd, hpair⟩ := hcons
    cases r with
    | none =>
      simp only [Spsc.consumerStep, hpc, Option.some.injEq] at hs
      subst hs
      exact stutter ⟨hsent, hreceived, q, hq, htransit, hprod, by simp, d, rest, hd, hpair⟩
    | some r =>
      obtain rfl := hr r rfl
      simp only [Spsc.consumerStep, hpc, Option.some.injEq] at hs
      subst hs
      -- The new index frees the slot: this is the receive.
      obtain ⟨rest', hrest', hstores⟩ := hq.advance_readIdx (by simp [hd])
      obtain ⟨-, rfl⟩ := List.cons.inj (hd.symm.trans hrest')
      have hreceive : c.receive = some (out.pair, ⟨c.received ++ [out.pair],
          rest.map BuffDesc.pair⟩) := by
        simp [c.receive_eq_some, htransit, hd, hpair]
      refine ⟨[.receive], _, c.exec_receive hreceive, ?_, ?_, rest, hstores, rfl,
        hprod.mono (by simp [hd]) rfl rfl, trivial⟩
      · exact (c.sent_of_receive hreceive).trans hsent
      · simp [hreceived]

/-- The shared ring refines an ordered lossless channel. -/
theorem spsc_simulates : spsc.Simulates Channel.machine Represents where
  start := by
    rintro s ⟨ring, heq, rfl⟩
    exact ⟨Channel.empty, rfl, represents_initial heq⟩
  step := by
    intro s c a s' h hs
    change s.step a = some s' at hs
    cases a with
    | producer => exact represents_producerStep h hs
    | consumer => exact represents_consumerStep h hs
    | callEnqueue d =>
      obtain ⟨hsent, hreceived, q, hq, htransit, -, hcons⟩ := h
      simp only [Spsc.step] at hs
      split_ifs at hs
      cases hs
      exact stutter ⟨hsent, hreceived, q, hq, htransit, by simp [ProducerKnows], hcons⟩
    | callTake t out =>
      obtain ⟨hsent, hreceived, q, hq, htransit, hprod, -⟩ := h
      simp only [Spsc.step] at hs
      split_ifs at hs
      cases hs
      exact stutter ⟨hsent, hreceived, q, hq, htransit, hprod, by simp [ConsumerKnows]⟩
    | producerLoadsWrite =>
      obtain ⟨hsent, hreceived, q, hq, htransit, hprod, hcons⟩ := h
      simp only [Spsc.step] at hs
      split at hs <;> cases hs
      rename_i d r hpc
      rw [hpc] at hprod
      refine stutter ⟨hsent, hreceived, q, hq, htransit, ProducerKnows.tested ⟨?_, hprod.2⟩, hcons⟩
      simp
    | producerLoadsRead =>
      obtain ⟨hsent, hreceived, q, hq, htransit, hprod, hcons⟩ := h
      simp only [Spsc.step] at hs
      split at hs <;> cases hs
      rename_i d w hpc
      rw [hpc] at hprod
      refine stutter ⟨hsent, hreceived, q, hq, htransit, ProducerKnows.tested ⟨hprod.1, ?_⟩, hcons⟩
      -- At the moment of the load the two indices tell the exact number.
      rintro r' ⟨⟩
      rw [hq.toNat_sub]
      exact ⟨le_rfl, hq.length_lt⟩
    | consumerLoadsWrite =>
      obtain ⟨hsent, hreceived, q, hq, htransit, hprod, hcons⟩ := h
      simp only [Spsc.step] at hs
      split at hs <;> cases hs
      rename_i t out r hpc
      rw [hpc] at hcons
      refine stutter ⟨hsent, hreceived, q, hq, htransit, hprod, ConsumerKnows.tested ⟨hcons.1, ?_⟩⟩
      rintro w' ⟨⟩
      exact hq.toNat_sub.le
    | consumerLoadsRead =>
      obtain ⟨hsent, hreceived, q, hq, htransit, hprod, hcons⟩ := h
      simp only [Spsc.step] at hs
      split at hs <;> cases hs
      rename_i t out w hpc
      rw [hpc] at hcons
      refine stutter ⟨hsent, hreceived, q, hq, htransit, hprod, ConsumerKnows.tested ⟨?_, hcons.2⟩⟩
      simp

/-! ## A side that is not interrupted -/

/-- The accesses of one call, after the call itself. -/
def producerAlone (ring : RingBuffer) : List Access :=
  [.producerLoadsWrite, .producerLoadsRead] ++
    if ringFull ring then [] else List.replicate 8 .producer

/-- The accesses of one call, after the call itself. -/
def consumerAlone (ring : RingBuffer) : List Access :=
  [.consumerLoadsWrite, .consumerLoadsRead] ++
    if ringEmpty ring then [] else List.replicate 8 .consumer

section Alone

variable {s : Spsc}

/-- One field of `enqueue`: the load of `write_idx` and the store to the slot. -/
theorem exec_storeField {d : BuffDesc} {f : Field} (hpc : s.producer = .field d f none) :
    spsc.exec s [.producer, .producer] = some { s with
      ring := s.ring.storeField s.ring.writeIdx d f
      producer := .stored d f } := by
  simp [Machine.exec, spsc, Spsc.step, Spsc.producerStep, hpc]

theorem exec_advanceWrite {d : BuffDesc} (hpc : s.producer = .advance d none) :
    spsc.exec s [.producer, .producer] = some { s with
      ring := { s.ring with writeIdx := s.ring.writeIdx + 1#32 }
      producer := .idle
      enqueued := s.enqueued ++ [d.pair] } := by
  simp [Machine.exec, spsc, Spsc.step, Spsc.producerStep, hpc]

/-- One field of a dequeue: the load of `read_idx` and the load from the slot. -/
theorem exec_loadField {t : Taker} {out : BuffDesc} {f : Field}
    (hpc : s.consumer = .field t out f none) :
    spsc.exec s [.consumer, .consumer] = some { s with
      consumer := .loaded t (out.copyField (t.outputs s.ring s.ring.readIdx) f) f } := by
  simp [Machine.exec, spsc, Spsc.step, Spsc.consumerStep, hpc]

theorem exec_advanceRead {out : BuffDesc} (hpc : s.consumer = .advance out none) :
    spsc.exec s [.consumer, .consumer] = some { s with
      ring := { s.ring with readIdx := s.ring.readIdx + 1#32 }
      consumer := .idle
      delivered := s.delivered ++ [out.pair] } := by
  simp [Machine.exec, spsc, Spsc.step, Spsc.consumerStep, hpc]

end Alone

/-- An enqueue that no dequeue interrupts does to the ring what `enqueue` does. -/
theorem exec_enqueue_alone (s : Spsc) (d : BuffDesc) (hidle : s.producer = .idle) :
    spsc.exec s (.callEnqueue d :: producerAlone s.ring) =
      some { s with
        ring := (enqueue s.ring d).2
        enqueued := if (enqueue s.ring d).1 = 0 then s.enqueued ++ [d.pair] else s.enqueued } := by
  by_cases hfull : ringFull s.ring = true
  · have htest : fullTest s.ring.writeIdx s.ring.readIdx = true := hfull
    simp [Machine.exec, spsc, Spsc.step, producerAlone, enqueue, ProducerPc.tested, hfull, htest,
      ← hidle]
  · have htest : ¬ fullTest s.ring.writeIdx s.ring.readIdx = true := hfull
    let test : List Access := [.callEnqueue d, .producerLoadsWrite, .producerLoadsRead]
    let pair : List Access := [.producer, .producer]
    have haccesses : .callEnqueue d :: producerAlone s.ring =
        test ++ (pair ++ (pair ++ (pair ++ pair))) := by
      simp [test, pair, producerAlone, hfull]
    have hpassed : spsc.exec s test = some { s with producer := .field d .encodedAddr none } := by
      simp [test, Machine.exec, spsc, Spsc.step, ProducerPc.tested, htest, hidle]
    -- The three fields are stored one after the other, then the index.
    rw [haccesses]
    refine Machine.exec_append.mpr ⟨_, hpassed, ?_⟩
    refine Machine.exec_append.mpr ⟨_, exec_storeField rfl, ?_⟩
    refine Machine.exec_append.mpr ⟨_, exec_storeField rfl, ?_⟩
    refine Machine.exec_append.mpr ⟨_, exec_storeField rfl, ?_⟩
    rw [exec_advanceWrite rfl]
    simp [enqueue, hfull, hidle]

/-- A dequeue of either kind that no enqueue interrupts does to the ring what the function
does, and delivers the pair it stores through its arguments. -/
theorem exec_take_alone (s : Spsc) (t : Taker) (out : BuffDesc) (hidle : s.consumer = .idle) :
    spsc.exec s (.callTake t out :: consumerAlone s.ring) =
      some { s with
        ring := (t.take s.ring out).2.2
        delivered := if (t.take s.ring out).1 = 0
          then s.delivered ++ [(t.take s.ring out).2.1.pair] else s.delivered } := by
  by_cases hempty : ringEmpty s.ring = true
  · have htest : emptyTest s.ring.writeIdx s.ring.readIdx = true := hempty
    simp [Machine.exec, spsc, Spsc.step, consumerAlone, Taker.take, ConsumerPc.tested, hempty,
      htest, ← hidle]
  · have htest : ¬ emptyTest s.ring.writeIdx s.ring.readIdx = true := hempty
    let test : List Access := [.callTake t out, .consumerLoadsWrite, .consumerLoadsRead]
    let pair : List Access := [.consumer, .consumer]
    have haccesses : .callTake t out :: consumerAlone s.ring =
        test ++ (pair ++ (pair ++ (pair ++ pair))) := by
      simp [test, pair, consumerAlone, hempty]
    have hpassed : spsc.exec s test =
        some { s with consumer := .field t out .encodedAddr none } := by
      simp [test, Machine.exec, spsc, Spsc.step, ConsumerPc.tested, htest, hidle]
    -- The three fields are loaded one after the other, then the index is stored.
    rw [haccesses]
    refine Machine.exec_append.mpr ⟨_, hpassed, ?_⟩
    refine Machine.exec_append.mpr ⟨_, exec_loadField rfl, ?_⟩
    refine Machine.exec_append.mpr ⟨_, exec_loadField rfl, ?_⟩
    refine Machine.exec_append.mpr ⟨_, exec_loadField rfl, ?_⟩
    rw [exec_advanceRead rfl]
    simp [Taker.take, BuffDesc.copyField, BuffDesc.pair, hempty, hidle]

/-! ## Deliveries -/

/-- In every interleaving of enqueues with dequeues of either kind, what was delivered is
at every moment a prefix of what was enqueued, and the rest is what the ring stores. -/
theorem delivered_isPrefix_enqueued {s₀ s : Spsc} {accesses : List Access}
    (hstart : spsc.start s₀) (hrun : spsc.exec s₀ accesses = some s) :
    s.delivered <+: s.enqueued ∧
      ∃ q, s.ring.Stores q ∧ s.enqueued = s.delivered ++ q.map BuffDesc.pair := by
  obtain ⟨c, -, hrep⟩ := spsc_simulates.start s₀ hstart
  obtain ⟨ops, c', -, hsent, hreceived, q, hq, htransit, -⟩ := spsc_simulates.exec hrep hrun
  have hsplit : s.enqueued = s.delivered ++ q.map BuffDesc.pair := by
    rw [← hsent, ← hreceived, ← htransit, Channel.sent]
  exact ⟨hsplit ▸ List.prefix_append _ _, q, hq, hsplit⟩

/-- An empty ring whose indices are about to wrap. -/
def wrappingRing : RingBuffer := ⟨0xffffffff#32, 0xffffffff#32, fun _ => ⟨0, 0, .client 0⟩⟩

/-- Two enqueues across the wrap of `write_idx`; a `driver_dequeue` loads its indices and
its first field while the second enqueue is half done. -/
def wrappingSchedule : List Access :=
  .callEnqueue ⟨0x1000, 64, .client 7⟩ :: producerAlone wrappingRing ++
    [.callEnqueue ⟨0x2000, 8, .client 9⟩, .producerLoadsRead,
      .callTake .driverDequeue ⟨0, 0, .client 0⟩, .producerLoadsWrite, .consumerLoadsWrite,
      .producer, .producer, .consumerLoadsRead, .consumer, .consumer, .producer] ++
    List.replicate 6 .consumer ++ List.replicate 5 .producer

theorem delivered_isPrefix_enqueued_wrapping :
    ∃ s, spsc.exec (.initial wrappingRing) wrappingSchedule = some s ∧
      (s.ring.writeIdx, s.enqueued, s.delivered) =
        (1#32, [(0x1000, 64), (0x2000, 8)], [(0x1000, 64)]) ∧
      s.delivered <+: s.enqueued := by
  obtain ⟨s, hrun, hobs⟩ := Option.map_eq_some_iff.mp
    (show (spsc.exec (.initial wrappingRing) wrappingSchedule).map
        (fun s => (s.ring.writeIdx, s.enqueued, s.delivered)) =
          some (1#32, [(0x1000, 64), (0x2000, 8)], [(0x1000, 64)]) by decide)
  exact ⟨s, hrun, hobs, (delivered_isPrefix_enqueued ⟨wrappingRing, rfl, rfl⟩ hrun).1⟩

end Sel4Xhci.Ring
