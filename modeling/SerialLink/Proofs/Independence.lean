/-
# What stands behind a receiver and cannot hold it up

Behind a `Receiver` stand a `ByteQueue`, somebody who reads it, a `ByteSink` and a
`FramingPolicy`.  This module puts two receivers on wires that go through the same things, with
different queues, readers, sinks and policies behind them, and asks what can be told apart from
the wires' side.

Nothing can.  The two stay *in step* (`InStep`): phase, pin and wire are the same at every
moment, they complete the same frames, and their counts of bad frames grow alike.  The reason is
that every path through a handler moves the phase and the wire in the same way, whether the byte
was thrown away, refused or handed on; a path that left out `awaitEdge` would show here, in the
frames after a full queue or a low stop bit.

What differs is who gets the bytes, and the journal of a receiver tells it (`Yields`).  If no
queue refuses a byte, a receiver that throws bad frames away hands on what one that keeps them
does, without the bytes of the bad frames.

Readers are told apart from the rest by `Event.isReading`.  Two lives go through the same things
if they are the same without what the readers do and the policies that are chosen on the way
(`Event.outside`); `Woven` is the derivation that puts such lives side by side.
-/
import SerialLink.Proofs.Accounting

namespace SerialLink

/-! ## 1. Two operations that end alike -/

/-- The state in which the operation ended, or was stopped, has `P`. -/
def Leaves {ε σ α : Type} (P : σ → Prop) : EStateM.Result ε σ α → Prop
  | .ok _ s => P s
  | .error _ s => P s

theorem leaves_imp {ε σ α : Type} {A : Prop} {P : σ → Prop} {r : EStateM.Result ε σ α}
    (h : A → Leaves P r) : Leaves (fun s => A → P s) r := by
  cases r <;> exact h

/-- Both operations came to their end, or the same error stopped both, and `R` holds of the
states they left. -/
def Agree {ε σ τ α β : Type} (R : σ → τ → Prop) :
    EStateM.Result ε σ α → EStateM.Result ε τ β → Prop
  | .ok _ s, .ok _ t => R s t
  | .error e s, .error e' t => e = e' ∧ R s t
  | _, _ => False

namespace Agree

variable {ε σ τ α β : Type} {R R' : σ → τ → Prop} {P : σ → Prop} {Q : τ → Prop}

/-- One operation and then another, on both sides. -/
theorem bind {x : EStateM ε σ α} {y : EStateM ε τ α} {f : α → EStateM ε σ β}
    {g : α → EStateM ε τ β} {s : σ} {t : τ} (hfirst : Agree R (x s) (y t))
    (hrest : ∀ a b s' t', R s' t' → Agree R (f a s') (g b t')) :
    Agree R ((x >>= f) s) ((y >>= g) t) := by
  simp only [Bind.bind, EStateM.bind]
  cases hx : x s <;> cases hy : y t <;> rw [hx, hy] at hfirst
  · exact hrest _ _ _ _ hfirst
  · cases hfirst
  · cases hfirst
  · exact hfirst

/-- What holds of either state by itself can be used to get from one relation to another. -/
theorem mono {r : EStateM.Result ε σ α} {r' : EStateM.Result ε τ β} (h : Agree R r r')
    (hleft : Leaves P r) (hright : Leaves Q r')
    (himp : ∀ s t, R s t → P s → Q t → R' s t) : Agree R' r r' := by
  cases r <;> cases r'
  · exact himp _ _ h hleft hright
  · cases h
  · cases h
  · exact ⟨h.1, himp _ _ h.2 hleft hright⟩

end Agree

/-! ## 2. Stations in step -/

namespace Wire

/-- The wire with the rate of its clock forgotten, at which no interrupt looks. -/
def unclocked (w : Wire) : Wire := { w with clock := 0 }

theorem unclocked_drive (w : Wire) (level : Bool) :
    (w.drive level).unclocked = w.unclocked.drive level := by
  unfold drive
  by_cases hsame : w.level = level
  · rw [if_pos hsame, if_pos (show w.unclocked.level = level from hsame)]
  · rw [if_neg hsame, if_neg (show ¬ w.unclocked.level = level from hsame)]
    rfl

end Wire

namespace Station

variable {n m : Nat} {s s₀ : Station n} {t t₀ : Station m}

/-- Two receivers of one timing that stand at the same place in a frame, on wires in the same
state.  Queues, sinks, policies and journals may be any. -/
structure Alike (s : Station n) (t : Station m) : Prop where
  wire : s.wire.unclocked = t.wire.unclocked
  phase : s.receiver.phase = t.receiver.phase
  period : s.receiver.period = t.receiver.period
  readable : s.readable = t.readable

/-- Whatever does not look at the rate of the clock sees the same on both wires. -/
theorem Alike.seen {γ : Type} (h : Alike s t) (f : Wire → γ)
    (hf : ∀ w : Wire, f w.unclocked = f w) : f s.wire = f t.wire := by
  rw [← hf s.wire, h.wire, hf]

/-- Both timers stand alike, so a match is due to both or to neither. -/
theorem Alike.timer (h : Alike s t) : s.wire.target = t.wire.target ∧
    s.wire.timerArmed = t.wire.timerArmed ∧ s.wire.due = t.wire.due :=
  ⟨h.seen Wire.target fun _ => rfl, h.seen Wire.timerArmed fun _ => rfl,
    h.seen Wire.due fun _ => rfl⟩

/-- Both have counted as many interrupts, so both counts are full or neither. -/
theorem Alike.counts (h : Alike s t) :
    s.wire.edgeCount = t.wire.edgeCount ∧ s.wire.matchCount = t.wire.matchCount :=
  ⟨h.seen Wire.edgeCount fun _ => rfl, h.seen Wire.matchCount fun _ => rfl⟩

/-- **Since they were `s₀` and `t₀`, the two have stayed in step.** -/
structure InStep (s₀ : Station n) (t₀ : Station m) (s : Station n) (t : Station m) : Prop
    extends Alike s t where
  /-- They have completed the same frames. -/
  frames : ∃ frames, s.completed = s₀.completed ++ frames ∧ t.completed = t₀.completed ++ frames
  /-- Their counts of bad frames have grown by as much, modulo `2 ^ 16`. -/
  badFrames : s.queue.badFrames - s₀.queue.badFrames = t.queue.badFrames - t₀.queue.badFrames

theorem Alike.inStep (h : Alike s t) : InStep s t s t where
  toAlike := h
  frames := ⟨[], (List.append_nil _).symm, (List.append_nil _).symm⟩
  badFrames := (UInt16.sub_self _).trans (UInt16.sub_self _).symm

namespace InStep

theorem symm (h : InStep s₀ t₀ s t) : InStep t₀ s₀ t s where
  wire := h.wire.symm
  phase := h.phase.symm
  period := h.period.symm
  readable := h.readable.symm
  frames := h.frames.imp fun _ hboth => hboth.symm
  badFrames := h.badFrames.symm

/-! ### The parts of a handler -/

/-- The same happens to both wires. -/
theorem onWire (h : InStep s₀ t₀ s t) (f : Wire → Wire)
    (hf : ∀ w : Wire, (f w).unclocked = f w.unclocked) :
    InStep s₀ t₀ { s with wire := f s.wire } { t with wire := f t.wire } where
  wire := by rw [hf, hf, h.wire]
  phase := h.phase
  period := h.period
  readable := h.readable
  frames := h.frames
  badFrames := h.badFrames

theorem going (h : InStep s₀ t₀ s t) (next : Phase) :
    InStep s₀ t₀ { s with receiver := { s.receiver with phase := next } }
      { t with receiver := { t.receiver with phase := next } } where
  wire := h.wire
  phase := rfl
  period := h.period
  readable := h.readable
  frames := h.frames
  badFrames := h.badFrames

theorem report (h : InStep s₀ t₀ s t) {entry : Report} (hentry : entry.frame? = none) :
    InStep s₀ t₀ (s.report entry) (t.report entry) where
  wire := h.wire
  phase := h.phase
  period := h.period
  readable := h.readable
  frames := by
    rw [completed_report hentry, completed_report hentry]
    exact h.frames
  badFrames := h.badFrames

theorem awaitEdge (h : InStep s₀ t₀ s t) : InStep s₀ t₀ s.awaitEdge t.awaitEdge :=
  (h.going .idle).onWire (fun w => w.disarmTimer.armEdge) fun _ => rfl

theorem beginFrame (h : InStep s₀ t₀ s t) : InStep s₀ t₀ s.beginFrame t.beginFrame := by
  have hwire := (h.going .confirming).onWire
    (fun w => (w.disarmEdge.setInterval s.receiver.period.firstInterval).restartTimer.armTimer)
    fun _ => rfl
  unfold Station.beginFrame
  rw [← h.period]
  exact hwire

theorem awaitNextBit (h : InStep s₀ t₀ s t) : InStep s₀ t₀ s.awaitNextBit t.awaitNextBit := by
  unfold Station.awaitNextBit
  rw [← h.period]
  exact h.onWire (fun w => w.setInterval s.receiver.period.ticks) fun _ => rfl

/-- **Whatever becomes of its byte, a frame is completed by both,** and a low stop bit is counted
by both. -/
theorem closeFrame (h : InStep s₀ t₀ s t) (byte : UInt8) (stopBit : Bool) :
    InStep s₀ t₀ (s.closeFrame byte stopBit) (t.closeFrame byte stopBit) where
  wire := by rw [wire_closeFrame, wire_closeFrame, h.wire]
  phase := by rw [receiver_closeFrame, receiver_closeFrame, h.phase]
  period := by rw [receiver_closeFrame, receiver_closeFrame, h.period]
  readable := by rw [readable_closeFrame, readable_closeFrame, h.readable]
  frames := by
    obtain ⟨frames, hs, ht⟩ := h.frames
    refine ⟨frames ++ [(byte, stopBit)], ?_, ?_⟩
    · rw [completed_closeFrame, hs, List.append_assoc]
    · rw [completed_closeFrame, ht, List.append_assoc]
  badFrames := by
    have hgrown := h.badFrames
    -- both counts go on by the same step, so their growth does too, modulo `2 ^ 16`
    rw [(closes_closeFrame s byte stopBit).badFrames, (closes_closeFrame t byte stopBit).badFrames]
    simp only [completion]
    grind

/-! ### The handlers -/

theorem handleEdge (h : InStep s₀ t₀ s t) : InStep s₀ t₀ s.handleEdge t.handleEdge := by
  have hlevel : s.wire.level = t.wire.level := h.seen Wire.level fun _ => rfl
  unfold Station.handleEdge
  rw [← h.phase, ← h.readable, ← hlevel]
  split
  · exact h
  · split
    · exact h.report rfl
    · split
      · exact h
      · exact h.beginFrame

theorem takeSample (h : InStep s₀ t₀ s t) :
    (∃ fault, s.takeSample = .error fault ∧ t.takeSample = .error fault) ∨
    ∃ s' t', s.takeSample = .ok s' ∧ t.takeSample = .ok t' ∧ InStep s₀ t₀ s' t' := by
  have hlevel : s.wire.level = t.wire.level := h.seen Wire.level fun _ => rfl
  unfold Station.takeSample
  rw [← h.phase, ← hlevel]
  cases s.receiver.phase.sample s.wire.level with
  | error fault => exact .inl ⟨fault, rfl, rfl⟩
  | ok r =>
    cases r with
    | going next => exact .inr ⟨_, _, rfl, rfl, h.going next⟩
    | frame byte stopBit => exact .inr ⟨_, _, rfl, rfl, (h.closeFrame byte stopBit).awaitEdge⟩
    | spurious => exact .inr ⟨_, _, rfl, rfl, (h.report rfl).awaitEdge⟩

/-- **A match is the same fault for both,** or leaves them in step. -/
theorem handleMatch (h : InStep s₀ t₀ s t) :
    (∃ fault, s.handleMatch = .error fault ∧ t.handleMatch = .error fault) ∨
    ∃ s' t', s.handleMatch = .ok s' ∧ t.handleMatch = .ok t' ∧ InStep s₀ t₀ s' t' := by
  unfold Station.handleMatch
  rw [← h.readable]
  split
  · exact h.awaitNextBit.takeSample
  · exact .inr ⟨_, _, rfl, rfl, (h.awaitNextBit.report rfl).awaitEdge⟩

theorem serveEdge (h : InStep s₀ t₀ s t) :
    InStep s₀ t₀ (s.serveEdge .receiver) (t.serveEdge .receiver) := by
  have hdue : s.wire.edgeDue = t.wire.edgeDue := h.seen Wire.edgeDue fun _ => rfl
  have htaken := h.onWire Wire.takeEdge fun _ => rfl
  unfold Station.serveEdge
  rw [← hdue]
  cases s.wire.edgeDue with
  | true => exact htaken.handleEdge
  | false => exact htaken

theorem serveMatch (h : InStep s₀ t₀ s t) :
    (∃ fault, s.serveMatch .receiver = .error fault ∧ t.serveMatch .receiver = .error fault) ∨
    ∃ s' t', s.serveMatch .receiver = .ok s' ∧ t.serveMatch .receiver = .ok t' ∧
      InStep s₀ t₀ s' t' :=
  (h.onWire Wire.takeMatch fun _ => rfl).handleMatch

/-! ### A run -/

variable {stop : Nat}

/-- **The matches of a run keep two stations in step:** the same match falls due for both at the
same time. -/
theorem serveMatches (h : InStep s₀ t₀ s t) :
    Agree (InStep s₀ t₀) (s.serveMatches .receiver stop) (t.serveMatches .receiver stop) := by
  -- the induction is on the left loop; the right one is unrolled beside it
  fun_induction Station.serveMatches .receiver stop s generalizing t with
  | case1 s late =>
    rw [h.timer.1] at late
    rw [serveMatches_of_late late]
    exact ⟨rfl, h⟩
  | case2 s fits due full =>
    obtain ⟨htarget, harmed, hdue⟩ := h.timer
    rw [htarget] at fits
    rw [harmed, hdue] at due
    rw [h.counts.2] at full
    rw [serveMatches_of_full (Nat.lt_of_not_le fits) due.1 due.2 full]
    exact ⟨rfl, h.onWire Wire.reachMatch fun _ => rfl⟩
  | case3 s fits due room fault served =>
    obtain ⟨htarget, harmed, hdue⟩ := h.timer
    rw [htarget] at fits
    rw [harmed, hdue] at due
    rw [h.counts.2] at room
    -- a fault of the phase is a fault for both, as the phases are the same
    rcases h.serveMatch with ⟨fault', hs, ht⟩ | ⟨s', t', hs, ht, hnext⟩
    · rw [served] at hs
      cases hs
      rw [serveMatches_of_fault (Nat.lt_of_not_le fits) due.1 due.2 (Nat.lt_of_not_le room) ht]
      exact ⟨rfl, h⟩
    · rw [served] at hs
      cases hs
  | case4 s fits due room next served ih =>
    obtain ⟨htarget, harmed, hdue⟩ := h.timer
    rw [htarget] at fits
    rw [harmed, hdue] at due
    rw [h.counts.2] at room
    -- the match was served on the left, so it is served on the right, and leaves them in step
    rcases h.serveMatch with ⟨fault, hs, ht⟩ | ⟨s', t', hs, ht, hnext⟩
    · rw [served] at hs
      cases hs
    · rw [served] at hs
      cases hs
      rw [serveMatches_of_due (Nat.lt_of_not_le fits) due.1 due.2 (Nat.lt_of_not_le room) ht]
      exact ih hnext
  | case5 s fits rest =>
    obtain ⟨htarget, harmed, hdue⟩ := h.timer
    rw [htarget] at fits
    rw [harmed, hdue] at rest
    rw [serveMatches_of_rest (Nat.lt_of_not_le fits) rest]
    exact h.onWire (fun w => w.settle stop) fun _ => rfl

theorem run (h : InStep s₀ t₀ s t) (cycles : Nat) :
    Agree (InStep s₀ t₀) (Station.run .receiver cycles s) (Station.run .receiver cycles t) := by
  have hnow : s.wire.now = t.wire.now := h.seen Wire.now fun _ => rfl
  have hdue : s.wire.edgeDue = t.wire.edgeDue := h.seen Wire.edgeDue fun _ => rfl
  rw [run_eq, run_eq, ← hnow, ← hdue, ← h.counts.1]
  split
  · exact ⟨rfl, h⟩
  · split
    · exact ⟨rfl, h.onWire Wire.unlatch fun _ => rfl⟩
    · exact h.serveEdge.serveMatches

end InStep

end Station

/-! ## 3. Lives side by side -/

namespace Event

variable {n : Nat}

/-- The reader does it, and nobody else takes part. -/
def isReading : Event → Bool
  | pop | popUpTo _ | takeLost => true
  | _ => false

/-- The event with the policy forgotten that it brings. -/
def forgetPolicy : Event → Event
  | rebuild clock baud longest _ => rebuild clock baud longest .discard
  | event => event

/-- What happens to wire, pin and receiver, whatever the readers and the policies. -/
def outside (events : List Event) : List Event :=
  (events.filter fun event => !event.isReading).map forgetPolicy

/-- The policy in use is this one, and no new one comes. -/
structure Judges (policy : StopPolicy) (s : Station n) (events : List Event) : Prop where
  current : s.receiver.policy = policy
  kept : ∀ clock baud longest other, rebuild clock baud longest other ∈ events → other = policy

/-- Two lives side by side: readers act at any time, everything else happens to both at once. -/
inductive Woven : List Event → List Event → Prop
  | nil : Woven [] []
  | left {event : Event} {left right : List Event} (reading : event.isReading = true)
      (rest : Woven left right) : Woven (event :: left) right
  | right {event : Event} {left right : List Event} (reading : event.isReading = true)
      (rest : Woven left right) : Woven left (event :: right)
  | both {event event' : Event} {left right : List Event}
      (same : event.forgetPolicy = event'.forgetPolicy) (acting : event.isReading = false)
      (rest : Woven left right) : Woven (event :: left) (event' :: right)

theorem outside_cons_of_reading {event : Event} (h : event.isReading = true)
    (rest : List Event) : outside (event :: rest) = outside rest := by
  simp [outside, h]

theorem outside_cons_of_not_reading {event : Event} (h : event.isReading = false)
    (rest : List Event) : outside (event :: rest) = event.forgetPolicy :: outside rest := by
  simp [outside, h]

/-- Lives that are the same but for readers and policies can be put side by side. -/
theorem woven_of_outside (left : List Event) : ∀ {right : List Event},
    outside left = outside right → Woven left right := by
  induction left with
  | nil =>
    intro right hsame
    induction right with
    | nil => exact .nil
    | cons event' right ih =>
      cases hread : event'.isReading with
      | true =>
        rw [outside_cons_of_reading hread] at hsame
        exact .right hread (ih hsame)
      | false =>
        rw [outside_cons_of_not_reading hread] at hsame
        cases hsame
  | cons event left ihleft =>
    intro right hsame
    cases hread : event.isReading with
    | true =>
      rw [outside_cons_of_reading hread] at hsame
      exact .left hread (ihleft hsame)
    | false =>
      -- the right life has the same event in it, but some reading may come before
      induction right with
      | nil =>
        rw [outside_cons_of_not_reading hread] at hsame
        cases hsame
      | cons event' right ih =>
        cases hread' : event'.isReading with
        | true =>
          rw [outside_cons_of_reading hread'] at hsame
          exact .right hread' (ih hsame)
        | false =>
          rw [outside_cons_of_not_reading hread, outside_cons_of_not_reading hread',
            List.cons.injEq] at hsame
          exact .both hsame.1 hread (ihleft hsame.2)

/-- Without their policies, two events are the same only if they are, or if both build the
receiver anew with the same timing. -/
theorem same_of_forgetPolicy {event event' : Event}
    (h : event.forgetPolicy = event'.forgetPolicy) :
    event = event' ∨ ∃ clock baud longest policy policy',
      event = .rebuild clock baud longest policy ∧
        event' = .rebuild clock baud longest policy' := by
  -- only building anew brings a policy, so every other event can be told by its own
  cases event with
  | rebuild clock baud longest policy =>
    cases event' with
    | rebuild clock' baud' longest' policy' =>
      cases h
      exact .inr ⟨_, _, _, _, _, rfl, rfl⟩
    | _ => cases h
  | _ =>
    cases event' <;> cases h
    exact .inl rfl

/-- Reading changes the queue alone, and leaves the count of bad frames. -/
theorem perform_reading {event : Event} (h : event.isReading = true) (s : Station n) :
    ∃ queue, event.perform s = .ok () { s with queue := queue } ∧
      queue.badFrames = s.queue.badFrames := by
  cases event with
  | pop => exact ⟨_, rfl, s.queue.badFrames_pop⟩
  | popUpTo k => exact ⟨_, rfl, s.queue.badFrames_popUpTo k⟩
  | takeLost => exact ⟨_, rfl, rfl⟩
  | _ => cases h

end Event

namespace Station

variable {n m : Nat} {s s₀ : Station n} {t t₀ : Station m}

namespace InStep

/-- What the reader does on one side leaves the two in step. -/
theorem reading (h : InStep s₀ t₀ s t) {queue : ReceiveQueue n}
    (hbad : queue.badFrames = s.queue.badFrames) :
    InStep s₀ t₀ { s with queue := queue } t where
  wire := h.wire
  phase := h.phase
  period := h.period
  readable := h.readable
  frames := h.frames
  badFrames := hbad ▸ h.badFrames

/-- Built anew with the same timing, two receivers stay in step, whatever the policies. -/
theorem replaceReceiver (h : InStep s₀ t₀ s t) (period : BitPeriod)
    (policy policy' : StopPolicy) :
    InStep s₀ t₀ (s.replaceReceiver period policy) (t.replaceReceiver period policy') := by
  have hnew : InStep s₀ t₀ { s with receiver := ⟨.idle, period, policy⟩ }
      { t with receiver := ⟨.idle, period, policy'⟩ } :=
    ⟨⟨h.wire, rfl, rfl, h.readable⟩, h.frames, h.badFrames⟩
  exact hnew.awaitEdge

theorem rebuild (h : InStep s₀ t₀ s t) (clock baud longest : UInt32)
    (policy policy' : StopPolicy) :
    Agree (InStep s₀ t₀) ((Event.rebuild clock baud longest policy).perform s)
      ((Event.rebuild clock baud longest policy').perform t) := by
  show InStep s₀ t₀ _ _
  split
  · exact h.replaceReceiver _ policy policy'
  · exact h

/-- **What happens to both leaves them in step,** or is the same fault for both. -/
theorem perform (h : InStep s₀ t₀ s t) {event event' : Event}
    (hsame : event.forgetPolicy = event'.forgetPolicy) (hread : event.isReading = false) :
    Agree (InStep s₀ t₀) (event.perform s) (event'.perform t) := by
  -- the same event on both sides, but for the policy that building anew brings
  rcases Event.same_of_forgetPolicy hsame with
    rfl | ⟨clock, baud, longest, policy, policy', rfl, rfl⟩
  · cases event with
    | drive level =>
      exact h.onWire (fun w => w.drive level) fun w => w.unclocked_drive level
    | run cycles => exact h.run cycles
    | edge => exact h.handleEdge
    | sample =>
      simp only [Event.perform]
      rcases h.handleMatch with ⟨fault, hs, ht⟩ | ⟨s', t', hs, ht, hnext⟩
      · rw [hs, ht]
        exact ⟨rfl, h⟩
      · rw [hs, ht]
        exact hnext
    | pin readable => exact ⟨⟨h.wire, h.phase, h.period, rfl⟩, h.frames, h.badFrames⟩
    | pop | popUpTo | takeLost => cases hread
    | rebuild clock baud longest policy => exact h.rebuild clock baud longest policy policy
  · exact h.rebuild clock baud longest policy policy'

/-- Two lives that go through the same things stay in step all along. -/
theorem live {left right : List Event} (hwoven : Event.Woven left right) :
    ∀ {s : Station n} {t : Station m}, InStep s₀ t₀ s t →
      Agree (InStep s₀ t₀) (Event.live left s) (Event.live right t) := by
  induction hwoven with
  | nil => exact fun h => h
  | left reading rest ih =>
    intro s t h
    obtain ⟨queue, hok, hbad⟩ := Event.perform_reading reading s
    rw [Event.live_cons_of_ok hok]
    exact ih (h.reading hbad)
  | right reading rest ih =>
    intro s t h
    obtain ⟨queue, hok, hbad⟩ := Event.perform_reading reading t
    rw [Event.live_cons_of_ok hok]
    exact ih (h.symm.reading hbad).symm
  | both same acting rest ih =>
    intro s t h
    exact (h.perform same acting).bind fun _ _ _ _ hnext => ih hnext

end InStep

end Station

/-! ## 4. What is handed on -/

namespace Report

/-- The byte and the stop bit of a frame whose byte was handed on. -/
def delivered? : Report → Option (UInt8 × Bool)
  | frame byte stopBit .delivered => some (byte, stopBit)
  | _ => none

/-- The frames whose bytes were handed on. -/
def delivered (entries : List Report) : List (UInt8 × Bool) := entries.filterMap delivered?

theorem delivered_append (entries more : List Report) :
    delivered (entries ++ more) = delivered entries ++ delivered more :=
  List.filterMap_append

/-- The byte of a frame was lost to a full queue. -/
def isRefused : Report → Bool
  | frame _ _ .refused => true
  | _ => false

/-- The byte was thrown away just if this policy does not want it. -/
def JudgedBy (policy : StopPolicy) : Report → Prop
  | frame _ stopBit fate => fate = .dropped ↔ policy.wants stopBit = false
  | _ => True

/-- If no byte is refused, the policy alone says which are handed on. -/
theorem delivered_eq_filter {policy : StopPolicy} (entries : List Report)
    (hjudged : ∀ entry ∈ entries, entry.JudgedBy policy)
    (hroom : ∀ entry ∈ entries, entry.isRefused = false) :
    delivered entries
      = (entries.filterMap frame?).filter fun frame => policy.wants frame.2 := by
  induction entries with
  | nil => rfl
  | cons entry rest ih =>
    obtain ⟨hfirst, hrest⟩ := List.forall_mem_cons.mp hjudged
    obtain ⟨hnone, hnones⟩ := List.forall_mem_cons.mp hroom
    have ih := ih hrest hnones
    cases entry with
    | frame byte stopBit fate =>
      cases fate with
      | dropped =>
        have hwants : policy.wants stopBit = false := hfirst.mp rfl
        show delivered rest = List.filter _ ((byte, stopBit) :: rest.filterMap frame?)
        simp [ih, hwants]
      -- a refused byte is wanted and not handed on: here the two would differ
      | refused => cases hnone
      | delivered =>
        have hfate : Fate.delivered = .dropped ↔ policy.wants stopBit = false := hfirst
        have hwants : policy.wants stopBit = true := by
          rw [← Bool.not_eq_false, ← hfate]
          exact Fate.noConfusion
        show (byte, stopBit) :: delivered rest
          = List.filter _ ((byte, stopBit) :: rest.filterMap frame?)
        simp [ih, hwants]
    | _ => exact ih

end Report

open Report (delivered)
open Deed (taken)

namespace Completion

/-- What becomes of the byte, in a queue of `n` slots. -/
def fate (n : Nat) (c : Completion) : Fate :=
  if c.isAccepted n then .delivered else if c.isRefused n then .refused else .dropped

variable {n : Nat} {c : Completion}

theorem fate_of_not_wanted (h : c.isWanted = false) : c.fate n = .dropped := by
  simp [fate, isAccepted, isRefused, h]

theorem fate_of_full (h : c.isWanted = true) (hfull : c.waiting = n - 1) :
    c.fate n = .refused := by
  simp [fate, isAccepted, isRefused, h, hfull]

theorem fate_of_room (h : c.isWanted = true) (hroom : c.waiting ≠ n - 1) :
    c.fate n = .delivered := by
  simp [fate, isAccepted, h, hroom]

/-- A byte is thrown away just if it is not wanted; a full queue does not throw away. -/
theorem fate_eq_dropped_iff (n : Nat) (c : Completion) :
    c.fate n = .dropped ↔ c.isWanted = false := by
  refine ⟨fun hfate => ?_, fate_of_not_wanted⟩
  rw [← Bool.not_eq_true]
  intro hwanted
  by_cases hfull : c.waiting = n - 1
  · rw [fate_of_full hwanted hfull] at hfate
    cases hfate
  · rw [fate_of_room hwanted hfull] at hfate
    cases hfate

theorem delivered_fate (n : Nat) (c : Completion) :
    (delivered [.frame c.byte c.stopBit (c.fate n)]).map Prod.fst
      = if c.isAccepted n then [c.byte] else [] := by
  unfold fate
  split
  · rfl
  · split <;> rfl

end Completion

namespace Station

variable {n m : Nat} {s s₀ s' : Station n} {t t₀ : Station m} {policy : StopPolicy}
  {entries : List Report} {bytes : List UInt8}

/-- **From `s₀` on, `entries` were reported and `bytes` read,** all under one policy.  What was
handed on went into the queue and to the sink, and nothing else did. -/
structure Yields (policy : StopPolicy) (s₀ : Station n) (entries : List Report)
    (bytes : List UInt8) (s : Station n) : Prop where
  current : s.receiver.policy = policy
  journal : s.journal = s₀.journal ++ entries
  judged : ∀ entry ∈ entries, entry.JudgedBy policy
  conserved : bytes ++ s.queue.toList
    = s₀.queue.toList ++ (delivered entries).map Prod.fst
  sink : s.sink = ((delivered entries).map Prod.fst).foldl (fun sink byte => sink.push byte) s₀.sink

theorem journal_closeFrame (s : Station n) (byte : UInt8) (stopBit : Bool) :
    (s.closeFrame byte stopBit).journal
      = s.journal ++ [.frame byte stopBit ((s.completion byte stopBit).fate n)] := by
  have hjournal : (s.countStop stopBit).journal = s.journal := by cases stopBit <;> rfl
  have hroom : (s.countStop stopBit).queue.hasRoom = true ↔ s.queue.length ≠ n - 1 := by
    have hbytes : (s.countStop stopBit).queue.toList = s.queue.toList := by cases stopBit <;> rfl
    rw [ReceiveQueue.hasRoom_iff, hbytes, ReceiveQueue.length_toList]
  -- the three ways through: thrown away, refused by a full queue, handed on
  cases hwants : s.wants stopBit with
  | false =>
    have hwanted : (s.completion byte stopBit).isWanted = false := hwants
    rw [Completion.fate_of_not_wanted hwanted]
    simp only [closeFrame, hwants, report, hjournal, Bool.false_eq_true, if_false]
  | true =>
    have hwanted : (s.completion byte stopBit).isWanted = true := hwants
    by_cases hfull : s.queue.length = n - 1
    · have hnone : (s.countStop stopBit).queue.hasRoom = false := by
        rw [← Bool.not_eq_true, hroom]
        exact fun h => h hfull
      rw [Completion.fate_of_full hwanted hfull]
      simp only [closeFrame, hwants, enqueue_of_full hnone, report, hjournal, if_true]
    · rw [Completion.fate_of_room hwanted hfull]
      simp only [closeFrame, hwants, enqueue_of_room (hroom.mpr hfull), report, hjournal, if_true]

namespace Yields

theorem refl (s : Station n) : Yields s.receiver.policy s [] [] s where
  current := rfl
  journal := (List.append_nil _).symm
  judged := fun _ hmem => absurd hmem List.not_mem_nil
  conserved := (List.append_nil _).symm
  sink := rfl

/-- What touches none of it leaves it as it is. -/
theorem of_eq (h : Yields policy s₀ entries bytes s)
    (hpolicy : s'.receiver.policy = s.receiver.policy) (hjournal : s'.journal = s.journal)
    (hqueue : s'.queue = s.queue) (hsink : s'.sink = s.sink) :
    Yields policy s₀ entries bytes s' where
  current := hpolicy.trans h.current
  journal := hjournal.trans h.journal
  judged := h.judged
  conserved := by rw [hqueue, h.conserved]
  sink := hsink.trans h.sink

/-- One more entry, whose byte goes where the entry says. -/
theorem enter (h : Yields policy s₀ entries bytes s) {entry : Report}
    (hpolicy : s'.receiver.policy = s.receiver.policy)
    (hjournal : s'.journal = s.journal ++ [entry]) (hjudged : entry.JudgedBy policy)
    (hqueue : s'.queue.toList = s.queue.toList ++ (delivered [entry]).map Prod.fst)
    (hsink : s'.sink
      = ((delivered [entry]).map Prod.fst).foldl (fun sink byte => sink.push byte) s.sink) :
    Yields policy s₀ (entries ++ [entry]) bytes s' where
  current := hpolicy.trans h.current
  journal := by rw [hjournal, h.journal, List.append_assoc]
  judged := List.forall_mem_append.mpr ⟨h.judged, List.forall_mem_singleton.mpr hjudged⟩
  conserved := by
    rw [hqueue, ← List.append_assoc, h.conserved, Report.delivered_append, List.map_append,
      List.append_assoc]
  sink := by rw [hsink, h.sink, Report.delivered_append, List.map_append, List.foldl_append]

theorem report (h : Yields policy s₀ entries bytes s) {entry : Report}
    (hentry : entry.frame? = none) :
    Yields policy s₀ (entries ++ [entry]) bytes (s.report entry) := by
  have hnone : delivered [entry] = [] ∧ entry.JudgedBy policy := by
    cases entry with
    | frame byte stopBit fate => cases hentry
    | _ => exact ⟨rfl, trivial⟩
  refine h.enter rfl rfl hnone.2 ?_ ?_
  · rw [hnone.1]
    exact (List.append_nil _).symm
  · rw [hnone.1]
    rfl

theorem closeFrame (h : Yields policy s₀ entries bytes s) (byte : UInt8) (stopBit : Bool) :
    Yields policy s₀
      (entries ++ [.frame byte stopBit ((s.completion byte stopBit).fate n)]) bytes
      (s.closeFrame byte stopBit) := by
  have hcloses := closes_closeFrame s byte stopBit
  have hdelivered := (s.completion byte stopBit).delivered_fate n
  have hjudged := (s.completion byte stopBit).fate_eq_dropped_iff n
  -- the books judge by the policy of the moment, and under `Yields` there is only the one
  rw [Completion.isWanted, show (s.completion byte stopBit).policy = policy from h.current]
    at hjudged
  refine h.enter (by rw [receiver_closeFrame]) (journal_closeFrame s byte stopBit) hjudged ?_ ?_
  · rw [hcloses.queue, ← hdelivered]
    rfl
  · rw [hcloses.sink]
    refine Eq.trans ?_ (congrArg (List.foldl _ s.sink) hdelivered.symm)
    split <;> rfl

theorem awaitEdge (h : Yields policy s₀ entries bytes s) :
    Yields policy s₀ entries bytes s.awaitEdge := h.of_eq rfl rfl rfl rfl

theorem handleEdge (h : Yields policy s₀ entries bytes s) :
    ∃ more, Yields policy s₀ more bytes s.handleEdge := by
  rcases s.handleEdge_cases with hedge | hedge | hedge <;> rw [hedge]
  · exact ⟨_, h⟩
  · exact ⟨_, h.report rfl⟩
  · exact ⟨_, h.of_eq rfl rfl rfl rfl⟩

theorem handleMatch (h : Yields policy s₀ entries bytes s) {next : Station n}
    (hok : s.handleMatch = .ok next) : ∃ more, Yields policy s₀ more bytes next := by
  have hbit : Yields policy s₀ entries bytes s.awaitNextBit := h.of_eq rfl rfl rfl rfl
  cases afterMatch_of_handleMatch hok with
  | unreadable hread => exact ⟨_, (hbit.report rfl).awaitEdge⟩
  | going hread hsample => exact ⟨_, hbit.of_eq rfl rfl rfl rfl⟩
  | frame hread hsample => exact ⟨_, (hbit.closeFrame _ _).awaitEdge⟩
  | spurious hread hsample => exact ⟨_, (hbit.report rfl).awaitEdge⟩

theorem serveEdge (h : Yields policy s₀ entries bytes s) :
    ∃ more, Yields policy s₀ more bytes (s.serveEdge .receiver) := by
  have htaken : Yields policy s₀ entries bytes { s with wire := s.wire.takeEdge } :=
    h.of_eq rfl rfl rfl rfl
  unfold Station.serveEdge
  split
  · exact htaken.handleEdge
  · exact ⟨_, htaken⟩

theorem serveMatches (h : Yields policy s₀ entries bytes s) (stop : Nat) :
    Leaves (fun s' => ∃ more, Yields policy s₀ more bytes s')
      (s.serveMatches .receiver stop) := by
  fun_induction Station.serveMatches .receiver stop s generalizing entries with
  | case1 s late => exact ⟨_, h⟩
  | case2 s fits due full => exact ⟨_, h.of_eq rfl rfl rfl rfl⟩
  | case3 s fits due room fault served => exact ⟨_, h⟩
  | case4 s fits due room next served ih =>
    have htaken : Yields policy s₀ entries bytes { s with wire := s.wire.takeMatch } :=
      h.of_eq rfl rfl rfl rfl
    obtain ⟨more, hnext⟩ := htaken.handleMatch served
    exact ih hnext
  | case5 s fits rest => exact ⟨_, h.of_eq rfl rfl rfl rfl⟩

theorem run (h : Yields policy s₀ entries bytes s) (cycles : Nat) :
    Leaves (fun s' => ∃ more, Yields policy s₀ more bytes s')
      (Station.run .receiver cycles s) := by
  rw [run_eq]
  split
  · exact ⟨_, h⟩
  · split
    · exact ⟨_, h.of_eq rfl rfl rfl rfl⟩
    · obtain ⟨more, hedge⟩ := h.serveEdge
      exact hedge.serveMatches _

/-- Bytes that the reader takes are the next ones of the queue. -/
theorem popUpTo (h : Yields policy s₀ entries bytes s) (k : Nat) :
    Yields policy s₀ entries (bytes ++ (s.queue.popUpTo k).1)
      { s with queue := (s.queue.popUpTo k).2 } where
  current := h.current
  journal := h.journal
  judged := h.judged
  conserved := by
    obtain ⟨htaken, hleft⟩ := s.queue.toList_popUpTo k
    rw [htaken, hleft, List.append_assoc, List.take_append_drop, h.conserved]
  sink := h.sink

end Yields

/-- Nothing is read while a match is served. -/
theorem taken_entries (s : Station n) : taken s.entries = [] := by
  rw [Station.entries]
  cases s.completion? <;> rfl

theorem taken_matches (stations : List (Station n)) :
    taken (stations.flatMap Station.entries) = [] := by
  induction stations with
  | nil => rfl
  | cons s rest ih => rw [List.flatMap_cons, Deed.taken_append, taken_entries, ih, List.append_nil]

namespace Yields

/-- **Whatever happens under one policy,** the entries say what went into the queue and to the
sink, even if what happens is stopped by a fault. -/
theorem perform (h : Yields policy s₀ entries bytes s) {event : Event}
    (hkept : ∀ clock baud longest other, event = .rebuild clock baud longest other →
      other = policy) :
    Leaves (fun s' => ∃ more, Yields policy s₀ more (bytes ++ taken (event.deeds s)) s')
      (event.perform s) := by
  have hsame : ∀ s' : Station n, (∃ more, Yields policy s₀ more bytes s') →
      ∃ more, Yields policy s₀ more (bytes ++ []) s' := fun s' h' =>
    (List.append_nil bytes).symm ▸ h'
  cases event with
  | drive level => exact hsame _ ⟨_, h.of_eq rfl rfl rfl rfl⟩
  | run cycles =>
    rw [Event.deeds, taken_matches, List.append_nil]
    exact h.run cycles
  | edge => exact hsame _ h.handleEdge
  | sample =>
    simp only [Event.perform, Event.deeds, taken_entries, List.append_nil]
    split
    · rename_i next hnext
      exact h.handleMatch hnext
    · exact ⟨_, h⟩
  | pin readable => exact hsame _ ⟨_, h.of_eq rfl rfl rfl rfl⟩
  | pop =>
    have hone := h.popUpTo 1
    rw [ReceiveQueue.popUpTo_one] at hone
    rw [Event.deeds, Deed.taken_popped]
    exact ⟨_, hone⟩
  | popUpTo k =>
    rw [Event.deeds, Deed.taken_popped]
    exact ⟨_, h.popUpTo k⟩
  | takeLost => exact hsame _ ⟨_, h.current, h.journal, h.judged, h.conserved, h.sink⟩
  -- a receiver that is built anew is built with the policy that is in use
  | rebuild clock baud longest other =>
    refine hsame _ ⟨entries, ?_⟩
    have hother : other = s.receiver.policy :=
      (hkept clock baud longest other rfl).trans h.current.symm
    split
    · exact h.of_eq hother rfl rfl rfl
    · exact h

theorem live (events : List Event) : ∀ {s : Station n} {entries : List Report}
    {bytes : List UInt8}, Yields policy s₀ entries bytes s →
    (∀ clock baud longest other, .rebuild clock baud longest other ∈ events → other = policy) →
      Leaves (fun s' => ∃ more,
        Yields policy s₀ more (bytes ++ taken (Event.history events s)) s')
        (Event.live events s) := by
  induction events with
  | nil =>
    intro s entries bytes h hkept
    exact ⟨entries, (List.append_nil bytes).symm ▸ h⟩
  | cons event rest ih =>
    intro s entries bytes h hkept
    have hfirst := h.perform fun clock baud longest other hevent =>
      hkept clock baud longest other (List.mem_cons.mpr (.inl hevent.symm))
    rw [Event.live_cons, Event.history, Deed.taken_append, ← List.append_assoc]
    simp only [bind, EStateM.bind]
    -- a fault ends the life there, and what came before it is still told
    cases hperform : event.perform s with
    | ok a s' =>
      rw [hperform] at hfirst
      obtain ⟨more, hnext⟩ := hfirst
      exact ih hnext fun clock baud longest other hmem =>
        hkept clock baud longest other (List.mem_cons_of_mem _ hmem)
    | error fault s' =>
      rw [hperform] at hfirst
      obtain ⟨more, hstopped⟩ := hfirst
      exact ⟨more, (List.append_nil _).symm ▸ hstopped⟩

end Yields

theorem yields_live (policy : StopPolicy) (s : Station n) (events : List Event) :
    Leaves (fun s' => Event.Judges policy s events →
      ∃ entries, Yields policy s entries (taken (Event.history events s)) s')
      (Event.live events s) :=
  leaves_imp fun hjudges => (hjudges.current ▸ Yields.refl s).live events hjudges.kept

/-- The frames of the entries are those that were completed. -/
theorem Yields.completed (h : Yields policy s₀ entries bytes s) :
    s.completed = s₀.completed ++ entries.filterMap Report.frame? := by
  rw [Station.completed, Station.completed, h.journal, List.filterMap_append]

/-- **Where nothing is refused, throwing bad frames away takes out just these:** what is handed
on is what a receiver in step with this one hands on, without the bytes whose stop bit was low. -/
theorem InStep.delivered_eq_filter {kept : List Report} {bytes' : List UInt8}
    (h : InStep s₀ t₀ s t) (hs : Yields .discard s₀ entries bytes s)
    (ht : Yields .keep t₀ kept bytes' t)
    (hroom : ∀ entry ∈ entries ++ kept, entry.isRefused = false) :
    delivered entries = (delivered kept).filter Prod.snd := by
  obtain ⟨hroom, hroom'⟩ := List.forall_mem_append.mp hroom
  obtain ⟨frames, hframes, hframes'⟩ := h.frames
  rw [hs.completed, List.append_cancel_left_eq] at hframes
  rw [ht.completed, List.append_cancel_left_eq] at hframes'
  rw [Report.delivered_eq_filter entries hs.judged hroom,
    Report.delivered_eq_filter kept ht.judged hroom', hframes, hframes']
  simp [StopPolicy.wants]

/-- **Reception does not depend on queue, reader, sink or policy.**  Two receivers that are alike,
with anything behind them, go through the same things, and their readers do as they please.  Break
the two lives off anywhere: phase and wire are the same, the same frames were completed, the counts
of bad frames have grown alike, and a fault that has stopped one has stopped the other.  If one
throws bad frames away and the other keeps them, and neither queue refuses a byte, then the first
hands on what the other does, without the bytes of the bad frames. -/
theorem live_alike (halike : Alike s t) {left right : List Event}
    (houtside : Event.outside left = Event.outside right) :
    Agree
      (fun s' t' => InStep s t s' t' ∧
        (Event.Judges .discard s left → Event.Judges .keep t right →
          ∃ thinned full,
            Yields .discard s thinned (taken (Event.history left s)) s' ∧
            Yields .keep t full (taken (Event.history right t)) t' ∧
            ((∀ entry ∈ thinned ++ full, entry.isRefused = false) →
              delivered thinned = (delivered full).filter Prod.snd)))
      (Event.live left s) (Event.live right t) := by
  have hstep := halike.inStep.live (Event.woven_of_outside left houtside)
  refine hstep.mono (yields_live .discard s left) (yields_live .keep t right) ?_
  intro s' t' hin hleft hright
  refine ⟨hin, fun hdiscard hkeep => ?_⟩
  obtain ⟨thinned, hthinned⟩ := hleft hdiscard
  obtain ⟨full, hfull⟩ := hright hkeep
  exact ⟨thinned, full, hthinned, hfull, hin.delivered_eq_filter hthinned hfull⟩

/-- The journal at the end of a life. -/
def journalAfter (events : List Event) (s : Station n) : Option (List Report) :=
  match Event.live events s with
  | .ok _ s' => some s'.journal
  | .error _ _ => none

/-- A receiver with a queue for one byte that throws bad frames away, and one with a queue for
seven bytes, one of them old, that keeps them: a good frame and a bad one, both of zeros at two
ticks a bit. -/
theorem live_alike_two_queues :
    let s : Station 2 := attach (Wire.fresh 16000000) ⟨2, 125, by decide⟩ .discard .empty
      (.collect [])
    let t : Station 8 := attach (Wire.fresh 8000000) ⟨2, 125, by decide⟩ .keep
      (ReceiveQueue.empty.push 7).2 .discard
    let left : List Event := [.drive false, .run 18, .pop, .drive true, .run 2, .drive false,
      .run 19]
    let right : List Event := [.popUpTo 3, .drive false, .run 18, .drive true, .run 2, .takeLost,
      .drive false, .run 19, .pop]
    Alike s t ∧ Event.outside left = Event.outside right ∧ Event.Judges .discard s left ∧
      Event.Judges .keep t right ∧
      ∃ s' t', Event.live left s = .ok () s' ∧ Event.live right t = .ok () t' ∧ InStep s t s' t' ∧
        ∃ thinned full,
          Yields .discard s thinned [] s' ∧ Yields .keep t full [7, 0] t' ∧
          delivered full = [(0, true), (0, false)] ∧
          delivered thinned = (delivered full).filter Prod.snd := by
  intro s t left right
  have halike : Alike s t := ⟨rfl, rfl, rfl, rfl⟩
  have hdiscard : Event.Judges .discard s left := ⟨rfl, by simp [left]⟩
  have hkeep : Event.Judges .keep t right := ⟨rfl, by simp [right]⟩
  have houtside : Event.outside left = Event.outside right := rfl
  have hreads : taken (Event.history left s) = [] ∧ taken (Event.history right t) = [7, 0] := by
    decide +kernel
  -- the lives end without a fault, which is read off their journals
  have hjournals : journalAfter left s = some [.frame 0 true .delivered, .frame 0 false .dropped] ∧
      journalAfter right t = some [.frame 0 true .delivered, .frame 0 false .delivered] := by
    decide +kernel
  have hlive := live_alike halike houtside
  rw [hreads.1, hreads.2] at hlive
  rw [journalAfter, journalAfter] at hjournals
  cases hleft : Event.live left s with
  | error fault s' =>
    rw [hleft] at hjournals
    cases hjournals.1
  | ok a s' =>
    cases hright : Event.live right t with
    | error fault t' =>
      rw [hright] at hjournals
      cases hjournals.2
    | ok b t' =>
      rw [hleft, hright] at hlive hjournals
      obtain ⟨hin, hboth⟩ := hlive
      obtain ⟨thinned, full, hthinned, hfull, hthin⟩ := hboth hdiscard hkeep
      have hfull' : full = [.frame 0 true .delivered, .frame 0 false .delivered] :=
        hfull.journal.symm.trans (Option.some.inj hjournals.2)
      have hthinned' : thinned = [.frame 0 true .delivered, .frame 0 false .dropped] :=
        hthinned.journal.symm.trans (Option.some.inj hjournals.1)
      refine ⟨halike, houtside, hdiscard, hkeep, s', t', rfl, rfl, hin, thinned, full, hthinned,
        hfull, ?_, hthin ?_⟩
      · rw [hfull']
        rfl
      · rw [hfull', hthinned']
        decide

end Station

end SerialLink
