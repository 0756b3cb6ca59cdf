/-
# Handlers that are called out of turn

A board may call a handler for no reason.  Such a call is *stray* if there is nothing for the
handler to do: `on_edge` is called in the middle of a frame, or while the wire is high;
`on_compare` is called while no frame is under way (`Event.isStray`).  This module puts two
lives side by side, one of them with any number of stray calls strewn in, and says that they
cannot be told apart: not by the wire, the receiver, the queue, the sink or the reader, at any
later time.

A stray call of the edge handler changes nothing, but one of the match handler does: it sets the
timer, and turns to the edge detector, even while an edge is latched that has not been served.
What saves the receiver is that it was turned to the detector already, so nothing of this shows
but the interval of a timer that is not armed.  `SameButInterval` is that much of a difference,
and it is all there ever is: whoever arms the timer sets its interval first, and no one looks at
it before.
-/
import SerialLink.Proofs.Independence

namespace SerialLink

/-! ## 1. Stray calls -/

namespace Event

variable {n : Nat}

/-- A call of a handler that has nothing to do at this station. -/
def isStray (s : Station n) : Event → Bool
  | edge => !s.receiver.phase.isIdle || s.wire.level
  | sample => s.receiver.phase.isIdle
  | _ => false

end Event

/-- One thing of a life: planned, or a stray call among the things that are planned. -/
inductive Turn where
  | planned (event : Event)
  | stray (event : Event)
  deriving DecidableEq, Repr

namespace Turn

variable {n : Nat}

/-- What happens. -/
def event : Turn → Event
  | planned event => event
  | stray event => event

/-- What happens, if it was planned. -/
def planned? : Turn → Option Event
  | planned event => some event
  | stray _ => none

/-- All that happens, in order. -/
def all (turns : List Turn) : List Event := turns.map event

/-- What was planned, in order. -/
def plan (turns : List Turn) : List Event := turns.filterMap planned?

/-- What is called stray is, at this station. -/
def holds (s : Station n) : Turn → Bool
  | planned _ => true
  | stray event => event.isStray s

/-- What is called stray is, at the moment when it happens, in the life that begins at `s`. -/
def strewn (s : Station n) : List Turn → Bool
  | [] => true
  | turn :: rest =>
    turn.holds s &&
      match turn.event.perform s with
      | .ok _ next => strewn next rest
      | .error _ _ => true

theorem strewn_cons {s next : Station n} {turn : Turn} {rest : List Turn}
    (h : strewn s (turn :: rest) = true) (happens : turn.event.perform s = .ok () next) :
    turn.holds s = true ∧ strewn next rest = true := by
  rw [strewn, happens, Bool.and_eq_true] at h
  exact h

/-- A life can be broken off anywhere. -/
theorem strewn_of_append (before after : List Turn) : ∀ {s : Station n},
    strewn s (before ++ after) = true → strewn s before = true := by
  induction before with
  | nil => exact fun _ => rfl
  | cons turn rest ih =>
    intro s h
    rw [List.cons_append, strewn, Bool.and_eq_true] at h
    rw [strewn, Bool.and_eq_true]
    refine ⟨h.1, ?_⟩
    cases hperform : turn.event.perform s with
    | error fault stopped => rfl
    | ok a next =>
      rw [hperform] at h
      exact ih h.2

end Turn

/-! ## 2. What cannot be told apart -/

theorem Phase.eq_idle_of_isIdle {phase : Phase} (h : phase.isIdle = true) : phase = .idle := by
  cases phase with
  | idle => rfl
  | _ => cases h

/-- An edge is latched or not whatever the interval of the timer. -/
theorem Wire.drive_setInterval (w : Wire) (cycles : Nat) (level : Bool) :
    (w.setInterval cycles).drive level = (w.drive level).setInterval cycles := by
  unfold drive
  by_cases hsame : w.level = level
  · rw [if_pos hsame, if_pos (show (w.setInterval cycles).level = level from hsame)]
  · rw [if_neg hsame, if_neg (show ¬ (w.setInterval cycles).level = level from hsame)]
    rfl

namespace Station

variable {n : Nat} {s s' t t' : Station n}

/-- **The two stations are the same,** but for the interval of a timer that is not armed, and for
what their receivers have noted beside the frames. -/
structure SameButInterval (s t : Station n) : Prop where
  /-- With the other's interval put in, the wire is the other's. -/
  wire : s.wire.setInterval t.wire.interval = t.wire
  /-- An armed timer has the same interval. -/
  interval : s.wire.timerArmed = true → s.wire.interval = t.wire.interval
  receiver : s.receiver = t.receiver
  readable : s.readable = t.readable
  queue : s.queue = t.queue
  sink : s.sink = t.sink
  completed : s.completed = t.completed

namespace SameButInterval

theorem refl (s : Station n) : SameButInterval s s := ⟨rfl, fun _ => rfl, rfl, rfl, rfl, rfl, rfl⟩

/-- Whatever does not look at the interval sees the same on both wires. -/
theorem seen {γ : Type} (h : SameButInterval s t) (f : Wire → γ)
    (hf : ∀ (w : Wire) (cycles : Nat), f (w.setInterval cycles) = f w) :
    f s.wire = f t.wire := by
  rw [← h.wire, hf]

theorem setInterval_eq (h : SameButInterval s t) (cycles : Nat) :
    s.wire.setInterval cycles = t.wire.setInterval cycles := by
  rw [← h.wire]
  rfl

/-- Where the timer is armed, the wires are the same. -/
theorem wire_eq (h : SameButInterval s t) (armed : s.wire.timerArmed = true) :
    s.wire = t.wire := by
  rw [← h.wire, ← h.interval armed]
  rfl

/-! ### The parts of a handler -/

/-- The same happens to both wires, whatever the interval, and the timer is not armed by it. -/
theorem onWire (h : SameButInterval s t) (f : Wire → Wire)
    (hf : ∀ (w : Wire) (cycles : Nat), f (w.setInterval cycles) = (f w).setInterval cycles)
    (hinterval : ∀ w : Wire, (f w).interval = w.interval)
    (harmed : ∀ w : Wire, (f w).timerArmed = true → w.timerArmed = true) :
    SameButInterval { s with wire := f s.wire } { t with wire := f t.wire } where
  wire := by
    show (f s.wire).setInterval (f t.wire).interval = f t.wire
    rw [hinterval, ← hf, h.wire]
  interval armed := by
    show (f s.wire).interval = (f t.wire).interval
    rw [hinterval, hinterval]
    exact h.interval (harmed _ armed)
  receiver := h.receiver
  readable := h.readable
  queue := h.queue
  sink := h.sink
  completed := h.completed

/-- Wires that have become the same. -/
theorem meet (h : SameButInterval s t) {w : Wire} {w' : Wire} (hwire : w = w') :
    SameButInterval { s with wire := w } { t with wire := w' } where
  wire := by
    rw [hwire]
    rfl
  interval _ := congrArg Wire.interval hwire
  receiver := h.receiver
  readable := h.readable
  queue := h.queue
  sink := h.sink
  completed := h.completed

theorem onReceiver (h : SameButInterval s t) (f : Receiver → Receiver) :
    SameButInterval { s with receiver := f s.receiver } { t with receiver := f t.receiver } where
  wire := h.wire
  interval := h.interval
  receiver := congrArg f h.receiver
  readable := h.readable
  queue := h.queue
  sink := h.sink
  completed := h.completed

theorem onQueue (h : SameButInterval s t) (f : ReceiveQueue n → ReceiveQueue n) :
    SameButInterval { s with queue := f s.queue } { t with queue := f t.queue } where
  wire := h.wire
  interval := h.interval
  receiver := h.receiver
  readable := h.readable
  queue := congrArg f h.queue
  sink := h.sink
  completed := h.completed

/-- What is no frame may be noted by one of the two alone. -/
theorem report_left (h : SameButInterval s t) {entry : Report} (hentry : entry.frame? = none) :
    SameButInterval (s.report entry) t where
  wire := h.wire
  interval := h.interval
  receiver := h.receiver
  readable := h.readable
  queue := h.queue
  sink := h.sink
  completed := (completed_report hentry).trans h.completed

theorem symm (h : SameButInterval s t) : SameButInterval t s where
  wire := by
    rw [← h.wire]
    rfl
  interval armed := by
    rw [← h.wire] at armed
    exact (h.interval armed).symm
  receiver := h.receiver.symm
  readable := h.readable.symm
  queue := h.queue.symm
  sink := h.sink.symm
  completed := h.completed.symm

theorem report (h : SameButInterval s t) {entry : Report} (hentry : entry.frame? = none) :
    SameButInterval (s.report entry) (t.report entry) :=
  ((h.report_left hentry).symm.report_left hentry).symm

theorem going (h : SameButInterval s t) (next : Phase) :
    SameButInterval { s with receiver := { s.receiver with phase := next } }
      { t with receiver := { t.receiver with phase := next } } :=
  h.onReceiver fun r => { r with phase := next }

theorem awaitEdge (h : SameButInterval s t) : SameButInterval s.awaitEdge t.awaitEdge :=
  (h.going .idle).onWire (fun w => w.disarmTimer.armEdge) (fun _ _ => rfl) (fun _ => rfl)
    fun _ armed => absurd armed Bool.false_ne_true

/-- Once the interval is set, the wires are the same. -/
theorem awaitNextBit (h : SameButInterval s t) :
    SameButInterval s.awaitNextBit t.awaitNextBit := by
  have hperiod : s.receiver.period = t.receiver.period := congrArg Receiver.period h.receiver
  unfold Station.awaitNextBit
  rw [← hperiod]
  exact h.meet (h.setInterval_eq _)

/-- The timer is not armed before its interval is set. -/
theorem beginFrame (h : SameButInterval s t) : SameButInterval s.beginFrame t.beginFrame := by
  have hwire : ∀ cycles : Nat, (s.wire.disarmEdge.setInterval cycles).restartTimer.armTimer
      = (t.wire.disarmEdge.setInterval cycles).restartTimer.armTimer := fun cycles =>
    congrArg (fun w : Wire => w.disarmEdge.restartTimer.armTimer) (h.setInterval_eq cycles)
  have hperiod : s.receiver.period = t.receiver.period := congrArg Receiver.period h.receiver
  unfold Station.beginFrame
  rw [← hperiod]
  exact (h.going .confirming).meet (hwire _)

/-- The same byte goes the same way. -/
theorem closeFrame (h : SameButInterval s t) (byte : UInt8) (stopBit : Bool) :
    SameButInterval (s.closeFrame byte stopBit) (t.closeFrame byte stopBit) := by
  have hwants : s.wants stopBit = t.wants stopBit := by rw [wants, wants, h.receiver]
  -- stage by stage: the count of bad frames, the queue and the sink, and then the policy
  have hcounted : (s.countStop stopBit).queue = (t.countStop stopBit).queue ∧
      (s.countStop stopBit).sink = (t.countStop stopBit).sink := by
    cases stopBit <;> simp [countStop, h.queue, h.sink]
  have hqueued : ((s.countStop stopBit).enqueue byte).2.queue
        = ((t.countStop stopBit).enqueue byte).2.queue ∧
      ((s.countStop stopBit).enqueue byte).2.sink
        = ((t.countStop stopBit).enqueue byte).2.sink := by
    unfold enqueue
    rw [← hcounted.1]
    split <;> exact ⟨rfl, by simp [hcounted.2]⟩
  have hclosed : (s.closeFrame byte stopBit).queue = (t.closeFrame byte stopBit).queue ∧
      (s.closeFrame byte stopBit).sink = (t.closeFrame byte stopBit).sink := by
    unfold Station.closeFrame
    rw [← hwants]
    cases s.wants stopBit with
    | true => exact hqueued
    | false => exact hcounted
  -- a closed frame touches nothing else, on either side
  refine ⟨?_, ?_, ?_, ?_, hclosed.1, hclosed.2, ?_⟩
  · rw [wire_closeFrame, wire_closeFrame]
    exact h.wire
  · rw [wire_closeFrame, wire_closeFrame]
    exact h.interval
  · rw [receiver_closeFrame, receiver_closeFrame, h.receiver]
  · rw [readable_closeFrame, readable_closeFrame, h.readable]
  · rw [completed_closeFrame, completed_closeFrame, h.completed]

/-! ### The handlers -/

theorem handleEdge (h : SameButInterval s t) : SameButInterval s.handleEdge t.handleEdge := by
  have hlevel : s.wire.level = t.wire.level := h.seen Wire.level fun _ _ => rfl
  unfold Station.handleEdge
  rw [← h.receiver, ← h.readable, ← hlevel]
  split
  · exact h
  · split
    · exact h.report rfl
    · split
      · exact h
      · exact h.beginFrame

theorem takeSample (h : SameButInterval s t) (hok : s.takeSample = .ok s') :
    ∃ t', t.takeSample = .ok t' ∧ SameButInterval s' t' := by
  have hlevel : s.wire.level = t.wire.level := h.seen Wire.level fun _ _ => rfl
  unfold Station.takeSample at hok ⊢
  rw [← h.receiver, ← hlevel]
  split at hok
  · cases hok
  · rename_i next hsample
    cases hok
    exact ⟨_, rfl, h.receiver ▸ h.going next⟩
  · rename_i byte stopBit hsample
    cases hok
    exact ⟨_, rfl, (h.closeFrame byte stopBit).awaitEdge⟩
  · cases hok
    exact ⟨_, rfl, (h.report rfl).awaitEdge⟩

/-- **A match that one can serve the other can,** and both go on alike. -/
theorem handleMatch (h : SameButInterval s t) (hok : s.handleMatch = .ok s') :
    ∃ t', t.handleMatch = .ok t' ∧ SameButInterval s' t' := by
  unfold Station.handleMatch at hok ⊢
  rw [← h.readable]
  split at hok
  · rename_i hread
    rw [if_pos hread]
    -- the handler sets the interval first, and from there on nothing is different at all
    exact h.awaitNextBit.takeSample hok
  · rename_i hread
    cases hok
    rw [if_neg hread]
    exact ⟨_, rfl, (h.awaitNextBit.report rfl).awaitEdge⟩

theorem serveEdge (h : SameButInterval s t) :
    SameButInterval (s.serveEdge .receiver) (t.serveEdge .receiver) := by
  have hdue : s.wire.edgeDue = t.wire.edgeDue := h.seen Wire.edgeDue fun _ _ => rfl
  have htaken := h.onWire Wire.takeEdge (fun _ _ => rfl) (fun _ => rfl) fun _ armed => armed
  unfold Station.serveEdge
  rw [← hdue]
  cases s.wire.edgeDue with
  | true => exact htaken.handleEdge
  | false => exact htaken

/-- A match is due to an armed timer, and armed timers are the same. -/
theorem serveMatch (h : SameButInterval s t) (armed : s.wire.timerArmed = true)
    (hok : s.serveMatch .receiver = .ok s') :
    ∃ t', t.serveMatch .receiver = .ok t' ∧ SameButInterval s' t' := by
  have htaken := h.meet (congrArg Wire.takeMatch (h.wire_eq armed))
  exact htaken.handleMatch hok

/-! ### A run -/

/-- The frames that a match completes are the same. -/
theorem entries_eq (h : SameButInterval s t) : s.entries = t.entries := by
  have hlevel : s.wire.level = t.wire.level := h.seen Wire.level fun _ _ => rfl
  rw [entries, entries, completion?, completion?, h.receiver, h.readable, h.queue, hlevel]

/-- **Where both loops end, they end alike,** and have completed the same frames. -/
theorem serveMatches {stop : Nat} (h : SameButInterval s t)
    (hs : s.serveMatches .receiver stop = .ok () s')
    (ht : t.serveMatches .receiver stop = .ok () t') :
    SameButInterval s' t' ∧
      (s.matched stop).flatMap entries = (t.matched stop).flatMap entries := by
  -- the induction is on the left loop; the right one is unrolled beside it
  fun_induction Station.serveMatches .receiver stop s generalizing t with
  | case1 s late => cases hs
  | case2 s fits due full => cases hs
  | case3 s fits due room fault served => cases hs
  | case4 s fits due room next served ih =>
    -- an armed timer has the same wire on both sides, so its match is due and counted on both
    have hwire := h.wire_eq due.1
    have hfits := target_lt_of_serveMatches ht
    have hroom := Nat.lt_of_not_le room
    obtain ⟨next', hnext, hsame⟩ := h.serveMatch due.1 served
    rw [matched_of_due (Nat.lt_of_not_le fits) hroom due served]
    rw [hwire] at due hroom
    rw [serveMatches_of_due hfits due.1 due.2 hroom hnext] at ht
    obtain ⟨hlast, hentries⟩ := ih hsame hs ht
    rw [matched_of_due hfits hroom due hnext, List.flatMap_cons, List.flatMap_cons, h.entries_eq,
      hentries]
    exact ⟨hlast, rfl⟩
  | case5 s fits rest =>
    cases hs
    have hrest : ¬ (t.wire.timerArmed = true ∧ t.wire.due ≤ stop) := by
      rintro ⟨armed, due⟩
      have harmed : s.wire.timerArmed = true := by rwa [h.seen Wire.timerArmed fun _ _ => rfl]
      rw [← h.wire_eq harmed] at due
      exact rest ⟨harmed, due⟩
    rw [serveMatches_of_rest (target_lt_of_serveMatches ht) hrest] at ht
    cases ht
    rw [matched_of_rest rest, matched_of_rest hrest]
    exact ⟨h.onWire (fun w => w.settle stop) (fun _ _ => rfl) (fun _ => rfl) fun _ armed => armed,
      rfl⟩

theorem run (h : SameButInterval s t) {cycles : Nat}
    (hs : Station.run .receiver cycles s = .ok () s')
    (ht : Station.run .receiver cycles t = .ok () t') :
    SameButInterval s' t' ∧
      (Event.run cycles).deeds s = (Event.run cycles).deeds t := by
  have hnow : s.wire.now = t.wire.now := h.seen Wire.now fun _ _ => rfl
  have hloop := (serveMatches_of_run ht).2
  rw [← hnow] at hloop
  rw [Event.deeds, Event.deeds, ← hnow]
  exact h.serveEdge.serveMatches (serveMatches_of_run hs).2 hloop

/-! ## 3. Lives side by side -/

/-- **What happens to both leaves them the same,** and makes the same entries. -/
theorem perform (h : SameButInterval s t) {event : Event} (hs : event.perform s = .ok () s')
    (ht : event.perform t = .ok () t') :
    SameButInterval s' t' ∧ event.deeds s = event.deeds t := by
  cases event with
  | drive level =>
    cases hs
    cases ht
    -- whether an edge is latched does not depend on the interval
    refine ⟨h.onWire (fun w => w.drive level) ?_ ?_ ?_, rfl⟩
    · intro w cycles
      exact Wire.drive_setInterval w cycles level
    · intro w
      unfold Wire.drive
      split <;> rfl
    · intro w armed
      unfold Wire.drive at armed
      split at armed <;> exact armed
  | run cycles => exact h.run hs ht
  | edge =>
    cases hs
    cases ht
    exact ⟨h.handleEdge, rfl⟩
  | sample =>
    simp only [Event.perform] at hs ht
    split at hs
    · rename_i next hnext
      cases hs
      obtain ⟨next', hnext', hsame⟩ := h.handleMatch hnext
      rw [hnext'] at ht
      cases ht
      exact ⟨hsame, h.entries_eq⟩
    · cases hs
  | pin readable =>
    cases hs
    cases ht
    exact ⟨⟨h.wire, h.interval, h.receiver, rfl, h.queue, h.sink, h.completed⟩, rfl⟩
  | pop =>
    cases hs
    cases ht
    rw [Event.deeds, Event.deeds, h.queue]
    exact ⟨h.onQueue fun q => q.pop.2, rfl⟩
  | popUpTo k =>
    cases hs
    cases ht
    rw [Event.deeds, Event.deeds, h.queue]
    exact ⟨h.onQueue fun q => (q.popUpTo k).2, rfl⟩
  | takeLost =>
    cases hs
    cases ht
    exact ⟨h.onQueue fun q => q.takeLost.2, rfl⟩
  | rebuild clock baud longest policy =>
    cases hs
    cases ht
    -- whether a rate is accepted does not depend on the station
    refine ⟨?_, rfl⟩
    split
    · exact (h.onReceiver fun _ => ⟨.idle, _, policy⟩).awaitEdge
    · exact h

/-- Called out of turn, the edge handler at most notes that it cannot read the pin. -/
theorem handleEdge_left (h : SameButInterval s t) (hstray : Event.edge.isStray s = true) :
    SameButInterval s.handleEdge t := by
  unfold Station.handleEdge
  split
  · exact h
  · rename_i hidle
    split
    · exact h.report_left rfl
    · split
      · exact h
      · rename_i hlow
        -- idle and low: that would be a start bit, and no stray call
        rcases (Bool.or_eq_true _ _).mp hstray with hbusy | hhigh
        · exact absurd hbusy hidle
        · exact absurd hhigh hlow

/-- A receiver that waits for an edge sets its timer and turns to the detector.  It was turned
there already, with the timer not armed, and so only the interval is new. -/
theorem awaitEdge_left {timings : List Event.Timing} (h : SameButInterval s t)
    (hsound : Sound timings s.receiver s.wire) (hphase : s.receiver.phase = .idle) :
    SameButInterval s.awaitNextBit.awaitEdge t := by
  have hidle : s.receiver.phase.isIdle = true := by rw [hphase]; rfl
  have hedge : s.wire.edgeArmed = true := hsound.edgeArmed.trans hidle
  have htimer : s.wire.timerArmed = false := by rw [hsound.timerArmed, hidle, Bool.not_true]
  -- to turn to the detector again changes nothing, so the interval is all that is left
  have hwire : (s.wire.setInterval s.receiver.period.ticks).disarmTimer.armEdge
      = s.wire.setInterval s.receiver.period.ticks := by
    simp [Wire.setInterval, Wire.disarmTimer, Wire.armEdge, hedge, htimer]
  refine ⟨?_, ?_, ?_, h.readable, h.queue, h.sink, h.completed⟩
  · rw [wire_awaitEdge, Station.awaitNextBit, hwire]
    exact h.wire
  · intro armed
    rw [wire_awaitEdge] at armed
    cases armed
  · rw [← h.receiver]
    simp [Station.awaitEdge, Station.awaitNextBit, ← hphase]

/-- Called out of turn, the match handler finds no frame to go on with. -/
theorem handleMatch_left {timings : List Event.Timing} (h : SameButInterval s t)
    (hsound : Sound timings s.receiver s.wire) (hphase : s.receiver.phase = .idle)
    (hok : s.handleMatch = .ok s') : SameButInterval s' t := by
  have hbit := h.awaitEdge_left hsound hphase
  -- an idle phase makes no byte and goes on to no bit: the match is noted as spurious, if read
  cases afterMatch_of_handleMatch hok with
  | unreadable hread => exact hbit.report_left rfl
  | going hread hsample =>
    rw [hphase] at hsample
    cases hsample
  | frame hread hsample =>
    rw [hphase] at hsample
    cases hsample
  | spurious hread hsample => exact hbit.report_left rfl

/-- **A stray call leaves nothing that could be told,** and makes no entry. -/
theorem perform_stray {timings : List Event.Timing} (h : SameButInterval s t)
    (hsound : Sound timings s.receiver s.wire) {event : Event} (hstray : event.isStray s = true)
    (hs : event.perform s = .ok () s') : SameButInterval s' t ∧ event.deeds s = [] := by
  cases event with
  | edge =>
    cases hs
    exact ⟨h.handleEdge_left hstray, rfl⟩
  | sample =>
    have hphase : s.receiver.phase = .idle := Phase.eq_idle_of_isIdle hstray
    -- no frame ends here, so nothing is entered in the books
    have hentries : s.entries = [] := by
      have hnone : s.completion? = none := completion?_of_ne_stopping (by simp [hphase])
      rw [entries, hnone]
      rfl
    simp only [Event.perform] at hs
    split at hs
    · rename_i next hnext
      cases hs
      exact ⟨h.handleMatch_left hsound hphase hnext, hentries⟩
    · cases hs
  | _ => cases hstray

/-- Two lives, one of them with stray calls strewn in. -/
theorem live (turns : List Turn) : ∀ {timings : List Event.Timing} {s t : Station n},
    SameButInterval s t → Sound timings s.receiver s.wire → Turn.strewn s turns = true →
    Event.live (Turn.all turns) s = .ok () s' → Event.live (Turn.plan turns) t = .ok () t' →
      SameButInterval s' t' ∧
        Event.history (Turn.all turns) s = Event.history (Turn.plan turns) t := by
  induction turns with
  | nil =>
    intro timings s t h _ _ hs ht
    cases hs
    cases ht
    exact ⟨h, rfl⟩
  | cons turn rest ih =>
    intro timings s t h hsound hstrewn hs ht
    have hall : Turn.all (turn :: rest) = turn.event :: Turn.all rest := rfl
    rw [hall] at hs ⊢
    obtain ⟨next, hnext, hsrest⟩ := Event.live_cons_eq_ok hs
    obtain ⟨hholds, hrest⟩ := Turn.strewn_cons hstrewn hnext
    have hkept := hsound.perform turn.event
    rw [hnext] at hkept
    rw [Event.history_cons hnext]
    cases turn with
    | planned event =>
      have hplan : Turn.plan (.planned event :: rest) = event :: Turn.plan rest := rfl
      rw [hplan] at ht ⊢
      obtain ⟨next', hnext', htrest⟩ := Event.live_cons_eq_ok ht
      have hnext : event.perform s = .ok () next := hnext
      obtain ⟨hsame, hdeeds⟩ := h.perform hnext hnext'
      obtain ⟨hlast, hhistory⟩ := ih hsame hkept hrest hsrest htrest
      rw [Event.history_cons hnext', ← hhistory, ← hdeeds]
      exact ⟨hlast, rfl⟩
    | stray event =>
      -- the left life moves on alone
      have hplan : Turn.plan (.stray event :: rest) = Turn.plan rest := rfl
      rw [hplan] at ht ⊢
      obtain ⟨hsame, hdeeds⟩ : SameButInterval next t ∧ (Turn.stray event).event.deeds s = [] :=
        h.perform_stray hsound hholds hnext
      obtain ⟨hlast, hhistory⟩ := ih hsame hkept hrest hsrest ht
      rw [← hhistory, hdeeds]
      exact ⟨hlast, rfl⟩

end SameButInterval

/-- **Stray calls cannot be told from none.**  A receiver of an accepted rate is built on a wire
whose timer was not programmed, and what is planned for it happens twice: once with stray calls
strewn in, and once without.  At every moment of the two lives the stations are the same but for
the interval of a timer that is not armed, and the same has gone into the queue, out of it and to
the sink.  Only a count of cycles that leaves 64 bits can end either life, or a count of interrupts
that leaves 32. -/
theorem live_strays {w : Wire} (hunset : w.interval = 0) (hstart : w.timerStart ≤ w.now)
    {rateClock baud longest : UInt32} {p : BitPeriod}
    (hrate : BitPeriod.ofRate rateClock baud longest = .ok p) (policy : StopPolicy)
    (queue : ReceiveQueue n) (sink : Sink) {turns before : List Turn}
    (hstrewn : Turn.strewn (attach w p policy queue sink) turns = true)
    (hbefore : before <+: turns) :
    Within id (Event.extent w (Turn.all before))
      (fun s => Within id (Event.extent w (Turn.plan before))
        (fun t => SameButInterval s t ∧
          Event.history (Turn.all before) (attach w p policy queue sink)
            = Event.history (Turn.plan before) (attach w p policy queue sink))
        (Event.live (Turn.plan before) (attach w p policy queue sink)))
      (Event.live (Turn.all before) (attach w p policy queue sink)) := by
  have hbuilt : Sound [(p, longest)] (attach w p policy queue sink).receiver
      (attach w p policy queue sink).wire :=
    ⟨rfl, rfl, fun _ => rfl, hstart, trivial, .inl hunset,
      ⟨longest, rfl, ⟨rateClock, baud, hrate⟩⟩⟩
  obtain ⟨after, rfl⟩ := hbefore
  have hpart : Turn.strewn (attach w p policy queue sink) before = true :=
    Turn.strewn_of_append before after hstrewn
  refine ((hbuilt.live (Turn.all before)).and_of_ok (Q := fun s => _) ?_).imp fun _ hs =>
    hs.2
  rintro ⟨⟩ s hs
  refine ((hbuilt.live (Turn.plan before)).and_of_ok (Q := fun t => _) ?_).imp fun _ ht =>
    ht.2
  rintro ⟨⟩ t ht
  exact SameButInterval.live before (.refl _) hbuilt hpart hs ht

/-- Both handlers are called before the frame begins, the match handler once more on a latched
edge, and the edge handler twice in the middle of the frame. -/
theorem live_strays_on_latched_edge :
    let s : Station 2 := attach (Wire.fresh 16000000) ⟨2, 125, by decide⟩ .keep .empty .discard
    let turns : List Turn :=
      [.stray .sample, .stray .edge, .planned (.drive false), .stray .sample, .planned (.run 10),
        .stray .edge, .planned (.run 8), .planned (.drive true), .stray .edge, .planned (.run 2),
        .planned .pop]
    BitPeriod.ofRate 16000000 8000000 65535 = .ok ⟨2, 125, by decide⟩ ∧
      Turn.strewn s turns = true ∧
      ∃ strewn planned : Station 2,
        Event.live (Turn.all turns) s = .ok () strewn ∧
        Event.live (Turn.plan turns) s = .ok () planned ∧
        SameButInterval strewn planned ∧
        Event.history (Turn.all turns) s = Event.history (Turn.plan turns) s := by
  intro s turns
  have hrate : BitPeriod.ofRate 16000000 8000000 65535 = .ok ⟨2, 125, by decide⟩ := rfl
  have hstrewn : Turn.strewn s turns = true := by decide +kernel
  have hlives := live_strays (w := Wire.fresh 16000000) rfl (Nat.le_refl _) hrate .keep .empty
    .discard hstrewn (List.prefix_refl _)
  obtain ⟨⟨⟩, strewn, hs, hboth⟩ := hlives.exists_ok ⟨by decide, by decide⟩
  obtain ⟨⟨⟩, planned, ht, hsame, hhistory⟩ := hboth.exists_ok ⟨by decide, by decide⟩
  exact ⟨hrate, hstrewn, strewn, planned, hs, ht, hsame, hhistory⟩

end Station

end SerialLink
