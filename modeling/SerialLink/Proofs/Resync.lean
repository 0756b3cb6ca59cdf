/-
# A level that is held

Noise can leave a `Receiver` in the middle of a frame that nobody sent.  This module says how it
comes out of it: any level at all, held for as long as a frame takes to be sampled, brings the
receiver back to rest, wherever in a frame it was.

The frame that it was in is completed, with the held level for every sample that was missing.  No
other follows: the receiver waits for an edge after it, and a level that is held gives none.  So a
line that breaks, and stays low for however long, counts as one bad frame.

* `Wire.Finishing` is the invariant.  It says how much of a frame is left, and by when.
* The induction is on the data bits that are left (`within_serveMatches_finishing`).
* What the change of level itself does is looked at once (`held_serveEdge`).

A level can be held in one run or in many.  By `Slicing` that is the same (`within_holdEach`).
-/
import SerialLink.Proofs.Accounting
import SerialLink.Proofs.Slicing
import SerialLink.Proofs.Streams

namespace SerialLink

/-! ## 1. What is left of a frame -/

namespace Wire

variable {w : Wire} {ticks left stop : Nat}

/-- The timer is armed, `left` matches come one bit apart behind the next one, all of them by
`stop`, and no edge is latched. -/
structure Finishing (w : Wire) (ticks left stop : Nat) : Prop where
  timerOn : w.timerArmed = true
  unlatched : w.edgeLatched = false
  ends : w.due + left * ticks ≤ stop

theorem Finishing.due_le (h : w.Finishing ticks left stop) : w.due ≤ stop :=
  Nat.le_trans (Nat.le_add_right _ _) h.ends

theorem Finishing.mono {stop' : Nat} (h : w.Finishing ticks left stop) (hstop : stop ≤ stop') :
    w.Finishing ticks left stop' :=
  ⟨h.timerOn, h.unlatched, Nat.le_trans h.ends hstop⟩

theorem target_takeMatch (hpos : 0 < ticks) :
    (w.takeMatch.setInterval ticks).target = w.due + ticks := by
  have htarget : (w.takeMatch.setInterval ticks).target = w.due + max ticks 1 := rfl
  rw [htarget]
  omega

/-- A match that is due sets the timer for one bit more than there is time for at the most. -/
theorem target_takeMatch_le (hdue : w.due ≤ stop) (hpos : 0 < ticks) :
    (w.takeMatch.setInterval ticks).target ≤ stop + ticks := by
  rw [target_takeMatch hpos]
  exact Nat.add_le_add_right hdue ticks

/-- A frame that begins now is over after one first interval and eight bits. -/
theorem finishing_beginFrame (w : Wire) (p : BitPeriod) :
    (w.beginFrame p.firstInterval).Finishing p.ticks 8
      (w.now + p.firstInterval + 8 * p.ticks) := by
  have hbegun := w.sampling_beginFrame p.firstInterval_pos
  refine ⟨hbegun.timerOn, hbegun.unlatched, ?_⟩
  rw [hbegun.due]

/-- A match leaves one bit less, and the timer set for the next. -/
theorem Finishing.takeMatch (h : w.Finishing ticks (left + 1) stop) (hpos : 0 < ticks) :
    (w.takeMatch.setInterval ticks).Finishing ticks left stop where
  timerOn := h.timerOn
  unlatched := h.unlatched
  ends := by
    have hends := h.ends
    have hnow : (w.takeMatch.setInterval ticks).now = w.due := rfl
    rw [Nat.add_mul, Nat.one_mul] at hends
    rw [due, target_takeMatch hpos, hnow]
    omega

end Wire

/-- Inside a frame, the timer is set for a first interval at the most. -/
theorem Phase.Fits.interval_le {p : BitPeriod} {interval : Nat} {phase : Phase}
    (h : phase.Fits p interval) (hbusy : phase.isIdle = false) : interval ≤ p.firstInterval := by
  have hticks := p.ticks_le_firstInterval
  cases phase with
  | idle => cases hbusy
  | confirming => exact Nat.le_of_eq h
  | data pending index => exact Nat.le_trans (Nat.le_of_eq h.1) hticks
  | stopping pending => exact Nat.le_trans (Nat.le_of_eq h) hticks

namespace Station

variable {n : Nat} {base s s' t : Station n} {level : Bool} {stop : Nat} {x : Extent}

/-! ## 2. A frame is completed -/

/-- `s'` is `s` with its receiver at rest on a wire of this level. -/
structure Rests (level : Bool) (s s' : Station n) : Prop where
  station : s' = s.onWire s'.wire .idle
  listening : s'.wire.Listening
  held : s'.wire.level = level

theorem rests_onWire {w : Wire} (hw : w.Listening) :
    Rests w.level base (base.onWire w .idle) :=
  ⟨rfl, hw, rfl⟩

/-- The wire that `s` was on does not matter. -/
theorem Rests.of_onWire {w : Wire} {phase : Phase} (h : Rests level (s.onWire w phase) s') :
    Rests level s s' :=
  ⟨h.station, h.listening, h.held⟩

theorem Rests.idle (h : Rests level s s') : s'.receiver.phase = .idle := by
  rw [h.station]
  rfl

/-- `s'` is `s` with its receiver at rest, after one frame at the most.  The stop bit of that frame
is the level of the wire. -/
def OneFrame (level : Bool) (s s' : Station n) : Prop :=
  Rests level s s' ∨ ∃ byte, Rests level (s.closeFrame byte level) s'

theorem OneFrame.of_onWire {w : Wire} {phase : Phase} (h : OneFrame level (s.onWire w phase) s') :
    OneFrame level s s' := by
  rcases h with hnone | ⟨byte, hone⟩
  · exact .inl hnone.of_onWire
  · rw [closeFrame_onWire] at hone
    exact .inr ⟨byte, hone.of_onWire⟩

/-- Either way the receiver is at rest. -/
theorem OneFrame.rests (h : OneFrame level s s') : ∃ base, Rests level base s' := by
  rcases h with hnone | ⟨byte, hone⟩
  · exact ⟨s, hnone⟩
  · exact ⟨_, hone⟩

/-- A receiver at rest stays so. -/
theorem Rests.within_serveMatches (h : Rests level base t)
    (htarget : t.wire.target ≤ x.lastCycle) :
    Within id x (Rests level base) (serveMatches .receiver stop t) := by
  have hoff : ¬ (t.wire.timerArmed = true ∧ t.wire.due ≤ stop) := by
    simp [h.listening.timerOff]
  refine within_serveMatches_of_rest htarget hoff ⟨?_, h.listening.settle stop, h.held⟩
  have hstation := h.station
  rw [hstation]
  rfl

/-- **A frame is completed by the level that is held,** if there is time for it.  The induction is
on the data bits that are left: every match samples the same level, and no more of them come than
there are bits. -/
theorem within_serveMatches_finishing (hread : base.readable = true)
    (hlimit : stop + base.receiver.period.ticks ≤ x.lastCycle) (left : Nat) :
    ∀ {w : Wire} {taken : List Bool}, taken.length + left = 8 → w.timerArmed = true →
      w.edgeLatched = false → w.target ≤ x.lastCycle → w.matchCount + (left + 1) ≤ x.interrupts →
      Within id x
        (fun s' => w.Finishing base.receiver.period.ticks left stop →
          Rests w.level
            (base.closeFrame (Frame.byte (taken ++ List.replicate left w.level)) w.level) s')
        (serveMatches .receiver stop (base.onWire w (.after taken))) := by
  have hpos : 0 < base.receiver.period.ticks :=
    Nat.lt_of_lt_of_le Nat.zero_lt_two base.receiver.period.two_le_ticks
  -- a frame that ends in time has its next match in time
  have hlate : ∀ {w : Wire} {left : Nat}, ¬ w.due ≤ stop →
      ¬ w.Finishing base.receiver.period.ticks left stop := fun hlater hends =>
    hlater hends.due_le
  induction left with
  | zero =>
    intro w taken hlength harmed hunlatched htarget hcount
    by_cases hdue : w.due ≤ stop
    -- the match that is due is that of the stop bit
    · have hlisten :
          (w.takeMatch.setInterval base.receiver.period.ticks).disarmTimer.armEdge.Listening :=
        ⟨rfl, hunlatched, rfl⟩
      have hafter := Nat.le_trans (Wire.target_takeMatch_le hdue hpos) hlimit
      rw [List.replicate_zero, List.append_nil]
      refine within_serveMatches_of_due htarget hcount harmed hdue
        (serveMatch_of_eight hread hlength) fun _ => ?_
      exact ((rests_onWire hlisten).within_serveMatches hafter).imp fun _ hrests _ => hrests
    -- no match comes before the stop, so there was no time for the frame either
    · exact within_serveMatches_of_rest htarget (fun hmatch => hdue hmatch.2) fun hends =>
        absurd hends (hlate hdue)
  | succ left ih =>
    intro w taken hlength harmed hunlatched htarget hcount
    by_cases hdue : w.due ≤ stop
    -- the match that is due takes the level as a data bit, and one bit less is left
    · have hmore : (taken ++ [w.level]).length + left = 8 := by
        rw [List.length_append, List.length_singleton]
        omega
      have hafter := Nat.le_trans (Wire.target_takeMatch_le hdue hpos) hlimit
      have hfirst : w.matchCount + 1 ≤ x.interrupts := by omega
      rw [List.replicate_succ, List.append_cons]
      refine within_serveMatches_of_due htarget hfirst harmed hdue
        (serveMatch_of_lt hread (by omega)) fun hroom => ?_
      have hmatches : w.takeMatch.matchCount + (left + 1) ≤ x.interrupts := by
        rw [Wire.matchCount_takeMatch (w := w) hroom]
        exact Nat.le_trans (Nat.le_of_eq (by omega)) hcount
      have hrest := ih (w := w.takeMatch.setInterval base.receiver.period.ticks) hmore harmed
        hunlatched hafter hmatches
      exact hrest.imp fun _ hrests hends => hrests (hends.takeMatch hpos)
    · exact within_serveMatches_of_rest htarget (fun hmatch => hdue hmatch.2) fun hends =>
        absurd hends (hlate hdue)

/-- **A frame that begins now is all of one level.** -/
theorem within_serveMatches_beginFrame {w : Wire} (hread : base.readable = true)
    (hlong : w.now + base.receiver.period.firstInterval + 8 * base.receiver.period.ticks ≤ stop)
    (hlimit : stop + base.receiver.period.ticks ≤ x.lastCycle)
    (hcount : w.matchCount + 9 ≤ x.interrupts) :
    Within id x
      (Rests w.level (base.closeFrame (Frame.byte (List.replicate 8 w.level)) w.level))
      (serveMatches .receiver stop
        (base.onWire (w.beginFrame base.receiver.period.firstInterval) .confirming)) := by
  have hbegun := w.finishing_beginFrame base.receiver.period
  have htarget := (w.sampling_beginFrame base.receiver.period.firstInterval_pos).target
  have hlevel : (w.beginFrame base.receiver.period.firstInterval).level = w.level := rfl
  have hnone : ([] : List Bool).length + 8 = 8 := rfl
  have hframe := within_serveMatches_finishing hread hlimit 8 hnone hbegun.timerOn
    hbegun.unlatched (by omega) hcount
  rw [hlevel, List.nil_append, Phase.after_nil] at hframe
  exact hframe.imp fun _ hrests => hrests (hbegun.mono hlong)

/-! ## 3. The change of level -/

/-- Where a receiver stands once the edge has been served, if there was one: at rest, or in a
frame that can be finished in the time that a whole one takes. -/
inductive Held (s : Station n) : Station n → Prop
  | resting {w : Wire} (hw : w.Listening) (hlevel : w.level = s.wire.level) :
      Held s (s.onWire w .idle)
  | sampling {w : Wire} {taken : List Bool} {left : Nat} (hlength : taken.length + left = 8)
      (hw : w.Finishing s.receiver.period.ticks left
        (s.wire.now + s.receiver.period.firstInterval + 8 * s.receiver.period.ticks))
      (hlevel : w.level = s.wire.level) (hmatches : w.matchCount = s.wire.matchCount) :
      Held s (s.onWire w (.after taken))

variable {timings : List Event.Timing}

theorem held_of_idle (hsound : Sound timings s.receiver s.wire) (hread : s.readable = true)
    (hidle : s.receiver.phase = .idle) : Held s (s.serveEdge .receiver) := by
  have hself : s = s.onWire s.wire .idle := (onWire_self hidle).symm
  have harmed : s.wire.edgeArmed = true := by
    rw [hsound.edgeArmed, hidle]
    rfl
  have hoff : s.wire.timerArmed = false := by
    rw [hsound.timerArmed, hidle]
    rfl
  have hlistening : s.wire.takeEdge.Listening := ⟨harmed, rfl, hoff⟩
  -- only an edge that finds the line low begins a frame
  cases hdue : s.wire.edgeDue with
  | false =>
    rw [hself, serveEdge_of_not_due hdue]
    exact .resting hlistening rfl
  | true =>
    rw [hself, serveEdge_of_due hdue]
    cases hlevel : s.wire.level with
    | true =>
      rw [handleEdge_of_high (w := s.wire.takeEdge) hread hlevel]
      exact .resting hlistening rfl
    | false =>
      rw [handleEdge_of_low (w := s.wire.takeEdge) hread hlevel]
      have hnone : ([] : List Bool).length + 8 = 8 := rfl
      exact .sampling hnone (s.wire.takeEdge.finishing_beginFrame s.receiver.period) rfl rfl

theorem held_of_after (hsound : Sound timings s.receiver s.wire) {taken : List Bool}
    (hlength : taken.length ≤ 8) (hafter : s.receiver.phase = .after taken) :
    Held s (s.serveEdge .receiver) := by
  have hself : s = s.onWire s.wire (.after taken) := (onWire_self hafter).symm
  have hbusy : s.receiver.phase.isIdle = false := by
    rw [hafter, Phase.isIdle_after]
  have hdue : s.wire.edgeDue = false := by
    rw [Wire.edgeDue, hsound.edgeArmed, hbusy, Bool.and_false]
  have harmed : s.wire.timerArmed = true := by
    rw [hsound.timerArmed, hbusy]
    rfl
  rw [hself, serveEdge_of_not_due hdue]
  -- no edge is served while a frame is on: the bits that are left need at most a whole frame
  have hleft : taken.length + (8 - taken.length) = 8 := Nat.add_sub_cancel' hlength
  refine .sampling hleft ⟨harmed, rfl, ?_⟩ rfl rfl
  -- the match comes within one first interval, as no interval is longer
  have hinterval := hsound.phase.interval_le hbusy
  have hstarted := hsound.started
  have hfirst := s.receiver.period.firstInterval_pos
  have hnext : s.wire.takeEdge.due ≤ s.wire.now + s.receiver.period.firstInterval := by
    have hsame : s.wire.takeEdge.due = max (s.wire.timerStart + max s.wire.interval 1) s.wire.now :=
      rfl
    rw [hsame]
    omega
  exact Nat.add_le_add hnext (Nat.mul_le_mul_right _ (Nat.sub_le _ _))

/-- **A sound receiver is at rest, or can finish its frame in the time of a whole one.** -/
theorem held_serveEdge (hsound : Sound timings s.receiver s.wire) (hread : s.readable = true) :
    Held s (s.serveEdge .receiver) := by
  rcases hsound.phase.occurs with hidle | ⟨taken, hlength, hafter⟩
  · exact held_of_idle hsound hread hidle
  · exact held_of_after hsound hlength hafter

/-! ## 4. One run -/

/-- What is left of a frame is completed, if there is time for a whole one, and there is no more. -/
theorem Held.within_serveMatches (h : Held s t) (hread : s.readable = true)
    (htarget : t.wire.target ≤ x.lastCycle)
    (hlimit : stop + s.receiver.period.ticks ≤ x.lastCycle)
    (hcount : s.wire.matchCount + 9 ≤ x.interrupts) :
    Within id x
      (fun s' => s.wire.now + s.receiver.period.firstInterval + 8 * s.receiver.period.ticks ≤ stop →
        OneFrame s.wire.level s s')
      (serveMatches .receiver stop t) := by
  cases h with
  | @resting w hw hlevel =>
    have hrests : Within id x (Rests w.level s) (serveMatches .receiver stop (s.onWire w .idle)) :=
      (rests_onWire hw).within_serveMatches htarget
    rw [hlevel] at hrests
    exact hrests.imp fun s' hs' _ => .inl hs'
  | @sampling w taken left hlength hw hlevel hmatches =>
    have hframe := within_serveMatches_finishing hread hlimit left hlength hw.timerOn hw.unlatched
      htarget (by omega)
    rw [hlevel] at hframe
    exact hframe.imp fun s' hs' hlong => .inr ⟨_, hs' (hw.mono hlong)⟩

/-- How far a receiver gets while a level is held: one edge, and the matches of one frame. -/
def holdExtent (s : Station n) (cycles : Nat) : Extent where
  lastCycle := (s.runExtent cycles).lastCycle
  interrupts := max (s.wire.edgeCount + 1) (s.wire.matchCount + 9)

theorem le_holdExtent (s : Station n) (cycles : Nat) :
    s.wire.now + cycles + s.receiver.period.firstInterval ≤ (s.holdExtent cycles).lastCycle := by
  simp only [holdExtent, runExtent]
  omega

theorem target_serveEdge_le_holdExtent (s : Station n) (cycles : Nat) :
    (s.serveEdge .receiver).wire.target ≤ (s.holdExtent cycles).lastCycle := by
  have hedge := target_serveEdge s
  have hfirst := s.le_holdExtent cycles
  have htarget : s.wire.target ≤ (s.holdExtent cycles).lastCycle := Nat.le_max_left _ _
  omega

theorem holdExtent_mono {cycles more : Nat} (h : cycles ≤ more) :
    (s.holdExtent cycles).Le (s.holdExtent more) := by
  constructor <;> simp only [holdExtent, runExtent] <;> omega

/-- **A run that is long enough ends at rest,** and one frame is completed in it at the most. -/
theorem within_run_held (hsound : Sound timings s.receiver s.wire) (hread : s.readable = true)
    (cycles : Nat) :
    Within id (s.holdExtent cycles)
      (fun s' => s.receiver.period.firstInterval + 8 * s.receiver.period.ticks ≤ cycles →
        OneFrame s.wire.level s s')
      (run .receiver cycles s) := by
  have hfirst := s.le_holdExtent cycles
  have hticks := s.receiver.period.ticks_le_firstInterval
  refine within_run (by omega) (fun _ => Nat.le_max_left _ _) fun _ => ?_
  exact ((held_serveEdge hsound hread).within_serveMatches hread
    (s.target_serveEdge_le_holdExtent cycles) (by omega) (Nat.le_max_right _ _)).imp
      fun s' hone hlong => hone (by omega)

theorem holdExtent_onWire_drive (s : Station n) (level : Bool) (phase : Phase) (cycles : Nat) :
    (s.onWire (s.wire.drive level) phase).holdExtent cycles = s.holdExtent cycles := by
  unfold Wire.drive
  split <;> rfl

/-- **A wire that is pulled low** and stays low for so long makes one bad frame of a zero. -/
theorem Ready.within_run_low (hs : s.Ready) {cycles : Nat}
    (hlong : s.receiver.period.firstInterval + 8 * s.receiver.period.ticks ≤ cycles) :
    Within id (s.holdExtent cycles) (Rests false (s.closeFrame 0 false))
      (run .receiver cycles (s.onWire (s.wire.drive false) .idle)) := by
  have hnow : (s.onWire (s.wire.drive false) .idle).wire.now = s.wire.now := s.wire.now_drive false
  have hedges : (s.onWire (s.wire.drive false) .idle).wire.edgeCount = s.wire.edgeCount :=
    s.wire.edgeCount_drive false
  have hheed : (s.wire.heed false).now = s.wire.now := rfl
  have hfirst := s.le_holdExtent cycles
  have hticks := s.receiver.period.ticks_le_firstInterval
  have hzero : Frame.byte (List.replicate 8 false) = 0 := by decide
  refine within_run (by omega) (fun _ => hedges ▸ Nat.le_max_left _ _) fun _ => ?_
  rw [hnow, serveEdge_of_fall hs.listening hs.readable hs.high, ← hzero]
  exact within_serveMatches_beginFrame hs.readable (by omega) (by omega) (Nat.le_max_right _ _)

/-! ## 5. One run or many -/

/-- Put a level on the wire and hold it, in runs of so many cycles each. -/
def holdEach (level : Bool) (runs : List Nat) : EStateM Fault (Station n) Unit := do
  drive level
  runs.forM (run .receiver)

/-- To hold a level in many runs is to hold it in one. -/
theorem within_holdEach (hsound : Sound timings s.receiver s.wire) (hread : s.readable = true)
    (level : Bool) {runs : List Nat} (hruns : 0 < runs.sum) :
    Within id (s.holdExtent runs.sum)
      (fun s' =>
        run .receiver runs.sum (s.onWire (s.wire.drive level) s.receiver.phase) = .ok () s')
      (holdEach level runs s) := by
  cases runs with
  | nil => exact absurd hruns (Nat.lt_irrefl 0)
  | cons a rest =>
    -- a part of the hold counts no more than the whole of it
    have hone : ∀ cycles ≤ a + rest.sum, Within id (s.holdExtent (a + rest.sum)) (fun _ => True)
        (run .receiver cycles (s.onWire (s.wire.drive level) s.receiver.phase)) := by
      intro cycles hle
      have hrun := within_run_held (s := s.onWire (s.wire.drive level) s.receiver.phase)
        (hsound.drive level) hread cycles
      rw [holdExtent_onWire_drive] at hrun
      exact hrun.mono (holdExtent_mono hle) fun _ _ => trivial
    exact within_runs (s := s.onWire (s.wire.drive level) s.receiver.phase)
      (fun _ => hsound.phase.occurs) rest hone

/-! ## 6. Back at rest -/

/-- **`s'` is `s` after one frame more.**  A low stop bit was counted, and the byte was queued and
handed on if the policy wanted it and the queue had room. -/
structure Takes (byte : UInt8) (stopBit : Bool) (s s' : Station n) : Prop where
  completed : s'.completed = s.completed ++ [(byte, stopBit)]
  badFrames : s'.queue.badFrames = s.queue.badFrames + if stopBit then 0 else 1
  accepted : s.receiver.policy.wants stopBit = true → s.queue.hasRoom = true →
    s'.queue.toList = s.queue.toList ++ [byte] ∧ s'.sink = s.sink.push byte
  discarded : s.receiver.policy.wants stopBit = false →
    s'.queue.toList = s.queue.toList ∧ s'.sink = s.sink

theorem takes_closeFrame (s : Station n) (byte : UInt8) (stopBit : Bool) :
    Takes byte stopBit s (s.closeFrame byte stopBit) := by
  have hcloses := closes_closeFrame s byte stopBit
  refine ⟨completed_closeFrame s byte stopBit, hcloses.badFrames, ?_, ?_⟩
  · intro hwants hroom
    rw [ReceiveQueue.hasRoom_iff, ReceiveQueue.length_toList] at hroom
    -- wanted and with room for it: accepted, so the queue and the sink both grow
    have haccepted : (s.completion byte stopBit).isAccepted n = true := by
      simp [Completion.isAccepted, Completion.isWanted, completion, hwants, hroom]
    have hqueue := hcloses.queue
    have hsink := hcloses.sink
    rw [haccepted, if_pos rfl] at hqueue hsink
    exact ⟨hqueue, hsink⟩
  · intro hwants
    have haccepted : (s.completion byte stopBit).isAccepted n = false := by
      simp [Completion.isAccepted, Completion.isWanted, completion, hwants]
    have hqueue := hcloses.queue
    have hsink := hcloses.sink
    rw [haccepted, if_neg Bool.false_ne_true] at hqueue hsink
    exact ⟨hqueue.trans (List.append_nil _), hsink⟩

theorem Rests.takes {byte : UInt8} {stopBit : Bool}
    (h : Rests level (s.closeFrame byte stopBit) s') : Takes byte stopBit s s' := by
  have htakes := takes_closeFrame s byte stopBit
  rw [h.station]
  exact ⟨htakes.completed, htakes.badFrames, htakes.accepted, htakes.discarded⟩

theorem OneFrame.takes (h : OneFrame level s s') :
    (s'.completed = s.completed ∧ s'.queue = s.queue ∧ s'.sink = s.sink) ∨
      ∃ byte, Takes byte level s s' := by
  rcases h with hnone | ⟨byte, hone⟩
  · rw [hnone.station]
    exact .inl ⟨rfl, rfl, rfl⟩
  · exact .inr ⟨byte, hone.takes⟩

/-- **What a held level leaves behind:** a receiver at rest, with one frame completed at the most.
A line that breaks while the receiver waits is one bad frame of a zero; and after a high level the
receiver takes in any frame whose bits are inside its window. -/
structure Resyncs (level : Bool) (s s' : Station n) : Prop where
  idle : s'.receiver.phase = .idle
  listening : s'.wire.Listening
  held : s'.wire.level = level
  oneFrame : (s'.completed = s.completed ∧ s'.queue = s.queue ∧ s'.sink = s.sink) ∨
    ∃ byte, Takes byte level s s'
  breaks : s.Ready → level = false → Takes 0 false s s'
  decodes : level = true → ∀ (byte : UInt8) (cycles : Nat), s.receiver.period.Tolerates cycles →
    Within id (s'.streamExtent cycles [(byte, true)])
      (fun s'' => s''.Ready ∧ Takes byte true s' s'')
      (playFrames .receiver cycles [(byte, true)] s')

/-- A receiver that is ready takes in one frame. -/
theorem Ready.within_playFrame (hs : s.Ready) {cycles : Nat}
    (hwindow : s.receiver.period.Tolerates cycles) (byte : UInt8) :
    Within id (s.streamExtent cycles [(byte, true)])
      (fun s' => s'.Ready ∧ Takes byte true s s')
      (playFrames .receiver cycles [(byte, true)] s) := by
  refine (hs.armed.hears_playFrames hwindow (byte, true) []).imp ?_
  rintro s' ⟨hheard, hhigh⟩
  have hrests : Rests true (s.closeFrame byte true) s' :=
    ⟨hheard.station, hheard.listening rfl, hhigh⟩
  refine ⟨⟨hhigh, hrests.listening, hrests.idle, ?_⟩, hrests.takes⟩
  rw [hrests.station]
  exact (readable_closeFrame s byte true).trans hs.readable

/-- **A level that is held brings a receiver back to rest,** wherever its life has led it, if its
pin can be read and the level is held for one first interval and eight bits or more, in one run or
in many.  Only a count of cycles that leaves 64 bits can prevent it, or a count of interrupts that
leaves 32: one edge is counted, and nine matches at the most. -/
theorem holdEach_resyncs (hs : s.Reached) (hread : s.readable = true) (level : Bool)
    (runs : List Nat)
    (hlong : s.receiver.period.firstInterval + 8 * s.receiver.period.ticks ≤ runs.sum) :
    Within id (s.holdExtent runs.sum) (Resyncs level s) (holdEach level runs s) := by
  obtain ⟨timings, hsound⟩ := hs.sound
  have htwo := s.receiver.period.two_le_ticks
  refine (within_holdEach hsound hread level (by omega)).imp ?_
  intro s' hok
  have hsame := (sameSetting_run hok).1
  -- the runs are one run of their sum, and that run ends at rest
  have hone := within_run_held (s := s.onWire (s.wire.drive level) s.receiver.phase)
    (hsound.drive level) hread runs.sum
  rw [hok] at hone
  have hframe : OneFrame level s s' := by
    have hlevel := Wire.level_drive s.wire level
    exact hlevel ▸ (hone hlong).of_onWire
  obtain ⟨base, hrests⟩ := hframe.rests
  refine ⟨hrests.idle, hrests.listening, hrests.held, hframe.takes, ?_, ?_⟩
  -- a break: the wire goes low under a receiver that waits, and every bit is a zero
  · rintro hready rfl
    have hlow := hready.within_run_low hlong
    rw [← hready.idle, hok] at hlow
    exact Rests.takes hlow
  · rintro rfl byte cycles hwindow
    -- the wire is back at high, so the receiver is ready for the next frame
    have hready : s'.Ready :=
      ⟨hrests.held, hrests.listening, hrests.idle, hsame.readable.trans hread⟩
    have hperiod : s'.receiver.period = s.receiver.period := hsame.period
    rw [← hperiod] at hwindow
    exact hready.within_playFrame hwindow byte

/-- A receiver with two data bits of a frame, and a wire that comes back to high in three runs,
which take together the time of one frame and not a cycle more. -/
theorem holdEach_resyncs_two_bits :
    let w : Wire := ⟨16000000, false, 100, false, false, true, 40, 100, 1, 2⟩
    let r : Receiver := ⟨.data 0 2, ⟨40, 2500, by decide⟩, .keep⟩
    let s : Station 2 := ⟨w, r, true, .empty, .discard, []⟩
    s.Reached ∧ r.period.firstInterval + 8 * r.period.ticks = [100, 0, 280].sum ∧
      ∃ s', holdEach true [100, 0, 280] s = .ok () s' ∧ Resyncs true s s' := by
  intro w r s
  have hreached : s.Reached := by
    have hrate : BitPeriod.ofRate 16000000 400000 65535 = .ok ⟨40, 2500, by decide⟩ := by decide
    exact ⟨Wire.fresh 16000000, 16000000, 400000, 65535, _, .keep, .empty, .discard,
      [.drive false, .run 100], rfl, Nat.le_refl _, hrate, by cbv⟩
  have hheld := holdEach_resyncs hreached rfl true [100, 0, 280] (by decide)
  obtain ⟨⟨⟩, s', hok, hs'⟩ := hheld.exists_ok ⟨by decide, by decide⟩
  exact ⟨hreached, by decide, s', hok, hs'⟩

/-- A wire that breaks when the count of matches has run full (`run_neglected`), and one that breaks
when the clock has: the time of a frame does not bring the receiver back to rest, as it is stopped in
the middle of the frame, or that time never comes. -/
theorem holdEach_runs_out :
    let period : BitPeriod := ⟨40, 2500, by decide⟩
    let s : Station 2 :=
      attach (Wire.neglected 16000000 4294967295) period .discard .empty .discard
    let late : Wire := { Wire.fresh 16000000 with now := 18446744073709551615 }
    let t : Station 2 := attach late period .discard .empty .discard
    period.firstInterval + 8 * period.ticks ≤ [380].sum ∧
      (s.Reached ∧ s.readable = true ∧ (s.holdExtent [380].sum).lastCycle < Wire.timeLimit ∧
        ∃ s', holdEach false [380] s = .error .count s' ∧ s'.receiver.phase ≠ .idle) ∧
      t.Reached ∧ t.readable = true ∧ ∃ t', holdEach false [380] t = .error .clock t' := by
  intro period s late t
  have hrate : BitPeriod.ofRate 16000000 400000 65535 = .ok period := by decide
  have hs : s.Reached :=
    ⟨.neglected 16000000 4294967295, 16000000, 400000, 65535, _, .discard, .empty, .discard, [],
      rfl, Nat.le_refl _, hrate, rfl⟩
  have ht : t.Reached :=
    ⟨Wire.fresh 16000000, 16000000, 400000, 65535, _, .discard, .empty, .discard,
      [.run 18446744073709551615], rfl, Nat.le_refl _, hrate, by cbv⟩
  -- the start bit is confirmed by the last match that the count has room for
  have hready : s.Ready := ⟨rfl, ⟨rfl, rfl, rfl⟩, rfl, rfl⟩
  obtain ⟨last, hstopped⟩ :=
    hready.play_of_full (by decide) (by decide) 380 [] (by decide) (by decide)
  have hheld : holdEach false [380] s = play .receiver [(false, 380)] s := rfl
  have hbusy : Phase.confirming ≠ .idle := by decide
  exact ⟨by decide, ⟨hs, rfl, by decide, _, hheld.trans hstopped, hbusy⟩, ht, rfl, _, rfl⟩

end Station

end SerialLink
