/-
# A receiver on its wire

A `Station` is all that receiving touches: the wire, the receiver, the pin through which it
reads the level, its queue, and the sink that gets each queued byte as well.

A receiver listens to one interrupt source at a time.  While it is idle that is the edge
detector; a falling edge disarms the detector and arms the timer, one and a half bits ahead,
and every match after that samples one bit, one bit apart.  The frame over, or given up, the
receiver waits for the next edge (`awaitEdge`).

`handleEdge` and `handleMatch` are the two interrupt handlers.  Neither moves the level or the
clock.  All that they can leave behind is in `handleEdge_cases` and `AfterMatch`.

The program's `Receiver` owns its pin, its two interrupt sources, its end of the queue and its
`ByteSink`; here they stand beside it.  `attach` is its constructor, the handlers are its
`on_edge` and `on_compare`, `closeFrame` is `deliver`, and `awaitEdge` is `rearm`.
-/
import SerialLink.Wire.Basic
import SerialLink.Wire.Settings
import SerialLink.Queue.ReceiveQueue
import SerialLink.Reception.Phase
import SerialLink.Reception.Report

namespace SerialLink

/-- A receiver's place in a frame, and what it was built with. -/
structure Receiver where
  phase : Phase
  period : BitPeriod
  policy : StopPolicy
  deriving DecidableEq, Repr

/-- Where queued bytes also go, one by one. -/
inductive Sink where
  /-- Nowhere. -/
  | discard
  /-- To a record of all of them, in order. -/
  | collect (bytes : List UInt8)
  deriving DecidableEq, Repr

namespace Sink

/-- Hand the sink a byte. -/
def push (byte : UInt8) : Sink → Sink
  | discard => discard
  | collect bytes => collect (bytes ++ [byte])

/-- Every byte the sink has kept. -/
def bytes : Sink → List UInt8
  | discard => []
  | collect bytes => bytes

end Sink

/-- A receiver, the wire it listens to, and where its bytes go. -/
structure Station (n : Nat) where
  wire : Wire
  receiver : Receiver
  /-- The receive pin can be read. -/
  readable : Bool
  queue : ReceiveQueue n
  sink : Sink
  /-- All that the receiver has reported, oldest first. -/
  journal : List Report
  deriving DecidableEq

namespace Station

variable {n : Nat}

/-! ## 1. Building a station -/

/-- Put an entry at the end of the journal. -/
def report (s : Station n) (entry : Report) : Station n :=
  { s with journal := s.journal ++ [entry] }

/-- Give up any frame and wait for an edge: the timer disarmed, the detector armed. -/
def awaitEdge (s : Station n) : Station n :=
  { s with
    receiver := { s.receiver with phase := .idle }
    wire := s.wire.disarmTimer.armEdge }

/-- A receiver on `wire`, waiting for its first edge. -/
def attach (wire : Wire) (period : BitPeriod) (policy : StopPolicy) (queue : ReceiveQueue n)
    (sink : Sink) : Station n :=
  awaitEdge
    { wire := wire
      receiver := ⟨.idle, period, policy⟩
      readable := true
      queue := queue
      sink := sink
      journal := [] }

/-- Replace the receiver by a new one with the same pin, sources, queue and sink. -/
def replaceReceiver (s : Station n) (period : BitPeriod) (policy : StopPolicy) : Station n :=
  awaitEdge { s with receiver := ⟨.idle, period, policy⟩ }

/-! ## 2. The end of a frame -/

/-- Queue a byte, and hand it to the sink if the queue took it. -/
def enqueue (s : Station n) (byte : UInt8) : Fate × Station n :=
  match s.queue.push byte with
  | (false, queue) => (.refused, { s with queue := queue.markLost })
  | (true, queue) => (.delivered, { s with queue := queue, sink := s.sink.push byte })

/-- Count a low stop bit, whatever the policy. -/
def countStop (s : Station n) (stopBit : Bool) : Station n :=
  if stopBit then s else { s with queue := s.queue.countBadFrame }

/-- A byte with this stop bit is wanted. -/
def wants (s : Station n) (stopBit : Bool) : Bool := stopBit || s.receiver.policy = .keep

/-- Deal with a completed frame. -/
def closeFrame (s : Station n) (byte : UInt8) (stopBit : Bool) : Station n :=
  let counted := s.countStop stopBit
  let (fate, closed) := if s.wants stopBit then counted.enqueue byte else (.dropped, counted)
  closed.report (.frame byte stopBit fate)

/-! ## 3. The handlers -/

/-- Turn from edges to matches, with the first one in the middle of data bit 0. -/
def beginFrame (s : Station n) : Station n :=
  { s with
    receiver := { s.receiver with phase := .confirming }
    wire := (s.wire.disarmEdge.setInterval s.receiver.period.firstInterval).restartTimer.armTimer }

/-- Serve an edge.  Only an idle receiver acts on one, and only if it finds the wire low. -/
def handleEdge (s : Station n) : Station n :=
  if !s.receiver.phase.isIdle then s
  else if !s.readable then s.report .edgeUnreadable
  else if s.wire.level then s
  else s.beginFrame

/-- Set the timer to match again one bit later. -/
def awaitNextBit (s : Station n) : Station n :=
  { s with wire := s.wire.setInterval s.receiver.period.ticks }

/-- Sample the wire, and act on what the sample comes to. -/
def takeSample (s : Station n) : Except Fault (Station n) :=
  match s.receiver.phase.sample s.wire.level with
  | .error fault => .error fault
  | .ok (.going next) => .ok { s with receiver := { s.receiver with phase := next } }
  | .ok (.frame byte stopBit) => .ok (s.closeFrame byte stopBit).awaitEdge
  | .ok .spurious => .ok (s.report .spuriousMatch).awaitEdge

/-- Serve a match.  The interval is set before anything else, and a wire that cannot be read
ends the frame. -/
def handleMatch (s : Station n) : Except Fault (Station n) :=
  if s.readable then s.awaitNextBit.takeSample
  else .ok (s.awaitNextBit.report .sampleUnreadable).awaitEdge

/-! ## 4. What the handlers leave alone -/

@[simp] theorem wire_report (s : Station n) (entry : Report) : (s.report entry).wire = s.wire := rfl

@[simp] theorem wire_awaitEdge (s : Station n) :
    s.awaitEdge.wire = s.wire.disarmTimer.armEdge := rfl

@[simp] theorem wire_enqueue (s : Station n) (byte : UInt8) :
    (s.enqueue byte).2.wire = s.wire := by
  unfold enqueue; split <;> rfl

@[simp] theorem wire_countStop (s : Station n) (stopBit : Bool) :
    (s.countStop stopBit).wire = s.wire := by
  cases stopBit <;> rfl

@[simp] theorem wire_closeFrame (s : Station n) (byte : UInt8) (stopBit : Bool) :
    (s.closeFrame byte stopBit).wire = s.wire := by
  cases h : s.wants stopBit <;> simp [closeFrame, h]

/-! ## 5. What the handlers do -/

/-- An edge is ignored, or reported, or begins a frame. -/
theorem handleEdge_cases (s : Station n) :
    s.handleEdge = s ∨ s.handleEdge = s.report .edgeUnreadable ∨ s.handleEdge = s.beginFrame := by
  unfold handleEdge
  split
  · exact .inl rfl
  · split
    · exact .inr (.inl rfl)
    · split
      · exact .inl rfl
      · exact .inr (.inr rfl)

/-- The stations that a match can leave behind. -/
inductive AfterMatch (s : Station n) : Station n → Prop
  | unreadable (hread : s.readable = false) :
      AfterMatch s (s.awaitNextBit.report .sampleUnreadable).awaitEdge
  | going (hread : s.readable = true) {next : Phase}
      (hsample : s.receiver.phase.sample s.wire.level = .ok (.going next)) :
      AfterMatch s { s.awaitNextBit with receiver := { s.receiver with phase := next } }
  | frame (hread : s.readable = true) {byte : UInt8} {stopBit : Bool}
      (hsample : s.receiver.phase.sample s.wire.level = .ok (.frame byte stopBit)) :
      AfterMatch s (s.awaitNextBit.closeFrame byte stopBit).awaitEdge
  | spurious (hread : s.readable = true)
      (hsample : s.receiver.phase.sample s.wire.level = .ok .spurious) :
      AfterMatch s (s.awaitNextBit.report .spuriousMatch).awaitEdge

variable {s s' : Station n}

/-- **A match that is no fault leaves one of these behind.** -/
theorem afterMatch_of_handleMatch (h : s.handleMatch = .ok s') : AfterMatch s s' := by
  unfold handleMatch at h
  split at h
  · rename_i hread
    unfold takeSample at h
    split at h
    · cases h
    · rename_i next hsample
      cases h
      exact .going hread hsample
    · rename_i byte stopBit hsample
      cases h
      exact .frame hread hsample
    · rename_i hsample
      cases h
      exact .spurious hread hsample
  · rename_i hread
    cases h
    exact .unreadable (Bool.eq_false_iff.mpr hread)

/-- A match is a fault only if its sample is one. -/
theorem exists_handleMatch {r : Sampled}
    (h : s.receiver.phase.sample s.wire.level = .ok r) : ∃ next, s.handleMatch = .ok next := by
  have hsample : s.awaitNextBit.receiver.phase.sample s.awaitNextBit.wire.level = .ok r := h
  unfold handleMatch
  split
  · unfold takeSample
    rw [hsample]
    cases r with
    | going next => exact ⟨_, rfl⟩
    | frame byte stopBit => exact ⟨_, rfl⟩
    | spurious => exact ⟨_, rfl⟩
  · exact ⟨_, rfl⟩

/-- On the wire a match sets the interval for one bit, and turns from matches to edges where the
frame is over or given up. -/
theorem wire_handleMatch (h : s.handleMatch = .ok s') :
    s'.wire = s.wire.setInterval s.receiver.period.ticks ∨
      s'.wire = (s.wire.setInterval s.receiver.period.ticks).disarmTimer.armEdge := by
  cases afterMatch_of_handleMatch h with
  | unreadable hread => exact .inr rfl
  | going hread hsample => exact .inl rfl
  | frame hread hsample =>
    right
    rw [wire_awaitEdge, wire_closeFrame]
    rfl
  | spurious hread hsample => exact .inr rfl

/-- A match leaves the timer's restart where it was: the interval changes, the count does not. -/
theorem timerStart_handleMatch (h : s.handleMatch = .ok s') :
    s'.wire.timerStart = s.wire.timerStart := by
  rcases wire_handleMatch h with hwire | hwire <;> rw [hwire] <;> rfl

end Station

end SerialLink
