/-
# Time

Here time passes, and the handlers are called as it does.

A run over some cycles serves the latched edge, if there is one, and then every match that
falls due before the run ends.  The handlers never move the level, so no edge can follow the
first: the edge comes first and the rest is matches (`serveEdge`, `serveMatches`).  A match
restarts the timer at a later cycle than before (`Wire.timerStart_lt_due`), which is why a run
ends even with an interval of zero.

Every sum of cycles has to fit 64 bits.  The end of the run is checked first, and the target
of the timer each time it is looked at, whether or not the timer is armed.  An interrupt is
served only if it can be counted: each of the two counts has to fit 32 bits.

In the program these are `Line::run`, `Line::send_frame` and `Delay` of the simulator, with
`Detached` where nobody listens; a station's `transmitter` is its `Transmitter` on a `TxPin`.
-/
import SerialLink.Reception.Station
import SerialLink.Transmission.Transmitter

namespace SerialLink

/-- Who serves the interrupts of a wire while time passes. -/
inductive Listener where
  /-- The station's receiver. -/
  | receiver
  /-- Nobody: interrupts are counted and have no effect. -/
  | nobody
  deriving DecidableEq, Repr

namespace Station

variable {n : Nat}

/-! ## 1. One event -/

/-- Take the latched edge, and serve it if it was due. -/
def serveEdge (who : Listener) (s : Station n) : Station n :=
  let taken := { s with wire := s.wire.takeEdge }
  match s.wire.edgeDue, who with
  | true, .receiver => taken.handleEdge
  | _, _ => taken

/-- Take the next match and serve it. -/
def serveMatch (who : Listener) (s : Station n) : Except Fault (Station n) :=
  let taken := { s with wire := s.wire.takeMatch }
  match who with
  | .receiver => taken.handleMatch
  | .nobody => .ok taken

theorem timerStart_serveMatch {who : Listener} {s s' : Station n}
    (h : s.serveMatch who = .ok s') : s'.wire.timerStart = s.wire.due := by
  cases who with
  | receiver => exact timerStart_handleMatch h
  | nobody => cases h; rfl

/-! ## 2. A run -/

/-- Serve the matches up to `stop`, and let time pass to `stop`. -/
def serveMatches (who : Listener) (stop : Nat) (s : Station n) :
    EStateM.Result Fault (Station n) Unit :=
  if Wire.timeLimit ≤ s.wire.target then
    .error .clock s
  else if _due : s.wire.timerArmed ∧ s.wire.due ≤ stop then
    if Wire.countLimit ≤ s.wire.matchCount + 1 then
      .error .count { s with wire := s.wire.reachMatch }
    else
      match _served : s.serveMatch who with
      | .error fault => .error fault s
      | .ok next => next.serveMatches who stop
  else
    .ok () { s with wire := s.wire.settle stop }
termination_by stop - s.wire.timerStart
decreasing_by
  have := timerStart_serveMatch _served
  have := s.wire.timerStart_lt_due
  omega

/-- The same with nobody to serve the matches.  They are all alike then, as nobody sets the timer,
and are taken in one step. -/
def passMatches (stop : Nat) (s : Station n) : EStateM.Result Fault (Station n) Unit :=
  let count := s.wire.matchesBy stop
  let room := Wire.countLimit - 1 - s.wire.matchCount
  let passed := { s with wire := s.wire.takeMatches (min count room) }
  if room < count then .error .count { passed with wire := passed.wire.reachMatch }
  else if Wire.timeLimit ≤ passed.wire.target then .error .clock passed
  else .ok () { passed with wire := passed.wire.settle stop }

/-- Let `cycles` pass, serving interrupts as they fall due. -/
def run (who : Listener) (cycles : Nat) : EStateM Fault (Station n) Unit := fun s =>
  let stop := s.wire.now + cycles
  if Wire.timeLimit ≤ stop then
    .error .clock s
  else if s.wire.edgeDue ∧ Wire.countLimit ≤ s.wire.edgeCount + 1 then
    .error .count { s with wire := s.wire.unlatch }
  else
    match who with
    | .receiver => (s.serveEdge who).serveMatches who stop
    | .nobody => (s.serveEdge who).passMatches stop

/-- Let as many cycles pass as so many nanoseconds hold. -/
def pause (who : Listener) (nanos : Nat) : EStateM Fault (Station n) Unit := fun s =>
  run who (s.wire.cyclesIn nanos) s

/-! ## 3. Waveforms -/

/-- Put a level on the wire. -/
def drive (level : Bool) : EStateM Fault (Station n) Unit :=
  modify fun s => { s with wire := s.wire.drive level }

/-- Put a level on the wire and hold it. -/
def hold (who : Listener) (level : Bool) (cycles : Nat) : EStateM Fault (Station n) Unit := do
  drive level
  run who cycles

/-- Play a waveform: each level for its number of cycles. -/
def play (who : Listener) (wave : List (Bool × Nat)) : EStateM Fault (Station n) Unit :=
  wave.forM fun segment => hold who segment.1 segment.2

/-- The waveform of one frame and one idle bit after it, each bit `bitCycles` long. -/
def frameWave (bitCycles : Nat) (byte : UInt8) (stopBit : Bool) : List (Bool × Nat) :=
  (Frame.levels byte stopBit ++ [true]).map fun level => (level, bitCycles)

/-- Play frames one after the other. -/
def playFrames (who : Listener) (bitCycles : Nat) (frames : List (UInt8 × Bool)) :
    EStateM Fault (Station n) Unit :=
  frames.forM fun frame => play who (frameWave bitCycles frame.1 frame.2)

/-! ## 4. A transmitter on the wire -/

/-- The driver of a station's wire, while `who` listens.  The pin is the wire itself, which takes
every level, and there is nothing to mask: interrupts are served by whoever listens while the time
passes. -/
def driver (who : Listener) : WireDriver (Station n) where
  drive level := (drive level).adaptExcept Halt.fault
  wait nanos := (pause who nanos).adaptExcept Halt.fault
  mask := id
  unmask := id

/-- The transmitter on the wire of a station, with the wire at its idle level already. -/
def transmitter (who : Listener) (period : BitPeriod) : Transmitter (Station n) :=
  ⟨driver who, period.nanos⟩

end Station

end SerialLink
