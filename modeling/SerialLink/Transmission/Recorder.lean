/-
# A wire driver that writes down what is done to it

`Recorder` keeps the trace of a transmitter: every call of the pin, every wait, and, if it is
asked to, every call of the mask.  Which calls of the pin fail is decided beforehand, by their
number; a call that fails has a number too.

It is what the tests of `Transmitter` hand it for a `Pin`, a `Delay` and a `Mask`, all three
with one log, and `PinEvent` is their `Op`.
-/
import SerialLink.Transmission.Transmitter

namespace SerialLink

/-- One thing done to a wire driver. -/
inductive PinEvent where
  /-- The pin took a level. -/
  | level (high : Bool)
  /-- The pin was set to a level and failed. -/
  | levelFailed (high : Bool)
  | wait (nanos : Nat)
  | mask
  | unmask
  deriving DecidableEq, Repr

/-- An event in the trace: `H` and `L` for levels, `!` where the pin failed, `D` for a delay,
`M` and `U` for the mask. -/
def PinEvent.token : PinEvent → String
  | level high => if high then "H" else "L"
  | levelFailed high => if high then "H!" else "L!"
  | wait nanos => "D" ++ toString nanos
  | mask => "M"
  | unmask => "U"

/-- What masking does to a recorder. -/
inductive Masking where
  /-- It goes into the trace. -/
  | traced
  /-- Nothing. -/
  | none
  /-- It holds off every interrupt. -/
  | global
  deriving DecidableEq, Repr

/-- The trace of a wire driver, with the number of pin calls and the state of a global mask. -/
structure Recorder where
  events : Array PinEvent
  pinCalls : Nat
  interruptMask : InterruptMask
  deriving DecidableEq, Repr

namespace Recorder

/-- Nothing has been done yet. -/
def fresh : Recorder := ⟨#[], 0, .fresh⟩

/-- Add to the trace. -/
def note (r : Recorder) (event : PinEvent) : Recorder :=
  { r with events := r.events.push event }

/-- The trace so far, leaving it empty. -/
def takeEvents (r : Recorder) : Array PinEvent × Recorder := (r.events, { r with events := #[] })

/-- A trace as a line of text. -/
def trace (events : Array PinEvent) : String :=
  String.intercalate " " (events.toList.map PinEvent.token)

/-- Set the pin.  The call with number `k` fails if the schedule says so. -/
def drive (fails : Nat → Bool) (level : Bool) : EStateM (Halt PinFault) Recorder Unit := fun r =>
  let counted := { r with pinCalls := r.pinCalls + 1 }
  if fails r.pinCalls then .error (.error ⟨⟩) (counted.note (.levelFailed level))
  else .ok () (counted.note (.level level))

/-- Mask, in the recorder's way. -/
def mask (masking : Masking) (r : Recorder) : Recorder :=
  match masking with
  | .traced => r.note .mask
  | .none => r
  | .global => { r with interruptMask := r.interruptMask.mask }

/-- Unmask, in the recorder's way. -/
def unmask (masking : Masking) (r : Recorder) : Recorder :=
  match masking with
  | .traced => r.note .unmask
  | .none => r
  | .global => { r with interruptMask := r.interruptMask.unmask }

/-- The wire driver whose pin fails on schedule. -/
def driver (fails : Nat → Bool) (masking : Masking) : WireDriver Recorder where
  drive := drive fails
  wait nanos := modify fun r => r.note (.wait nanos)
  mask := mask masking
  unmask := unmask masking

end Recorder

end SerialLink
