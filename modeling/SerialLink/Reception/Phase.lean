/-
# Where a receiver stands in a frame

A frame is taken in by nine samples: eight data bits, lowest first, and the stop bit.  `Phase`
is how far it has come, and `Phase.sample` is one sample.

The interval before the first sample is one and a half bits, so the first sample already is
data bit 0: `confirming` samples as `data` does with nothing taken in (`sample_confirming`).
A data bit has to have a place in its byte, and so has the index of the next one; a phase that
breaks either is no phase of a real frame, and sampling in it is a fault.

`Phase` is the program's `RxState`, `Phase.sample` is `RxState::step`, and what it comes to is a
`Step`.
-/
import SerialLink.Fault

namespace SerialLink

/-- How much of a frame has been taken in. -/
inductive Phase where
  /-- No frame: waiting for a falling edge. -/
  | idle
  /-- A falling edge was seen, and no bit sampled yet. -/
  | confirming
  /-- `index` data bits are in `pending`. -/
  | data (pending index : UInt8)
  /-- All data bits are in `pending`, and the stop bit is next. -/
  | stopping (pending : UInt8)
  deriving DecidableEq, Repr

/-- What a sample comes to. -/
inductive Sampled where
  /-- The frame goes on. -/
  | going (next : Phase)
  /-- The frame is complete. -/
  | frame (byte : UInt8) (stopBit : Bool)
  /-- There was no frame to sample. -/
  | spurious
  deriving DecidableEq, Repr

namespace Phase

/-- No frame is under way. -/
def isIdle : Phase → Bool
  | idle => true
  | _ => false

/-- `pending` with data bit `index` set to the sampled level. -/
def withBit (pending index : UInt8) (level : Bool) : UInt8 :=
  if level then pending ||| 1 <<< index else pending

/-- Take in data bit `index`.  The bit needs a place only if it is high; the next index is
checked after it. -/
def sampleData (pending index : UInt8) (level : Bool) : Except Fault Sampled :=
  if level && 8 ≤ index then
    .error .bitPlace
  else if index = 255 then
    .error .bitIndex
  else if index + 1 = 8 then
    .ok (.going (stopping (withBit pending index level)))
  else
    .ok (.going (data (withBit pending index level) (index + 1)))

/-- Take one sample of the wire. -/
def sample (level : Bool) : Phase → Except Fault Sampled
  | idle => .ok .spurious
  | confirming => sampleData 0 0 level
  | data pending index => sampleData pending index level
  | stopping pending => .ok (.frame pending level)

@[simp] theorem sample_idle (level : Bool) : idle.sample level = .ok .spurious := rfl

theorem sample_confirming (level : Bool) :
    confirming.sample level = (data 0 0).sample level := rfl

@[simp] theorem sample_stopping (pending : UInt8) (level : Bool) :
    (stopping pending).sample level = .ok (.frame pending level) := rfl

end Phase

end SerialLink
