/-
# Settings of a wire

What the two ends of a serial wire are built with, the usual values, and the text that shows
them: the UART's `Config` with its `FramingPolicy`, whose `timing` is `WireSettings.period` here.
-/
import SerialLink.Wire.BitPeriod

namespace SerialLink

/-- What becomes of a byte whose stop bit was low.  Either way the frame counts as bad. -/
inductive StopPolicy where
  /-- The byte is thrown away. -/
  | discard
  /-- The byte is kept all the same. -/
  | keep
  deriving DecidableEq, Repr

/-- The name of a policy. -/
def StopPolicy.name : StopPolicy → String
  | discard => "Drop"
  | keep => "Lenient"

/-- The settings of one wire. -/
structure WireSettings where
  /-- Ticks of the sampling timer in a second. -/
  clock : UInt32
  /-- Bits in a second. -/
  baud : UInt32
  /-- The longest interval of the sampling timer. -/
  longest : UInt32
  policy : StopPolicy
  deriving DecidableEq, Repr

namespace WireSettings

/-- A 16 MHz board with a 16 bit timer, at 9600 baud. -/
def standard : WireSettings := ⟨16000000, 9600, 65535, .discard⟩

/-- The slots of a receive queue of the usual size, one of which stays free. -/
def standardSlots : Nat := 64

/-- The bit that the settings ask for. -/
def period (s : WireSettings) : Except RateError BitPeriod :=
  BitPeriod.ofRate s.clock s.baud s.longest

/-- The settings with every field by its name. -/
def describe (s : WireSettings) : String :=
  "Config \x7b clock_hz: " ++ toString s.clock.toNat ++
    ", baud_rate: " ++ toString s.baud.toNat ++
    ", max_compare: " ++ toString s.longest.toNat ++
    ", framing: " ++ s.policy.name ++ " \x7d"

end WireSettings

end SerialLink
