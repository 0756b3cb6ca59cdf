/-
# Sending bytes

A byte goes out as its ten levels, each put on the pin and held for one bit.  The receive path
is masked for the length of the frame and unmasked on every way out of it, a failing pin and a
fault included (`sendByte`).

Four ways to send bytes differ in what they select from what they are given, and in what they
answer:

* `sendUpToNul` stops at the first NUL and answers how many bytes it sent;
* `sendBounded` does the same within the first so many bytes;
* `write` sends everything, NULs too, and answers how many bytes there were;
* `writeText` sends the UTF-8 bytes of a text.

`sendByte` is `transmit_byte` of the program's `Transmitter`: the guard `Masked` around
`drive_frame`.  The four ways are its `transmit`, its `transmit_bounded`, and the `write` and
the `write_str` of the two traits `Write` that it implements.
-/
import SerialLink.Wire.BitPeriod
import SerialLink.Transmission.WireDriver

namespace SerialLink

/-- A wire driver, and how long it holds a level. -/
structure Transmitter (σ : Type) where
  driver : WireDriver σ
  nanos : Nat

namespace Transmitter

variable {σ : Type}

/-- Take a wire driver, and bring its wire to the idle level. -/
def attach (driver : WireDriver σ) (period : BitPeriod) :
    EStateM (Halt PinFault) σ (Transmitter σ) := do
  driver.drive true
  return ⟨driver, period.nanos⟩

/-! ## 1. One byte -/

/-- Put a level on the pin and hold it for one bit. -/
def holdLevel (tx : Transmitter σ) (level : Bool) : EStateM (Halt PinFault) σ Unit := do
  tx.driver.drive level
  tx.driver.wait tx.nanos

/-- Run an action with the receive path masked, however it ends. -/
def masked (tx : Transmitter σ) {α : Type} (act : EStateM (Halt PinFault) σ α) :
    EStateM (Halt PinFault) σ α := fun s =>
  match act (tx.driver.mask s) with
  | .ok a s => .ok a (tx.driver.unmask s)
  | .error e s => .error e (tx.driver.unmask s)

/-- Send one frame.  It is over when its stop bit is. -/
def sendByte (tx : Transmitter σ) (byte : UInt8) : EStateM (Halt PinFault) σ Unit :=
  tx.masked ((Frame.levels byte true).forM tx.holdLevel)

/-! ## 2. Many bytes -/

/-- Send bytes one after the other, up to the first that fails. -/
def sendEach (tx : Transmitter σ) (bytes : List UInt8) : EStateM (Halt PinFault) σ Unit :=
  bytes.forM tx.sendByte

/-- The bytes before the first NUL. -/
def upToNul (bytes : List UInt8) : List UInt8 := bytes.takeWhile (· != 0)

/-- Send the bytes before the first NUL, of the first `limit`.  The answer is their number. -/
def sendBounded (tx : Transmitter σ) (bytes : List UInt8) (limit : Nat) :
    EStateM (Halt PinFault) σ Nat := do
  let selected := upToNul (bytes.take limit)
  tx.sendEach selected
  return selected.length

/-- Send the bytes before the first NUL.  The answer is their number. -/
def sendUpToNul (tx : Transmitter σ) (bytes : List UInt8) : EStateM (Halt PinFault) σ Nat :=
  tx.sendBounded bytes bytes.length

/-- Send all the bytes.  The answer is their number. -/
def write (tx : Transmitter σ) (bytes : List UInt8) : EStateM (Halt PinFault) σ Nat := do
  tx.sendEach bytes
  return bytes.length

/-- Send a text. -/
def writeText (tx : Transmitter σ) (text : String) : EStateM (Halt PinFault) σ Unit :=
  tx.sendEach text.toUTF8.toList

end Transmitter

end SerialLink
