/-
# What a transmitter is given

A transmitter owns an output pin, a way to wait, and a mask that keeps the receive path quiet
while it drives a frame.  `WireDriver σ` is the three of them, over whatever state `σ` they act
on.  The pin is the only one that can fail.

In the program they are the `OutputPin`, the `DelayNs` and the `RxMask` that `Transmitter` is
generic in.  `InterruptMask` is the mask that holds off every interrupt, `GlobalMask`.
-/
import SerialLink.Fault

namespace SerialLink

/-- The output pin did not take the level it was set to. -/
structure PinFault where
  deriving DecidableEq, Repr

/-- A pin, a wait and a mask, over a state. -/
structure WireDriver (σ : Type) where
  /-- Set the level of the pin. -/
  drive : Bool → EStateM (Halt PinFault) σ Unit
  /-- Let nanoseconds pass. -/
  wait : Nat → EStateM (Halt PinFault) σ Unit
  /-- Keep the receive path quiet from here on. -/
  mask : σ → σ
  /-- Let the receive path work again. -/
  unmask : σ → σ

/-- A mask that holds every interrupt off, once: a second `mask` adds nothing, and one `unmask`
ends it. -/
structure InterruptMask where
  isMasked : Bool
  deriving DecidableEq, Repr

namespace InterruptMask

/-- A mask that holds nothing off. -/
def fresh : InterruptMask := ⟨false⟩

/-- Hold every interrupt off. -/
def mask (_ : InterruptMask) : InterruptMask := ⟨true⟩

/-- Hold nothing off any more. -/
def unmask (_ : InterruptMask) : InterruptMask := ⟨false⟩

end InterruptMask

end SerialLink
