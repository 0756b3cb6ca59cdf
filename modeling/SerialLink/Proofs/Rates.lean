/-
# What an accepted rate comes to

`BitPeriod.ofRate`, which is `BitTiming::new`, divides twice, once for the receiver's ticks and
once for the transmitter's nanoseconds, and a wire divides once more to turn nanoseconds into
cycles (`Line::cycles_for_ns`).  This module bounds what comes out, over the whole range of the
three words that go in.
-/
import SerialLink.Wire.Basic
import SerialLink.Wire.BitPeriod

namespace SerialLink

namespace BitPeriod

variable {p : BitPeriod} {clock baud longest : UInt32}

/-- Some clock and some rate give this bit, for a timer that counts to `longest`. -/
def Accepted (p : BitPeriod) (longest : UInt32) : Prop :=
  ∃ clock baud, ofRate clock baud longest = .ok p

theorem Accepted.nanos_le (h : p.Accepted longest) : p.nanos ≤ 1000000000 := by
  obtain ⟨clock, baud, hrate⟩ := h
  obtain ⟨-, -, hnanos, -⟩ := ofRate_eq_ok_iff.mp hrate
  rw [hnanos]
  exact Nat.div_le_self _ _

theorem Accepted.firstInterval_le (h : p.Accepted longest) :
    p.firstInterval ≤ longest.toNat := by
  obtain ⟨clock, baud, hrate⟩ := h
  exact (ofRate_eq_ok_iff.mp hrate).2.2.2

/-- An accepted rate is not zero. -/
theorem baud_pos (h : ofRate clock baud longest = .ok p) : 0 < baud.toNat := by
  obtain ⟨hbaud, -⟩ := ofRate_eq_ok_iff.mp h
  apply Nat.pos_of_ne_zero
  intro hzero
  exact hbaud (UInt32.toNat_inj.mp hzero)

/-- **A rate whose bits are no nanosecond long is one of more than `10 ^ 9` bits a second.** -/
theorem nanos_ne_zero_iff (h : ofRate clock baud longest = .ok p) :
    p.nanos ≠ 0 ↔ baud.toNat ≤ 1000000000 := by
  obtain ⟨-, -, hnanos, -⟩ := ofRate_eq_ok_iff.mp h
  have hpos := baud_pos h
  rw [hnanos, Nat.ne_zero_iff_zero_lt, Nat.div_pos_iff]
  exact ⟨fun h => h.2, fun h => ⟨hpos, h⟩⟩

end BitPeriod

namespace Wire

variable {w : Wire} {p : BitPeriod} {baud longest : UInt32}

/-- A second is as many cycles as the clock makes in it, and less is no more. -/
theorem cyclesIn_le_clock {nanos : Nat} (h : nanos ≤ 1000000000) :
    w.cyclesIn nanos ≤ w.clock.toNat := by
  rw [cyclesIn]
  exact Nat.div_le_of_le_mul (Nat.mul_le_mul_right _ h)

/-- **A transmitter's bit is not longer than its receiver's.** -/
theorem cyclesIn_nanos_le_ticks (h : BitPeriod.ofRate w.clock baud longest = .ok p) :
    w.cyclesIn p.nanos ≤ p.ticks := by
  obtain ⟨-, hticks, hnanos, -⟩ := BitPeriod.ofRate_eq_ok_iff.mp h
  have hpos := BitPeriod.baud_pos h
  -- the first division: so many bits of so many nanoseconds make no more than a second
  have hsecond : p.nanos * baud.toNat ≤ 1000000000 := by
    rw [hnanos]
    exact Nat.div_mul_le_self _ _
  rw [hticks, Nat.le_div_iff_mul_le hpos, cyclesIn]
  have hgiga : 0 < 1000000000 := by decide
  -- the second one is undone by its divisor, which stands on both sides then
  refine Nat.le_of_mul_le_mul_left ?_ hgiga
  calc 1000000000 * (p.nanos * w.clock.toNat / 1000000000 * baud.toNat)
      = 1000000000 * (p.nanos * w.clock.toNat / 1000000000) * baud.toNat := by
        rw [Nat.mul_assoc]
    _ ≤ p.nanos * w.clock.toNat * baud.toNat := Nat.mul_le_mul_right _ (Nat.mul_div_le _ _)
    _ = p.nanos * baud.toNat * w.clock.toNat := Nat.mul_right_comm _ _ _
    _ ≤ 1000000000 * w.clock.toNat := Nat.mul_le_mul_right _ hsecond

end Wire

end SerialLink
