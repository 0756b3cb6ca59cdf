/-
# How far the two ends of a wire round apart

The bit of a `Transmitter` is a number of nanoseconds, which `Line::cycles_for_ns` turns into
cycles; that of a `Receiver` is a number of ticks of the same clock.  From one clock and one
rate the first takes two divisions and the second takes one, and each of them rounds down.

What is lost on the way is bounded by the clock alone (`Wire.lost_lt`): less than one cycle by the
second division, and less than one nanosecond, which is `clock / 10 ^ 9` cycles, by the first one
for each bit.  So up to a clock of 1 GHz the lengths are one cycle apart at most
(`Wire.cyclesIn_eq_or`), and this is little enough for a frame as soon as a bit has 19 ticks: then
ten of the shorter bits still reach the ninth sample (`BitPeriod.tolerates_of_close`).

The sums and products behind all this stay inside their words, over the whole range of the three
words that go in (`BitPeriod.firstInterval_lt`, `Wire.nanos_mul_clock_lt`).
-/
import SerialLink.Proofs.Rates
import SerialLink.Proofs.Framing

namespace SerialLink

/-! ## 1. The words -/

namespace BitPeriod

variable {p : BitPeriod} {clock baud longest : UInt32} {cycles : Nat}

theorem firstInterval_le_longest (h : ofRate clock baud longest = .ok p) :
    p.firstInterval ≤ longest.toNat :=
  Accepted.firstInterval_le ⟨clock, baud, h⟩

/-- **The first interval is summed inside its word:** the timer can count to it. -/
theorem firstInterval_lt (h : ofRate clock baud longest = .ok p) :
    p.ticks + p.half < UInt32.size :=
  Nat.lt_of_le_of_lt (firstInterval_le_longest h) longest.toNat_lt

end BitPeriod

namespace Wire

variable {w : Wire} {p : BitPeriod} {baud longest : UInt32}

/-- **Nanoseconds and clock are multiplied inside their word:** a bit has no more nanoseconds than
a second. -/
theorem nanos_mul_clock_lt (h : BitPeriod.ofRate w.clock baud longest = .ok p) :
    p.nanos * w.clock.toNat < UInt64.size := by
  have hnanos : p.nanos ≤ 1000000000 := BitPeriod.Accepted.nanos_le ⟨w.clock, baud, h⟩
  have hclock := w.clock.toNat_lt
  calc p.nanos * w.clock.toNat ≤ 1000000000 * w.clock.toNat := Nat.mul_le_mul_right _ hnanos
    _ < UInt64.size := by
      rw [UInt64.size]
      omega

/-! ## 2. What is lost -/

/-- A receiver's bit in nanoseconds, against the cycles of a transmitter's: each division is taken
as a product, the ticks from above and the other two from below. -/
theorem ticks_mul_lt (h : BitPeriod.ofRate w.clock baud longest = .ok p) :
    p.ticks * 1000000000 < (w.cyclesIn p.nanos + 1) * 1000000000 + w.clock.toNat := by
  obtain ⟨-, hticks, hnanos, -⟩ := BitPeriod.ofRate_eq_ok_iff.mp h
  have hpos := BitPeriod.baud_pos h
  -- the ticks from above: a bit of them is no longer than a bit of the clock
  have hbit : p.ticks * baud.toNat ≤ w.clock.toNat := by
    rw [hticks]
    exact Nat.div_mul_le_self _ _
  -- the nanoseconds from below: one more would be too many for a second
  have hsecond : 1000000000 < (p.nanos + 1) * baud.toNat := by
    rw [hnanos, Nat.mul_comm]
    exact Nat.lt_mul_div_succ _ hpos
  have hcycles : p.nanos * w.clock.toNat < (w.cyclesIn p.nanos + 1) * 1000000000 := by
    rw [cyclesIn, Nat.mul_comm _ 1000000000]
    exact Nat.lt_mul_div_succ _ (by decide)
  calc p.ticks * 1000000000 ≤ p.ticks * ((p.nanos + 1) * baud.toNat) :=
        Nat.mul_le_mul_left _ (Nat.le_of_lt hsecond)
    _ = (p.nanos + 1) * (p.ticks * baud.toNat) := Nat.mul_left_comm _ _ _
    _ ≤ (p.nanos + 1) * w.clock.toNat := Nat.mul_le_mul_left _ hbit
    _ = p.nanos * w.clock.toNat + w.clock.toNat := Nat.succ_mul _ _
    _ < (w.cyclesIn p.nanos + 1) * 1000000000 + w.clock.toNat :=
        Nat.add_lt_add_right hcycles _

/-- **The two lengths differ by less than the clock's share of a nanosecond and one cycle.** -/
theorem lost_lt (h : BitPeriod.ofRate w.clock baud longest = .ok p) :
    (p.ticks - w.cyclesIn p.nanos) * 1000000000 < w.clock.toNat + 1000000000 := by
  have hshort := cyclesIn_nanos_le_ticks h
  have hticks := ticks_mul_lt h
  rw [Nat.sub_mul]
  omega

/-- Up to 1 GHz a transmitter's bit is its receiver's, or one cycle shorter. -/
theorem cyclesIn_eq_or (h : BitPeriod.ofRate w.clock baud longest = .ok p)
    (hclock : w.clock.toNat ≤ 1000000000) :
    w.cyclesIn p.nanos = p.ticks ∨ w.cyclesIn p.nanos + 1 = p.ticks := by
  have hshort := cyclesIn_nanos_le_ticks h
  have hlost := lost_lt h
  omega

end Wire

/-! ## 3. What a frame can bear -/

/-- Ten bits that are one cycle short are ten cycles short, and from 19 ticks on half a bit is as
much. -/
theorem BitPeriod.tolerates_of_close {p : BitPeriod} {cycles : Nat}
    (hclose : cycles = p.ticks ∨ cycles + 1 = p.ticks) (hlong : 19 ≤ p.ticks) :
    p.Tolerates cycles := by
  constructor
  -- ten cycles are lost in ten bits: half of 19 ticks and the last bit itself make up for them
  · rw [half]
    omega
  · rw [half]
    omega

/-- What a bit comes to at both ends of a wire. -/
structure Wire.Rounds (w : Wire) (p : BitPeriod) (longest : UInt32) : Prop where
  /-- The first interval does not leave its word. -/
  sum : p.ticks + p.half < UInt32.size
  firstInterval : p.firstInterval = 3 * p.ticks / 2
  timer : p.firstInterval ≤ longest.toNat
  /-- Nor does the product of which the cycles are taken. -/
  product : p.nanos * w.clock.toNat < UInt64.size
  shorter : w.cyclesIn p.nanos ≤ p.ticks
  lost : (p.ticks - w.cyclesIn p.nanos) * 1000000000 < w.clock.toNat + 1000000000
  close : w.clock.toNat ≤ 1000000000 →
    w.cyclesIn p.nanos = p.ticks ∨ w.cyclesIn p.nanos = p.ticks - 1
  tolerates : w.clock.toNat ≤ 1000000000 → 19 ≤ p.ticks → p.Tolerates (w.cyclesIn p.nanos)

/-- **Whatever clock, rate and timer are accepted,** nothing leaves its word, and the two ends of
the wire agree on the length of a bit up to what the clock makes in a nanosecond, and one cycle.
Up to 1 GHz, with 19 ticks a bit or more, a frame is heard as it was sent. -/
theorem Wire.rounds_of_ofRate {w : Wire} {p : BitPeriod} {baud longest : UInt32}
    (h : BitPeriod.ofRate w.clock baud longest = .ok p) : w.Rounds p longest := by
  -- a bit has two ticks at least, so one less is no truncation
  have hclose : w.clock.toNat ≤ 1000000000 →
      w.cyclesIn p.nanos = p.ticks ∨ w.cyclesIn p.nanos = p.ticks - 1 := by
    intro hclock
    rcases cyclesIn_eq_or h hclock with hsame | hless
    · exact .inl hsame
    · exact .inr (by omega)
  exact {
    sum := BitPeriod.firstInterval_lt h
    firstInterval := p.firstInterval_eq
    timer := BitPeriod.firstInterval_le_longest h
    product := nanos_mul_clock_lt h
    shorter := cyclesIn_nanos_le_ticks h
    lost := lost_lt h
    close := hclose
    tolerates := fun hclock => BitPeriod.tolerates_of_close (cyclesIn_eq_or h hclock) }

/-- 19 ticks a bit at 16 MHz, and a cycle is lost: the ninth sample falls on the last cycle of the
frame. -/
theorem Wire.rounds_of_ofRate_19_ticks :
    BitPeriod.ofRate (fresh 16000000).clock 842105 65535 = .ok ⟨19, 1187, by decide⟩ ∧
      (fresh 16000000).cyclesIn 1187 = 18 ∧
      (fresh 16000000).Rounds ⟨19, 1187, by decide⟩ 65535 := by
  have hrate : BitPeriod.ofRate (fresh 16000000).clock 842105 65535
      = .ok ⟨19, 1187, by decide⟩ := by decide
  exact ⟨hrate, by decide, rounds_of_ofRate hrate⟩

end SerialLink
