/-
# The length of a bit, and the bits of a frame

One bit, measured twice: in ticks of the sampling timer, for the receiver, and in nanoseconds,
for the transmitter.  Both come from a clock and a baud rate, along two divisions of their own
that each round down, so the two lengths need not agree.

`BitPeriod.ofRate` accepts a rate exactly when a bit has a middle (two ticks or more) and the
receiver's first interval, one and a half bits, fits the timer (`ofRate_eq_ok_iff`).  A rate
that is refused for several reasons is refused for the first of them in the order of
`RateError`.  In the program these are `BitTiming::new` and `TimingError`.

Ten such bits are a frame, and `Frame.levels` are the levels that `drive_frame` puts on the wire
for one byte.
-/

namespace SerialLink

/-- Why a clock and a baud rate give no bit. -/
inductive RateError where
  /-- Zero bits in a second have no length. -/
  | zeroRate
  /-- Fewer than two ticks have no middle to sample at. -/
  | tooShort
  /-- One and a half bits are more ticks than the timer can count. -/
  | tooLong
  deriving DecidableEq, Repr

/-- The length of one bit. -/
structure BitPeriod where
  /-- Timer ticks from one sample to the next. -/
  ticks : Nat
  /-- How long the transmitter holds a level. -/
  nanos : Nat
  /-- A bit has a middle. -/
  two_le_ticks : 2 ≤ ticks
  deriving DecidableEq, Repr

namespace BitPeriod

/-- Timer ticks from the start of a bit to its middle. -/
def half (p : BitPeriod) : Nat := p.ticks / 2

/-- Timer ticks from the falling edge of a start bit to the middle of data bit 0. -/
def firstInterval (p : BitPeriod) : Nat := p.ticks + p.half

/-- The bit of a line at `baud` bits a second, for a timer that ticks `clock` times a second and
counts to `longest`. -/
def ofRate (clock baud longest : UInt32) : Except RateError BitPeriod :=
  let ticks := clock.toNat / baud.toNat
  if baud = 0 then
    .error .zeroRate
  else if short : ticks < 2 then
    .error .tooShort
  else if longest.toNat < ticks + ticks / 2 then
    .error .tooLong
  else
    .ok ⟨ticks, 1000000000 / baud.toNat, by omega⟩

/-! ## What is accepted -/

/-- **A rate is accepted** exactly when it is not zero and one and a half bits, of two ticks at
the least, fit the timer; the two lengths are then the two quotients. -/
theorem ofRate_eq_ok_iff {clock baud longest : UInt32} {p : BitPeriod} :
    ofRate clock baud longest = .ok p ↔
      baud ≠ 0 ∧ p.ticks = clock.toNat / baud.toNat ∧
        p.nanos = 1000000000 / baud.toNat ∧ p.firstInterval ≤ longest.toNat := by
  obtain ⟨ticks, nanos, two⟩ := p
  simp only [ofRate, firstInterval, half]
  constructor
  · intro h
    split at h
    · simp at h
    split at h
    · simp at h
    split at h
    · simp at h
    rename_i zero short long
    simp only [Except.ok.injEq, mk.injEq] at h
    obtain ⟨rfl, rfl⟩ := h
    exact ⟨zero, rfl, rfl, by omega⟩
  · rintro ⟨zero, rfl, rfl, fits⟩
    rw [if_neg zero, dif_neg (by omega), if_neg (by omega)]

/-- The first interval is one and a half bits, rounded down. -/
theorem firstInterval_eq (p : BitPeriod) : p.firstInterval = 3 * p.ticks / 2 := by
  simp only [firstInterval, half]
  omega

theorem ticks_le_firstInterval (p : BitPeriod) : p.ticks ≤ p.firstInterval :=
  Nat.le_add_right _ _

theorem firstInterval_pos (p : BitPeriod) : 0 < p.firstInterval :=
  Nat.lt_of_lt_of_le (Nat.lt_of_lt_of_le Nat.zero_lt_two p.two_le_ticks) p.ticks_le_firstInterval

end BitPeriod

namespace Frame

/-! ## Frames -/

/-- The data bits of a byte in the order they are sent: the lowest first. -/
def bits (byte : UInt8) : List Bool := (List.range 8).map byte.toNat.testBit

/-- The ten levels of a frame, of which the last is the stop bit. -/
def levels (byte : UInt8) (stopBit : Bool) : List Bool := false :: bits byte ++ [stopBit]

@[simp] theorem length_bits (byte : UInt8) : (bits byte).length = 8 := by simp [bits]

@[simp] theorem length_levels (byte : UInt8) (stopBit : Bool) :
    (levels byte stopBit).length = 10 := by simp [levels]

end Frame

end SerialLink
