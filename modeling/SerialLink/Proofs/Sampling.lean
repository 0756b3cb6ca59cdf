/-
# What a list of samples comes to

A receiver takes in a frame sample by sample.  This module says what it holds after some of
them without saying how it got there: `Phase.after taken` is read off the list of the levels
that were sampled, and `Frame.byte` off the first eight of them.

`sample_after` and `sample_after_eight` then say that `Phase.sample`, the program's
`RxState::step`, goes from one such phase to the next, so everything above this module can speak
of lists of levels.  No sample of a list of eight or fewer is a fault.
-/
import Mathlib
import SerialLink.Reception.Phase
import SerialLink.Wire.BitPeriod

namespace SerialLink

/-! ## 1. Bits and bytes -/

namespace Frame

/-- The number whose binary digits these are, the lowest first. -/
def value : List Bool → Nat
  | [] => 0
  | bit :: rest => bit.toNat + 2 * value rest

/-- The byte whose bits these are, the lowest first. -/
def byte (bits : List Bool) : UInt8 := UInt8.ofNat (value bits)

theorem value_lt : ∀ bits : List Bool, value bits < 2 ^ bits.length
  | [] => by simp [value]
  | bit :: rest => by
    have ih := value_lt rest
    have hbit := bit.toNat_le
    simp only [value, List.length_cons, Nat.pow_succ]
    omega

/-- A bit more is a digit in front. -/
theorem value_concat (bit : Bool) : ∀ bits : List Bool,
    value (bits ++ [bit]) = value bits + bit.toNat * 2 ^ bits.length
  | [] => by simp [value]
  | first :: rest => by
    have ih := value_concat bit rest
    have hpow : bit.toNat * 2 ^ (rest.length + 1) = 2 * (bit.toNat * 2 ^ rest.length) := by
      rw [Nat.pow_succ, Nat.mul_comm (2 ^ rest.length) 2, Nat.mul_left_comm]
    simp only [List.cons_append, value, ih, List.length_cons, hpow]
    omega

/-- The lowest `k` digits of a number say the number up to a multiple of `2 ^ k`. -/
theorem value_map_testBit (k : Nat) : ∀ n : Nat,
    value ((List.range k).map n.testBit) = n % 2 ^ k := by
  induction k with
  | zero => intro n; simp [value, Nat.mod_one]
  | succ k ih =>
    intro n
    have hshift : n.testBit ∘ Nat.succ = (n / 2).testBit := by
      funext i
      simp [Nat.testBit_succ]
    have hlow : (n.testBit 0).toNat = n % 2 := by
      rw [Nat.testBit_zero]
      rcases Nat.mod_two_eq_zero_or_one n with h | h <;> simp [h]
    rw [List.range_succ_eq_map, List.map_cons, List.map_map, hshift, value, ih, hlow,
      Nat.pow_succ, Nat.mul_comm (2 ^ k), Nat.mod_mul]

/-- **The bits of a byte, put together again, are the byte.** -/
@[simp] theorem byte_bits (b : UInt8) : byte (bits b) = b := by
  rw [byte, bits, value_map_testBit]
  exact UInt8.toNat_inj.mp (by simp)

end Frame

/-! ## 2. One sample more -/

namespace Phase

/-- What a receiver holds once it has taken these samples of a frame. -/
def after (taken : List Bool) : Phase :=
  if taken.length = 0 then .confirming
  else if taken.length < 8 then .data (Frame.byte taken) (UInt8.ofNat taken.length)
  else .stopping (Frame.byte taken)

@[simp] theorem after_nil : after [] = .confirming := rfl

theorem after_ne_idle (taken : List Bool) : after taken ≠ .idle := by
  unfold after
  split
  · simp
  · split <;> simp

@[simp] theorem isIdle_after (taken : List Bool) : (after taken).isIdle = false := by
  unfold after
  split
  · rfl
  · split <;> rfl

/-- **A phase that occurs:** there is no frame, or some samples of one have been taken. -/
def Occurs (phase : Phase) : Prop :=
  phase = .idle ∨ ∃ taken : List Bool, taken.length ≤ 8 ∧ phase = .after taken

/-- A data bit goes in above the ones that are there. -/
theorem toNat_withBit {pending index : UInt8} (hindex : index.toNat < 8)
    (hpending : pending.toNat < 2 ^ index.toNat) (level : Bool) :
    (withBit pending index level).toNat = pending.toNat + level.toNat * 2 ^ index.toNat := by
  cases level with
  | false => simp [withBit]
  | true =>
    have hplace : 2 ^ index.toNat < 2 ^ 8 := Nat.pow_lt_pow_right (by decide) hindex
    simp only [withBit, if_true, UInt8.toNat_or, UInt8.toNat_shiftLeft, UInt8.toNat_one,
      Nat.mod_eq_of_lt hindex, Nat.one_shiftLeft, Nat.mod_eq_of_lt hplace, Bool.toNat_true,
      Nat.one_mul]
    exact Nat.or_two_pow_eq_add_of_lt hpending

/-- **A data bit with a place in its byte is no fault.** -/
theorem sampleData_of_lt {pending index : UInt8} (hindex : index.toNat < 8) (level : Bool) :
    sampleData pending index level = .ok (.going
      (if index.toNat = 7 then .stopping (withBit pending index level)
        else .data (withBit pending index level) (index + 1))) := by
  -- neither fault can occur: there is a place for the bit, and the next index fits its byte
  have hplace : ¬ 8 ≤ index := by
    rw [UInt8.le_iff_toNat_le]
    exact Nat.not_le.mpr hindex
  have hlast : ¬ index = 255 := by
    rintro rfl
    exact absurd hindex (by decide)
  have hnext : index + 1 = 8 ↔ index.toNat = 7 := by
    have height : (8 : UInt8).toNat = 8 := rfl
    rw [← UInt8.toNat_inj, UInt8.toNat_add, UInt8.toNat_one, height]
    omega
  simp only [sampleData, hplace, hlast, hnext, decide_false, Bool.and_false, Bool.false_eq_true,
    if_false]
  split <;> rfl

theorem toNat_ofNat_length {taken : List Bool} (h : taken.length < 8) :
    (UInt8.ofNat taken.length).toNat = taken.length := by
  rw [UInt8.toNat_ofNat']
  omega

theorem toNat_byte {taken : List Bool} (h : taken.length ≤ 8) :
    (Frame.byte taken).toNat = Frame.value taken := by
  have hlt := Frame.value_lt taken
  have hpow : 2 ^ taken.length ≤ 2 ^ 8 := Nat.pow_le_pow_right (by decide) h
  rw [Frame.byte, UInt8.toNat_ofNat']
  omega

theorem withBit_byte {taken : List Bool} (h : taken.length < 8) (level : Bool) :
    withBit (Frame.byte taken) (UInt8.ofNat taken.length) level
      = Frame.byte (taken ++ [level]) := by
  have hlen := toNat_ofNat_length h
  have hbyte := toNat_byte (Nat.le_of_lt h)
  apply UInt8.toNat_inj.mp
  rw [toNat_withBit (by omega) (by rw [hlen, hbyte]; exact Frame.value_lt taken), hlen, hbyte,
    toNat_byte (by simp; omega), Frame.value_concat]

/-- **A data bit joins the samples that were taken.** -/
theorem sample_after {taken : List Bool} (h : taken.length < 8) (level : Bool) :
    (after taken).sample level = .ok (.going (after (taken ++ [level]))) := by
  have hlen := toNat_ofNat_length h
  have hdata : (after taken).sample level
      = sampleData (Frame.byte taken) (UInt8.ofNat taken.length) level := by
    cases taken with
    | nil => rfl
    | cons first rest => rw [after, if_neg (by simp), if_pos h]; rfl
  rw [hdata, sampleData_of_lt (by omega), withBit_byte h, hlen, after, List.length_append,
    List.length_singleton]
  -- the eighth data bit leads to the stop bit
  by_cases hlast : taken.length = 7
  · simp [hlast]
  · have hdata : taken.length + 1 < 8 := by omega
    simp [hlast, hdata]

/-- **The ninth sample is the stop bit**, and ends the frame. -/
theorem sample_after_eight {taken : List Bool} (h : taken.length = 8) (level : Bool) :
    (after taken).sample level = .ok (.frame (Frame.byte taken) level) := by
  simp [after, h]

/-- **A phase that occurs can be sampled,** and if the frame goes on, it goes on to one that
occurs. -/
theorem Occurs.exists_sample {phase : Phase} (h : phase.Occurs) (level : Bool) :
    ∃ r, phase.sample level = .ok r ∧ ∀ next, r = .going next → next.Occurs := by
  rcases h with rfl | ⟨taken, hlength, rfl⟩
  · exact ⟨_, sample_idle level, fun _ hgoing => nomatch hgoing⟩
  · rcases Nat.lt_or_eq_of_le hlength with hdata | hstop
    · refine ⟨_, sample_after hdata level, ?_⟩
      rintro _ ⟨⟩
      exact .inr ⟨taken ++ [level], by simp; omega, rfl⟩
    · exact ⟨_, sample_after_eight hstop level, fun _ hgoing => nomatch hgoing⟩

end Phase

end SerialLink
