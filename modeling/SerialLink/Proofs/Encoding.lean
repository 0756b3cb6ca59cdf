/-
# Bytes that are a text

Whether `LossyStr` shows bytes as text or as numbers is decided by `decode`.  This module says
what it accepts without naming an encoder: characters in a row, each spelled by a lead byte and
as many bytes behind it as the lead byte announces (`Spells`), and each spelled strictly
(`Encodes`), which is to say in no more bytes than its number needs, and only if the number is a
character's.

Under these conditions each character has one spelling and no other number has any
(`encodes_iff`).  The reason is that a number can be spelled in so many bytes exactly when it is
small enough (`Spells.lt_room`, `spells_spelling`), and then in one way (`Spells.unique`).  So
what `decode` reads is what was written (`decode_eq_some_iff`), and it reads whatever is
`WellFormed` and nothing else (`decode_isSome_iff`).
-/
import Mathlib
import SerialLink.Text.Quoted

namespace SerialLink.Text

/-! ## 1. Lead bytes and what follows them -/

/-- These bytes spell this number: a lead byte, which tells how many there are and has the
highest bits, and the others with six bits each.  A number may be spelled in several lengths, and
need not be a character's. -/
inductive Spells : Nat → List UInt8 → Prop
  | one {x : Nat} : x < 0x80 → Spells x [UInt8.ofNat x]
  | two {x y : Nat} : x < 0x20 → y < 0x40 →
      Spells (64 * x + y) [UInt8.ofNat (0xC0 + x), UInt8.ofNat (0x80 + y)]
  | three {x y z : Nat} : x < 0x10 → y < 0x40 → z < 0x40 →
      Spells (64 * (64 * x + y) + z)
        [UInt8.ofNat (0xE0 + x), UInt8.ofNat (0x80 + y), UInt8.ofNat (0x80 + z)]
  | four {x y z w : Nat} : x < 0x08 → y < 0x40 → z < 0x40 → w < 0x40 →
      Spells (64 * (64 * (64 * x + y) + z) + w)
        [UInt8.ofNat (0xF0 + x), UInt8.ofNat (0x80 + y), UInt8.ofNat (0x80 + z),
          UInt8.ofNat (0x80 + w)]

/-- The first number that so many bytes are too few for. -/
def room : Nat → Nat
  | 0 => 0
  | 1 => 0x80
  | 2 => 0x800
  | 3 => 0x10000
  | _ => 0x200000

/-- A number in so many bytes. -/
def spelling (n : Nat) : Nat → List UInt8
  | 0 => []
  | 1 => [UInt8.ofNat n]
  | 2 => [UInt8.ofNat (0xC0 + n / 64), UInt8.ofNat (0x80 + n % 64)]
  | 3 => [UInt8.ofNat (0xE0 + n / 64 / 64), UInt8.ofNat (0x80 + n / 64 % 64),
      UInt8.ofNat (0x80 + n % 64)]
  | _ => [UInt8.ofNat (0xF0 + n / 64 / 64 / 64), UInt8.ofNat (0x80 + n / 64 / 64 % 64),
      UInt8.ofNat (0x80 + n / 64 % 64), UInt8.ofNat (0x80 + n % 64)]

variable {n length : Nat} {c : Char} {bytes other : List UInt8} {text : List Char}

theorem length_spelling (h : length ≤ 4) : (spelling n length).length = length := by
  match length, h with
  | 0, _ => rfl
  | 1, _ => rfl
  | 2, _ => rfl
  | 3, _ => rfl
  | 4, _ => rfl

theorem room_mono : Monotone room := by
  refine monotone_nat_of_le_succ fun length => ?_
  match length with
  | 0 => decide
  | 1 => decide
  | 2 => decide
  | 3 => decide
  | _ + 4 => exact Nat.le_refl _

/-- The six lowest bits are those of the last byte. -/
theorem six_bits {x y : Nat} (hy : y < 0x40) : (64 * x + y) / 64 = x ∧ (64 * x + y) % 64 = y := by
  omega

theorem Spells.lt_room (h : Spells n bytes) : n < room bytes.length := by
  cases h with
  | one hx => exact hx
  | two hx hy =>
    simp only [List.length_cons, List.length_nil, room]
    omega
  | three hx hy hz =>
    simp only [List.length_cons, List.length_nil, room]
    omega
  | four hx hy hz hw =>
    simp only [List.length_cons, List.length_nil, room]
    omega

theorem Spells.eq_spelling (h : Spells n bytes) : bytes = spelling n bytes.length := by
  cases h with
  | one hx => rfl
  | two hx hy =>
    simp only [List.length_cons, List.length_nil, spelling, six_bits hy]
  | three hx hy hz =>
    simp only [List.length_cons, List.length_nil, spelling, six_bits hy, six_bits hz]
  | four hx hy hz hw =>
    simp only [List.length_cons, List.length_nil, spelling, six_bits hy, six_bits hz, six_bits hw]

/-- In one length a number has one spelling. -/
theorem Spells.unique (h : Spells n bytes) (hother : Spells n other)
    (hlength : bytes.length = other.length) : bytes = other := by
  rw [h.eq_spelling, hother.eq_spelling, hlength]

/-- It has one in each length that has room for it. -/
theorem spells_spelling (hpos : 0 < length) (hle : length ≤ 4) (hroom : n < room length) :
    Spells n (spelling n length) := by
  -- the bytes behind the lead byte have six bits each, whatever the number
  have hlow (m : Nat) : m % 64 < 0x40 := Nat.mod_lt m (by decide)
  match length, hpos, hle with
  | 1, _, _ => exact .one hroom
  -- the room bounds what is left for the lead byte, here and in the longer spellings
  | 2, _, _ =>
    have h := Spells.two (x := n / 64) (by simp only [room] at hroom; omega) (hlow n)
    rwa [Nat.div_add_mod n] at h
  | 3, _, _ =>
    have h := Spells.three (x := n / 64 / 64) (by simp only [room] at hroom; omega)
      (hlow (n / 64)) (hlow n)
    rwa [Nat.div_add_mod (n / 64), Nat.div_add_mod n] at h
  | 4, _, _ =>
    have h := Spells.four (x := n / 64 / 64 / 64) (by simp only [room] at hroom; omega)
      (hlow (n / 64 / 64)) (hlow (n / 64)) (hlow n)
    rwa [Nat.div_add_mod (n / 64 / 64), Nat.div_add_mod (n / 64), Nat.div_add_mod n] at h

/-! ## 2. What an encoder writes -/

/-- A character is written in the first length that has room for it. -/
theorem exists_utf8EncodeChar_eq (c : Char) :
    ∃ fewer < 4, room fewer ≤ c.toNat ∧ c.toNat < room (fewer + 1) ∧
      String.utf8EncodeChar c = spelling c.toNat (fewer + 1) := by
  have hvalid : c.val.toNat.isValidChar := c.valid
  simp only [Nat.isValidChar] at hvalid
  -- the lead byte is masked there, which changes nothing of a number that there is room for
  fun_cases String.utf8EncodeChar c with
  | case1 v h1 => exact ⟨0, by decide, Nat.zero_le _, Nat.lt_succ_of_le h1, rfl⟩
  | case2 v h1 h2 =>
    refine ⟨1, by decide, Nat.lt_of_not_le h1, Nat.lt_succ_of_le h2, ?_⟩
    have hlead : v / 64 % 32 + 192 = 0xC0 + v / 64 := by omega
    rw [hlead, Nat.add_comm (v % 64)]
    rfl
  | case3 v h1 h2 h3 =>
    refine ⟨2, by decide, Nat.lt_of_not_le h2, Nat.lt_succ_of_le h3, ?_⟩
    have hlead : v / 4096 % 16 + 224 = 0xE0 + v / 64 / 64 := by omega
    rw [hlead, Nat.add_comm (v / 64 % 64), Nat.add_comm (v % 64)]
    rfl
  | case4 v h1 h2 h3 =>
    have hroom : v < 0x200000 := by omega
    refine ⟨3, by decide, Nat.lt_of_not_le h3, hroom, ?_⟩
    have hlead : v / 262144 % 8 + 240 = 0xF0 + v / 64 / 64 / 64 := by omega
    have hnext : v / 4096 % 64 = v / 64 / 64 % 64 := by omega
    rw [hlead, hnext, Nat.add_comm (v / 64 / 64 % 64), Nat.add_comm (v / 64 % 64),
      Nat.add_comm (v % 64)]
    rfl

theorem spells_utf8EncodeChar (c : Char) : Spells c.toNat (String.utf8EncodeChar c) := by
  obtain ⟨fewer, hfewer, -, hroom, heq⟩ := exists_utf8EncodeChar_eq c
  rw [heq]
  exact spells_spelling (Nat.succ_pos _) hfewer hroom

theorem length_utf8EncodeChar_le (h : c.toNat < room length) :
    (String.utf8EncodeChar c).length ≤ length := by
  obtain ⟨fewer, hfewer, hroom, -, heq⟩ := exists_utf8EncodeChar_eq c
  rw [heq, length_spelling hfewer]
  by_contra hlt
  have hle : room length ≤ room fewer := room_mono (by omega)
  omega

/-! ## 3. Strict spellings -/

/-- The bytes of one character. -/
structure Encodes (n : Nat) (bytes : List UInt8) : Prop where
  /-- None is missing, and each is of the kind that its place asks for. -/
  spells : Spells n bytes
  /-- Fewer would not do. -/
  shortest : ∀ other, Spells n other → bytes.length ≤ other.length
  /-- The number is not half of a pair. -/
  not_surrogate : ¬(0xD800 ≤ n ∧ n ≤ 0xDFFF)
  /-- Nor is it behind the last character. -/
  le_last : n ≤ 0x10FFFF

/-- Bytes that are a text: one character after the other, strictly spelled. -/
inductive WellFormed : List UInt8 → Prop
  | nil : WellFormed []
  | append {n : Nat} {first rest : List UInt8} :
      Encodes n first → WellFormed rest → WellFormed (first ++ rest)

/-- **A character has one strict spelling, and nothing else has one.** -/
theorem encodes_iff :
    Encodes n bytes ↔ ∃ c : Char, c.toNat = n ∧ bytes = String.utf8EncodeChar c := by
  constructor
  · intro h
    have hvalid : n.isValidChar := by
      have hsurrogate := h.not_surrogate
      have hlast := h.le_last
      simp only [Nat.isValidChar]
      omega
    -- the number is a character's, so its spelling of this length is the one that is written
    obtain ⟨c, rfl⟩ : ∃ c : Char, c.toNat = n := ⟨_, Char.toNat_ofNatAux hvalid⟩
    have hc := spells_utf8EncodeChar c
    refine ⟨c, rfl, h.spells.unique hc ?_⟩
    exact Nat.le_antisymm (h.shortest _ hc) (length_utf8EncodeChar_le h.spells.lt_room)
  · rintro ⟨c, rfl, rfl⟩
    have hvalid : c.toNat.isValidChar := c.valid
    simp only [Nat.isValidChar] at hvalid
    refine ⟨spells_utf8EncodeChar c, ?_, ?_, ?_⟩
    -- no spelling is shorter, as the number has to have room in it
    · intro other hother
      exact length_utf8EncodeChar_le hother.lt_room
    · omega
    · omega

theorem wellFormed_iff :
    WellFormed bytes ↔ ∃ text : List Char, bytes = text.flatMap String.utf8EncodeChar := by
  constructor
  · intro h
    induction h with
    | nil => exact ⟨[], rfl⟩
    | append hfirst _ ih =>
      obtain ⟨c, -, rfl⟩ := encodes_iff.mp hfirst
      obtain ⟨text, rfl⟩ := ih
      exact ⟨c :: text, rfl⟩
  · rintro ⟨text, rfl⟩
    induction text with
    | nil => exact .nil
    | cons c text ih => exact .append (encodes_iff.mpr ⟨c, rfl, rfl⟩) ih

/-! ## 4. What is read -/

/-- **What is read is what was written.** -/
theorem decode_eq_some_iff :
    decode bytes = some text ↔ bytes = text.flatMap String.utf8EncodeChar := by
  rw [decode, Option.map_eq_some_iff, ← List.toByteArray_inj]
  constructor
  · rintro ⟨s, hs, rfl⟩
    obtain ⟨hvalid, hbytes⟩ := Option.dite_none_right_eq_some.mp hs
    cases hbytes
    exact (String.utf8Encode_toList (b := String.fromUTF8 _ hvalid)).symm
  · intro h
    have hvalid : bytes.toByteArray.IsValidUTF8 := ⟨text, h⟩
    refine ⟨String.ofList text, ?_, String.toList_ofList⟩
    rw [String.fromUTF8?, dif_pos hvalid]
    exact congrArg some (String.toByteArray_inj.mp (h.trans String.toByteArray_ofList.symm))

/-- **The bytes that are read as text are those that are strictly valid.** -/
theorem decode_isSome_iff : (decode bytes).isSome ↔ WellFormed bytes := by
  rw [Option.isSome_iff_exists, wellFormed_iff]
  exact exists_congr fun text => decode_eq_some_iff

instance : DecidablePred WellFormed := fun _ => decidable_of_iff _ decode_isSome_iff

/-- The last character of each length, and those on either side of the surrogates. -/
example : ∀ bytes ∈ [[0x7F], [0xDF, 0xBF], [0xED, 0x9F, 0xBF], [0xEE, 0x80, 0x80],
    [0xEF, 0xBF, 0xBF], [0xF4, 0x8F, 0xBF, 0xBF]], WellFormed bytes := by decide

/-- Longer than needed, half of a pair, behind the last character, and cut short. -/
example : ∀ bytes ∈ [[0xC1, 0xBF], [0xE0, 0x9F, 0xBF], [0xF0, 0x8F, 0xBF, 0xBF],
    [0xED, 0xA0, 0x80], [0xF4, 0x90, 0x80, 0x80], [0xE2, 0x82]], ¬WellFormed bytes := by decide

end SerialLink.Text
