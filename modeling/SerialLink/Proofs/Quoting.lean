/-
# What the log shows of bytes tells which they were

`showBytes`, which is how `LossyStr` shows bytes, has two forms, and several ways to write a
character in one of them.  This module proves that nothing it writes can be taken for what it
writes of other bytes.

All of it is put as one property: a word tells where it ends (`SelfDelimiting`), so that it and
what stands behind it can both be read off.  An escape has it because it is a letter behind a
backslash, or a number up to its brace, or one character that is no backslash (`Escape`).  Which
characters are written as numbers plays no part, so the table of those that do not show may
change.  Words in a row have it up to a sign that none of them begins with
(`row_selfDelimiting`), as a closing quote is.  A number in brackets has it only with what
stands behind it, since `1` begins `12`, and behind a number in brackets there is never a digit
(`digits_behind_inj`).

The two forms begin differently.  Hence bytes can be read off a record in which they were shown
(`showBytes_append_inj`), and the form tells whether they are a text (`quoted_showBytes_iff`).
-/
import SerialLink.Proofs.Encoding

namespace SerialLink.Text

/-! ## 1. Words that tell where they end -/

section SelfDelimiting

variable {α β : Type} {word : α → List β} {x y : α} {xs : List α} {stop : β} {s : List β}

/-- What stands behind a word does not change how it is read. -/
def SelfDelimiting (word : α → List β) : Prop :=
  ∀ ⦃x y : α⦄ ⦃s t : List β⦄, word x ++ s = word y ++ t → x = y ∧ s = t

theorem SelfDelimiting.inj (h : SelfDelimiting word) (heq : word x = word y) : x = y :=
  (h (congrArg (· ++ []) heq)).1

/-- Words in a row, and the sign that ends it. -/
def row (word : α → List β) (stop : β) (xs : List α) : List β := xs.flatMap word ++ [stop]

@[simp] theorem row_nil_append : row word stop [] ++ s = stop :: s := rfl

@[simp] theorem row_cons_append :
    row word stop (x :: xs) ++ s = word x ++ (row word stop xs ++ s) := by
  simp only [row, List.flatMap_cons, List.append_assoc]

/-- A row can be read off if each word can be before the rest of a row, and none begins like the end
of one. -/
theorem row_selfDelimiting
    (hword : ∀ x y xs ys s t,
      word x ++ (row word stop xs ++ s) = word y ++ (row word stop ys ++ t) →
        x = y ∧ row word stop xs ++ s = row word stop ys ++ t)
    (hstop : ∀ x s t, word x ++ s ≠ stop :: t) : SelfDelimiting (row word stop) := by
  intro xs ys s t heq
  -- along the first row; the second has to go on as long as it does, by `hstop`
  induction xs generalizing ys with
  | nil =>
    cases ys with
    | nil => exact ⟨rfl, (List.cons.inj heq).2⟩
    | cons y ys =>
      rw [row_nil_append, row_cons_append] at heq
      exact absurd heq.symm (hstop _ _ _)
  | cons x xs ih =>
    cases ys with
    | nil =>
      rw [row_nil_append, row_cons_append] at heq
      exact absurd heq (hstop _ _ _)
    | cons y ys =>
      rw [row_cons_append, row_cons_append] at heq
      obtain ⟨rfl, hrest⟩ := hword _ _ _ _ _ _ heq
      obtain ⟨rfl, rfl⟩ := ih hrest
      exact ⟨rfl, rfl⟩

end SelfDelimiting

/-! ## 2. Numbers, up to what is no digit -/

/-- A digit of a base up to sixteen. -/
def isDigitChar (c : Char) : Bool := ((List.range 16).map Nat.digitChar).contains c

theorem isDigitChar_digitChar {d : Nat} (h : d < 16) : isDigitChar (Nat.digitChar d) = true :=
  List.contains_iff_mem.mpr (List.mem_map_of_mem (List.mem_range.mpr h))

theorem digitChar_inj : ∀ d < 16, ∀ e < 16, Nat.digitChar d = Nat.digitChar e → d = e := by
  decide

section Digits

variable {base m n : Nat} {stop other : Char} {s t : List Char}
variable (hbase : 1 < base) (hle : base ≤ 16)

include hbase

/-- The last digit, and those before it if there are any. -/
theorem toDigits_eq_concat (n : Nat) :
    Nat.toDigits base n
      = (if n < base then [] else Nat.toDigits base (n / base)) ++ [Nat.digitChar (n % base)] := by
  rw [Nat.toDigits_eq_if hbase]
  split
  · rename_i hlt
    rw [List.nil_append, Nat.mod_eq_of_lt hlt]
  · rfl

include hle

theorem isDigitChar_of_mem_toDigits : ∀ c ∈ Nat.toDigits base n, isDigitChar c = true := by
  induction n using Nat.strong_induction_on with
  | _ n ih =>
    intro c hc
    rw [toDigits_eq_concat hbase n] at hc
    rcases List.mem_append.mp hc with hc | hc
    · split at hc
      · contradiction
      · exact ih _ (Nat.div_lt_self (by omega) hbase) c hc
    · obtain rfl := List.mem_singleton.mp hc
      have hmod : n % base < base := Nat.mod_lt n (Nat.zero_lt_of_lt hbase)
      exact isDigitChar_digitChar (Nat.lt_of_lt_of_le hmod hle)

theorem toDigits_inj (heq : Nat.toDigits base m = Nat.toDigits base n) : m = n := by
  induction m using Nat.strong_induction_on generalizing n with
  | _ m ih =>
    have hmod (k : Nat) : k % base < 16 :=
      Nat.lt_of_lt_of_le (Nat.mod_lt k (Nat.zero_lt_of_lt hbase)) hle
    rw [toDigits_eq_concat hbase m, toDigits_eq_concat hbase n] at heq
    -- the last digit is the remainder, and those in front are the quotient's
    obtain ⟨hfront, hlast⟩ := List.append_inj' heq rfl
    have hrem : m % base = n % base :=
      digitChar_inj _ (hmod m) _ (hmod n) (List.singleton_inj.mp hlast)
    -- one digit and several differ in front of the last
    have hdiv : m / base = n / base := by
      split at hfront
      · rename_i hm
        split at hfront
        · rename_i hn
          rw [Nat.div_eq_of_lt hm, Nat.div_eq_of_lt hn]
        · exact absurd hfront.symm Nat.toDigits_ne_nil
      · rename_i hm
        split at hfront
        · exact absurd hfront Nat.toDigits_ne_nil
        · exact ih _ (Nat.div_lt_self (by omega) hbase) hfront
    rw [← Nat.div_add_mod m base, hdiv, hrem, Nat.div_add_mod]

/-- Digits and what is behind them, if it is no digit, can both be read off. -/
theorem toDigits_append_inj (hstop : isDigitChar stop = false) (hother : isDigitChar other = false)
    (heq : Nat.toDigits base m ++ stop :: s = Nat.toDigits base n ++ other :: t) :
    m = n ∧ stop :: s = other :: t := by
  -- the digits are the longest beginning that is all digits
  have hfront {k : Nat} {c : Char} {r : List Char} (hc : isDigitChar c = false) :
      (Nat.toDigits base k ++ c :: r).takeWhile isDigitChar = Nat.toDigits base k := by
    rw [List.takeWhile_append_of_pos (isDigitChar_of_mem_toDigits hbase hle),
      List.takeWhile_cons_of_neg (by rw [hc]; decide), List.append_nil]
  have hdigits : Nat.toDigits base m = Nat.toDigits base n := by
    rw [← hfront hstop, heq, hfront hother]
  obtain rfl := toDigits_inj hbase hle hdigits
  exact ⟨rfl, List.append_cancel_left heq⟩

/-- There is always a digit. -/
theorem toDigits_append_ne (hstop : isDigitChar stop = false) :
    Nat.toDigits base n ++ s ≠ stop :: t := by
  intro heq
  cases hdigits : Nat.toDigits base n with
  | nil => exact Nat.toDigits_ne_nil hdigits
  | cons first rest =>
    rw [hdigits] at heq
    have hfirst : isDigitChar first = true :=
      isDigitChar_of_mem_toDigits hbase hle first (hdigits ▸ List.mem_cons_self)
    rw [(List.cons.inj heq).1, hstop] at hfirst
    contradiction

end Digits

/-! ## 3. Quotations -/

/-- The letters that stand for a character behind a backslash. -/
def signs : List (Char × Char) :=
  [('0', '\x00'), ('t', '\t'), ('r', '\r'), ('n', '\n'), ('"', '"'), ('\\', '\\')]

/-- The ways in which a character may stand between quotes.  Which of them is taken for which
character is left open, but for a quote and a backslash, which do not stand as they are. -/
inductive Escape : Char → List Char → Prop
  | sign {letter c : Char} : (letter, c) ∈ signs → Escape c ['\\', letter]
  | number (c : Char) : Escape c ('\\' :: 'u' :: '\x7b' :: (hexDigits c ++ ['\x7d']))
  | plain {c : Char} : c ≠ '"' → c ≠ '\\' → Escape c [c]

variable {c d : Char} {u v s t : List Char}

theorem escape_spec (c : Char) : Escape c (escape c) := by
  unfold escape
  split
  · exact .sign (by decide)
  · exact .sign (by decide)
  · exact .sign (by decide)
  · exact .sign (by decide)
  · exact .sign (by decide)
  · exact .sign (by decide)
  · rename_i hquote hbackslash
    split
    · exact .number c
    · exact .plain hquote hbackslash

theorem signs_inj : ∀ p ∈ signs, ∀ q ∈ signs, p.1 = q.1 → p = q := by decide

theorem ne_u_of_mem_signs : ∀ p ∈ signs, p.1 ≠ 'u' := by decide

/-- **An escape can be read off,** and so can what stands behind it. -/
theorem Escape.append_inj (hc : Escape c u) (hd : Escape d v) (heq : u ++ s = v ++ t) :
    c = d ∧ s = t := by
  cases hc with
  -- the three ways begin with a letter behind a backslash, with `u` behind one, or with neither
  | sign hc =>
    cases hd with
    | sign hd =>
      obtain ⟨-, hrest⟩ := List.cons.inj heq
      obtain ⟨hletter, hrest⟩ := List.cons.inj hrest
      exact ⟨congrArg Prod.snd (signs_inj _ hc _ hd hletter), hrest⟩
    | number =>
      obtain ⟨-, hrest⟩ := List.cons.inj heq
      exact absurd (List.cons.inj hrest).1 (ne_u_of_mem_signs _ hc)
    | plain _ hbackslash => exact absurd (List.cons.inj heq).1.symm hbackslash
  | number =>
    cases hd with
    | sign hd =>
      obtain ⟨-, hrest⟩ := List.cons.inj heq
      exact absurd (List.cons.inj hrest).1.symm (ne_u_of_mem_signs _ hd)
    | number =>
      simp only [List.cons_append, List.append_assoc, List.cons.injEq, true_and,
        List.nil_append] at heq
      -- a number ends at its brace, which is no digit
      obtain ⟨hnumber, hrest⟩ :=
        toDigits_append_inj (by decide) (by decide) (by decide) (by decide) heq
      exact ⟨Char.toNat_inj.mp hnumber, (List.cons.inj hrest).2⟩
    | plain _ hbackslash => exact absurd (List.cons.inj heq).1.symm hbackslash
  | plain _ hbackslash =>
    cases hd with
    | sign => exact absurd (List.cons.inj heq).1 hbackslash
    | number => exact absurd (List.cons.inj heq).1 hbackslash
    | plain => exact List.cons.inj heq

/-- The end of a quotation is not the beginning of an escape. -/
theorem Escape.append_ne (h : Escape c u) : u ++ s ≠ '"' :: t := by
  intro heq
  cases h with
  | sign => exact absurd (List.cons.inj heq).1 (by decide)
  | number => exact absurd (List.cons.inj heq).1 (by decide)
  | plain hquote => exact hquote (List.cons.inj heq).1

theorem quote_selfDelimiting : SelfDelimiting quote := by
  have hrow : SelfDelimiting (row escape '"') := by
    refine row_selfDelimiting ?_ fun c s t => (escape_spec c).append_ne
    intro c d _ _ _ _ heq
    exact (escape_spec c).append_inj (escape_spec d) heq
  intro text other s t heq
  exact hrow (List.cons.inj heq).2

/-! ## 4. Numbers in brackets -/

/-- What stands behind a number in brackets. -/
def behind (bytes : List UInt8) : List Char :=
  row (fun byte => ',' :: ' ' :: Nat.toDigits 10 byte.toNat) ']' bytes

theorem numbers_cons (byte : UInt8) (bytes : List UInt8) :
    numbers (byte :: bytes) = '[' :: (Nat.toDigits 10 byte.toNat ++ behind bytes) := by
  induction bytes generalizing byte with
  | nil =>
    rw [numbers, List.map_singleton, List.intercalate_singleton]
    rfl
  | cons next bytes ih =>
    have hnext : [',', ' '].intercalate ((next :: bytes).map fun b => Nat.toDigits 10 b.toNat)
          ++ [']'] = Nat.toDigits 10 next.toNat ++ behind bytes :=
      (List.cons.inj (ih next)).2
    -- each number but the first has its comma in front, where `intercalate` has it between two
    have hbehind : behind (next :: bytes)
        = ',' :: ' ' :: (Nat.toDigits 10 next.toNat ++ behind bytes) := by
      simp only [behind, row, List.flatMap_cons, List.cons_append, List.append_assoc]
    rw [hbehind, ← hnext, numbers, List.map_cons, List.map_cons, List.intercalate_cons_cons]
    simp only [List.append_assoc, List.cons_append, List.nil_append]

theorem exists_behind_eq (bytes : List UInt8) :
    ∃ stop rest, behind bytes = stop :: rest ∧ isDigitChar stop = false := by
  cases bytes with
  | nil => exact ⟨_, _, rfl, by decide⟩
  | cons byte bytes => exact ⟨_, _, rfl, by decide⟩

/-- One of the numbers, and what stands behind it. -/
theorem digits_behind_inj {byte other : UInt8} {bytes others : List UInt8}
    (heq : Nat.toDigits 10 byte.toNat ++ (behind bytes ++ s)
      = Nat.toDigits 10 other.toNat ++ (behind others ++ t)) :
    byte = other ∧ behind bytes ++ s = behind others ++ t := by
  obtain ⟨stop, rest, hbytes, hstop⟩ := exists_behind_eq bytes
  obtain ⟨stop', rest', hothers, hstop'⟩ := exists_behind_eq others
  rw [hbytes, hothers] at heq ⊢
  obtain ⟨hbyte, hrest⟩ := toDigits_append_inj (by decide) (by decide) hstop hstop' heq
  exact ⟨UInt8.toNat_inj.mp hbyte, hrest⟩

theorem behind_selfDelimiting : SelfDelimiting behind := by
  refine row_selfDelimiting ?_ ?_
  · intro byte other bytes others s t heq
    exact digits_behind_inj (List.cons.inj (List.cons.inj heq).2).2
  · intro byte s t heq
    exact absurd (List.cons.inj heq).1 (by decide)

/-- Brackets that hold a number do not begin like empty ones. -/
theorem numbers_cons_append_ne {byte : UInt8} {bytes : List UInt8} :
    numbers (byte :: bytes) ++ s ≠ numbers [] ++ t := by
  intro heq
  rw [numbers_cons, List.cons_append, List.append_assoc] at heq
  exact toDigits_append_ne (by decide) (by decide) (by decide) (List.cons.inj heq).2

theorem numbers_selfDelimiting : SelfDelimiting numbers := by
  intro bytes others s t heq
  -- brackets without a number have no digit to begin with, so they are read off by themselves
  cases bytes with
  | nil =>
    cases others with
    | nil => exact ⟨rfl, List.append_cancel_left heq⟩
    | cons other others => exact absurd heq.symm numbers_cons_append_ne
  | cons byte bytes =>
    cases others with
    | nil => exact absurd heq numbers_cons_append_ne
    | cons other others =>
      rw [numbers_cons, numbers_cons, List.cons_append, List.cons_append, List.append_assoc,
        List.append_assoc] at heq
      obtain ⟨rfl, hrest⟩ := digits_behind_inj (List.cons.inj heq).2
      obtain ⟨rfl, rfl⟩ := behind_selfDelimiting hrest
      exact ⟨rfl, rfl⟩

/-! ## 5. What is shown -/

variable {a b bytes : List UInt8} {text : List Char}

theorem toList_showBytes (bytes : List UInt8) :
    (showBytes bytes).toList = (decode bytes).elim (numbers bytes) quote := by
  rw [showBytes]
  cases decode bytes with
  | none => exact String.toList_ofList
  | some text => exact String.toList_ofList

/-- The two forms begin differently. -/
theorem numbers_append_ne_quote : numbers bytes ++ s ≠ quote text ++ t := fun heq =>
  absurd (List.cons.inj heq).1 (by decide)

/-- **Bytes can be read off a record in which they are shown,** whatever stands behind them. -/
theorem showBytes_append_inj {s t : String} :
    showBytes a ++ s = showBytes b ++ t ↔ a = b ∧ s = t := by
  constructor
  · intro heq
    rw [← String.toList_inj, String.toList_append, String.toList_append, toList_showBytes,
      toList_showBytes] at heq
    -- the first character tells the form, so only words of one form are compared
    cases ha : decode a with
    | none =>
      rw [ha] at heq
      cases hb : decode b with
      | none =>
        rw [hb] at heq
        obtain ⟨hbytes, hrest⟩ := numbers_selfDelimiting heq
        exact ⟨hbytes, String.toList_inj.mp hrest⟩
      | some text =>
        rw [hb] at heq
        exact absurd heq numbers_append_ne_quote
    | some text =>
      rw [ha] at heq
      cases hb : decode b with
      | none =>
        rw [hb] at heq
        exact absurd heq.symm numbers_append_ne_quote
      | some other =>
        rw [hb] at heq
        obtain ⟨rfl, hrest⟩ := quote_selfDelimiting heq
        rw [decode_eq_some_iff.mp ha, decode_eq_some_iff.mp hb]
        exact ⟨rfl, String.toList_inj.mp hrest⟩
  · rintro ⟨rfl, rfl⟩
    rfl

/-- **What stands between the quotes is the text that the bytes encode.** -/
theorem showBytes_eq_quote_iff :
    showBytes bytes = String.ofList (quote text) ↔ bytes = text.flatMap String.utf8EncodeChar := by
  rw [← decode_eq_some_iff, ← String.toList_inj, String.toList_ofList, toList_showBytes]
  cases hdecode : decode bytes with
  | none =>
    simp only [Option.elim_none, reduceCtorEq, iff_false]
    intro heq
    exact numbers_append_ne_quote (congrArg (· ++ []) heq)
  | some other =>
    rw [Option.elim_some, Option.some_inj]
    exact ⟨quote_selfDelimiting.inj, congrArg quote⟩

/-- A text between quotes. -/
def Quoted (shown : String) : Prop := ∃ text, shown = String.ofList (quote text)

theorem quoted_showBytes_iff : Quoted (showBytes bytes) ↔ WellFormed bytes := by
  rw [wellFormed_iff]
  exact exists_congr fun text => showBytes_eq_quote_iff

/-- **What is shown tells which bytes they were,** and stands in quotes exactly if they are strictly
valid. -/
theorem showBytes_identifies (a b : List UInt8) :
    (showBytes a = showBytes b ↔ a = b) ∧ (Quoted (showBytes a) ↔ WellFormed a) := by
  refine ⟨⟨fun heq => ?_, congrArg showBytes⟩, quoted_showBytes_iff⟩
  exact (showBytes_append_inj.mp (congrArg (· ++ "") heq)).1

/-- A text that reads like numbers, and a backslash before an `n`, are not taken for what they look
like. -/
example :
    [[0x4F, 0xFF], [0x5B, 0x37, 0x39, 0x5D], [0x0A], [0x5C, 0x6E]].map showBytes
      = ["[79, 255]", "\"[79]\"", "\"\\n\"", "\"\\\\n\""] := by decide +kernel

end SerialLink.Text
