/-
# A ring of bytes

`n` slots in a circle and two indices into it.  The writer moves `head`, the reader moves
`tail`, and neither moves the other's, so the two can run side by side.  The ring is empty when
the indices meet and full one step before they would meet again: it holds `n - 1` bytes.

`toList` is what the ring holds, oldest first, and all there is to know about it:

* `push_eq_none_iff`: a byte is refused exactly when `n - 1` bytes are held;
* `toList_push`: a byte that is not refused goes behind the others;
* `pop_eq_none_iff` and `toList_pop`: the oldest byte comes out, if there is one.

It is the queue of one writer and one reader that the program's `ByteQueue` keeps its bytes in.
-/

namespace SerialLink

/-- `n` slots in a circle; those from `tail` up to `head` hold bytes. -/
structure Ring (n : Nat) where
  slots : Vector UInt8 n
  /-- The next slot to fill. -/
  head : Fin n
  /-- The oldest filled slot. -/
  tail : Fin n
  deriving DecidableEq

namespace Ring

variable {n : Nat}

/-- The slot `k` places after `i`, around the circle. -/
def shift (i : Fin n) (k : Nat) : Fin n :=
  ⟨(i.val + k) % n, Nat.mod_lt _ (Nat.lt_of_le_of_lt (Nat.zero_le _) i.isLt)⟩

/-- The slot after `i`, around the circle. -/
def next (i : Fin n) : Fin n := shift i 1

/-- A ring with nothing in it.  It needs a slot for the two indices to meet at. -/
def empty [Inhabited (Fin n)] : Ring n := ⟨Vector.replicate n 0, default, default⟩

/-- How many bytes the ring holds. -/
def length (r : Ring n) : Nat := (r.head.val + (n - r.tail.val)) % n

/-- The bytes the ring holds, oldest first. -/
def toList (r : Ring n) : List UInt8 :=
  (List.range r.length).map fun k => r.slots[shift r.tail k]

/-- The indices have met. -/
def isEmpty (r : Ring n) : Bool := decide (r.head = r.tail)

/-- One more byte would make the indices meet. -/
def isFull (r : Ring n) : Bool := decide (next r.head = r.tail)

/-- Put a byte behind the others, if there is room. -/
def push (r : Ring n) (byte : UInt8) : Option (Ring n) :=
  if r.isFull then none
  else some { r with slots := r.slots.set r.head byte, head := next r.head }

/-- Take the oldest byte, if there is one. -/
def pop (r : Ring n) : Option (UInt8 × Ring n) :=
  if r.isEmpty then none
  else some (r.slots[r.tail], { r with tail := next r.tail })

/-! ## 1. Places on the circle -/

/-- At most one turn: the place is found without dividing. -/
theorem val_shift (i : Fin n) {k : Nat} (hk : k ≤ n) :
    (shift i k).val = if i.val + k < n then i.val + k else i.val + k - n := by
  have hi := i.isLt
  simp only [shift]
  split
  · exact Nat.mod_eq_of_lt ‹_›
  · rw [Nat.mod_eq_sub_mod (by omega), Nat.mod_eq_of_lt (by omega)]

@[simp] theorem shift_zero (i : Fin n) : shift i 0 = i :=
  Fin.ext (Nat.mod_eq_of_lt i.isLt)

theorem shift_next (i : Fin n) (k : Nat) : shift (next i) k = shift i (k + 1) := by
  simp only [next, shift, Fin.mk.injEq, Nat.mod_add_mod]
  congr 1
  omega

theorem length_eq (r : Ring n) :
    r.length = if r.tail.val ≤ r.head.val then r.head.val - r.tail.val
      else r.head.val + n - r.tail.val := by
  have hh := r.head.isLt
  have ht := r.tail.isLt
  simp only [length]
  split
  · rw [Nat.mod_eq_sub_mod (by omega), Nat.mod_eq_of_lt (by omega)]
    omega
  · rw [Nat.mod_eq_of_lt (by omega)]
    omega

theorem length_lt (r : Ring n) : r.length < n :=
  Nat.mod_lt _ (Nat.lt_of_le_of_lt (Nat.zero_le _) r.head.isLt)

@[simp] theorem length_toList (r : Ring n) : r.toList.length = r.length := by simp [toList]

/-- The next slot to fill comes after the bytes that are held. -/
theorem shift_tail_length (r : Ring n) : shift r.tail r.length = r.head := by
  have hh := r.head.isLt
  have ht := r.tail.isLt
  apply Fin.ext
  rw [val_shift _ (Nat.le_of_lt r.length_lt), length_eq]
  split <;> split <;> omega

/-- Fewer than `n` places on, a different slot. -/
theorem shift_ne_shift (i : Fin n) {j k : Nat} (hjk : j < k) (hk : k < n) :
    shift i j ≠ shift i k := by
  intro h
  have hval := congrArg Fin.val h
  have hi := i.isLt
  rw [val_shift _ (by omega), val_shift _ (by omega)] at hval
  split at hval <;> split at hval <;> omega

/-! ## 2. Emptiness and fullness -/

@[simp] theorem toList_empty [Inhabited (Fin n)] : (empty : Ring n).toList = [] := by
  have hturn : (default : Fin n).val + (n - (default : Fin n).val) = n :=
    Nat.add_sub_cancel' (Nat.le_of_lt (default : Fin n).isLt)
  simp [toList, length, empty, hturn]

theorem isEmpty_iff (r : Ring n) : r.isEmpty = true ↔ r.length = 0 := by
  have hh := r.head.isLt
  have ht := r.tail.isLt
  rw [isEmpty, decide_eq_true_iff, Fin.ext_iff, length_eq]
  split <;> omega

theorem isFull_iff (r : Ring n) : r.isFull = true ↔ r.length = n - 1 := by
  have hh := r.head.isLt
  have ht := r.tail.isLt
  rw [isFull, decide_eq_true_iff, Fin.ext_iff, next, val_shift _ (by omega), length_eq]
  split <;> split <;> omega

/-! ## 3. The two operations -/

theorem push_eq_none_iff (r : Ring n) (byte : UInt8) :
    r.push byte = none ↔ r.toList.length = n - 1 := by
  rw [length_toList, ← isFull_iff, push]
  split <;> simp_all

theorem pop_eq_none_iff (r : Ring n) : r.pop = none ↔ r.toList = [] := by
  rw [← List.length_eq_zero_iff, length_toList, ← isEmpty_iff, pop]
  split <;> simp_all

theorem length_push {r r' : Ring n} {byte : UInt8} (h : r.push byte = some r') :
    r'.length = r.length + 1 := by
  have hlt := r.length_lt
  have hroom : ¬ r.length = n - 1 := by
    rw [← length_toList, ← push_eq_none_iff r byte, h]
    simp
  rw [push] at h
  split at h
  · simp at h
  · cases h
    -- four cases: whether the head wraps, and whether it stood before the tail
    have hh := r.head.isLt
    have ht := r.tail.isLt
    rw [length_eq] at hroom ⊢
    rw [length_eq r]
    simp only [next, val_shift r.head (show 1 ≤ n by omega)]
    split at hroom <;> split <;> split <;> omega

/-- **A byte that is not refused goes behind the others.** -/
theorem toList_push {r r' : Ring n} {byte : UInt8} (h : r.push byte = some r') :
    r'.toList = r.toList ++ [byte] := by
  have hlen := length_push h
  have hlt := r'.length_lt
  rw [push] at h
  split at h
  · simp at h
  · cases h
    rw [toList, hlen, List.range_succ, List.map_append, toList]
    congr 1
    · apply List.map_congr_left
      intro k hk
      -- the slot that is filled is none of those that hold bytes
      have hne : shift r.tail r.length ≠ shift r.tail k :=
        (shift_ne_shift _ (List.mem_range.mp hk) (by omega)).symm
      rw [shift_tail_length] at hne
      simp [Fin.val_ne_of_ne hne]
    · simp [shift_tail_length]

theorem length_pop {r r' : Ring n} {byte : UInt8} (h : r.pop = some (byte, r')) :
    r.length = r'.length + 1 := by
  have hsome : ¬ r.length = 0 := by
    rw [← length_toList, List.length_eq_zero_iff, ← pop_eq_none_iff, h]
    simp
  rw [pop] at h
  split at h
  · simp at h
  · cases h
    have hh := r.head.isLt
    have ht := r.tail.isLt
    simp only [length_eq, next, val_shift r.tail (show 1 ≤ n by omega)] at hsome ⊢
    split at hsome <;> split <;> split <;> split <;> omega

/-- **The oldest byte comes out.** -/
theorem toList_pop {r r' : Ring n} {byte : UInt8} (h : r.pop = some (byte, r')) :
    r.toList = byte :: r'.toList := by
  have hlen := length_pop h
  rw [pop] at h
  split at h
  · simp at h
  · cases h
    rw [toList, hlen, List.range_succ_eq_map, List.map_cons, List.map_map, toList]
    simp [Function.comp_def, shift_next]

end Ring

end SerialLink
