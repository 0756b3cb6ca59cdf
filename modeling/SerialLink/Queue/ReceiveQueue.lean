/-
# The receive queue

The bytes that have arrived and not been read, beside two marks that have nothing to do with
the bytes: whether one was lost since the reader last asked, and how many frames came with a
bad stop bit.  The count of bad frames is kept in 16 bits and starts over at zero.

Each operation touches one of the three and leaves the other two alone.  What the operations do
to the bytes is said through `toList`: `toList_push`, `toList_pop`, `toList_popUpTo`.

This is the program's `ByteQueue`, with the marks of its `Status`.  What is done at the writing
end is done by a `ByteProducer` there, and the rest by a `ByteConsumer`, which is an iterator
too (`popUpTo`).
-/
import SerialLink.Queue.Ring

namespace SerialLink

/-- A queue with `n` slots, of which `n - 1` can be in use at once. -/
structure ReceiveQueue (n : Nat) where
  ring : Ring n
  /-- A byte was lost since the mark was last taken. -/
  lost : Bool
  /-- Frames with a low stop bit, modulo `2 ^ 16`. -/
  badFrames : UInt16
  deriving DecidableEq

namespace ReceiveQueue

variable {n : Nat}

/-- A queue with nothing in it and no marks. -/
def empty [Inhabited (Fin n)] : ReceiveQueue n := ⟨Ring.empty, false, 0⟩

/-- The waiting bytes, oldest first. -/
def toList (q : ReceiveQueue n) : List UInt8 := q.ring.toList

/-- How many bytes wait. -/
def length (q : ReceiveQueue n) : Nat := q.ring.length

/-- No byte waits. -/
def isEmpty (q : ReceiveQueue n) : Bool := q.ring.isEmpty

/-- There is room for a byte. -/
def hasRoom (q : ReceiveQueue n) : Bool := !q.ring.isFull

/-- How many bytes can wait at once. -/
def capacity (_ : ReceiveQueue n) : Nat := n - 1

/-! ## 1. The writing end -/

/-- Put a byte behind the others.  A full queue refuses it and stays as it is; the answer says
whether the byte went in. -/
def push (q : ReceiveQueue n) (byte : UInt8) : Bool × ReceiveQueue n :=
  match q.ring.push byte with
  | none => (false, q)
  | some ring => (true, { q with ring := ring })

/-- Push bytes one after the other, each with its own answer. -/
def pushEach (q : ReceiveQueue n) : List UInt8 → List Bool × ReceiveQueue n
  | [] => ([], q)
  | byte :: rest =>
    let (taken, q) := q.push byte
    let (others, q) := q.pushEach rest
    (taken :: others, q)

/-- Mark that a byte was lost. -/
def markLost (q : ReceiveQueue n) : ReceiveQueue n := { q with lost := true }

/-- Count one frame with a low stop bit. -/
def countBadFrame (q : ReceiveQueue n) : ReceiveQueue n := { q with badFrames := q.badFrames + 1 }

/-! ## 2. The reading end -/

/-- Take the oldest byte, if one waits. -/
def pop (q : ReceiveQueue n) : Option UInt8 × ReceiveQueue n :=
  match q.ring.pop with
  | none => (none, q)
  | some (byte, ring) => (some byte, { q with ring := ring })

/-- Take the oldest bytes, at most `k` of them. -/
def popUpTo (q : ReceiveQueue n) : Nat → List UInt8 × ReceiveQueue n
  | 0 => ([], q)
  | k + 1 =>
    match q.pop with
    | (none, q) => ([], q)
    | (some byte, q) =>
      let (others, q) := q.popUpTo k
      (byte :: others, q)

/-- Take all the bytes that wait. -/
def popAll (q : ReceiveQueue n) : List UInt8 × ReceiveQueue n := q.popUpTo q.length

/-- Read the mark of a lost byte, and clear it. -/
def takeLost (q : ReceiveQueue n) : Bool × ReceiveQueue n := (q.lost, { q with lost := false })

/-! ## 3. The bytes -/

@[simp] theorem toList_empty [Inhabited (Fin n)] : (empty : ReceiveQueue n).toList = [] :=
  Ring.toList_empty

theorem length_toList (q : ReceiveQueue n) : q.toList.length = q.length := q.ring.length_toList

theorem hasRoom_iff (q : ReceiveQueue n) : q.hasRoom = true ↔ q.toList.length ≠ n - 1 := by
  rw [hasRoom, Bool.not_eq_true', ← Bool.not_eq_true, Ring.isFull_iff, length_toList, length]

theorem isEmpty_iff (q : ReceiveQueue n) : q.isEmpty = true ↔ q.toList = [] := by
  rw [isEmpty, Ring.isEmpty_iff, ← List.length_eq_zero_iff, length_toList, length]

/-- A byte goes in exactly when there is room. -/
theorem push_fst (q : ReceiveQueue n) (byte : UInt8) : (q.push byte).1 = q.hasRoom := by
  unfold push hasRoom
  cases h : q.ring.push byte with
  | none =>
    have hfull := (q.ring.push_eq_none_iff byte).mp h
    rw [Ring.length_toList, ← Ring.isFull_iff] at hfull
    simp [hfull]
  | some ring =>
    have hroom : ¬ q.ring.isFull = true := by
      rw [Ring.isFull_iff, ← Ring.length_toList, ← q.ring.push_eq_none_iff byte, h]
      simp
    simp [hroom]

/-- **A byte that there is room for goes behind the others,** and any other leaves them alone. -/
theorem toList_push (q : ReceiveQueue n) (byte : UInt8) :
    (q.push byte).2.toList = if q.hasRoom then q.toList ++ [byte] else q.toList := by
  rw [← push_fst q byte]
  unfold push
  cases h : q.ring.push byte with
  | none => rfl
  | some ring => exact Ring.toList_push h

/-- A refused byte changes nothing at all. -/
theorem push_of_full {q : ReceiveQueue n} (h : q.hasRoom = false) (byte : UInt8) :
    q.push byte = (false, q) := by
  have hfst := q.push_fst byte
  unfold push at hfst ⊢
  cases hp : q.ring.push byte with
  | none => rfl
  | some ring =>
    rw [hp, h] at hfst
    simp at hfst

/-- The oldest byte is the one that comes out. -/
theorem pop_fst (q : ReceiveQueue n) : q.pop.1 = q.toList.head? := by
  unfold pop toList
  cases h : q.ring.pop with
  | none => rw [(q.ring.pop_eq_none_iff).mp h]; rfl
  | some taken =>
    obtain ⟨byte, ring⟩ := taken
    rw [Ring.toList_pop h]
    rfl

/-- **Taking a byte leaves the others.** -/
theorem toList_pop (q : ReceiveQueue n) : q.pop.2.toList = q.toList.tail := by
  unfold pop toList
  cases h : q.ring.pop with
  | none => simp [(q.ring.pop_eq_none_iff).mp h]
  | some taken =>
    obtain ⟨byte, ring⟩ := taken
    rw [Ring.toList_pop h]
    rfl

/-- Taking up to `k` bytes takes the first `k`, and leaves the rest. -/
theorem toList_popUpTo (q : ReceiveQueue n) (k : Nat) :
    (q.popUpTo k).1 = q.toList.take k ∧ (q.popUpTo k).2.toList = q.toList.drop k := by
  induction k generalizing q with
  | zero => simp [popUpTo]
  | succ k ih =>
    have hfst := q.pop_fst
    have hsnd := q.toList_pop
    unfold popUpTo
    split
    · rename_i heq
      rw [heq] at hfst hsnd
      have hnil : q.toList = [] := by simpa using hfst.symm
      simp [hnil, hsnd]
    · rename_i byte q' heq
      rw [heq] at hfst hsnd
      obtain ⟨rest, hrest⟩ : ∃ rest, q.toList = byte :: rest := by
        cases hq : q.toList with
        | nil => simp [hq] at hfst
        | cons b rest => exact ⟨rest, by simp_all⟩
      have hih := ih q'
      rw [hsnd, hrest, List.tail_cons] at hih
      simp [hrest, hih]

/-- Taking one byte is taking up to one. -/
theorem popUpTo_one (q : ReceiveQueue n) : q.popUpTo 1 = (q.pop.1.toList, q.pop.2) := by
  unfold popUpTo
  split
  · rename_i left heq
    rw [heq]
    rfl
  · rename_i byte left heq
    rw [heq]
    rfl

/-- Taking all the bytes leaves none. -/
theorem toList_popAll (q : ReceiveQueue n) :
    q.popAll.1 = q.toList ∧ q.popAll.2.toList = [] := by
  have h := q.toList_popUpTo q.length
  rw [← length_toList, List.take_length, List.drop_length, length_toList] at h
  exact h

/-! ## 4. What stays apart -/

@[simp] theorem toList_markLost (q : ReceiveQueue n) : q.markLost.toList = q.toList := rfl

@[simp] theorem toList_countBadFrame (q : ReceiveQueue n) :
    q.countBadFrame.toList = q.toList := rfl

@[simp] theorem toList_takeLost (q : ReceiveQueue n) : q.takeLost.2.toList = q.toList := rfl

@[simp] theorem lost_push (q : ReceiveQueue n) (byte : UInt8) :
    (q.push byte).2.lost = q.lost := by
  unfold push; split <;> rfl

@[simp] theorem badFrames_push (q : ReceiveQueue n) (byte : UInt8) :
    (q.push byte).2.badFrames = q.badFrames := by
  unfold push; split <;> rfl

@[simp] theorem lost_pop (q : ReceiveQueue n) : q.pop.2.lost = q.lost := by
  unfold pop; split <;> rfl

@[simp] theorem badFrames_pop (q : ReceiveQueue n) : q.pop.2.badFrames = q.badFrames := by
  unfold pop; split <;> rfl

/-- However many bytes are taken, both marks stay. -/
theorem marks_popUpTo (k : Nat) : ∀ q : ReceiveQueue n,
    (q.popUpTo k).2.lost = q.lost ∧ (q.popUpTo k).2.badFrames = q.badFrames := by
  induction k with
  | zero => exact fun _ => ⟨rfl, rfl⟩
  | succ k ih =>
    intro q
    have hlost := q.lost_pop
    have hbad := q.badFrames_pop
    unfold popUpTo
    split
    · rename_i left heq
      rw [heq] at hlost hbad
      exact ⟨hlost, hbad⟩
    · rename_i byte left heq
      rw [heq] at hlost hbad
      obtain ⟨hlost', hbad'⟩ := ih left
      exact ⟨hlost'.trans hlost, hbad'.trans hbad⟩

@[simp] theorem lost_popUpTo (q : ReceiveQueue n) (k : Nat) :
    (q.popUpTo k).2.lost = q.lost := (marks_popUpTo k q).1

@[simp] theorem badFrames_popUpTo (q : ReceiveQueue n) (k : Nat) :
    (q.popUpTo k).2.badFrames = q.badFrames := (marks_popUpTo k q).2

end ReceiveQueue

end SerialLink
