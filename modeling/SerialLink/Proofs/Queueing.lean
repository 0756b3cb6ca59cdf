/-
# A queue and its two ends

A receive queue is used from two ends, in any order: one end, the `ByteProducer`, puts bytes in
and sets the marks, the other, the `ByteConsumer`, takes bytes out and reads the marks, and both
ask how things stand.  Inside is a ring whose indices run around it any number of times.  This
module says that nobody can tell: whatever was done with a queue that was new, every answer can
be told from the uses before it and what they were answered (`Use.answer`), with no ring in it.

* What was taken, and then what waits, is what was accepted, in order; a byte is refused if and
  only if one place fewer than there are slots is taken (`Told.bytes`, `callEach_use_empty`).
* The mark of a lost byte is set if it was set since it was last taken, and the count of bad
  frames counts them modulo `2 ^ 16`.
* The bytes, the mark and the count are three cells.  A use touches one of them at most, and
  leaves the others as they are (`untouched_use`).
-/
import Mathlib
import SerialLink.Queue.ReceiveQueue
import SerialLink.Proofs.Calling

namespace SerialLink

namespace ReceiveQueue

variable {n : Nat}

/-! ## 1. Uses and answers -/

/-- What can be done at the two ends of a queue. -/
inductive Use where
  /-- Put a byte in. -/
  | push (byte : UInt8)
  /-- Ask whether there is room for one. -/
  | hasRoom
  | markLost
  | countBadFrame
  /-- Take the oldest byte. -/
  | pop
  /-- Take bytes one by one, at most `k` of them. -/
  | popUpTo (k : Nat)
  /-- Take bytes one by one until there is none left. -/
  | popAll
  | takeLost
  /-- Read the mark of a lost byte, and leave it. -/
  | lost
  | badFrames
  | length
  | isEmpty
  | capacity
  /-- Both ends are given back, and the queue is split into two ends again. -/
  | split
  deriving DecidableEq, Repr

/-- What a use is answered. -/
inductive Answer where
  | done
  | flag (value : Bool)
  | oldest (byte : Option UInt8)
  | bytes (taken : List UInt8)
  | count (value : Nat)
  deriving DecidableEq, Repr

/-- Use the queue. -/
def use (q : ReceiveQueue n) : Use → Answer × ReceiveQueue n
  | .push byte => (.flag (q.push byte).1, (q.push byte).2)
  | .hasRoom => (.flag q.hasRoom, q)
  | .markLost => (.done, q.markLost)
  | .countBadFrame => (.done, q.countBadFrame)
  | .pop => (.oldest q.pop.1, q.pop.2)
  | .popUpTo k => (.bytes (q.popUpTo k).1, (q.popUpTo k).2)
  | .popAll => (.bytes q.popAll.1, q.popAll.2)
  | .takeLost => (.flag q.takeLost.1, q.takeLost.2)
  | .lost => (.flag q.lost, q)
  | .badFrames => (.count q.badFrames.toNat, q)
  | .length => (.count q.length, q)
  | .isEmpty => (.flag q.isEmpty, q)
  | .capacity => (.count q.capacity, q)
  | .split => (.done, q)

/-! ## 2. What the past tells -/

/-- A use with its answer. -/
abbrev Exchange := Use × Answer

namespace Exchange

/-- The byte that was accepted, if one was. -/
def pushed? : Exchange → Option UInt8
  | (.push byte, .flag true) => some byte
  | _ => none

/-- The bytes that were taken. -/
def popped : Exchange → List UInt8
  | (.pop, .oldest byte) => byte.toList
  | (.popUpTo _, .bytes taken) => taken
  | (.popAll, .bytes taken) => taken
  | _ => []

/-- The bytes that were accepted, in order. -/
def accepted (past : List Exchange) : List UInt8 := past.filterMap pushed?

/-- The bytes that were taken, in order. -/
def taken (past : List Exchange) : List UInt8 := past.flatMap popped

/-- The bytes that were accepted and not taken yet. -/
def waiting (past : List Exchange) : List UInt8 := (accepted past).drop (taken past).length

/-- A byte was marked as lost after the mark was last taken. -/
def marked (past : List Exchange) : Bool :=
  .markLost ∈ (past.map Prod.fst).rtakeWhile (· ≠ .takeLost)

/-- How many bad frames were counted. -/
def bad (past : List Exchange) : Nat := (past.map Prod.fst).count .countBadFrame

variable (past : List Exchange) {next : Use} (answer : Answer)

theorem accepted_concat (e : Exchange) :
    accepted (past ++ [e]) = accepted past ++ e.pushed?.toList := by
  cases h : e.pushed? <;> simp [accepted, h]

theorem taken_concat (e : Exchange) : taken (past ++ [e]) = taken past ++ e.popped := by
  simp [taken]

theorem marked_markLost : marked (past ++ [(.markLost, answer)]) = true := by
  simp [marked]

theorem marked_takeLost : marked (past ++ [(.takeLost, answer)]) = false := by
  simp [marked]

/-- Nothing else sets the mark, and nothing else takes it. -/
theorem marked_concat (hmark : next ≠ .markLost) (htake : next ≠ .takeLost) :
    marked (past ++ [(next, answer)]) = marked past := by
  simp [marked, htake, hmark.symm]

theorem bad_countBadFrame : bad (past ++ [(.countBadFrame, answer)]) = bad past + 1 := by
  simp [bad]

theorem bad_concat (hcount : next ≠ .countBadFrame) :
    bad (past ++ [(next, answer)]) = bad past := by
  simp [bad, hcount]

end Exchange

open Exchange (accepted taken waiting marked bad)

/-- What a queue of `n` slots answers, told from the past. -/
def Use.answer (n : Nat) (past : List Exchange) : Use → Answer
  | push _ => .flag ((waiting past).length ≠ n - 1)
  | hasRoom => .flag ((waiting past).length ≠ n - 1)
  | markLost => .done
  | countBadFrame => .done
  | pop => .oldest (waiting past).head?
  | popUpTo k => .bytes ((waiting past).take k)
  | popAll => .bytes (waiting past)
  | takeLost => .flag (marked past)
  | lost => .flag (marked past)
  | badFrames => .count (bad past % 65536)
  | length => .count (waiting past).length
  | isEmpty => .flag (waiting past).isEmpty
  | capacity => .count (n - 1)
  | split => .done

/-- **What the past tells about a queue** of `n` slots. -/
structure Told (past : List Exchange) (q : ReceiveQueue n) : Prop where
  /-- What was taken, and then what waits, is what was accepted. -/
  bytes : taken past ++ q.toList = accepted past
  length_le : q.toList.length ≤ n - 1
  lost : q.lost = marked past
  badFrames : q.badFrames.toNat = bad past % 65536

theorem told_empty [Inhabited (Fin n)] : Told [] (empty : ReceiveQueue n) where
  bytes := toList_empty
  length_le := by simp
  lost := rfl
  badFrames := rfl

theorem Told.waiting_eq {past : List Exchange} {q : ReceiveQueue n} (h : Told past q) :
    waiting past = q.toList := by
  rw [Exchange.waiting, ← h.bytes, List.drop_left]

/-! ## 3. One use -/

/-- **Every answer can be told from the past.** -/
theorem Told.answer {past : List Exchange} {q : ReceiveQueue n} (h : Told past q) (next : Use) :
    (q.use next).1 = next.answer n past := by
  have hwaiting := h.waiting_eq
  have hroom : q.hasRoom = decide ((waiting past).length ≠ n - 1) := by
    rw [hwaiting, Bool.eq_iff_iff, hasRoom_iff, decide_eq_true_iff]
  cases next with
  | push byte => simp only [use, Use.answer, push_fst, hroom]
  | hasRoom => simp only [use, Use.answer, hroom]
  | pop => simp only [use, Use.answer, pop_fst, hwaiting]
  | popUpTo k => simp only [use, Use.answer, (q.toList_popUpTo k).1, hwaiting]
  | popAll => simp only [use, Use.answer, q.toList_popAll.1, hwaiting]
  | takeLost => simp only [use, Use.answer, takeLost, h.lost]
  | lost => simp only [use, Use.answer, h.lost]
  | badFrames => simp only [use, Use.answer, h.badFrames]
  | length => simp only [use, Use.answer, hwaiting, length_toList]
  | isEmpty =>
    have hempty : q.isEmpty = q.toList.isEmpty := by
      rw [Bool.eq_iff_iff, isEmpty_iff, List.isEmpty_iff]
    simp only [use, Use.answer, hwaiting, hempty]
  | markLost | countBadFrame | capacity | split => rfl

/-- What the bytes, the mark and the count have to do for the past to go on telling. -/
theorem Told.concat {past : List Exchange} {q q' : ReceiveQueue n} (h : Told past q)
    (e : Exchange) (hbytes : e.popped ++ q'.toList = q.toList ++ e.pushed?.toList)
    (hlost : q'.lost = marked (past ++ [e]))
    (hbad : q'.badFrames.toNat = bad (past ++ [e]) % 65536) : Told (past ++ [e]) q' where
  bytes := by
    rw [Exchange.taken_concat, Exchange.accepted_concat, ← h.bytes, List.append_assoc, hbytes,
      List.append_assoc]
  length_le := by
    have hlt : q'.length < n := q'.ring.length_lt
    rw [length_toList]
    omega
  lost := hlost
  badFrames := hbad

/-- A use of the bytes, or of nothing, leaves both marks. -/
theorem Told.concat_of_marks {past : List Exchange} {q q' : ReceiveQueue n} (h : Told past q)
    {next : Use} {answer : Answer}
    (hmarks : next ≠ .markLost ∧ next ≠ .takeLost ∧ next ≠ .countBadFrame)
    (hlost : q'.lost = q.lost) (hbad : q'.badFrames = q.badFrames)
    (hbytes : Exchange.popped (next, answer) ++ q'.toList
      = q.toList ++ (Exchange.pushed? (next, answer)).toList) :
    Told (past ++ [(next, answer)]) q' := by
  obtain ⟨hmark, htake, hcount⟩ := hmarks
  refine h.concat (next, answer) hbytes ?_ ?_
  · rw [Exchange.marked_concat past answer hmark htake, hlost, h.lost]
  · rw [Exchange.bad_concat past answer hcount, hbad, h.badFrames]

/-- **One use more,** and the past goes on telling. -/
theorem Told.use {past : List Exchange} {q : ReceiveQueue n} (h : Told past q) (next : Use) :
    Told (past ++ [(next, (q.use next).1)]) (q.use next).2 := by
  cases next with
  | push byte =>
    refine h.concat_of_marks (by simp) (q.lost_push byte) (q.badFrames_push byte) ?_
    rw [ReceiveQueue.use, toList_push, push_fst]
    -- a refused byte is not in the past as one that was accepted
    cases q.hasRoom <;> simp [Exchange.popped, Exchange.pushed?]
  | markLost =>
    refine h.concat _ ?_ (Exchange.marked_markLost past _).symm ?_
    · simp [ReceiveQueue.use, Exchange.popped, Exchange.pushed?]
    · rw [Exchange.bad_concat past _ (by simp)]
      exact h.badFrames
  | takeLost =>
    refine h.concat _ ?_ (Exchange.marked_takeLost past _).symm ?_
    · simp [ReceiveQueue.use, Exchange.popped, Exchange.pushed?]
    · rw [Exchange.bad_concat past _ (by simp)]
      exact h.badFrames
  | countBadFrame =>
    refine h.concat _ ?_ ?_ ?_
    · simp [ReceiveQueue.use, Exchange.popped, Exchange.pushed?]
    · rw [Exchange.marked_concat past _ (by simp) (by simp)]
      exact h.lost
    -- the count wraps, and so does the past when it is asked for it
    · have hcounted : (q.use .countBadFrame).2.badFrames = q.badFrames + 1 := rfl
      rw [Exchange.bad_countBadFrame, hcounted, UInt16.toNat_add, h.badFrames, UInt16.toNat_one,
        Nat.mod_add_mod]
  | pop =>
    refine h.concat_of_marks (by simp) q.lost_pop q.badFrames_pop ?_
    rw [ReceiveQueue.use, pop_fst, toList_pop]
    cases q.toList <;> simp [Exchange.popped, Exchange.pushed?]
  | popUpTo k =>
    refine h.concat_of_marks (by simp) (q.lost_popUpTo k) (q.badFrames_popUpTo k) ?_
    rw [ReceiveQueue.use, (q.toList_popUpTo k).1, (q.toList_popUpTo k).2]
    simp [Exchange.popped, Exchange.pushed?]
  | popAll =>
    refine h.concat_of_marks (by simp) (q.lost_popUpTo _) (q.badFrames_popUpTo _) ?_
    rw [ReceiveQueue.use, q.toList_popAll.1, q.toList_popAll.2]
    simp [Exchange.popped, Exchange.pushed?]
  | hasRoom | lost | badFrames | length | isEmpty | capacity | split =>
    refine h.concat_of_marks (by simp) rfl rfl ?_
    simp [ReceiveQueue.use, Exchange.popped, Exchange.pushed?]

/-! ## 4. Three cells -/

/-- The parts of a queue. -/
inductive Cell where
  | bytes
  | lost
  | badFrames
  deriving DecidableEq, Repr

/-- The part that a use may change. -/
def Use.cell? : Use → Option Cell
  | push _ | pop | popUpTo _ | popAll => some .bytes
  | markLost | takeLost => some .lost
  | countBadFrame => some .badFrames
  | hasRoom | lost | badFrames | length | isEmpty | capacity | split => none

/-- The part is the same in both. -/
def Cell.Same (q q' : ReceiveQueue n) : Cell → Prop
  | bytes => q'.ring = q.ring
  | lost => q'.lost = q.lost
  | badFrames => q'.badFrames = q.badFrames

/-- **A use changes its own part alone,** and a question changes none. -/
theorem untouched_use (q : ReceiveQueue n) {next : Use} {cell : Cell}
    (h : next.cell? ≠ some cell) : cell.Same q (q.use next).2 := by
  cases next with
  | push byte =>
    cases cell with
    | bytes => exact absurd rfl h
    | lost => exact q.lost_push byte
    | badFrames => exact q.badFrames_push byte
  | pop =>
    cases cell with
    | bytes => exact absurd rfl h
    | lost => exact q.lost_pop
    | badFrames => exact q.badFrames_pop
  | popUpTo k =>
    cases cell with
    | bytes => exact absurd rfl h
    | lost => exact q.lost_popUpTo k
    | badFrames => exact q.badFrames_popUpTo k
  | popAll =>
    cases cell with
    | bytes => exact absurd rfl h
    | lost => exact q.lost_popUpTo q.length
    | badFrames => exact q.badFrames_popUpTo q.length
  | markLost | takeLost =>
    cases cell with
    | lost => exact absurd rfl h
    | bytes | badFrames => rfl
  | countBadFrame =>
    cases cell with
    | badFrames => exact absurd rfl h
    | bytes | lost => rfl
  | hasRoom | lost | badFrames | length | isEmpty | capacity | split => cases cell <;> rfl

theorem use_push_of_refused {q : ReceiveQueue n} {byte : UInt8}
    (h : (q.use (.push byte)).1 = .flag false) : (q.use (.push byte)).2 = q := by
  have hfull : q.hasRoom = false := by
    rw [← q.push_fst byte]
    simpa [use] using h
  rw [use, push_of_full hfull]

/-! ## 5. Any uses -/

/-- What becomes of one use of a queue `q`, which it leaves as `q'`. -/
structure Answered (past : List Exchange) (q : ReceiveQueue n) (next : Use) (answer : Answer)
    (q' : ReceiveQueue n) : Prop where
  told : answer = next.answer n past
  /-- A byte that is refused changes nothing. -/
  refused : ∀ byte, next = .push byte → answer = .flag false → q' = q
  apart : ∀ cell, next.cell? ≠ some cell → cell.Same q q'

variable [Inhabited (Fin n)]

/-- The uses of a new queue with their answers. -/
def exchanges (n : Nat) [Inhabited (Fin n)] (uses : List Use) : List Exchange :=
  uses.zip (callEach use (empty : ReceiveQueue n) uses).1

theorem exchanges_concat (uses : List Use) (next : Use) :
    exchanges n (uses ++ [next])
      = exchanges n uses
        ++ [(next, ((callEach use (empty : ReceiveQueue n) uses).2.use next).1)] := by
  rw [exchanges, callEach_concat, List.zip_append (length_callEach uses _).symm]
  rfl

theorem told_callEach (uses : List Use) :
    Told (exchanges n uses) (callEach use (empty : ReceiveQueue n) uses).2 := by
  induction uses using List.reverseRecOn with
  | nil => exact told_empty
  | append_singleton uses next ih =>
    rw [exchanges_concat, callEach_concat]
    exact ih.use next

/-- **A queue is a line of bytes and two marks.**  Whatever is done at the two ends of a new queue,
and in whatever order: what was taken and what waits is what was accepted; the marks are what was
done to them; each use on the way is answered as the past tells, and changes at most one of the
bytes, the mark and the count. -/
theorem callEach_use_empty (uses : List Use) :
    Told (exchanges n uses) (callEach use (empty : ReceiveQueue n) uses).2 ∧
      ∀ before next rest, uses = before ++ next :: rest →
        ∃ answer, (callEach use (empty : ReceiveQueue n) uses).1[before.length]? = some answer ∧
          Answered (exchanges n before) (callEach use (empty : ReceiveQueue n) before).2 next answer
            (callEach use (empty : ReceiveQueue n) (before ++ [next])).2 := by
  refine ⟨told_callEach uses, ?_⟩
  rintro before next rest rfl
  refine ⟨_, getElem?_callEach _ before next rest, ?_⟩
  rw [callEach_concat]
  refine ⟨(told_callEach before).answer next, ?_, fun cell => untouched_use _⟩
  rintro byte rfl hrefused
  exact use_push_of_refused hrefused

/-- A queue for two bytes, used until its indices have come around. -/
example :
    (callEach use (empty : ReceiveQueue 3)
        [.push 1, .push 2, .push 3, .markLost, .pop, .push 4, .takeLost, .popUpTo 5, .push 5, .split,
          .lost, .popAll]).1
      = [.flag true, .flag true, .flag false, .done, .oldest (some 1), .flag true, .flag true,
          .bytes [2, 4], .flag true, .done, .flag false, .bytes [5]] := by decide

end ReceiveQueue

end SerialLink
