/-
# A stream cut into lines

A line buffer, the program's `LineAssembler`, sees one byte at a time, holds what it has room
for, and gives a line when its end comes.  What comes of a stream of bytes can be said without
it: leave out the ignored byte, split what is left at the line ends
(`CommandSettings.segments`), and cut each closed segment to the size of the buffer
(`CommandSettings.lines`).  This module proves that the two come to the same.

A buffer keeps a line that it has given until the next byte comes.  Here it stands beside one
that forgets the line at once (`pushAtOnce`): every call is answered alike, and what is left
differs only by the line that is about to go (`pushAtOnce_settled`, `callEach_useAtOnce`).

The buffer that forgets at once is, after some bytes, `LineBuffer.after`, which is read off the
segment that no line end has closed yet.  One more byte takes it to the buffer after one byte
more, and is answered with the line of the segment that it closes, if it closes one
(`pushAtOnce_after`).  So a segment that is longer than the buffer ends with its own line end,
like every other, and a line that has been forgotten leaves no trace (`Splits`).
-/
import Mathlib
import SerialLink.Command.LineBuffer
import SerialLink.Proofs.Calling

namespace SerialLink

/-! ## 1. Splitting from the end -/

section SplitOn

variable {α : Type} [BEq α] [LawfulBEq α] {a x : α} {xs last : List α} {front : List (List α)}

/-- A separator at the end opens an empty segment. -/
theorem splitOn_concat_self (a : α) (xs : List α) :
    (xs ++ [a]).splitOn a = xs.splitOn a ++ [[]] := by
  rw [List.splitOn_append_cons_self, List.splitOn_nil]

/-- Anything else at the end goes to the last segment. -/
theorem splitOn_concat_of_ne (hx : x ≠ a) (h : xs.splitOn a = front ++ [last]) :
    (xs ++ [x]).splitOn a = front ++ [last ++ [x]] := by
  induction xs generalizing front last with
  | nil =>
    have hnil : [[]] = front ++ [last] := (List.splitOn_nil a).symm.trans h
    obtain ⟨rfl, rfl⟩ : front = [] ∧ last = [] := by
      cases front with
      | nil => exact ⟨rfl, by simpa using hnil.symm⟩
      | cons first rest => simp at hnil
    rw [List.nil_append, List.splitOn_eq_singleton]
    · rfl
    · simpa using hx.symm
  | cons y ys ih =>
    rw [List.splitOn_cons_eq_if_modifyHead] at h
    rw [List.cons_append, List.splitOn_cons_eq_if_modifyHead]
    split at h
    -- the first element is a separator: an empty segment stands before what is split
    · rename_i hsep
      rw [if_pos hsep]
      cases front with
      | nil => exact absurd (List.cons.inj h).2 (List.splitOn_ne_nil a ys)
      | cons first rest =>
        obtain ⟨rfl, hys⟩ := List.cons.inj h
        rw [ih hys]
        rfl
    -- it is not: it goes to the front of the first segment, which may also be the last
    · rename_i hother
      rw [if_neg hother]
      cases hys : ys.splitOn a with
      | nil => exact absurd hys (List.splitOn_ne_nil a ys)
      | cons s segments =>
        rw [hys, List.modifyHead_cons] at h
        cases front with
        | nil =>
          obtain ⟨rfl, rfl⟩ := List.cons.inj h
          have hone : ys.splitOn a = [] ++ [s] := hys
          rw [ih hone]
          rfl
        | cons first rest =>
          obtain ⟨rfl, rfl⟩ := List.cons.inj h
          have hmany : ys.splitOn a = (s :: rest) ++ [last] := hys
          rw [ih hmany]
          rfl

end SplitOn

/-! ## 2. What a stream comes to -/

namespace CommandSettings

/-- The bytes that count: all but the ignored one. -/
def kept (s : CommandSettings) (bytes : List UInt8) : List UInt8 :=
  bytes.filter fun byte => s.ignored ≠ some byte

/-- What stands before, between and behind the line ends. -/
def segments (s : CommandSettings) (bytes : List UInt8) : List (List UInt8) :=
  (s.kept bytes).splitOn s.lineEnd

theorem segments_ne_nil (s : CommandSettings) (bytes : List UInt8) : s.segments bytes ≠ [] :=
  List.splitOn_ne_nil _ _

/-- The segments that a line end has closed. -/
def closed (s : CommandSettings) (bytes : List UInt8) : List (List UInt8) :=
  (s.segments bytes).dropLast

/-- The last segment, which no line end has closed yet. -/
def unfinished (s : CommandSettings) (bytes : List UInt8) : List UInt8 :=
  (s.segments bytes).getLast (s.segments_ne_nil bytes)

/-- The line that a closed segment makes, cut to `limit` bytes.  Whether it is empty is decided
before it is cut. -/
def lineOf (s : CommandSettings) (limit : Nat) (segment : List UInt8) : Option Line :=
  if s.skipEmpty && segment.isEmpty then none
  else some ⟨segment.take limit, limit < segment.length⟩

/-- The lines of a stream. -/
def lines (s : CommandSettings) (limit : Nat) (bytes : List UInt8) : List Line :=
  (s.closed bytes).filterMap (s.lineOf limit)

/-- The line that a byte completes, if it comes behind these. -/
def answer (s : CommandSettings) (limit : Nat) (before : List UInt8) (byte : UInt8) :
    Option Line :=
  if s.ignored ≠ some byte ∧ byte = s.lineEnd then s.lineOf limit (s.unfinished before) else none

variable {s : CommandSettings} {byte : UInt8}

theorem closed_concat_unfinished (s : CommandSettings) (bytes : List UInt8) :
    s.segments bytes = s.closed bytes ++ [s.unfinished bytes] :=
  (List.dropLast_concat_getLast (s.segments_ne_nil bytes)).symm

/-- The two parts of a split stream can be read off any way it is written. -/
theorem parts_of_segments {bytes last : List UInt8} {front : List (List UInt8)}
    (h : s.segments bytes = front ++ [last]) :
    s.closed bytes = front ∧ s.unfinished bytes = last := by
  have hboth := (s.closed_concat_unfinished bytes).symm.trans h
  exact List.append_singleton_inj.mp hboth

/-- An ignored byte changes nothing, a line end closes the last segment, and any other byte goes
to its end. -/
theorem parts_concat (s : CommandSettings) (before : List UInt8) (byte : UInt8) :
    s.closed (before ++ [byte]) =
        (if s.ignored ≠ some byte ∧ byte = s.lineEnd then s.closed before ++ [s.unfinished before]
          else s.closed before) ∧
      s.unfinished (before ++ [byte]) =
        (if s.ignored = some byte then s.unfinished before
          else if byte = s.lineEnd then [] else s.unfinished before ++ [byte]) := by
  have hparts := s.closed_concat_unfinished before
  -- it is enough to say how the segments are written
  apply parts_of_segments
  rw [segments] at hparts ⊢
  by_cases hignored : s.ignored = some byte
  · have hkept : s.kept (before ++ [byte]) = s.kept before := by simp [kept, hignored]
    rw [hkept, hparts]
    simp [hignored]
  · have hkept : s.kept (before ++ [byte]) = s.kept before ++ [byte] := by simp [kept, hignored]
    rw [hkept]
    by_cases hend : byte = s.lineEnd
    · subst hend
      rw [splitOn_concat_self, hparts]
      simp [hignored]
    · rw [splitOn_concat_of_ne hend hparts]
      simp [hignored, hend]

/-- Bytes that are neither ignored nor line ends all go to the end of the last segment. -/
theorem parts_append {text : List UInt8}
    (hplain : ∀ byte ∈ text, s.ignored ≠ some byte ∧ byte ≠ s.lineEnd) (before : List UInt8) :
    s.closed (before ++ text) = s.closed before ∧
      s.unfinished (before ++ text) = s.unfinished before ++ text := by
  induction text using List.reverseRecOn with
  | nil => simp
  | append_singleton text byte ih =>
    obtain ⟨hclosed, hunfinished⟩ :=
      ih fun b hb => hplain b (List.mem_append_left _ hb)
    obtain ⟨hkept, hother⟩ := hplain byte (by simp)
    obtain ⟨hclosed', hunfinished'⟩ := s.parts_concat (before ++ text) byte
    rw [if_neg fun h => hother h.2, hclosed] at hclosed'
    rw [if_neg hkept, if_neg hother, hunfinished] at hunfinished'
    rw [← List.append_assoc, ← List.append_assoc]
    exact ⟨hclosed', hunfinished'⟩

theorem parts_nil (s : CommandSettings) : s.closed [] = [] ∧ s.unfinished [] = [] := by
  have hnil : s.segments [] = [] ++ [[]] := List.splitOn_nil s.lineEnd
  exact parts_of_segments hnil

theorem lines_nil (s : CommandSettings) (limit : Nat) : s.lines limit [] = [] := by
  rw [lines, s.parts_nil.1]
  rfl

/-- **One byte more brings the line that it completes,** and no other. -/
theorem lines_concat (s : CommandSettings) (limit : Nat) (before : List UInt8) (byte : UInt8) :
    s.lines limit (before ++ [byte])
      = s.lines limit before ++ (s.answer limit before byte).toList := by
  rw [lines, (s.parts_concat before byte).1, answer]
  split
  · rw [List.filterMap_append, lines]
    cases hline : s.lineOf limit (s.unfinished before) <;> simp [hline]
  · exact (List.append_nil _).symm

end CommandSettings

namespace LineBuffer

variable {settings : CommandSettings} {limit : Nat}

/-! ## 3. A line that goes at once -/

/-- End the line, and forget it as soon as it is given. -/
def completeAtOnce (b : LineBuffer) : Option Line × LineBuffer :=
  if b.isFresh && b.settings.skipEmpty then (none, b)
  else (some ⟨b.stored, b.overlong⟩, b.forget)

/-- Take one byte, with nothing left of a line that it completes. -/
def pushAtOnce (b : LineBuffer) (byte : UInt8) : Option Line × LineBuffer :=
  if b.settings.ignored = some byte then (none, b)
  else if byte = b.settings.lineEnd then b.completeAtOnce
  else (none, b.hold byte)

variable {b : LineBuffer}

theorem settled_of_not_complete (h : b.isComplete = false) : b.settled = b := by
  rw [settled, h]
  rfl

/-- A settled buffer has no line in it that was given. -/
theorem isComplete_settled (b : LineBuffer) : b.settled.isComplete = false := by
  unfold settled
  split
  · rfl
  · rename_i hopen
    exact Bool.eq_false_iff.mpr hopen

theorem isComplete_hold (b : LineBuffer) (byte : UInt8) :
    (b.hold byte).isComplete = b.isComplete := by
  unfold hold
  split <;> rfl

theorem forget_settled (b : LineBuffer) : b.settled.forget = b.forget := by
  unfold settled
  split <;> rfl

/-- What is held is what a settled buffer stores. -/
theorem held_eq (b : LineBuffer) : b.held = b.settled.stored := by
  unfold held settled
  split <;> rfl

/-- The line that is given is the same, and goes sooner or later. -/
theorem completeAtOnce_eq (h : b.isComplete = false) :
    b.completeAtOnce = (b.complete.1, b.complete.2.settled) := by
  unfold completeAtOnce complete
  split
  · rw [settled_of_not_complete h]
  · rfl

/-- **Nobody sees when a line goes.**  A byte is answered as by the buffer that has forgotten
already, and leaves what that one is left with. -/
theorem pushAtOnce_settled (b : LineBuffer) (byte : UInt8) :
    b.settled.pushAtOnce byte = ((b.push byte).1, (b.push byte).2.settled) := by
  have hopen := b.isComplete_settled
  simp only [pushAtOnce, push]
  split
  · rw [settled_of_not_complete hopen]
  · split
    · exact completeAtOnce_eq hopen
    · rw [settled_of_not_complete (b := b.settled.hold byte)]
      exact (isComplete_hold _ _).trans hopen

/-! ## 4. The buffer after some bytes -/

/-- The settled buffer that has been given these bytes: it holds what it can of the last segment. -/
def after (settings : CommandSettings) (limit : Nat) (bytes : List UInt8) : LineBuffer where
  settings := settings
  limit := limit
  stored := (settings.unfinished bytes).take limit
  isComplete := false
  overlong := limit < (settings.unfinished bytes).length
  length_le := List.length_take_le _ _

theorem after_nil (settings : CommandSettings) (limit : Nat) :
    after settings limit [] = empty settings limit := by
  simp [after, empty, settings.parts_nil]

/-- Only the last segment counts. -/
theorem after_congr {bytes bytes' : List UInt8}
    (h : settings.unfinished bytes = settings.unfinished bytes') :
    after settings limit bytes = after settings limit bytes' := by
  simp [after, h]

/-- A buffer is fresh if the last segment is empty, whether or not it could hold any of it. -/
theorem isFresh_after (settings : CommandSettings) (limit : Nat) (bytes : List UInt8) :
    (after settings limit bytes).isFresh = (settings.unfinished bytes).isEmpty := by
  simp only [isFresh, after]
  cases settings.unfinished bytes with
  | nil => simp
  | cons first rest =>
    cases limit with
    | zero => simp
    | succ limit => simp

/-- A byte that ends no line is held, or lost if there is no room for it. -/
theorem hold_after {before : List UInt8} {byte : UInt8} (hkept : settings.ignored ≠ some byte)
    (hother : byte ≠ settings.lineEnd) :
    (after settings limit before).hold byte = after settings limit (before ++ [byte]) := by
  have hunfinished := (settings.parts_concat before byte).2
  rw [if_neg hkept, if_neg hother] at hunfinished
  have hlength : (settings.unfinished before ++ [byte]).length
      = (settings.unfinished before).length + 1 := List.length_append
  unfold hold
  by_cases hroom : (settings.unfinished before).length < limit
  -- room for the byte: the whole segment is held, before and after
  · have hheld : (settings.unfinished before).take limit = settings.unfinished before :=
      List.take_of_length_le (Nat.le_of_lt hroom)
    have hheld' : (settings.unfinished before ++ [byte]).take limit
        = settings.unfinished before ++ [byte] := List.take_of_length_le (by omega)
    have hwhole : ¬ limit < (settings.unfinished before).length := by omega
    have hwhole' : ¬ limit < (settings.unfinished before).length + 1 := by omega
    simp only [after, hunfinished, hheld, hheld', hlength, hroom, hwhole, hwhole', dite_true]
  -- no room: the first `limit` bytes stay, and the line is overlong from here on
  · have hfull :
        ¬ (after settings limit before).stored.length < (after settings limit before).limit := by
      simp only [after, List.length_take]
      omega
    have hheld' : (settings.unfinished before ++ [byte]).take limit
        = (settings.unfinished before).take limit :=
      List.take_append_of_le_length (Nat.le_of_not_lt hroom)
    have hlost : limit < (settings.unfinished before).length + 1 := by omega
    rw [dif_neg hfull]
    simp only [after, hunfinished, hheld', hlength, hlost, decide_true]

/-- A line end gives the line of the segment that it closes. -/
theorem completeAtOnce_after {before : List UInt8} {byte : UInt8} (hkept : settings.ignored ≠ some byte)
    (hend : byte = settings.lineEnd) :
    (after settings limit before).completeAtOnce
      = (settings.lineOf limit (settings.unfinished before),
          after settings limit (before ++ [byte])) := by
  have hunfinished := (settings.parts_concat before byte).2
  rw [if_neg hkept, if_pos hend] at hunfinished
  unfold completeAtOnce CommandSettings.lineOf
  rw [isFresh_after, Bool.and_comm]
  have hsettings : (after settings limit before).settings = settings := rfl
  rw [hsettings]
  split
  · rename_i hskip
    -- an empty line that is skipped leaves a buffer that is fresh already
    have hempty : settings.unfinished before = [] := by
      rw [Bool.and_eq_true, List.isEmpty_iff] at hskip
      exact hskip.2
    rw [after_congr (hunfinished.trans hempty.symm)]
  · have hfresh : (after settings limit before).forget
        = after settings limit (before ++ [byte]) := by
      rw [after_congr (hunfinished.trans settings.parts_nil.2.symm), after_nil]
      rfl
    rw [hfresh]
    rfl

/-- **One byte takes the buffer after some bytes to the buffer after one byte more.** -/
theorem pushAtOnce_after (settings : CommandSettings) (limit : Nat) (before : List UInt8)
    (byte : UInt8) :
    (after settings limit before).pushAtOnce byte
      = (settings.answer limit before byte, after settings limit (before ++ [byte])) := by
  have hsettings : (after settings limit before).settings = settings := rfl
  have hunfinished := (settings.parts_concat before byte).2
  unfold pushAtOnce CommandSettings.answer
  rw [hsettings]
  by_cases hignored : settings.ignored = some byte
  · rw [if_pos hignored] at hunfinished
    rw [if_pos hignored, if_neg fun h => h.1 hignored, after_congr hunfinished]
  · rw [if_neg hignored]
    by_cases hend : byte = settings.lineEnd
    · rw [if_pos hend, if_pos ⟨hignored, hend⟩, completeAtOnce_after hignored hend]
    · rw [if_neg hend, if_neg fun h => hend h.2, hold_after hignored hend]

/-- The same of a buffer that settles later. -/
theorem push_of_settled {before : List UInt8} (hb : b.settled = after settings limit before)
    (byte : UInt8) :
    (b.push byte).1 = settings.answer limit before byte ∧
      (b.push byte).2.settled = after settings limit (before ++ [byte]) := by
  have hpush := pushAtOnce_after settings limit before byte
  rw [← hb, pushAtOnce_settled] at hpush
  exact Prod.mk.inj hpush

/-! ## 5. A buffer in use -/

/-- One call on a line buffer. -/
inductive Use where
  | push (byte : UInt8)
  | forget
  deriving DecidableEq, Repr

namespace Use

/-- The byte of a call, if it brings one. -/
def byte? : Use → Option UInt8
  | push byte => some byte
  | forget => none

/-- The bytes that came before, between and behind the calls of `forget`. -/
def bursts (uses : List Use) : List (List UInt8) :=
  (uses.splitOn forget).map (List.filterMap byte?)

/-- The bytes that came since the buffer last forgot, or since it was new. -/
def sinceForget (uses : List Use) : List UInt8 :=
  ((uses.splitOn forget).getLast (List.splitOn_ne_nil _ _)).filterMap byte?

/-- What a call is answered behind others. -/
def answer (settings : CommandSettings) (limit : Nat) (before : List Use) : Use → Option Line
  | push byte => settings.answer limit (sinceForget before) byte
  | forget => none

/-- A call of `forget` opens a burst. -/
theorem bursts_forget (uses : List Use) :
    bursts (uses ++ [forget]) = bursts uses ++ [[]] ∧ sinceForget (uses ++ [forget]) = [] := by
  simp [bursts, sinceForget, splitOn_concat_self]

/-- A byte goes to the last burst. -/
theorem bursts_push (uses : List Use) (byte : UInt8) :
    ∃ earlier, bursts uses = earlier ++ [sinceForget uses] ∧
      bursts (uses ++ [push byte]) = earlier ++ [sinceForget uses ++ [byte]] ∧
      sinceForget (uses ++ [push byte]) = sinceForget uses ++ [byte] := by
  -- a push is no separator, so it goes to the last of what `forget` splits
  have hparts := (List.dropLast_concat_getLast (List.splitOn_ne_nil forget uses)).symm
  have hmore := splitOn_concat_of_ne (x := push byte) Use.noConfusion hparts
  have hlast : ((uses.splitOn forget).getLast (List.splitOn_ne_nil _ _) ++ [push byte]).filterMap
      byte? = sinceForget uses ++ [byte] := by
    rw [List.filterMap_append]
    rfl
  refine ⟨((uses.splitOn forget).dropLast).map (List.filterMap byte?), ?_, ?_, ?_⟩
  · have hmap := congrArg (List.map (List.filterMap byte?)) hparts
    rw [List.map_append] at hmap
    exact hmap
  · rw [bursts, hmore, List.map_append, List.map_singleton, hlast]
  · simp only [sinceForget, hmore, List.getLast_append_singleton]
    exact hlast

end Use

open Use (bursts sinceForget)

/-- Make a call. -/
def use (b : LineBuffer) : Use → Option Line × LineBuffer
  | .push byte => b.push byte
  | .forget => (none, b.forget)

/-- Make a call on a buffer that forgets its lines at once. -/
def useAtOnce (b : LineBuffer) : Use → Option Line × LineBuffer
  | .push byte => b.pushAtOnce byte
  | .forget => (none, b.forget)

theorem useAtOnce_settled (b : LineBuffer) (next : Use) :
    b.settled.useAtOnce next = ((b.use next).1, (b.use next).2.settled) := by
  cases next with
  | push byte => exact pushAtOnce_settled b byte
  | forget => exact Prod.ext rfl b.forget_settled

/-- **In use they cannot be told apart.**  By induction on the calls, with the settled buffer beside
the other one. -/
theorem callEach_useAtOnce (uses : List Use) : ∀ b : LineBuffer,
    callEach useAtOnce b.settled uses
      = ((callEach use b uses).1, (callEach use b uses).2.settled) := by
  induction uses with
  | nil => exact fun _ => rfl
  | cons next rest ih =>
    intro b
    simp only [callEach, useAtOnce_settled, ih]

/-- **One call takes the buffer behind some calls to the buffer behind one call more.** -/
theorem useAtOnce_after (uses : List Use) (next : Use) :
    (after settings limit (sinceForget uses)).useAtOnce next
      = (next.answer settings limit uses,
          after settings limit (sinceForget (uses ++ [next]))) := by
  cases next with
  | push byte =>
    obtain ⟨earlier, -, -, hsince⟩ := Use.bursts_push uses byte
    rw [hsince]
    exact pushAtOnce_after settings limit (sinceForget uses) byte
  | forget =>
    rw [(Use.bursts_forget uses).2, after_nil]
    rfl

/-- The lines of the bursts so far, and then the one that a call is answered. -/
theorem lines_bursts (uses : List Use) (next : Use) :
    (bursts (uses ++ [next])).flatMap (settings.lines limit)
      = (bursts uses).flatMap (settings.lines limit)
          ++ (next.answer settings limit uses).toList := by
  cases next with
  | push byte =>
    obtain ⟨earlier, hbefore, hafter, -⟩ := Use.bursts_push uses byte
    rw [hbefore, hafter, List.flatMap_append, List.flatMap_append, List.append_assoc]
    simp only [List.flatMap_singleton]
    rw [settings.lines_concat]
    rfl
  | forget =>
    rw [(Use.bursts_forget uses).1, List.flatMap_append, List.flatMap_singleton,
      settings.lines_nil]
    rfl

/-- **What a buffer does in use:** the answers that these calls got, and the buffer behind them. -/
structure Splits (settings : CommandSettings) (limit : Nat) (uses : List Use)
    (answers : List (Option Line)) (b : LineBuffer) : Prop where
  /-- The lines are those of each burst, in order. -/
  lines : answers.reduceOption = (bursts uses).flatMap (settings.lines limit)
  /-- A line is the answer to its own end, and to nothing else. -/
  each : ∀ before next rest, uses = before ++ next :: rest →
    answers[before.length]? = some (next.answer settings limit before)
  /-- What is held is the front of the segment that is still open. -/
  held : b.held = (settings.unfinished (sinceForget uses)).take limit
  /-- Once it has forgotten, the buffer is as good as new. -/
  forget : ∀ more, callEach use b.forget more = callEach use (empty settings limit) more

theorem callEach_useAtOnce_empty (settings : CommandSettings) (limit : Nat) (uses : List Use) :
    (callEach useAtOnce (empty settings limit) uses).2
      = after settings limit (sinceForget uses) := by
  induction uses using List.reverseRecOn with
  | nil => exact (after_nil settings limit).symm
  | append_singleton uses next ih =>
    rw [callEach_concat, ih, useAtOnce_after]

theorem settled_callEach_use (settings : CommandSettings) (limit : Nat) (uses : List Use) :
    (callEach use (empty settings limit) uses).2.settled
      = after settings limit (sinceForget uses) := by
  have hboth := callEach_useAtOnce uses (empty settings limit)
  exact (congrArg Prod.snd hboth).symm.trans (callEach_useAtOnce_empty settings limit uses)

/-- A call is answered with the line that it completes behind all calls before it. -/
theorem use_callEach (settings : CommandSettings) (limit : Nat) (uses : List Use) (next : Use) :
    ((callEach use (empty settings limit) uses).2.use next).1
      = next.answer settings limit uses := by
  have hnext := useAtOnce_settled (callEach use (empty settings limit) uses).2 next
  rw [settled_callEach_use, useAtOnce_after] at hnext
  exact (congrArg Prod.fst hnext).symm

/-- **A buffer splits.**  Whatever its size, its settings and the calls made on it. -/
theorem callEach_use_splits (settings : CommandSettings) (limit : Nat) (uses : List Use) :
    Splits settings limit uses (callEach use (empty settings limit) uses).1
      (callEach use (empty settings limit) uses).2 where
  lines := by
    induction uses using List.reverseRecOn with
    | nil =>
      have hbursts : bursts [] = [[]] := rfl
      rw [hbursts, List.flatMap_singleton, settings.lines_nil]
      rfl
    | append_singleton uses next ih =>
      -- the last call brings its own answer, and the lines of the bursts grow by it
      rw [callEach_concat, use_callEach, lines_bursts, ← ih,
        List.reduceOption_append, List.reduceOption_singleton]
  each := by
    rintro before next rest rfl
    rw [getElem?_callEach, use_callEach]
  held := by
    rw [held_eq, settled_callEach_use]
    rfl
  forget := by
    intro more
    rw [← forget_settled, settled_callEach_use]
    rfl

/-- A line that is longer than the buffer is cut, and leaves the next one alone. -/
example :
    (callEach use (empty .standard 2)
        ([72, 69, 76, 10, 79, 75, 10].map .push)).1.reduceOption
      = [⟨[72, 69], true⟩, ⟨[79, 75], false⟩] := by decide

end LineBuffer

end SerialLink
