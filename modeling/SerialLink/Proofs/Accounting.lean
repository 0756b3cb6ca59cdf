/-
# Where every byte went

A byte that a receiver has completed goes through several hands, all of them in
`Receiver::deliver` but the last: the policy may throw it away, the queue may refuse it, the
sink gets it if the queue took it, and the reader takes it when he likes.  Between two frames
anything can happen, a new policy included.  This module keeps the books.

The books are the *history* of a receiver's life (`Event.history`): every completed frame, with
the policy it was judged by and the number of bytes that waited at that moment, every byte that
was taken, and every time the mark of a lost byte was taken.  The history is read off the
stations in which a match is served (`Station.matched`), before anything is done with the frame.

`Accounts` says that queue, sink and marks are what the history makes them, and the module
proves that one thing that happens keeps the books right (`Accounts.perform`), and so a whole
life does (`Accounts.live`).
-/
import SerialLink.Proofs.Delivery
import SerialLink.Proofs.Lifetime

namespace SerialLink

/-! ## 1. The books -/

/-- A frame at the moment of its stop bit. -/
structure Completion where
  byte : UInt8
  stopBit : Bool
  /-- The policy of the receiver that completed it. -/
  policy : StopPolicy
  /-- How many bytes waited in the queue. -/
  waiting : Nat
  deriving DecidableEq, Repr

namespace Completion

/-- Its byte is wanted: the stop bit was high, or the policy keeps the byte all the same. -/
def isWanted (c : Completion) : Bool := c.policy.wants c.stopBit

/-- Its byte is wanted, and a queue of `n` slots was full. -/
def isRefused (n : Nat) (c : Completion) : Bool := c.isWanted && c.waiting = n - 1

/-- Its byte is wanted, and a queue of `n` slots was not full. -/
def isAccepted (n : Nat) (c : Completion) : Bool := c.isWanted && c.waiting ≠ n - 1

end Completion

/-- What the books have an entry for. -/
inductive Deed where
  | completed (frame : Completion)
  /-- The reader took a byte. -/
  | popped (byte : UInt8)
  /-- The reader took the mark of a lost byte. -/
  | tookLost
  deriving DecidableEq, Repr

namespace Deed

/-- The frame of an entry, if it is about one. -/
def frame? : Deed → Option Completion
  | completed frame => some frame
  | _ => none

/-- The byte that the reader took, if the entry is about one. -/
def byte? : Deed → Option UInt8
  | popped byte => some byte
  | _ => none

/-- The frames of a history, in the order of their completion. -/
def frames (deeds : List Deed) : List Completion := deeds.filterMap frame?

/-- The bytes that the reader took, in order. -/
def taken (deeds : List Deed) : List UInt8 := deeds.filterMap byte?

/-- What has happened since the mark of a lost byte was last taken. -/
def sinceTookLost (deeds : List Deed) : List Deed := deeds.rtakeWhile (· ≠ tookLost)

variable {deeds : List Deed}

theorem frames_append (deeds more : List Deed) :
    frames (deeds ++ more) = frames deeds ++ frames more :=
  List.filterMap_append

theorem taken_append (deeds more : List Deed) :
    taken (deeds ++ more) = taken deeds ++ taken more :=
  List.filterMap_append

@[simp] theorem frames_completed (frame : Completion) : frames [completed frame] = [frame] := rfl

@[simp] theorem taken_completed (frame : Completion) : taken [completed frame] = [] := rfl

@[simp] theorem frames_popped (bytes : List UInt8) : frames (bytes.map popped) = [] := by
  simp [frames, List.filterMap_map, Function.comp_def, frame?]

@[simp] theorem taken_popped (bytes : List UInt8) : taken (bytes.map popped) = bytes := by
  simp [taken, List.filterMap_map, Function.comp_def, byte?]

theorem sinceTookLost_completed (frame : Completion) :
    sinceTookLost (deeds ++ [completed frame]) = sinceTookLost deeds ++ [completed frame] := by
  rw [sinceTookLost, List.rtakeWhile_concat]
  rfl

theorem sinceTookLost_popped (bytes : List UInt8) :
    sinceTookLost (deeds ++ bytes.map popped) = sinceTookLost deeds ++ bytes.map popped := by
  induction bytes using List.reverseRecOn with
  | nil => simp
  | append_singleton bytes byte ih =>
    rw [List.map_append, ← List.append_assoc, ← List.append_assoc, ← ih, List.map_singleton,
      sinceTookLost, List.rtakeWhile_concat]
    rfl

theorem sinceTookLost_tookLost : sinceTookLost (deeds ++ [tookLost]) = [] := by
  rw [sinceTookLost, List.rtakeWhile_concat]
  rfl

end Deed

open Deed (frames taken sinceTookLost)

namespace Station

variable {n : Nat}

/-! ## 2. The history of a life -/

/-- The frame that a match completes if it is served now. -/
def completion? (s : Station n) : Option Completion :=
  match s.receiver.phase with
  | .stopping byte =>
    if s.readable then some ⟨byte, s.wire.level, s.receiver.policy, s.queue.length⟩ else none
  | _ => none

/-- The entry that a match makes if it is served now. -/
def entries (s : Station n) : List Deed := s.completion?.toList.map .completed

/-- The stations in which the matches up to `stop` are served. -/
def matched (stop : Nat) (s : Station n) : List (Station n) :=
  if (s.wire.target < Wire.timeLimit ∧ s.wire.matchCount + 1 < Wire.countLimit) ∧
      s.wire.timerArmed ∧ s.wire.due ≤ stop then
    match _served : s.serveMatch .receiver with
    | .error _ => [s]
    | .ok next => s :: next.matched stop
  else
    []
termination_by stop - s.wire.timerStart
decreasing_by
  have := timerStart_serveMatch _served
  have := s.wire.timerStart_lt_due
  omega

end Station

namespace Event

variable {n : Nat}

/-- The entries that an event makes. -/
def deeds (s : Station n) : Event → List Deed
  | run cycles =>
    ((s.serveEdge .receiver).matched (s.wire.now + cycles)).flatMap Station.entries
  | sample => s.entries
  | pop => s.queue.pop.1.toList.map .popped
  | popUpTo k => (s.queue.popUpTo k).1.map .popped
  | takeLost => [.tookLost]
  | _ => []

/-- The entries that events make one after the other. -/
def history : List Event → Station n → List Deed
  | [], _ => []
  | event :: rest, s =>
    event.deeds s ++
      match event.perform s with
      | .ok _ next => history rest next
      | .error _ _ => []

theorem history_cons {s next : Station n} {event : Event} (h : event.perform s = .ok () next)
    (rest : List Event) : history (event :: rest) s = event.deeds s ++ history rest next := by
  rw [history, h]

end Event

namespace Station

variable {n : Nat} {deeds : List Deed} {s s' : Station n}

/-- **The books are right:** queue, sink and marks are what the history makes them. -/
structure Accounts (deeds : List Deed) (s : Station n) : Prop where
  /-- What was taken and what still waits is what the sink was given. -/
  conserved : taken deeds ++ s.queue.toList = s.sink.bytes
  /-- The sink was given the wanted bytes, but for those that found the queue full. -/
  sink : s.sink = .collect (((frames deeds).filter (·.isAccepted n)).map (·.byte))
  /-- The mark tells of the bytes that were refused since it was last taken. -/
  lost : s.queue.lost = true ↔ ∃ c ∈ frames (sinceTookLost deeds), c.isRefused n
  /-- Taking bytes leaves the mark alone. -/
  lost_popUpTo : ∀ k, (s.queue.popUpTo k).2.lost = s.queue.lost
  /-- Every low stop bit counts, whatever the policy. -/
  badFrames : s.queue.badFrames.toNat = (frames deeds).countP (!·.stopBit) % 65536
  /-- The history leaves no frame out. -/
  completed : s.completed = (frames deeds).map fun c => (c.byte, c.stopBit)

/-- Nothing has come in yet, and the sink keeps what it will be given. -/
structure Blank (s : Station n) : Prop where
  queue : s.queue.toList = []
  lost : s.queue.lost = false
  badFrames : s.queue.badFrames = 0
  sink : s.sink = .collect []
  journal : s.journal = []

theorem Blank.accounts (h : s.Blank) : Accounts [] s where
  conserved := by
    rw [h.queue, h.sink]
    rfl
  sink := h.sink
  lost := by simp [h.lost, sinceTookLost, frames]
  lost_popUpTo k := s.queue.lost_popUpTo k
  badFrames := by
    rw [h.badFrames]
    rfl
  completed := by
    rw [completed, h.journal]
    rfl

/-! ## 3. The end of a frame -/

/-- A frame that is completed at this station. -/
def completion (s : Station n) (byte : UInt8) (stopBit : Bool) : Completion :=
  ⟨byte, stopBit, s.receiver.policy, s.queue.length⟩

/-- What closing a frame does to queue, sink and marks. -/
structure Closes (c : Completion) (s s' : Station n) : Prop where
  queue : s'.queue.toList = s.queue.toList ++ if c.isAccepted n then [c.byte] else []
  sink : s'.sink = if c.isAccepted n then s.sink.push c.byte else s.sink
  lost : s'.queue.lost = (s.queue.lost || c.isRefused n)
  badFrames : s'.queue.badFrames = s.queue.badFrames + if c.stopBit then 0 else 1

/-- A wanted byte that finds the queue full is marked as lost, and that is all. -/
theorem enqueue_of_full (hfull : s.queue.hasRoom = false) (byte : UInt8) :
    s.enqueue byte = (.refused, { s with queue := s.queue.markLost }) := by
  rw [enqueue, ReceiveQueue.push_of_full hfull]

theorem closes_of_not_wants {byte : UInt8} {stopBit : Bool}
    (hwants : s.receiver.policy.wants stopBit = false) :
    Closes (s.completion byte stopBit) s (s.closeFrame byte stopBit) := by
  have hdelivers : Delivers [(byte, stopBit)] s (s.closeFrame byte stopBit) :=
    delivers_closeFrame_of_not_wants hwants
  have hwanted : s.receiver.policy.wanted [(byte, stopBit)] = [] :=
    StopPolicy.wanted_cons_of_not_wants hwants []
  have haccepted : (s.completion byte stopBit).isAccepted n = false := by
    simp [Completion.isAccepted, Completion.isWanted, completion, hwants]
  have hrefused : (s.completion byte stopBit).isRefused n = false := by
    simp [Completion.isRefused, Completion.isWanted, completion, hwants]
  refine ⟨?_, ?_, ?_, ?_⟩
  · rw [hdelivers.queue, hwanted, haccepted]
    rfl
  · rw [hdelivers.sink, hwanted, haccepted]
    rfl
  · rw [hdelivers.lost, hrefused, Bool.or_false]
  · rw [hdelivers.badFrames]
    cases stopBit <;> rfl

theorem closes_of_room {byte : UInt8} {stopBit : Bool}
    (hwants : s.receiver.policy.wants stopBit = true) (hroom : s.queue.length ≠ n - 1) :
    Closes (s.completion byte stopBit) s (s.closeFrame byte stopBit) := by
  have hlength : s.queue.length < n := s.queue.ring.length_lt
  -- a ring of `n` slots holds `n - 1` bytes, so not being full leaves a place for one
  have hspace : s.queue.toList.length + 1 ≤ n - 1 := by
    rw [ReceiveQueue.length_toList]
    omega
  have hdelivers : Delivers [(byte, stopBit)] s (s.closeFrame byte stopBit) :=
    delivers_closeFrame_of_wants hwants hspace
  have hwanted : s.receiver.policy.wanted [(byte, stopBit)] = [byte] :=
    StopPolicy.wanted_cons_of_wants hwants []
  have haccepted : (s.completion byte stopBit).isAccepted n = true := by
    simp [Completion.isAccepted, Completion.isWanted, completion, hwants, hroom]
  have hrefused : (s.completion byte stopBit).isRefused n = false := by
    simp [Completion.isRefused, completion, hroom]
  refine ⟨?_, ?_, ?_, ?_⟩
  · rw [hdelivers.queue, hwanted, haccepted]
    rfl
  · rw [hdelivers.sink, hwanted, haccepted]
    rfl
  · rw [hdelivers.lost, hrefused, Bool.or_false]
  · rw [hdelivers.badFrames]
    cases stopBit <;> rfl

theorem closes_of_full {byte : UInt8} {stopBit : Bool}
    (hwants : s.receiver.policy.wants stopBit = true) (hfull : s.queue.length = n - 1) :
    Closes (s.completion byte stopBit) s (s.closeFrame byte stopBit) := by
  have hwants' : s.wants stopBit = true := hwants
  have hbytes : (s.countStop stopBit).queue.toList = s.queue.toList := by cases stopBit <;> rfl
  have hnone : (s.countStop stopBit).queue.hasRoom = false := by
    rw [← Bool.not_eq_true, ReceiveQueue.hasRoom_iff, hbytes, ReceiveQueue.length_toList]
    exact fun h => h hfull
  have haccepted : (s.completion byte stopBit).isAccepted n = false := by
    simp [Completion.isAccepted, completion, hfull]
  have hrefused : (s.completion byte stopBit).isRefused n = true := by
    simp [Completion.isRefused, Completion.isWanted, completion, hwants, hfull]
  refine ⟨?_, ?_, ?_, ?_⟩ <;>
    simp only [closeFrame, hwants', if_true, enqueue_of_full hnone, report, haccepted, hrefused]
  · rw [ReceiveQueue.toList_markLost, hbytes]
    simp
  · cases stopBit <;> rfl
  · exact (Bool.or_true _).symm
  · cases stopBit <;> simp [countStop, completion, ReceiveQueue.markLost,
      ReceiveQueue.countBadFrame]

/-- **A byte is wanted or not, and a wanted one finds room or not.** -/
theorem closes_closeFrame (s : Station n) (byte : UInt8) (stopBit : Bool) :
    Closes (s.completion byte stopBit) s (s.closeFrame byte stopBit) := by
  cases hwants : s.receiver.policy.wants stopBit with
  | false => exact closes_of_not_wants hwants
  | true =>
    by_cases hfull : s.queue.length = n - 1
    · exact closes_of_full hwants hfull
    · exact closes_of_room hwants hfull

/-! ## 4. One thing that happens -/

/-- What leaves queue, sink and frames alone leaves the books right. -/
theorem Accounts.of_eq (h : Accounts deeds s) (hqueue : s'.queue = s.queue)
    (hsink : s'.sink = s.sink) (hcompleted : s'.completed = s.completed) :
    Accounts deeds s' where
  conserved := by rw [hqueue, hsink, h.conserved]
  sink := by rw [hsink, h.sink]
  lost := by rw [hqueue, h.lost]
  lost_popUpTo k := s'.queue.lost_popUpTo k
  badFrames := by rw [hqueue, h.badFrames]
  completed := by rw [hcompleted, h.completed]

/-- A frame that is closed is entered. -/
theorem Accounts.closeFrame (h : Accounts deeds s) (byte : UInt8) (stopBit : Bool) :
    Accounts (deeds ++ [.completed (s.completion byte stopBit)]) (s.closeFrame byte stopBit) := by
  have hcloses := closes_closeFrame s byte stopBit
  have hframes : frames (deeds ++ [.completed (s.completion byte stopBit)])
      = frames deeds ++ [s.completion byte stopBit] := by
    rw [Deed.frames_append, Deed.frames_completed]
  have htaken : taken (deeds ++ [.completed (s.completion byte stopBit)]) = taken deeds := by
    rw [Deed.taken_append, Deed.taken_completed, List.append_nil]
  have hsink := h.sink
  have hbytes := h.conserved
  -- taken and waiting together are the sink's bytes: both sides grow by the byte, or neither does
  refine ⟨?_, ?_, ?_, fun k => ReceiveQueue.lost_popUpTo _ k, ?_, ?_⟩
  · rw [htaken, hcloses.queue, hcloses.sink, ← List.append_assoc, hbytes, hsink]
    split <;> simp [Sink.bytes, Sink.push, completion]
  · rw [hframes, hcloses.sink, hsink, List.filter_append, List.map_append]
    split <;> rename_i haccepted <;> simp [Sink.push, haccepted]
  -- the mark tells of a refusal since it was last taken, and this frame came since then
  · rw [hcloses.lost, Deed.sinceTookLost_completed, Deed.frames_append, Deed.frames_completed,
      Bool.or_eq_true, h.lost]
    simp only [List.mem_append, List.mem_singleton, or_and_right, exists_or, exists_eq_left]
  · rw [hframes, hcloses.badFrames, List.countP_append, UInt16.toNat_add, h.badFrames]
    cases stopBit <;> simp [completion]
  · rw [hframes, completed_closeFrame, h.completed, List.map_append]
    rfl

theorem Accounts.popUpTo (h : Accounts deeds s) (k : Nat) :
    Accounts (deeds ++ (s.queue.popUpTo k).1.map .popped)
      { s with queue := (s.queue.popUpTo k).2 } := by
  obtain ⟨htaken, hleft⟩ := s.queue.toList_popUpTo k
  have hframes : frames (deeds ++ (s.queue.popUpTo k).1.map .popped) = frames deeds := by
    rw [Deed.frames_append, Deed.frames_popped, List.append_nil]
  refine ⟨?_, ?_, ?_, fun k => ReceiveQueue.lost_popUpTo _ k, ?_, ?_⟩
  -- the popped bytes only move from what waits to what was taken
  · rw [Deed.taken_append, Deed.taken_popped, List.append_assoc, htaken, hleft,
      List.take_append_drop]
    exact h.conserved
  · rw [hframes]
    exact h.sink
  · rw [Deed.sinceTookLost_popped, Deed.frames_append, Deed.frames_popped, List.append_nil,
      ReceiveQueue.lost_popUpTo]
    exact h.lost
  · rw [hframes, ReceiveQueue.badFrames_popUpTo]
    exact h.badFrames
  · rw [hframes]
    exact h.completed

theorem Accounts.takeLost (h : Accounts deeds s) :
    Accounts (deeds ++ [.tookLost]) { s with queue := s.queue.takeLost.2 } := by
  have hframes : frames (deeds ++ [.tookLost]) = frames deeds := by
    rw [Deed.frames_append]
    exact List.append_nil _
  refine ⟨?_, ?_, ?_, fun k => ReceiveQueue.lost_popUpTo _ k, ?_, ?_⟩
  · rw [Deed.taken_append, ReceiveQueue.toList_takeLost]
    exact (congrArg (· ++ _) (List.append_nil _)).trans h.conserved
  · rw [hframes]
    exact h.sink
  -- the mark is clear, and so is what came since it was taken
  · rw [Deed.sinceTookLost_tookLost]
    simp [ReceiveQueue.takeLost, frames]
  · rw [hframes]
    exact h.badFrames
  · rw [hframes]
    exact h.completed

/-! ## 5. A match -/

/-- Only the sample of a stop bit ends a frame. -/
theorem eq_stopping_of_sample {phase : Phase} {level stopBit : Bool} {byte : UInt8}
    (h : phase.sample level = .ok (.frame byte stopBit)) :
    phase = .stopping byte ∧ stopBit = level := by
  -- a data bit leads to the next one, to the stop bit or to a fault, and never to a frame
  have hdata : ∀ pending index : UInt8,
      Phase.sampleData pending index level ≠ .ok (.frame byte stopBit) := by
    intro pending index hsample
    unfold Phase.sampleData at hsample
    split at hsample
    · cases hsample
    · split at hsample
      · cases hsample
      · split at hsample <;> cases hsample
  cases phase with
  | idle => cases h
  | confirming => exact absurd h (hdata 0 0)
  | data pending index => exact absurd h (hdata pending index)
  | stopping pending =>
    cases h
    exact ⟨rfl, rfl⟩

/-- The sample of a stop bit ends a frame. -/
theorem ne_stopping_of_sample {phase : Phase} {level : Bool} {r : Sampled}
    (h : phase.sample level = .ok r) (hr : ∀ byte, r ≠ .frame byte level) (byte : UInt8) :
    phase ≠ .stopping byte := by
  rintro rfl
  cases h
  exact hr byte rfl

theorem completion?_of_unreadable (hread : s.readable = false) : s.completion? = none := by
  unfold completion?
  split
  · rw [hread]
    rfl
  · rfl

theorem completion?_of_ne_stopping (hphase : ∀ byte, s.receiver.phase ≠ .stopping byte) :
    s.completion? = none := by
  unfold completion?
  split
  · rename_i byte heq
    exact absurd heq (hphase byte)
  · rfl

theorem completion?_of_stopping (hread : s.readable = true) {byte : UInt8}
    (hphase : s.receiver.phase = .stopping byte) :
    s.completion? = some (s.completion byte s.wire.level) := by
  unfold completion?
  rw [hphase, hread]
  rfl

/-- What is no frame is not counted as one. -/
theorem completed_report {entry : Report} (hentry : entry.frame? = none) :
    (s.report entry).completed = s.completed := by
  rw [completed, report, List.filterMap_append, List.filterMap_cons, hentry]
  exact List.append_nil _

/-- **A match either closes the frame whose stop bit it samples,** or leaves queue, sink and
frames alone. -/
theorem handleMatch_cases {next : Station n} (h : s.handleMatch = .ok next) :
    (∃ byte, s.completion? = some (s.completion byte s.wire.level) ∧
      next = (s.awaitNextBit.closeFrame byte s.wire.level).awaitEdge) ∨
    (s.completion? = none ∧ next.queue = s.queue ∧ next.sink = s.sink ∧
      next.completed = s.completed) := by
  -- the books look at the phase before the sample, so each outcome is traced back to it
  cases afterMatch_of_handleMatch h with
  | unreadable hread =>
    exact .inr ⟨completion?_of_unreadable hread, rfl, rfl, completed_report rfl⟩
  | going hread hsample =>
    have hphase := ne_stopping_of_sample hsample fun _ hframe => nomatch hframe
    exact .inr ⟨completion?_of_ne_stopping hphase, rfl, rfl, rfl⟩
  | frame hread hsample =>
    obtain ⟨hstop, rfl⟩ := eq_stopping_of_sample hsample
    exact .inl ⟨_, completion?_of_stopping hread hstop, rfl⟩
  | spurious hread hsample =>
    have hphase := ne_stopping_of_sample hsample fun _ hframe => nomatch hframe
    exact .inr ⟨completion?_of_ne_stopping hphase, rfl, rfl, completed_report rfl⟩

theorem Accounts.handleMatch {next : Station n} (h : Accounts deeds s)
    (hok : s.handleMatch = .ok next) : Accounts (deeds ++ s.entries) next := by
  rcases handleMatch_cases hok with ⟨byte, hcompletion, rfl⟩ | ⟨hnone, hqueue, hsink, hframes⟩
  · rw [entries, hcompletion]
    have hbit : Accounts deeds s.awaitNextBit := h.of_eq rfl rfl rfl
    exact (hbit.closeFrame byte s.wire.level).of_eq rfl rfl rfl
  · rw [entries, hnone]
    exact (List.append_nil deeds).symm ▸ h.of_eq hqueue hsink hframes

theorem Accounts.handleEdge (h : Accounts deeds s) : Accounts deeds s.handleEdge := by
  rcases s.handleEdge_cases with hedge | hedge | hedge <;> rw [hedge]
  · exact h
  · exact h.of_eq rfl rfl (completed_report rfl)
  · exact h.of_eq rfl rfl rfl

theorem Accounts.serveEdge (h : Accounts deeds s) : Accounts deeds (s.serveEdge .receiver) := by
  have htaken : Accounts deeds { s with wire := s.wire.takeEdge } := h.of_eq rfl rfl rfl
  unfold Station.serveEdge
  split
  · exact htaken.handleEdge
  · exact htaken

theorem Accounts.serveMatch {next : Station n} (h : Accounts deeds s)
    (hok : s.serveMatch .receiver = .ok next) :
    Accounts (deeds ++ s.entries) next := by
  have htaken : Accounts deeds { s with wire := s.wire.takeMatch } := h.of_eq rfl rfl rfl
  exact htaken.handleMatch hok

/-! ## 6. A run -/

variable {stop : Nat}

theorem matched_of_due {next : Station n} (fits : s.wire.target < Wire.timeLimit)
    (room : s.wire.matchCount + 1 < Wire.countLimit)
    (due : s.wire.timerArmed = true ∧ s.wire.due ≤ stop)
    (served : s.serveMatch .receiver = .ok next) : s.matched stop = s :: next.matched stop := by
  rw [matched, if_pos ⟨⟨fits, room⟩, due⟩]
  split
  · rename_i fault hfault
    rw [served] at hfault
    cases hfault
  · rename_i next' hnext
    rw [served] at hnext
    cases hnext
    rfl

theorem matched_of_rest (rest : ¬ (s.wire.timerArmed = true ∧ s.wire.due ≤ stop)) :
    s.matched stop = [] := by
  rw [matched, if_neg fun h => rest h.2]

/-- **The matches of a run keep the books right.** -/
theorem Accounts.serveMatches {last : Station n} (h : Accounts deeds s)
    (hok : s.serveMatches .receiver stop = .ok () last) :
    Accounts (deeds ++ (s.matched stop).flatMap entries) last := by
  -- along the loop itself: `matched` stops where it does, and a served match is one entry more
  fun_induction Station.serveMatches .receiver stop s generalizing deeds with
  | case1 s late => cases hok
  | case2 s fits due full => cases hok
  | case3 s fits due room fault served => cases hok
  | case4 s fits due room next served ih =>
    rw [matched_of_due (Nat.lt_of_not_le fits) (Nat.lt_of_not_le room) due served,
      List.flatMap_cons, ← List.append_assoc]
    exact ih (h.serveMatch served) hok
  | case5 s fits rest =>
    cases hok
    rw [matched_of_rest rest]
    exact (List.append_nil deeds).symm ▸ h.of_eq rfl rfl rfl

/-! ## 7. A life -/

/-- **Whatever happens, the books stay right.** -/
theorem Accounts.perform (h : Accounts deeds s) (event : Event)
    (hok : event.perform s = .ok () s') : Accounts (deeds ++ event.deeds s) s' := by
  have hsame : Accounts deeds s' → Accounts (deeds ++ []) s' := fun h' =>
    (List.append_nil deeds).symm ▸ h'
  cases event with
  | drive level =>
    cases hok
    exact hsame (h.of_eq rfl rfl rfl)
  | run cycles =>
    have hrun : run .receiver cycles s = .ok () s' := hok
    exact h.serveEdge.serveMatches (serveMatches_of_run hrun).2
  | edge =>
    cases hok
    exact hsame h.handleEdge
  -- a match that is served by hand is booked like one of a run
  | sample =>
    simp only [Event.perform] at hok
    split at hok
    · rename_i next hnext
      cases hok
      exact h.handleMatch hnext
    · cases hok
  | pin readable =>
    cases hok
    exact hsame (h.of_eq rfl rfl rfl)
  | pop =>
    cases hok
    have hone := h.popUpTo 1
    rw [ReceiveQueue.popUpTo_one] at hone
    exact hone
  | popUpTo k =>
    cases hok
    exact h.popUpTo k
  | takeLost =>
    cases hok
    exact h.takeLost
  -- a rejected rate changes nothing, and an accepted one neither queue nor sink
  | rebuild clock baud longest policy =>
    cases hok
    refine hsame ?_
    split
    · exact h.of_eq rfl rfl rfl
    · exact h

/-- The books are right at the end of a life. -/
theorem Accounts.live (events : List Event) : ∀ {deeds : List Deed} {s : Station n},
    Accounts deeds s → Event.live events s = .ok () s' →
      Accounts (deeds ++ Event.history events s) s' := by
  induction events with
  | nil =>
    intro deeds s h hok
    cases hok
    exact (List.append_nil deeds).symm ▸ h
  | cons event rest ih =>
    intro deeds s h hok
    obtain ⟨next, hfirst, hrest⟩ := Event.live_cons_eq_ok hok
    rw [Event.history_cons hfirst, ← List.append_assoc]
    exact ih (h.perform event hfirst) hrest

/-- **No byte is lost, made up or put out of order behind anybody's back.**  Whatever happens to a
receiver that starts with nothing received, and in whatever order, the books are right in the
end: what was taken and what waits is what the sink was given, which is every wanted byte but
those that found the queue full; the mark tells of these; and every low stop bit is counted.
The life of a sound receiver does come to its end, if its cycles fit 64 bits and its interrupts
32. -/
theorem accounts_of_live (hblank : s.Blank) (events : List Event) :
    (∀ s', Event.live events s = .ok () s' → Accounts (Event.history events s) s') ∧
    ∀ timings, Sound timings s.receiver s.wire →
      Within id (Event.extent s.wire events) (Accounts (Event.history events s))
        (Event.live events s) := by
  have hbooks : ∀ s', Event.live events s = .ok () s' → Accounts (Event.history events s) s' :=
    fun s' hok => hblank.accounts.live events hok
  -- that the books are right needs no invariant of the timer; that the life ends does
  refine ⟨hbooks, fun timings hs => ?_⟩
  exact ((hs.live events).and_of_ok fun _ s' hok => hbooks s' hok).imp fun s' hboth =>
    hboth.2

/-- A receiver with a queue for one byte, at two ticks a bit: a zero without its stop bit is
thrown away, the next is kept by a new policy, the third finds the queue full. -/
theorem accounts_of_live_two_ticks :
    let s : Station 2 := attach (Wire.fresh 16000000) ⟨2, 125, by decide⟩ .discard .empty
      (.collect [])
    let low : List Event := [.drive true, .run 1, .drive false, .run 19]
    let events := low ++ .rebuild 16000000 8000000 65535 .keep :: low ++ low ++ [.pop]
    s.Blank ∧ Sound [(⟨2, 125, by decide⟩, 65535)] s.receiver s.wire ∧
      Event.history events s
        = [.completed ⟨0, false, .discard, 0⟩, .completed ⟨0, false, .keep, 0⟩,
          .completed ⟨0, false, .keep, 1⟩, .popped 0] ∧
      ∃ s', Event.live events s = .ok () s' ∧ Accounts (Event.history events s) s' := by
  intro s low events
  have hrate : BitPeriod.ofRate 16000000 8000000 65535 = .ok ⟨2, 125, by decide⟩ := by decide
  have hblank : s.Blank := ⟨ReceiveQueue.toList_empty, rfl, rfl, rfl, rfl⟩
  have hs : Sound [(⟨2, 125, by decide⟩, 65535)] s.receiver s.wire :=
    ⟨rfl, rfl, fun _ => rfl, Nat.le_refl _, trivial, .inl rfl,
      ⟨65535, rfl, ⟨16000000, 8000000, hrate⟩⟩⟩
  obtain ⟨⟨⟩, s', hok, haccounts⟩ :=
    ((accounts_of_live hblank events).2 _ hs).exists_ok ⟨by decide, by decide⟩
  exact ⟨hblank, hs, by decide +kernel, s', hok, haccounts⟩

end Station

end SerialLink
