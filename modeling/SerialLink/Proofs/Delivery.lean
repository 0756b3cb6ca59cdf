/-
# What becomes of completed frames

`Station.closeFrame`, which is `Receiver::deliver`, deals with one completed frame, and
`closeFrames` with several in order.  This module says what that comes to when the queue has
room for every byte that is wanted (`delivers_closeFrames`): the wanted bytes go behind those
that wait and to the sink, every low stop bit is counted, nothing is marked as lost, and the
journal has one entry for each frame.

Which bytes are wanted depends on the policy and the stop bits alone (`StopPolicy.wanted`), so
a frame that is thrown away needs no room and makes none.
-/
import SerialLink.Proofs.Decoding

namespace SerialLink

/-! ## 1. Wanted frames -/

namespace StopPolicy

/-- A byte with this stop bit is wanted. -/
def wants (policy : StopPolicy) (stopBit : Bool) : Bool := stopBit || policy = .keep

/-- The bytes of the wanted frames, in order. -/
def wanted (policy : StopPolicy) (frames : List (UInt8 × Bool)) : List UInt8 :=
  (frames.filter fun frame => policy.wants frame.2).map Prod.fst

/-- What becomes of a byte that there is room for. -/
def fate (policy : StopPolicy) (stopBit : Bool) : Fate :=
  if policy.wants stopBit then .delivered else .dropped

variable {policy : StopPolicy}

theorem wanted_cons_of_wants {frame : UInt8 × Bool} (h : policy.wants frame.2 = true)
    (rest : List (UInt8 × Bool)) :
    policy.wanted (frame :: rest) = frame.1 :: policy.wanted rest := by
  simp [wanted, h]

theorem wanted_cons_of_not_wants {frame : UInt8 × Bool} (h : policy.wants frame.2 = false)
    (rest : List (UInt8 × Bool)) : policy.wanted (frame :: rest) = policy.wanted rest := by
  simp [wanted, h]

/-- Every policy wants a byte with a high stop bit. -/
theorem wanted_good (bytes : List UInt8) : policy.wanted (bytes.map (·, true)) = bytes := by
  induction bytes with
  | nil => rfl
  | cons byte rest ih =>
    rw [List.map_cons, wanted_cons_of_wants rfl, ih]

end StopPolicy

namespace Station

variable {n : Nat} {s t u : Station n}

/-! ## 2. One frame -/

/-- **`s'` is `s` with these frames dealt with and none of their bytes lost.** -/
structure Delivers (frames : List (UInt8 × Bool)) (s s' : Station n) : Prop where
  queue : s'.queue.toList = s.queue.toList ++ s.receiver.policy.wanted frames
  lost : s'.queue.lost = s.queue.lost
  badFrames : s'.queue.badFrames
    = s.queue.badFrames + UInt16.ofNat (frames.countP fun frame => !frame.2)
  sink : s'.sink = (s.receiver.policy.wanted frames).foldl (fun sink byte => sink.push byte) s.sink
  journal : s'.journal = s.journal ++ frames.map fun frame =>
    .frame frame.1 frame.2 (s.receiver.policy.fate frame.2)
  receiver : s'.receiver = s.receiver
  readable : s'.readable = s.readable

theorem enqueue_of_room (hroom : s.queue.hasRoom = true) (byte : UInt8) :
    s.enqueue byte = (.delivered,
      { s with queue := (s.queue.push byte).2, sink := s.sink.push byte }) := by
  have hfst := s.queue.push_fst byte
  unfold enqueue
  split
  · rename_i queue hpush
    rw [hpush, hroom] at hfst
    cases hfst
  · rename_i queue hpush
    rw [hpush]

/-- A frame whose byte is not wanted leaves its mark and nothing else. -/
theorem delivers_closeFrame_of_not_wants {frame : UInt8 × Bool}
    (hwants : s.receiver.policy.wants frame.2 = false) :
    Delivers [frame] s (s.closeFrame frame.1 frame.2) := by
  obtain ⟨byte, stopBit⟩ := frame
  have hlow : stopBit = false := by
    cases stopBit
    · rfl
    · cases hwants
  subst hlow
  have hwants' : s.wants false = false := hwants
  refine ⟨?_, ?_, ?_, ?_, ?_, receiver_closeFrame s byte false,
    readable_closeFrame s byte false⟩ <;>
    simp [closeFrame, hwants', countStop, report, StopPolicy.wanted, StopPolicy.fate, hwants,
      ReceiveQueue.countBadFrame, ReceiveQueue.toList]

/-- A wanted byte goes where there is room for it. -/
theorem delivers_closeFrame_of_wants {frame : UInt8 × Bool}
    (hwants : s.receiver.policy.wants frame.2 = true)
    (hroom : s.queue.toList.length + 1 ≤ n - 1) :
    Delivers [frame] s (s.closeFrame frame.1 frame.2) := by
  obtain ⟨byte, stopBit⟩ := frame
  have hwants' : s.wants stopBit = true := hwants
  -- the queue is offered the byte after a low stop bit was counted, which changes no byte of it
  have hbytes : (s.countStop stopBit).queue.toList = s.queue.toList := by cases stopBit <;> rfl
  have hspace : (s.countStop stopBit).queue.hasRoom = true := by
    rw [ReceiveQueue.hasRoom_iff, hbytes]
    omega
  have hqueue := (s.countStop stopBit).queue.toList_push byte
  rw [hspace, if_pos rfl] at hqueue
  refine ⟨?_, ?_, ?_, ?_, ?_, receiver_closeFrame s byte stopBit,
    readable_closeFrame s byte stopBit⟩ <;>
    simp only [closeFrame, hwants', if_true, enqueue_of_room hspace, report]
  · rw [hqueue, hbytes, StopPolicy.wanted_cons_of_wants hwants]
    rfl
  · rw [ReceiveQueue.lost_push]
    cases stopBit <;> rfl
  · rw [ReceiveQueue.badFrames_push]
    cases stopBit <;> simp [countStop, ReceiveQueue.countBadFrame]
  · rw [StopPolicy.wanted_cons_of_wants hwants]
    cases stopBit <;> rfl
  · rw [List.map_singleton, StopPolicy.fate, hwants]
    cases stopBit <;> rfl

/-! ## 3. Several frames -/

theorem delivers_nil (s : Station n) : Delivers [] s s where
  queue := by simp [StopPolicy.wanted]
  lost := rfl
  badFrames := by simp
  sink := rfl
  journal := by simp
  receiver := rfl
  readable := rfl

/-- One frame and then the others. -/
theorem Delivers.cons {frame : UInt8 × Bool} {rest : List (UInt8 × Bool)}
    (hfirst : Delivers [frame] s t) (hrest : Delivers rest t u) :
    Delivers (frame :: rest) s u := by
  have hpolicy : t.receiver.policy = s.receiver.policy := congrArg _ hfirst.receiver
  have hwanted : s.receiver.policy.wanted (frame :: rest)
      = s.receiver.policy.wanted [frame] ++ s.receiver.policy.wanted rest := by
    rw [StopPolicy.wanted, StopPolicy.wanted, StopPolicy.wanted, ← List.map_append,
      ← List.filter_append]
    rfl
  have hcount : (frame :: rest).countP (fun frame => !frame.2)
      = [frame].countP (fun frame => !frame.2) + rest.countP (fun frame => !frame.2) := by
    rw [← List.countP_append]
    rfl
  refine ⟨?_, hrest.lost.trans hfirst.lost, ?_, ?_, ?_, hrest.receiver.trans hfirst.receiver,
    hrest.readable.trans hfirst.readable⟩
  · rw [hrest.queue, hfirst.queue, hpolicy, hwanted, List.append_assoc]
  · rw [hrest.badFrames, hfirst.badFrames, hcount, UInt16.ofNat_add, UInt16.add_assoc]
  · rw [hrest.sink, hfirst.sink, hpolicy, hwanted, List.foldl_append]
  · rw [hrest.journal, hfirst.journal, hpolicy, List.append_assoc]
    rfl

/-- **Frames that there is room for are dealt with, and no byte of theirs is lost.** -/
theorem delivers_closeFrames (frames : List (UInt8 × Bool)) : ∀ {s : Station n},
    s.queue.toList.length + (s.receiver.policy.wanted frames).length ≤ n - 1 →
      Delivers frames s (s.closeFrames frames) := by
  induction frames with
  | nil => exact fun _ => delivers_nil _
  | cons frame rest ih =>
    intro s hroom
    have hpolicy : (s.closeFrame frame.1 frame.2).receiver.policy = s.receiver.policy :=
      congrArg _ (receiver_closeFrame s frame.1 frame.2)
    cases hwants : s.receiver.policy.wants frame.2 with
    -- a frame that is thrown away takes no room from those behind it
    | false =>
      rw [StopPolicy.wanted_cons_of_not_wants hwants] at hroom
      have hfirst := delivers_closeFrame_of_not_wants hwants
      refine hfirst.cons (ih ?_)
      rw [hfirst.queue, StopPolicy.wanted_cons_of_not_wants hwants, hpolicy]
      simpa [StopPolicy.wanted] using hroom
    -- a wanted byte takes the place that the bound keeps for it, and the others keep theirs
    | true =>
      rw [StopPolicy.wanted_cons_of_wants hwants, List.length_cons] at hroom
      have hfirst := delivers_closeFrame_of_wants hwants (by omega)
      refine hfirst.cons (ih ?_)
      rw [hfirst.queue, StopPolicy.wanted_cons_of_wants hwants, hpolicy, List.length_append]
      simp only [StopPolicy.wanted, List.filter_nil, List.map_nil, List.length_singleton] at hroom ⊢
      omega

end Station

end SerialLink
