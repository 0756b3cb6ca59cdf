/-
# What sending does to the pin and the mask

A `Transmitter` drives a pin that may fail at any of its calls.  This module says what it does to
its wire driver, call by call, for every schedule of failing calls and for every way in which
bytes can be handed to it.

* Each byte is one block: the mask, the ten levels with a wait behind each, the unmask.
* A failing call of the pin ends the trace: what follows it is the unmask of its own block, and
  nothing else (`Sends`).
* So the mask is taken and given back by turns, whatever fails (`Sends.alternates`).

The ways of sending differ in the bytes that they select and in what they answer
(`Sending.selected`, `Sending.answer`), and in nothing else (`perform_sends`).
-/
import Mathlib
import SerialLink.Command.Writer
import SerialLink.Transmission.Recorder

namespace SerialLink

/-! ## 1. Traces -/

namespace PinEvent

/-- The pin was called. -/
def isPinCall : PinEvent → Bool
  | level _ => true
  | levelFailed _ => true
  | _ => false

/-- The pin was called and failed. -/
def isFault : PinEvent → Bool
  | levelFailed _ => true
  | _ => false

/-- The mask was taken or given back. -/
def isMasking : PinEvent → Bool
  | mask => true
  | unmask => true
  | _ => false

/-- A level that is put on the pin and held. -/
def held (nanos : Nat) (level : Bool) : List PinEvent := [.level level, .wait nanos]

/-- A byte that is sent whole. -/
def block (nanos : Nat) (byte : UInt8) : List PinEvent :=
  .mask :: (Frame.levels byte true).flatMap (held nanos) ++ [.unmask]

/-- A byte that is sent up to a level that fails. -/
def brokenBlock (nanos : Nat) (done : List Bool) (level : Bool) : List PinEvent :=
  .mask :: done.flatMap (held nanos) ++ [.levelFailed level, .unmask]

variable {nanos : Nat}

theorem countP_isPinCall_held (levels : List Bool) :
    (levels.flatMap (held nanos)).countP isPinCall = levels.length := by
  induction levels with
  | nil => rfl
  | cons level rest ih =>
    rw [List.flatMap_cons, List.countP_append, ih, List.length_cons, Nat.add_comm]
    rfl

theorem countP_isPinCall_block (byte : UInt8) : (block nanos byte).countP isPinCall = 10 := by
  rw [block, List.countP_append, List.countP_cons_of_neg Bool.false_ne_true,
    countP_isPinCall_held, Frame.length_levels]
  rfl

theorem not_isFault_of_mem_held {levels : List Bool} {event : PinEvent}
    (h : event ∈ levels.flatMap (held nanos)) : event.isFault = false := by
  obtain ⟨level, -, hevent⟩ := List.mem_flatMap.mp h
  rcases List.mem_pair.mp hevent with rfl | rfl <;> rfl

theorem not_isFault_of_mem_block {byte : UInt8} {event : PinEvent}
    (h : event ∈ block nanos byte) : event.isFault = false := by
  rcases List.mem_append.mp h with hfront | hlast
  · rcases List.mem_cons.mp hfront with rfl | hheld
    · rfl
    · exact not_isFault_of_mem_held hheld
  · rw [List.mem_singleton.mp hlast]
    rfl

theorem filter_isMasking_held (levels : List Bool) :
    (levels.flatMap (held nanos)).filter isMasking = [] := by
  rw [List.filter_eq_nil_iff]
  intro event hevent
  obtain ⟨level, -, hlevel⟩ := List.mem_flatMap.mp hevent
  rcases List.mem_pair.mp hlevel with rfl | rfl <;> exact Bool.false_ne_true

theorem filter_isMasking_block (byte : UInt8) :
    (block nanos byte).filter isMasking = [.mask, .unmask] := by
  rw [block, List.filter_append, List.filter_cons_of_pos rfl, filter_isMasking_held]
  rfl

theorem filter_isMasking_brokenBlock (done : List Bool) (level : Bool) :
    (brokenBlock nanos done level).filter isMasking = [.mask, .unmask] := by
  rw [brokenBlock, List.filter_append, List.filter_cons_of_pos rfl, filter_isMasking_held]
  rfl

end PinEvent

open PinEvent (held block brokenBlock isPinCall isMasking)

namespace Recorder

/-- The recorder after all this has been done, and nothing else. -/
def after (r : Recorder) (trace : List PinEvent) : Recorder :=
  { r with
    events := r.events ++ trace.toArray
    pinCalls := r.pinCalls + trace.countP isPinCall }

@[simp] theorem after_nil (r : Recorder) : r.after [] = r := by simp [after]

theorem after_append (r : Recorder) (trace more : List PinEvent) :
    r.after (trace ++ more) = (r.after trace).after more := by
  simp [after, Nat.add_assoc]

theorem pinCalls_after (r : Recorder) (trace : List PinEvent) :
    (r.after trace).pinCalls = r.pinCalls + trace.countP isPinCall := rfl

theorem note_eq_after {r : Recorder} {event : PinEvent} (h : event.isPinCall = false) :
    r.note event = r.after [event] := by
  simp [note, after, h]

variable {fails : Nat → Bool} {nanos : Nat} {r : Recorder}

theorem drive_of_sound (h : fails r.pinCalls = false) (level : Bool) :
    drive fails level r = .ok () (r.after [.level level]) := by
  simp [drive, h, note, after, isPinCall]

theorem drive_of_fault (h : fails r.pinCalls = true) (level : Bool) :
    drive fails level r = .error (.error ⟨⟩) (r.after [.levelFailed level]) := by
  simp [drive, h, note, after, isPinCall]

/-! ## 2. One byte -/

/-- The transmitter whose pin fails on schedule. -/
def transmitter (fails : Nat → Bool) (nanos : Nat) : Transmitter Recorder :=
  ⟨driver fails .traced, nanos⟩

theorem holdLevel_of_sound (h : fails r.pinCalls = false) (level : Bool) :
    (transmitter fails nanos).holdLevel level r = .ok () (r.after (held nanos level)) := by
  have hdrive := drive_of_sound h level
  have hwait : (r.after [.level level]).note (.wait nanos) = r.after (held nanos level) := by
    rw [note_eq_after rfl, ← after_append]
    rfl
  simp only [Transmitter.holdLevel, transmitter, driver, bind, EStateM.bind, hdrive]
  exact congrArg (EStateM.Result.ok ()) hwait

theorem holdLevel_of_fault (h : fails r.pinCalls = true) (level : Bool) :
    (transmitter fails nanos).holdLevel level r
      = .error (.error ⟨⟩) (r.after [.levelFailed level]) := by
  simp only [Transmitter.holdLevel, transmitter, driver, bind, EStateM.bind,
    drive_of_fault h level]

/-- Calls that do not fail, and then more of them. -/
theorem sound_add {start first rest : Nat} (hfirst : ∀ i < first, fails (start + i) = false)
    (hrest : ∀ i < rest, fails (start + first + i) = false) :
    ∀ i < first + rest, fails (start + i) = false := by
  intro i hi
  rcases Nat.lt_or_ge i first with hlt | hge
  · exact hfirst i hlt
  · have hlater := hrest (i - first) (by omega)
    rwa [Nat.add_assoc, Nat.add_sub_cancel' hge] at hlater

/-- Levels are held up to the first call that fails. -/
theorem forM_holdLevel (nanos : Nat) (levels : List Bool) : ∀ r : Recorder,
    ((∀ i < levels.length, fails (r.pinCalls + i) = false) ∧
      levels.forM (transmitter fails nanos).holdLevel r
        = .ok () (r.after (levels.flatMap (held nanos)))) ∨
    ∃ done level rest, levels = done ++ level :: rest ∧
      (∀ i < done.length, fails (r.pinCalls + i) = false) ∧
      fails (r.pinCalls + done.length) = true ∧
      levels.forM (transmitter fails nanos).holdLevel r
        = .error (.error ⟨⟩) (r.after (done.flatMap (held nanos) ++ [.levelFailed level])) := by
  induction levels with
  | nil =>
    intro r
    refine .inl ⟨nofun, ?_⟩
    rw [List.flatMap_nil, after_nil]
    rfl
  | cons level levels ih =>
    intro r
    rw [List.forM_eq_forM, List.forM_cons]
    cases hfirst : fails r.pinCalls with
    | true =>
      -- the very first call fails, and nothing has been held before it
      refine .inr ⟨[], level, levels, rfl, nofun, hfirst, ?_⟩
      simp only [bind, EStateM.bind, holdLevel_of_fault hfirst level]
      rfl
    | false =>
      -- the rest of the levels is held from the recorder that the first has left
      have hcalls : (r.after (held nanos level)).pinCalls = r.pinCalls + 1 := rfl
      have hsound : ∀ {k : Nat}, (∀ i < k, fails (r.pinCalls + 1 + i) = false) →
          ∀ i < k + 1, fails (r.pinCalls + i) = false := by
        intro k hk
        have hone : ∀ i < 1, fails (r.pinCalls + i) = false := by
          intro i hi
          rw [Nat.lt_one_iff.mp hi]
          exact hfirst
        rw [Nat.add_comm k]
        exact sound_add hone hk
      simp only [bind, EStateM.bind, holdLevel_of_sound hfirst level]
      rcases ih (r.after (held nanos level)) with ⟨hall, hok⟩ |
        ⟨done, failing, rest, rfl, hall, hfault, herror⟩
      · rw [hcalls] at hall
        refine .inl ⟨hsound hall, ?_⟩
        rw [List.flatMap_cons, after_append]
        exact hok
      · rw [hcalls] at hall hfault
        refine .inr ⟨level :: done, failing, rest, rfl, hsound hall, ?_, ?_⟩
        · rw [List.length_cons, Nat.add_comm done.length, ← Nat.add_assoc]
          exact hfault
        · rw [List.flatMap_cons, List.append_assoc, after_append]
          exact herror

/-- **A byte is one block,** or the front part of one with its unmask. -/
theorem sendByte_block (nanos : Nat) (byte : UInt8) (r : Recorder) :
    ((∀ i < 10, fails (r.pinCalls + i) = false) ∧
      (transmitter fails nanos).sendByte byte r = .ok () (r.after (block nanos byte))) ∨
    ∃ done level rest, Frame.levels byte true = done ++ level :: rest ∧
      (∀ i < done.length, fails (r.pinCalls + i) = false) ∧
      fails (r.pinCalls + done.length) = true ∧
      (transmitter fails nanos).sendByte byte r
        = .error (.error ⟨⟩) (r.after (brokenBlock nanos done level)) := by
  have hmask : (transmitter fails nanos).driver.mask r = r.after [.mask] := note_eq_after rfl
  -- the unmask is not skipped: it comes behind whatever the levels have left in the trace
  have hunmask : ∀ trace, (transmitter fails nanos).driver.unmask ((r.after [.mask]).after trace)
      = r.after (.mask :: trace ++ [.unmask]) := by
    intro trace
    rw [← after_append, List.singleton_append, after_append _ (.mask :: trace)]
    exact note_eq_after rfl
  simp only [Transmitter.sendByte, Transmitter.masked, hmask]
  rcases forM_holdLevel nanos (Frame.levels byte true) (r.after [.mask]) with ⟨hall, hok⟩ |
    ⟨done, level, rest, hlevels, hall, hfault, herror⟩
  · rw [Frame.length_levels] at hall
    refine .inl ⟨hall, ?_⟩
    rw [hok]
    exact congrArg (EStateM.Result.ok ()) (hunmask _)
  · refine .inr ⟨done, level, rest, hlevels, hall, hfault, ?_⟩
    rw [herror]
    refine congrArg (EStateM.Result.error _) ((hunmask _).trans ?_)
    rw [brokenBlock, List.cons_append, List.cons_append, List.append_assoc]
    rfl

/-! ## 3. Bytes -/

/-- **What sending some bytes leaves in the trace,** from pin call number `start` on, and whether
all of them are sent. -/
inductive Sends (fails : Nat → Bool) (nanos start : Nat) (bytes : List UInt8) :
    List PinEvent → Bool → Prop
  /-- No call of the pin fails, and every byte has its block. -/
  | whole (sound : ∀ i < 10 * bytes.length, fails (start + i) = false) :
      Sends fails nanos start bytes (bytes.flatMap (block nanos)) true
  /-- The bytes before the failing call have their blocks, and the block of that call ends with
  it. -/
  | broken {before after : List UInt8} {byte : UInt8} {done rest : List Bool} {level : Bool}
      (bytes_eq : bytes = before ++ byte :: after)
      (levels_eq : Frame.levels byte true = done ++ level :: rest)
      (sound : ∀ i < 10 * before.length + done.length, fails (start + i) = false)
      (fault : fails (start + (10 * before.length + done.length)) = true) :
      Sends fails nanos start bytes
        (before.flatMap (block nanos) ++ brokenBlock nanos done level) false

variable {start : Nat} {bytes : List UInt8} {trace : List PinEvent} {ok : Bool}

/-- A byte that is sent whole comes before the rest. -/
theorem Sends.cons (hbyte : ∀ i < 10, fails (start + i) = false)
    (h : Sends fails nanos (start + 10) bytes trace ok) (byte : UInt8) :
    Sends fails nanos start (byte :: bytes) (block nanos byte ++ trace) ok := by
  cases h with
  | whole sound =>
    rw [← List.flatMap_cons]
    refine .whole ?_
    rw [List.length_cons, Nat.mul_succ, Nat.add_comm]
    exact sound_add hbyte sound
  | @broken before after failing done rest level bytes_eq levels_eq sound fault =>
    -- the byte in front takes ten calls of the pin, so the failing one is ten later
    have hcount : 10 * (byte :: before).length + done.length
        = 10 + (10 * before.length + done.length) := by
      rw [List.length_cons]
      omega
    rw [← List.append_assoc, ← List.flatMap_cons]
    refine .broken (congrArg _ bytes_eq) levels_eq ?_ ?_
    · rw [hcount]
      exact sound_add hbyte sound
    · rw [hcount, ← Nat.add_assoc]
      exact fault

theorem sendEach_sends (bytes : List UInt8) : ∀ r : Recorder,
    ∃ trace ok, Sends fails nanos r.pinCalls bytes trace ok ∧
      (transmitter fails nanos).sendEach bytes r
        = if ok then .ok () (r.after trace) else .error (.error ⟨⟩) (r.after trace) := by
  induction bytes with
  | nil =>
    intro r
    refine ⟨[], true, .whole nofun, ?_⟩
    rw [after_nil]
    rfl
  | cons byte rest ih =>
    intro r
    rw [Transmitter.sendEach, List.forM_eq_forM, List.forM_cons]
    rcases sendByte_block nanos byte r with ⟨hsound, hok⟩ |
      ⟨done, level, left, hlevels, hsound, hfault, herror⟩
    · obtain ⟨trace, ok, hsends, hrest⟩ := ih (r.after (block nanos byte))
      rw [pinCalls_after, PinEvent.countP_isPinCall_block] at hsends
      refine ⟨_, ok, hsends.cons hsound byte, ?_⟩
      simp only [bind, EStateM.bind, hok]
      rw [after_append]
      exact hrest
    -- the byte breaks off, and nothing of the rest is sent
    · have hbroken : Sends fails nanos r.pinCalls (byte :: rest)
          ([].flatMap (block nanos) ++ brokenBlock nanos done level) false :=
        .broken rfl hlevels (by simpa using hsound) (by simpa using hfault)
      refine ⟨_, false, hbroken, ?_⟩
      simp only [bind, EStateM.bind, herror]
      rfl

/-- **The sending is done exactly if no call of the pin failed** in it. -/
theorem Sends.ok_iff (h : Sends fails nanos start bytes trace ok) :
    ok = true ↔ ∀ event ∈ trace, event.isFault = false := by
  cases h with
  | whole sound =>
    refine ⟨fun _ event hevent => ?_, fun _ => rfl⟩
    obtain ⟨byte, -, hblock⟩ := List.mem_flatMap.mp hevent
    exact PinEvent.not_isFault_of_mem_block hblock
  | @broken before after byte done rest level bytes_eq levels_eq sound fault =>
    refine ⟨nofun, fun hnone => ?_⟩
    have hmem : PinEvent.levelFailed level ∈
        before.flatMap (block nanos) ++ brokenBlock nanos done level := by
      simp [brokenBlock]
    cases hnone _ hmem

theorem filter_isMasking_blocks (bytes : List UInt8) :
    (bytes.flatMap (block nanos)).filter isMasking
      = (List.replicate bytes.length [PinEvent.mask, .unmask]).flatten := by
  induction bytes with
  | nil => rfl
  | cons byte rest ih =>
    rw [List.flatMap_cons, List.filter_append, PinEvent.filter_isMasking_block, ih]
    rfl

/-- **The mask is taken and given back by turns,** and it is never left taken. -/
theorem Sends.alternates (h : Sends fails nanos start bytes trace ok) :
    ∃ turns, trace.filter isMasking
      = (List.replicate turns [PinEvent.mask, .unmask]).flatten := by
  cases h with
  | whole sound => exact ⟨_, filter_isMasking_blocks bytes⟩
  | @broken before after byte done rest level bytes_eq levels_eq sound fault =>
    refine ⟨before.length + 1, ?_⟩
    rw [List.filter_append, filter_isMasking_blocks, PinEvent.filter_isMasking_brokenBlock,
      List.replicate_succ', List.flatten_append, List.flatten_singleton]

end Recorder

/-! ## 4. Ways of sending -/

/-- A way to hand bytes to a transmitter. -/
inductive Sending where
  | upToNul (bytes : List UInt8)
  | bounded (bytes : List UInt8) (limit : Nat)
  | write (bytes : List UInt8)
  | writeFully (bytes : List UInt8)
  | text (written : String)
  deriving DecidableEq, Repr

namespace Sending

/-- The bytes that are sent. -/
def selected : Sending → List UInt8
  | upToNul bytes => bytes.takeWhile (· != 0)
  | bounded bytes limit => (bytes.take limit).takeWhile (· != 0)
  | write bytes => bytes
  | writeFully bytes => bytes
  | text written => written.toUTF8.toList

/-- The number that is answered when they are sent, if one is. -/
def answer (sending : Sending) : Option Nat :=
  match sending with
  | upToNul _ => some sending.selected.length
  | bounded _ _ => some sending.selected.length
  | write bytes => some bytes.length
  | writeFully _ => none
  | text _ => none

/-- Send them. -/
def perform {σ : Type} (tx : Transmitter σ) :
    Sending → EStateM (Halt PinFault) σ (Option Nat)
  | upToNul bytes => some <$> tx.sendUpToNul bytes
  | bounded bytes limit => some <$> tx.sendBounded bytes limit
  | write bytes => some <$> tx.write bytes
  | writeFully bytes => (fun _ => none) <$> tx.writer.writeFully bytes
  | text written => (fun _ => none) <$> tx.writeText written

/-- Every way of sending sends the bytes that it selects, one after the other. -/
theorem perform_eq {σ : Type} (tx : Transmitter σ) (sending : Sending) :
    sending.perform tx = (fun _ => sending.answer) <$> tx.sendEach sending.selected := by
  cases sending with
  | upToNul bytes =>
    simp only [perform, Transmitter.sendUpToNul, Transmitter.sendBounded, List.take_length,
      bind_pure_comp, Functor.map_map]
    rfl
  | bounded bytes limit =>
    simp only [perform, Transmitter.sendBounded, bind_pure_comp, Functor.map_map]
    rfl
  | write bytes =>
    simp only [perform, Transmitter.write, bind_pure_comp, Functor.map_map]
    rfl
  | writeFully bytes =>
    rw [perform, Transmitter.writeFully_writer]
    rfl
  | text written => rfl

/-- **Whatever fails, sending leaves a trace of blocks,** cut after the first failing call but for
the unmask. -/
theorem perform_sends (fails : Nat → Bool) (nanos : Nat) (sending : Sending) (r : Recorder) :
    ∃ trace ok, Recorder.Sends fails nanos r.pinCalls sending.selected trace ok ∧
      sending.perform (Recorder.transmitter fails nanos) r
        = (if ok then .ok sending.answer (r.after trace)
          else .error (.error ⟨⟩) (r.after trace)) ∧
      (ok = true ↔ ∀ event ∈ trace, event.isFault = false) ∧
      ∃ turns, trace.filter isMasking
        = (List.replicate turns [PinEvent.mask, .unmask]).flatten := by
  obtain ⟨trace, ok, hsends, hsent⟩ := Recorder.sendEach_sends sending.selected r
  refine ⟨trace, ok, hsends, ?_, hsends.ok_iff, hsends.alternates⟩
  rw [perform_eq]
  simp only [Functor.map, EStateM.map, hsent]
  cases ok <;> rfl

end Sending

end SerialLink
