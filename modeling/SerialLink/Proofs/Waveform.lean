/-
# What a waveform says

A waveform is the levels of a wire in order, each with the number of cycles it is held: what
`Line::drive` and `Line::run` do by turns.  This module reads one without a receiver, a timer or
an interrupt: `listen` looks at the whole waveform at once and at nothing else.

* A frame starts where the level falls, unless that is inside the frame before.
* Its nine samples are taken at fixed distances from there, the first after one and a half
  bits and the others one bit apart.  A sample reads the first segment that does not end before
  it, so at the very end of a segment it still reads that segment (`segmentAt`).
* The search for the next frame goes on behind the segment the ninth sample fell in.

Times are counted from the segment at the head of the list.  `resume` is the same reading taken
up inside a frame, and section 3 says how it goes on from one segment to the next; that is the
form in which a receiver, which sees the segments one at a time, can be compared with it.
-/
import SerialLink.Wire.BitPeriod
import SerialLink.Proofs.Sampling

namespace SerialLink

/-- The levels of a wire in order, each with the cycles it is held. -/
abbrev Waveform := List (Bool × Nat)

/-- What there is to be heard in a waveform. -/
structure Heard where
  /-- The completed frames in order, each a byte and its stop bit. -/
  frames : List (UInt8 × Bool)
  /-- How many changes of level lie outside the frames.  The fall that starts a frame is one. -/
  edges : Nat
  /-- How many samples are taken. -/
  samples : Nat
  /-- How much has been taken in of a frame that the waveform cuts off. -/
  phase : Phase

namespace Heard

/-- Nothing. -/
def nothing : Heard := ⟨[], 0, 0, .idle⟩

/-- A change of level, if there is one, and then this. -/
def afterEdge (edge : Bool) (h : Heard) : Heard := { h with edges := h.edges + edge.toNat }

/-- So many samples, and then this. -/
def afterSamples (count : Nat) (h : Heard) : Heard := { h with samples := h.samples + count }

/-- A frame, and then this. -/
def afterFrame (byte : UInt8) (stopBit : Bool) (h : Heard) : Heard :=
  { h with frames := (byte, stopBit) :: h.frames }

end Heard

namespace Waveform

/-! ## 1. Segments -/

/-- How many cycles a waveform lasts. -/
def duration (wave : Waveform) : Nat := (wave.map Prod.snd).sum

/-- When segment `k` starts. -/
def startOf (wave : Waveform) (k : Nat) : Nat := duration (wave.take k)

/-- The segment that a sample at `time` reads: the first that does not end before it. -/
def segmentAt (wave : Waveform) (time : Nat) : Option Nat :=
  (List.range wave.length).find? fun j => time ≤ startOf wave (j + 1)

/-- The level of segment `j`. -/
def levelOf (wave : Waveform) (j : Nat) : Bool := (wave.getD j (true, 0)).1

/-- The level of the last segment, or `before` if there is none. -/
def lastLevel (before : Bool) (wave : Waveform) : Bool := (wave.map Prod.fst).getLastD before

/-- What samples read that are `step` apart, the first at `first`: `count` of them, or as many
as the waveform lasts for. -/
def readings (wave : Waveform) (count first step : Nat) : List Bool :=
  (List.range count).filterMap fun i => (segmentAt wave (first + i * step)).map (levelOf wave)

/-! ## 2. Listening -/

/-- **All that a waveform says** to bits of the length `p`, where the level was `before` and the
falls at the first `ignored` boundaries do not count. -/
def listen (p : BitPeriod) : Nat → Bool → Waveform → Heard
  | _, _, [] => .nothing
  | ignored + 1, _, segment :: rest => listen p ignored segment.1 rest
  | 0, before, segment :: rest =>
    let wave := segment :: rest
    .afterEdge (before != segment.1) <|
      if before && !segment.1 then
        match segmentAt wave (p.firstInterval + 8 * p.ticks) with
        | none =>
          let taken := readings wave 9 p.firstInterval p.ticks
          ⟨[], 0, taken.length, .after taken⟩
        | some j =>
          let bits := readings wave 8 p.firstInterval p.ticks
          ((listen p j segment.1 rest).afterSamples 9).afterFrame (Frame.byte bits)
            (levelOf wave j)
      else listen p 0 segment.1 rest

/-- The rest of what a waveform says, from inside a frame: `taken` has been sampled, and the
next sample is due at `wait`. -/
def resume (p : BitPeriod) (taken : List Bool) (wait : Nat) (wave : Waveform) : Heard :=
  match segmentAt wave (wait + (8 - taken.length) * p.ticks) with
  | none =>
    let more := readings wave (9 - taken.length) wait p.ticks
    ⟨[], 0, more.length, .after (taken ++ more)⟩
  | some j =>
    let bits := taken ++ readings wave (8 - taken.length) wait p.ticks
    ((listen p (j + 1) true wave).afterSamples (9 - taken.length)).afterFrame (Frame.byte bits)
      (levelOf wave j)

/-! ## 3. From one segment to the next -/

variable {p : BitPeriod}

@[simp] theorem duration_nil : duration [] = 0 := rfl

@[simp] theorem duration_cons (segment : Bool × Nat) (rest : Waveform) :
    duration (segment :: rest) = segment.2 + duration rest := by
  simp [duration]

@[simp] theorem levelOf_zero (segment : Bool × Nat) (rest : Waveform) :
    levelOf (segment :: rest) 0 = segment.1 := rfl

@[simp] theorem levelOf_succ (segment : Bool × Nat) (rest : Waveform) (j : Nat) :
    levelOf (segment :: rest) (j + 1) = levelOf rest j := rfl

@[simp] theorem lastLevel_cons (before : Bool) (segment : Bool × Nat) (rest : Waveform) :
    lastLevel before (segment :: rest) = lastLevel segment.1 rest := by
  rw [lastLevel, lastLevel, List.map_cons, List.getLastD_cons]

@[simp] theorem segmentAt_nil (time : Nat) : segmentAt [] time = none := rfl

theorem segmentAt_of_le {segment : Bool × Nat} {time : Nat} (h : time ≤ segment.2)
    (rest : Waveform) : segmentAt (segment :: rest) time = some 0 := by
  have hend : startOf (segment :: rest) 1 = segment.2 := by simp [startOf]
  simp [segmentAt, List.range_succ_eq_map, hend, h]

theorem segmentAt_of_lt {segment : Bool × Nat} {time : Nat} (h : segment.2 < time)
    (rest : Waveform) :
    segmentAt (segment :: rest) time = (segmentAt rest (time - segment.2)).map (· + 1) := by
  have hend : startOf (segment :: rest) 1 = segment.2 := by simp [startOf]
  have hshift : (fun j => decide (time ≤ startOf (segment :: rest) (j + 1))) ∘ Nat.succ
      = fun j => decide (time - segment.2 ≤ startOf rest (j + 1)) := by
    funext j
    simp only [Function.comp_apply, startOf, Nat.succ_eq_add_one, List.take_succ_cons,
      duration_cons]
    exact decide_eq_decide.mpr (by omega)
  rw [segmentAt, List.length_cons, List.range_succ_eq_map, List.find?_cons_of_neg, List.find?_map,
    hshift]
  · rfl
  · simpa [hend] using h

@[simp] theorem readings_zero (wave : Waveform) (first step : Nat) :
    readings wave 0 first step = [] := rfl

/-- A sample inside the first segment reads its level. -/
theorem readings_succ_of_le {segment : Bool × Nat} {first : Nat} (h : first ≤ segment.2)
    (rest : Waveform) (count step : Nat) :
    readings (segment :: rest) (count + 1) first step
      = segment.1 :: readings (segment :: rest) count (first + step) step := by
  have hshift : ∀ i, first + (i + 1) * step = first + step + i * step := by
    intro i
    rw [Nat.add_mul, Nat.one_mul]
    omega
  rw [readings, List.range_succ_eq_map, List.filterMap_cons_some (b := segment.1),
    List.filterMap_map, readings]
  · simp only [Function.comp_def, Nat.succ_eq_add_one, hshift]
  · simp [segmentAt_of_le h]

/-- Samples behind the first segment read the waveform without it. -/
theorem readings_of_lt {segment : Bool × Nat} {first : Nat} (h : segment.2 < first)
    (rest : Waveform) (count step : Nat) :
    readings (segment :: rest) count first step
      = readings rest count (first - segment.2) step := by
  have hread : ∀ i, (segmentAt (segment :: rest) (first + i * step)).map (levelOf (segment :: rest))
      = (segmentAt rest (first - segment.2 + i * step)).map (levelOf rest) := by
    intro i
    rw [segmentAt_of_lt (by omega), Nat.sub_add_comm (Nat.le_of_lt h), Option.map_map]
    rfl
  simp only [readings, hread]

/-- Inside the falls that do not count, the level before makes no difference. -/
theorem listen_succ (ignored : Nat) (before before' : Bool) (wave : Waveform) :
    listen p (ignored + 1) before wave = listen p (ignored + 1) before' wave := by
  cases wave <;> rfl

/-- A fall starts a frame, with its first sample one and a half bits away. -/
theorem listen_of_fall {segment : Bool × Nat} (h : segment.1 = false) (rest : Waveform) :
    listen p 0 true (segment :: rest)
      = (resume p [] p.firstInterval (segment :: rest)).afterEdge true := by
  simp only [listen, resume, h, List.length_nil, Nat.sub_zero, List.nil_append]
  rfl

/-- Where the level does not fall, listening goes on. -/
theorem listen_of_not_fall {segment : Bool × Nat} {before : Bool}
    (h : ¬ (before = true ∧ segment.1 = false)) (rest : Waveform) :
    listen p 0 before (segment :: rest)
      = (listen p 0 segment.1 rest).afterEdge (before != segment.1) := by
  have hstay : ¬ (before && !segment.1) = true := by simpa using h
  simp only [listen, hstay]
  rfl

/-- A sample that is due behind a segment is awaited behind it. -/
theorem resume_of_lt {segment : Bool × Nat} {taken : List Bool} {wait : Nat}
    (h : segment.2 < wait) (rest : Waveform) :
    resume p taken wait (segment :: rest) = resume p taken (wait - segment.2) rest := by
  rw [resume, resume, segmentAt_of_lt (by omega), Nat.sub_add_comm (Nat.le_of_lt h),
    readings_of_lt h, readings_of_lt h]
  -- the segment of the stop bit is counted from the rest, so one boundary less is ignored
  cases segmentAt rest (wait - segment.2 + (8 - taken.length) * p.ticks) with
  | none => rfl
  | some j =>
    simp only [Option.map_some, levelOf_succ]
    rw [listen, listen_succ j segment.1 true]

/-- A data bit that is due inside a segment has the segment's level. -/
theorem resume_of_le {segment : Bool × Nat} {taken : List Bool} {wait : Nat}
    (h : wait ≤ segment.2) (hdata : taken.length < 8) (rest : Waveform) :
    resume p taken wait (segment :: rest)
      = (resume p (taken ++ [segment.1]) (wait + p.ticks) (segment :: rest)).afterSamples 1 := by
  obtain ⟨left, hleft⟩ : ∃ left, 8 - taken.length = left + 1 := ⟨7 - taken.length, by omega⟩
  -- one bit less is left and the wait is one bit longer: the stop bit comes at the same time
  have hlast : wait + (left + 1) * p.ticks = wait + p.ticks + left * p.ticks := by
    rw [Nat.add_mul, Nat.one_mul]
    omega
  have hall : 9 - taken.length = left + 1 + 1 := by omega
  have hdata' : 8 - (taken.length + 1) = left := by omega
  have hall' : 9 - (taken.length + 1) = left + 1 := by omega
  rw [resume, resume, List.length_append, List.length_singleton, hall, hdata', hall', hleft, hlast,
    readings_succ_of_le h, readings_succ_of_le h rest left]
  cases segmentAt (segment :: rest) (wait + p.ticks + left * p.ticks) with
  | none => simp [Heard.afterSamples]
  | some j => simp [Heard.afterSamples, Heard.afterFrame, Nat.add_assoc]

/-- A stop bit that is due inside a segment ends the frame there. -/
theorem resume_of_le_of_eight {segment : Bool × Nat} {taken : List Bool} {wait : Nat}
    (h : wait ≤ segment.2) (hstop : taken.length = 8) (rest : Waveform) :
    resume p taken wait (segment :: rest)
      = ((listen p 0 segment.1 rest).afterSamples 1).afterFrame (Frame.byte taken) segment.1 := by
  rw [resume, hstop, Nat.sub_self, Nat.zero_mul, Nat.add_zero, segmentAt_of_le h]
  simp [listen]

@[simp] theorem resume_nil (taken : List Bool) (wait : Nat) :
    resume p taken wait [] = ⟨[], 0, 0, .after taken⟩ := by
  have hnone : ∀ count, readings [] count wait p.ticks = [] := by
    intro count
    simp [readings]
  simp [resume, hnone]

end Waveform

end SerialLink
