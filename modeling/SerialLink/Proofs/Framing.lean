/-
# What a waveform of frames says

A sender holds every level of a frame for the same number of cycles, as `drive_frame` does.  A
listener samples at distances of its own, so whether it hears the frame that was sent is a
matter of where its nine samples fall.  `BitPeriod.Tolerates` is the answer in two inequalities
about the last of them, the stop bit: it has to come after the last data bit and not after the
end of the frame.

* Inside that window every sample falls into its own bit (`Tolerates.window`), so the listener
  hears the frame and is ready for the next one where the frame ends (`listen_frame`).  Nothing
  is carried over from one frame to the next, and a stream of any length is heard as it was
  sent (`listen_framed`).
* Outside it, a frame of zeros is not heard: the stop bit is not reached before the frame ends
  (`listen_framed_of_short`), or the last data bit is taken for it (`listen_zeros_of_long`).
-/
import SerialLink.Proofs.Waveform

namespace SerialLink

/-! ## 1. The window -/

namespace BitPeriod

/-- A listener that takes bits to have the length `p` samples every bit of a frame in its own
bit, where the sender holds each for `cycles`. -/
structure Tolerates (p : BitPeriod) (cycles : Nat) : Prop where
  /-- The stop bit is sampled by the end of the frame. -/
  reached : 9 * p.ticks + p.half ≤ 10 * cycles
  /-- The stop bit is sampled after the data bits. -/
  passed : 9 * cycles < 9 * p.ticks + p.half

variable {p : BitPeriod} {cycles : Nat}

/-- Two bounds on the ninth sample bound them all: sample `i` comes after level `i` of the
frame, and not after level `i + 1`. -/
theorem Tolerates.window (h : p.Tolerates cycles) {i : Nat} (hi : i ≤ 8) :
    (i + 1) * cycles < p.firstInterval + i * p.ticks ∧
      p.firstInterval + i * p.ticks ≤ (i + 1 + 1) * cycles := by
  have hreached := h.reached
  have hpassed := h.passed
  have hhalf : p.half ≤ p.ticks := Nat.div_le_self _ _
  rw [firstInterval]
  interval_cases i <;> omega

end BitPeriod

namespace Waveform

/-! ## 2. Levels of one length -/

/-- Levels that are all held for the same number of cycles. -/
def held (cycles : Nat) (levels : List Bool) : Waveform := levels.map fun level => (level, cycles)

/-- The waveform of bytes sent back to back in good frames. -/
def framed (cycles : Nat) (bytes : List UInt8) : Waveform :=
  held cycles (bytes.flatMap fun byte => Frame.levels byte true)

variable {p : BitPeriod} {cycles : Nat}

@[simp] theorem held_nil : held cycles [] = [] := rfl

@[simp] theorem held_cons (level : Bool) (levels : List Bool) :
    held cycles (level :: levels) = (level, cycles) :: held cycles levels := rfl

theorem held_append (levels levels' : List Bool) :
    held cycles (levels ++ levels') = held cycles levels ++ held cycles levels' :=
  List.map_append

theorem duration_held (levels : List Bool) :
    duration (held cycles levels) = levels.length * cycles := by
  induction levels with
  | nil => simp
  | cons level rest ih =>
    rw [held_cons, duration_cons, ih, List.length_cons, Nat.add_mul, Nat.one_mul, Nat.add_comm]

theorem framed_cons (byte : UInt8) (rest : List UInt8) :
    framed cycles (byte :: rest)
      = held cycles (Frame.levels byte true) ++ framed cycles rest := by
  rw [framed, List.flatMap_cons, held_append]
  rfl

theorem duration_framed (bytes : List UInt8) :
    duration (framed cycles bytes) = bytes.length * (10 * cycles) := by
  simp only [framed, duration_held, List.length_flatMap, Frame.length_levels, List.map_const',
    List.sum_replicate_nat, Nat.mul_assoc]

/-- A time after bit `j` has begun, and not after it has ended, falls into bit `j`. -/
theorem segmentAt_held (rest : Waveform) (levels : List Bool) : ∀ {j time : Nat},
    j < levels.length → j * cycles < time → time ≤ (j + 1) * cycles →
      segmentAt (held cycles levels ++ rest) time = some j := by
  induction levels with
  | nil => intro j time hj; exact absurd hj (Nat.not_lt_zero j)
  | cons level levels ih =>
    intro j time hj hbegun hended
    cases j with
    | zero => exact segmentAt_of_le (by simpa using hended) _
    | succ j =>
      rw [Nat.add_mul, Nat.one_mul] at hbegun
      rw [Nat.add_mul, Nat.one_mul] at hended
      rw [held_cons, List.cons_append, segmentAt_of_lt (Nat.lt_of_le_of_lt
        (Nat.le_add_left _ _) hbegun), ih (Nat.lt_of_succ_lt_succ hj) (by omega) (by omega)]
      rfl

/-- A time by the end of the first segments falls into one of them. -/
theorem exists_segmentAt (rest wave : Waveform) : ∀ {time : Nat}, 0 < time →
    time ≤ duration wave → ∃ j, j < wave.length ∧ segmentAt (wave ++ rest) time = some j := by
  induction wave with
  | nil =>
    intro time hpos hended
    rw [duration_nil] at hended
    omega
  | cons segment wave ih =>
    intro time hpos hended
    rw [duration_cons] at hended
    -- a time at the very end of a segment still falls into it
    rcases Nat.lt_or_ge segment.2 time with hlater | hnow
    · obtain ⟨j, hj, hat⟩ := ih (Nat.sub_pos_of_lt hlater) (by omega)
      refine ⟨j + 1, by simpa using hj, ?_⟩
      rw [List.cons_append, segmentAt_of_lt hlater, hat]
      rfl
    · exact ⟨0, Nat.zero_lt_succ _, segmentAt_of_le hnow _⟩

/-- A time after the end of the waveform falls into no bit. -/
theorem segmentAt_of_duration_lt (wave : Waveform) : ∀ {time : Nat},
    duration wave < time → segmentAt wave time = none := by
  induction wave with
  | nil => exact fun _ => rfl
  | cons segment rest ih =>
    intro time hlate
    rw [duration_cons] at hlate
    rw [segmentAt_of_lt (by omega), ih (by omega)]
    rfl

theorem levelOf_held (rest : Waveform) (levels : List Bool) : ∀ {j : Nat}
    (hj : j < levels.length), levelOf (held cycles levels ++ rest) j = levels[j] := by
  induction levels with
  | nil => intro j hj; exact absurd hj (Nat.not_lt_zero j)
  | cons level levels ih =>
    intro j hj
    cases j with
    | zero => rfl
    | succ j => exact ih (Nat.lt_of_succ_lt_succ hj)

theorem lastLevel_append (wave wave' : Waveform) : ∀ before : Bool,
    lastLevel before (wave ++ wave') = lastLevel (lastLevel before wave) wave' := by
  induction wave with
  | nil => exact fun _ => rfl
  | cons segment wave ih =>
    intro before
    rw [List.cons_append, lastLevel_cons, lastLevel_cons, ih]

/-- Good frames leave the wire high. -/
theorem lastLevel_framed (bytes : List UInt8) : lastLevel true (framed cycles bytes) = true := by
  induction bytes with
  | nil => rfl
  | cons byte rest ih =>
    have hstop : lastLevel true (held cycles (Frame.levels byte true)) = true := by
      rw [Frame.levels, held_append, lastLevel_append]
      rfl
    rw [framed_cons, lastLevel_append, hstop, ih]

/-- To ignore as many falls as there are segments is to begin behind them. -/
theorem listen_ignored (rest skipped : Waveform) : ∀ before : Bool,
    listen p skipped.length before (skipped ++ rest)
      = listen p 0 (lastLevel before skipped) rest := by
  induction skipped with
  | nil => exact fun _ => rfl
  | cons segment skipped ih =>
    intro before
    rw [List.length_cons, List.cons_append, listen, ih, lastLevel_cons]

/-! ## 3. Inside the window -/

theorem segmentAt_frame (h : p.Tolerates cycles) (byte : UInt8) (stopBit : Bool)
    (rest : Waveform) {i : Nat} (hi : i ≤ 8) :
    segmentAt (held cycles (Frame.levels byte stopBit) ++ rest) (p.firstInterval + i * p.ticks)
      = some (i + 1) := by
  obtain ⟨hbegun, hended⟩ := h.window hi
  exact segmentAt_held rest _ (by rw [Frame.length_levels]; omega) hbegun hended

/-- The first eight samples read the data bits. -/
theorem readings_frame (h : p.Tolerates cycles) (byte : UInt8) (stopBit : Bool)
    (rest : Waveform) :
    readings (held cycles (Frame.levels byte stopBit) ++ rest) 8 p.firstInterval p.ticks
      = Frame.bits byte := by
  -- sample `i` falls into level `i + 1`, as the start bit stands before the data bits
  have hread : ∀ i ∈ List.range 8,
      (segmentAt (held cycles (Frame.levels byte stopBit) ++ rest)
        (p.firstInterval + i * p.ticks)).map
        (levelOf (held cycles (Frame.levels byte stopBit) ++ rest))
        = (some ∘ byte.toNat.testBit) i := by
    intro i hi
    have hdata : i < 8 := List.mem_range.mp hi
    have hlen : i + 1 < (Frame.levels byte stopBit).length := by
      rw [Frame.length_levels]
      omega
    rw [segmentAt_frame h byte stopBit rest (Nat.le_of_lt hdata), Option.map_some,
      levelOf_held rest _ hlen]
    simp [Frame.levels, Frame.bits, hdata]
  rw [readings, List.filterMap_congr hread, List.filterMap_eq_map, Frame.bits]

/-- **A frame inside the window is heard as it was sent**, and the search for the next one goes
on where it ends. -/
theorem listen_frame (h : p.Tolerates cycles) (byte : UInt8) (stopBit : Bool)
    (rest : Waveform) :
    listen p 0 true (held cycles (Frame.levels byte stopBit) ++ rest)
      = (((listen p 0 stopBit rest).afterSamples 9).afterFrame byte stopBit).afterEdge true := by
  have hstop := segmentAt_frame h byte stopBit rest (Nat.le_refl 8)
  have hbits := readings_frame h byte stopBit rest
  have hlevel : levelOf (held cycles (Frame.levels byte stopBit) ++ rest) 9 = stopBit := by
    rw [levelOf_held rest _ (by rw [Frame.length_levels]; omega)]
    simp [Frame.levels]
  -- falls are ignored up to the segment of the stop bit, which is nine behind the start bit
  have hskip := listen_ignored (p := p) rest (held cycles (Frame.bits byte ++ [stopBit])) false
  have hlen : (held cycles (Frame.bits byte ++ [stopBit])).length = 9 := by simp [held]
  have hlast : lastLevel false (held cycles (Frame.bits byte ++ [stopBit])) = stopBit := by
    simp [lastLevel, held]
  rw [hlen, hlast] at hskip
  -- `listen` looks at the first segment, so the start bit has to stand by itself
  rw [Frame.levels, List.cons_append, held_cons, List.cons_append] at hstop hbits hlevel ⊢
  rw [listen]
  simp only [hstop, hbits, hlevel, hskip, Frame.byte_bits]
  rfl

/-- **Bytes sent back to back inside the window are heard as they were sent**, however many. -/
theorem listen_framed (h : p.Tolerates cycles) (bytes : List UInt8) :
    listen p 0 true (framed cycles bytes)
      = ⟨bytes.map (·, true), bytes.length, 9 * bytes.length, .idle⟩ := by
  induction bytes with
  | nil => rfl
  | cons byte rest ih =>
    -- a frame ends high, so the next one is searched for as at the start: nothing adds up
    rw [framed_cons, listen_frame h, ih]
    simp only [Heard.afterEdge, Heard.afterFrame, Heard.afterSamples, List.map_cons,
      List.length_cons, Bool.toNat_true, Nat.mul_add]

/-! ## 4. Outside the window -/

/-- A frame that is over before its stop bit is sampled leaves the listener inside it. -/
theorem listen_framed_of_short (hshort : 10 * cycles < 9 * p.ticks + p.half) (byte : UInt8) :
    (listen p 0 true (framed cycles [byte])).phase ≠ .idle := by
  have hlast : duration (framed cycles [byte]) < p.firstInterval + 8 * p.ticks := by
    rw [duration_framed, List.length_singleton, BitPeriod.firstInterval]
    omega
  have hnone := segmentAt_of_duration_lt _ hlast
  have hcons : framed cycles [byte]
      = (false, cycles) :: held cycles (Frame.bits byte ++ [true]) := rfl
  rw [hcons] at hnone ⊢
  rw [listen]
  simp only [hnone]
  exact Phase.after_ne_idle _

/-- A frame of zeros whose data bits are still on the wire when its stop bit is sampled is heard
with a low stop bit. -/
theorem listen_zeros_of_long (hlong : 9 * p.ticks + p.half ≤ 9 * cycles) :
    ∃ byte frames, (listen p 0 true (framed cycles [0])).frames = (byte, false) :: frames := by
  have hzeros : framed cycles [0] = held cycles (List.replicate 9 false) ++ [(true, cycles)] := rfl
  have hpos : 0 < p.firstInterval + 8 * p.ticks := by
    have htwo := p.two_le_ticks
    omega
  have hended : p.firstInterval + 8 * p.ticks
      ≤ duration (held cycles (List.replicate 9 false)) := by
    rw [duration_held, List.length_replicate, BitPeriod.firstInterval]
    omega
  -- wherever the ninth sample falls, it is in the nine low bits, of which the frame has no more
  obtain ⟨j, hj, hat⟩ := exists_segmentAt [(true, cycles)] _ hpos hended
  have hlow : levelOf (held cycles (List.replicate 9 false) ++ [(true, cycles)]) j = false := by
    have hj' : j < (List.replicate 9 false).length := by simpa [held] using hj
    rw [levelOf_held _ _ hj', List.getElem_replicate]
  rw [hzeros]
  rw [List.replicate_succ, held_cons, List.cons_append] at hat hlow ⊢
  rw [listen]
  simp only [hat, hlow]
  exact ⟨_, _, rfl⟩

end Waveform

end SerialLink
