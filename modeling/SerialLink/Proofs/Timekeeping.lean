/-
# What fires in a run, and when

The loop of `Line::run` has no bound of its own.  It looks at the interrupt sources, serves the
one that is due, and looks again, and what it serves may set the timer anew or arm another
source.  `Fires` is this loop with nothing else in it: at every turn the detector is looked at
first, the timer after it, and what is served is noted with its time.  Every run has such a list
(`exists_fires`).

What keeps the loop going is bounded, whoever listens and in whatever state the wire is.

* A latched edge is taken off the detector when it is looked at, and no handler latches another,
  so an edge can be served at the first turn only (`fires_iff`).
* A match restarts the timer at its own time, and the next one comes later, even with an
  interval of zero and even if the first one was overdue (`Serves.ascending`).  So there are no
  more matches than cycles, and one (`Serves.length_le`).

If nobody listens, nobody sets the timer either, and the matches are as regular as the timer:
`Wire.beats`.
-/
import SerialLink.Proofs.Slicing

namespace SerialLink

/-! ## 1. The regular matches -/

namespace Wire

/-- When the timer matches up to `stop`, if it is left alone: as soon as it is due, and then once an
interval. -/
def beats (w : Wire) (stop : Nat) : List Nat :=
  if w.timerArmed ∧ w.due ≤ stop then
    (List.range (1 + (stop - w.due) / max w.interval 1)).map fun k => w.due + k * max w.interval 1
  else []

variable {w : Wire} {stop : Nat}

theorem beats_of_rest (rest : ¬ (w.timerArmed = true ∧ w.due ≤ stop)) : w.beats stop = [] :=
  if_neg rest

theorem beats_eq_map (w : Wire) (stop : Nat) :
    w.beats stop = (List.range (w.matchesBy stop)).map fun k => w.due + k * max w.interval 1 := by
  rw [beats, matchesBy]
  split
  · rw [Nat.add_comm]
  · rfl

/-- A match that is served leaves the rest of the matches. -/
theorem beats_takeMatch (armed : w.timerArmed = true) (due : w.due ≤ stop) :
    w.beats stop = w.due :: w.takeMatch.beats stop := by
  have hinterval : w.takeMatch.interval = w.interval := rfl
  rw [beats_eq_map, beats_eq_map, matchesBy_of_due armed due, List.range_succ_eq_map,
    List.map_cons, List.map_map, Nat.zero_mul, Nat.add_zero]
  congr 1
  apply List.map_congr_left
  intro k _
  rw [Function.comp_apply, due_takeMatch, hinterval, Nat.succ_mul]
  omega

end Wire

/-! ## 2. The loop, turn by turn -/

/-- What can interrupt. -/
inductive Interrupt where
  | edge
  | timer
  deriving DecidableEq, Repr

namespace Station

variable {n : Nat} {who : Listener} {stop : Nat} {s s' last : Station n}
  {fired : List (Interrupt × Nat)} {passed : List (Station n)}

/-- **What a loop up to `stop` serves, with the times,** and the station it ends in.  The detector
is looked at before the timer, at every turn; an edge that is not due is taken off it all the
same. -/
inductive Fires (who : Listener) (stop : Nat) :
    Station n → List (Interrupt × Nat) → Station n → Prop
  | edge {s last : Station n} {fired : List (Interrupt × Nat)} (due : s.wire.edgeDue = true)
      (rest : Fires who stop (s.serveEdge who) fired last) :
      Fires who stop s ((.edge, s.wire.now) :: fired) last
  | timer {s next last : Station n} {fired : List (Interrupt × Nat)}
      (quiet : s.wire.edgeDue = false) (armed : s.wire.timerArmed = true) (due : s.wire.due ≤ stop)
      (served : (s.serveEdge who).serveMatch who = .ok next)
      (rest : Fires who stop next fired last) :
      Fires who stop s ((.timer, s.wire.due) :: fired) last
  | settle {s : Station n} (quiet : s.wire.edgeDue = false)
      (rest : ¬ (s.wire.timerArmed = true ∧ s.wire.due ≤ stop)) :
      Fires who stop s [] { s.serveEdge who with wire := (s.serveEdge who).wire.settle stop }

/-- The edge that the first turn of a loop serves. -/
def firstEdge (s : Station n) : List (Interrupt × Nat) :=
  if s.wire.edgeDue then [(.edge, s.wire.now)] else []

/-- The matches that leave these stations behind. -/
def timed (passed : List (Station n)) : List (Interrupt × Nat) :=
  passed.map fun t => (.timer, t.wire.now)

theorem countP_edge (s : Station n) (passed : List (Station n)) :
    (s.firstEdge ++ timed passed).countP (·.1 = .edge) = s.wire.edgeDue.toNat := by
  have hnone : (timed passed).countP (·.1 = .edge) = 0 := by simp [timed]
  rw [List.countP_append, hnone, firstEdge]
  cases s.wire.edgeDue <;> rfl

theorem countP_timer (s : Station n) (passed : List (Station n)) :
    (s.firstEdge ++ timed passed).countP (·.1 = .timer) = passed.length := by
  have hall : (timed passed).countP (·.1 = .timer) = passed.length := by simp [timed]
  rw [List.countP_append, hall, firstEdge]
  cases s.wire.edgeDue <;> simp

theorem firstEdge_of_unlatched (h : s.wire.edgeLatched = false) : s.firstEdge = [] := by
  simp [firstEdge, Wire.edgeDue, h]

/-- An edge that is not due leaves the timer alone. -/
theorem timer_serveEdge (quiet : s.wire.edgeDue = false) :
    (s.serveEdge who).wire.timerArmed = s.wire.timerArmed ∧
      (s.serveEdge who).wire.due = s.wire.due := by
  have hedge : s.serveEdge who = { s with wire := s.wire.takeEdge } := by
    simp only [serveEdge, quiet]
  rw [hedge]
  exact ⟨rfl, rfl⟩

/-- The matches of a loop, with no edge due before them. -/
theorem fires_of_serves {t : Station n} (h : Serves who stop t passed last) :
    ∀ {s : Station n}, s.wire.edgeDue = false → s.serveEdge who = t →
      Fires who stop s (timed passed) last := by
  induction h with
  | settle rest =>
    rintro s quiet rfl
    rw [(timer_serveEdge quiet).1, (timer_serveEdge quiet).2] at rest
    exact .settle quiet rest
  | @serve t next last passed armed due served rest ih =>
    rintro s quiet rfl
    -- the first turn takes the edge off, and no match latches another
    have hunlatched : next.wire.edgeLatched = false :=
      (edgeLatched_serveMatch served).trans (unlatched_serveEdge s)
    have hnext : Fires who stop next (timed passed) last :=
      ih (by simp [Wire.edgeDue, hunlatched]) (serveEdge_of_unlatched hunlatched)
    have htime : next.wire.now = s.wire.due :=
      (sameSetting_serveMatch served).2.trans (timer_serveEdge quiet).2
    rw [(timer_serveEdge quiet).1] at armed
    rw [(timer_serveEdge quiet).2] at due
    rw [timed, List.map_cons, htime]
    exact .timer quiet armed due served hnext

theorem serves_of_fires (h : Fires who stop s fired last) :
    ∃ passed, Serves who stop (s.serveEdge who) passed last ∧
      fired = s.firstEdge ++ timed passed := by
  induction h with
  | @edge s last fired due rest ih =>
    obtain ⟨passed, hserves, rfl⟩ := ih
    have hunlatched : (s.serveEdge who).wire.edgeLatched = false := unlatched_serveEdge s
    rw [serveEdge_of_unlatched hunlatched] at hserves
    refine ⟨passed, hserves, ?_⟩
    rw [firstEdge_of_unlatched hunlatched, firstEdge, if_pos due]
    rfl
  | @timer s next last fired quiet armed due served rest ih =>
    obtain ⟨passed, hserves, rfl⟩ := ih
    have hunlatched : next.wire.edgeLatched = false :=
      (edgeLatched_serveMatch served).trans (unlatched_serveEdge s)
    rw [serveEdge_of_unlatched hunlatched] at hserves
    -- no edge was due, so the match is the first that the loop serves
    have hfirst : Serves who stop (s.serveEdge who) (next :: passed) last :=
      .serve ((timer_serveEdge quiet).1.trans armed) ((timer_serveEdge quiet).2.trans_le due)
        served hserves
    have htime : next.wire.now = s.wire.due :=
      (sameSetting_serveMatch served).2.trans (timer_serveEdge quiet).2
    refine ⟨next :: passed, hfirst, ?_⟩
    rw [firstEdge_of_unlatched hunlatched, firstEdge, quiet, ← htime]
    rfl
  | settle quiet rest =>
    refine ⟨[], .settle ?_, ?_⟩
    · rw [(timer_serveEdge quiet).1, (timer_serveEdge quiet).2]
      exact rest
    · rw [firstEdge, quiet]
      rfl

/-- **An edge can be served at the first turn only,** and after it the loop serves matches. -/
theorem fires_iff : Fires who stop s fired last ↔
    ∃ passed, Serves who stop (s.serveEdge who) passed last ∧
      fired = s.firstEdge ++ timed passed := by
  refine ⟨serves_of_fires, ?_⟩
  rintro ⟨passed, hserves, rfl⟩
  cases hdue : s.wire.edgeDue with
  | true =>
    have hunlatched : (s.serveEdge who).wire.edgeLatched = false := unlatched_serveEdge s
    have hrest : Fires who stop (s.serveEdge who) (timed passed) last :=
      fires_of_serves hserves (by simp [Wire.edgeDue, hunlatched])
        (serveEdge_of_unlatched hunlatched)
    -- the edge takes a turn of its own, and the matches start with a clean detector
    rw [firstEdge, if_pos hdue]
    exact .edge hdue hrest
  | false =>
    rw [firstEdge, hdue]
    exact fires_of_serves hserves hdue rfl

/-! ## 3. The loop comes to its end -/

/-- **Matches run out:** each one is later than the one before, and none comes after `stop`. -/
theorem exists_serves (hs : Heeds who s) : ∃ passed last, Serves who stop s passed last := by
  induction hleft : stop - s.wire.timerStart using Nat.strong_induction_on generalizing s with
  | _ left ih =>
    by_cases hdue : s.wire.timerArmed = true ∧ s.wire.due ≤ stop
    -- the match moves the start of the timer on, towards the stop
    · obtain ⟨next, hnext, hheeds⟩ := hs.serveMatch
      have hstart := timerStart_serveMatch hnext
      have hlater := s.wire.timerStart_lt_due
      have hbefore := hdue.2
      obtain ⟨passed, last, hserves⟩ :=
        ih (stop - next.wire.timerStart) (by omega) hheeds rfl
      exact ⟨next :: passed, last, .serve hdue.1 hdue.2 hnext hserves⟩
    · exact ⟨[], _, .settle hdue⟩

theorem exists_fires (hs : Heeds who s) : ∃ fired last, Fires who stop s fired last := by
  obtain ⟨passed, last, hserves⟩ : ∃ passed last, Serves who stop (s.serveEdge who) passed last :=
    exists_serves hs.serveEdge
  exact ⟨_, last, fires_iff.mpr ⟨passed, hserves, rfl⟩⟩

/-- The loop ends where its matches end, if and only if all of them can be counted and the last sum
it forms fits: the sums before it were no later than `stop`. -/
theorem Serves.ends (h : Serves who stop s passed last) (hstop : stop < Wire.timeLimit) :
    s.serveMatches who stop = .ok () last ↔
      last.wire.target < Wire.timeLimit ∧
        s.wire.matchCount + passed.length < Wire.countLimit := by
  induction h with
  | @settle s rest =>
    have htarget : (s.wire.settle stop).target = s.wire.target := rfl
    rw [htarget]
    constructor
    · intro hends
      exact ⟨target_lt_of_serveMatches hends, s.wire.matchesServed.toNat_lt⟩
    · intro hfits
      exact serveMatches_of_rest hfits.1 rest
  | @serve s next last passed armed due served rest ih =>
    -- a match that is due comes no later than the stop, so its sum fits
    have hfits : s.wire.target < Wire.timeLimit :=
      Nat.lt_of_le_of_lt (Nat.le_trans (Nat.le_max_left _ _) due) hstop
    rw [List.length_cons]
    rcases Nat.lt_or_ge (s.wire.matchCount + 1) Wire.countLimit with hroom | hfull
    · have hmore := matchCount_serveMatch served hroom
      have hsum : s.wire.matchCount + (passed.length + 1)
          = next.wire.matchCount + passed.length := by omega
      rw [serveMatches_of_due hfits armed due hroom served, hsum]
      exact ih
    · -- this match is one too many
      rw [serveMatches_of_full hfits armed due hfull]
      constructor
      · intro hends
        cases hends
      · intro hboth
        omega

theorem Fires.ends {cycles : Nat} (h : Fires who (s.wire.now + cycles) s fired last) :
    run who cycles s = .ok () last ↔
      (s.wire.now + cycles < Wire.timeLimit ∧ last.wire.target < Wire.timeLimit) ∧
        s.wire.edgeCount + fired.countP (·.1 = .edge) < Wire.countLimit ∧
        s.wire.matchCount + fired.countP (·.1 = .timer) < Wire.countLimit := by
  obtain ⟨passed, hserves, rfl⟩ := serves_of_fires h
  have hmatches : (s.serveEdge who).wire.matchCount = s.wire.matchCount := matchCount_serveEdge s
  -- a run asks three things in turn: the clock, the count of edges, and then the loop
  rw [countP_edge, countP_timer, ← hmatches, run_eq]
  split
  · rename_i hlate
    exact ⟨fun hends => (nomatch hends), fun hfits => absurd hfits.1.1 (Nat.not_lt.mpr hlate)⟩
  rename_i hfits
  split
  · rename_i hfull
    refine ⟨fun hends => (nomatch hends), fun hboth => ?_⟩
    rw [hfull.1] at hboth
    exact absurd hboth.2.1 (Nat.not_lt.mpr hfull.2)
  · rename_i hroom
    have hedge : s.wire.edgeCount + s.wire.edgeDue.toNat < Wire.countLimit := by
      cases hdue : s.wire.edgeDue with
      | true => exact Nat.lt_of_not_le fun hfull => hroom ⟨hdue, hfull⟩
      | false => exact s.wire.edgesServed.toNat_lt
    rw [hserves.ends (Nat.lt_of_not_le hfits)]
    exact ⟨fun hends => ⟨⟨Nat.lt_of_not_le hfits, hends.1⟩, hedge, hends.2⟩,
      fun hall => ⟨hall.1.2, hall.2.2⟩⟩

/-! ## 4. The times -/

/-- **Every match is later than the one before it.** -/
theorem Serves.ascending (h : Serves who stop s passed last) :
    (passed.map (·.wire.now)).Pairwise (· < ·) ∧
      ∀ time ∈ passed.map (·.wire.now), s.wire.due ≤ time ∧ time ≤ stop := by
  induction h with
  | settle rest => simp
  | @serve s next last passed armed due served rest ih =>
    have htime := (sameSetting_serveMatch served).2
    -- the match restarts the timer at its own time, so the next one is later
    have hlater : s.wire.due < next.wire.due := by
      rw [← timerStart_serveMatch served]
      exact next.wire.timerStart_lt_due
    rw [List.map_cons, htime]
    constructor
    · refine List.pairwise_cons.mpr ⟨?_, ih.1⟩
      intro time hmem
      exact Nat.lt_of_lt_of_le hlater (ih.2 time hmem).1
    · intro time hmem
      rcases List.mem_cons.mp hmem with rfl | hrest
      · exact ⟨Nat.le_refl _, due⟩
      · have hbounds := ih.2 time hrest
        exact ⟨by omega, hbounds.2⟩

/-- There are no more matches than cycles to match in. -/
theorem Serves.length_le (h : Serves who stop s passed last) :
    passed.length ≤ stop + 1 - s.wire.due := by
  induction h with
  | settle rest => exact Nat.zero_le _
  | @serve s next last passed armed due served rest ih =>
    have hlater : s.wire.due < next.wire.due := by
      rw [← timerStart_serveMatch served]
      exact next.wire.timerStart_lt_due
    rw [List.length_cons]
    omega

/-- **With nobody listening the timer beats.** -/
theorem Serves.beats (h : Serves .nobody stop s passed last) :
    passed.map (·.wire.now) = s.wire.beats stop := by
  induction h with
  | settle rest => rw [Wire.beats_of_rest rest, List.map_nil]
  | serve armed due served rest ih =>
    cases served
    rw [List.map_cons, ih, Wire.beats_takeMatch armed due]
    rfl

/-! ## 5. The counts -/

theorem Serves.counts (h : Serves who stop s passed last) :
    last.wire.edgesServed = s.wire.edgesServed ∧
      last.wire.matchesServed = s.wire.matchesServed + .ofNat passed.length := by
  induction h with
  | @settle s rest => exact ⟨rfl, (UInt32.add_zero s.wire.matchesServed).symm⟩
  | serve armed due served rest ih =>
    obtain ⟨hedges, hmatches⟩ := served_serveMatch served
    refine ⟨ih.1.trans hedges, ?_⟩
    rw [ih.2, hmatches, List.length_cons, UInt32.ofNat_add, UInt32.add_assoc,
      UInt32.add_comm 1]
    rfl

theorem counts_serveEdge (who : Listener) (s : Station n) :
    (s.serveEdge who).wire.edgesServed = s.wire.edgesServed + .ofNat s.firstEdge.length ∧
      (s.serveEdge who).wire.matchesServed = s.wire.matchesServed := by
  refine ⟨(served_serveEdge s).1.trans ?_, (served_serveEdge s).2⟩
  rw [Wire.takeEdge, firstEdge]
  cases s.wire.edgeDue with
  | true => rfl
  | false => exact (UInt32.add_zero s.wire.edgesServed).symm

/-! ## 6. A run keeps time -/

/-- **What holds of a run of so many cycles,** which serves what has `fired` and comes to `last`. -/
structure KeepsTime (who : Listener) (cycles : Nat) (s : Station n)
    (fired : List (Interrupt × Nat)) (last : Station n) : Prop where
  /-- The run ends, unless one of its sums does not fit or one of its interrupts cannot be
  counted. -/
  ends : run who cycles s = .ok () last ↔
    (s.wire.now + cycles < Wire.timeLimit ∧ last.wire.target < Wire.timeLimit) ∧
      s.wire.edgeCount + fired.countP (·.1 = .edge) < Wire.countLimit ∧
      s.wire.matchCount + fired.countP (·.1 = .timer) < Wire.countLimit
  now : last.wire.now = s.wire.now + cycles
  /-- One edge at most, and then matches, no more than cycles and one.  They are counted as words
  count. -/
  sources : ∃ edgesServed matchesServed,
    fired.map Prod.fst
        = List.replicate edgesServed .edge ++ List.replicate matchesServed .timer ∧
      edgesServed ≤ 1 ∧ matchesServed ≤ cycles + 1 ∧
      last.wire.edgesServed = s.wire.edgesServed + .ofNat edgesServed ∧
      last.wire.matchesServed = s.wire.matchesServed + .ofNat matchesServed
  ordered : (fired.map Prod.snd).Pairwise (· ≤ ·)
  inside : ∀ time ∈ fired.map Prod.snd, s.wire.now ≤ time ∧ time ≤ s.wire.now + cycles
  /-- Nobody disturbs the timer. -/
  beats : who = .nobody →
    (fired.filter (·.1 = .timer)).map Prod.snd = s.wire.beats (s.wire.now + cycles)

theorem sources_firstEdge (s : Station n) :
    s.firstEdge.map Prod.fst = List.replicate s.firstEdge.length .edge ∧
      s.firstEdge.length ≤ 1 := by
  cases h : s.wire.edgeDue <;> simp [firstEdge, h]

theorem sources_timed (passed : List (Station n)) :
    (timed passed).map Prod.fst = List.replicate passed.length .timer := by
  simp [timed, Function.comp_def]

theorem times_timed (passed : List (Station n)) :
    (timed passed).map Prod.snd = passed.map (·.wire.now) := by
  simp [timed, Function.comp_def]

theorem filter_fired (s : Station n) (passed : List (Station n)) :
    (s.firstEdge ++ timed passed).filter (·.1 = .timer) = timed passed := by
  rw [List.filter_append, List.filter_eq_nil_iff.mpr, List.nil_append, List.filter_eq_self]
  · simp [timed]
  · cases h : s.wire.edgeDue <;> simp [firstEdge, h]

theorem times_firstEdge {time : Nat} (h : time ∈ s.firstEdge.map Prod.snd) : time = s.wire.now := by
  cases hdue : s.wire.edgeDue <;> simp_all [firstEdge]

theorem Fires.keepsTime {cycles : Nat} (h : Fires who (s.wire.now + cycles) s fired last) :
    KeepsTime who cycles s fired last := by
  obtain ⟨passed, hserves, rfl⟩ := serves_of_fires h
  have hstart : s.wire.now ≤ (s.serveEdge who).wire.due := now_le_due_serveEdge s
  obtain ⟨hascending, hbounds⟩ := hserves.ascending
  -- a match is due no earlier than now, and the loop serves none behind the stop
  have hinside : ∀ time ∈ (timed passed).map Prod.snd,
      s.wire.now ≤ time ∧ time ≤ s.wire.now + cycles := by
    intro time hmem
    rw [times_timed] at hmem
    exact ⟨Nat.le_trans hstart (hbounds time hmem).1, (hbounds time hmem).2⟩
  refine ⟨h.ends, (sameSetting_serves hserves).2, ?_, ?_, ?_, ?_⟩
  -- sources and counts
  · have hlength := hserves.length_le
    have hcounts := hserves.counts
    obtain ⟨hedges, hmatches⟩ := counts_serveEdge who s
    refine ⟨s.firstEdge.length, passed.length, ?_, (sources_firstEdge s).2, ?_, ?_, ?_⟩
    · rw [List.map_append, (sources_firstEdge s).1, sources_timed]
    · omega
    · rw [hcounts.1, hedges]
    · rw [hcounts.2, hmatches]
  -- in order: the edge is served now, and no match comes before now
  · rw [List.map_append, List.pairwise_append]
    refine ⟨?_, ?_, ?_⟩
    · cases hdue : s.wire.edgeDue <;> simp [firstEdge, hdue]
    · rw [times_timed]
      exact hascending.imp Nat.le_of_lt
    · intro edge hedge time htime
      rw [times_firstEdge hedge]
      exact (hinside time htime).1
  · intro time hmem
    rw [List.map_append, List.mem_append] at hmem
    rcases hmem with hedge | htime
    · rw [times_firstEdge hedge]
      exact ⟨Nat.le_refl _, Nat.le_add_right _ _⟩
    · exact hinside time htime
  -- with nobody listening the edge leaves the timer as it was
  · rintro rfl
    have hedge : s.serveEdge .nobody = { s with wire := s.wire.takeEdge } := by
      unfold serveEdge
      split
      · contradiction
      · rfl
    rw [filter_fired, times_timed, hserves.beats, hedge]
    rfl

/-- **A run comes to its end, and keeps time.**  On a wire in any state, with nobody listening or
with a receiver that stands where some life has led one, with any queue and sink and with a pin
that can be read or not: the loop of the run has an end, and takes exactly the cycles of the run;
on the way it serves one edge at most, before any match, and one match more than there are cycles at
most, each at a time of the run and in order.  If nobody listens, the matches are the beats of the
timer. -/
theorem run_keepsTime (who : Listener) (s : Station n)
    (hs : who = .receiver → s.receiver.Reached) (cycles : Nat) :
    (∃ fired last, Fires who (s.wire.now + cycles) s fired last) ∧
      ∀ fired last, Fires who (s.wire.now + cycles) s fired last →
        KeepsTime who cycles s fired last := by
  have hheeds : Heeds who s := fun hwho => (hs hwho).occurs
  exact ⟨exists_fires hheeds, fun fired last => Fires.keepsTime⟩

/-- A latched edge in the middle of a frame, then a match that is overdue on a pin that cannot be
read: the frame is given up at once, and the rest of the run is silent. -/
theorem run_keepsTime_unreadable :
    let w : Wire := ⟨16000000, false, 10, true, true, true, 0, 3, 0, 0⟩
    let r : Receiver := ⟨.confirming, ⟨2, 125, by decide⟩, .keep⟩
    let s : Station 2 := ⟨w, r, false, .empty, .discard, []⟩
    r.Reached ∧ ∃ last, Fires .receiver 50 s [(.edge, 10), (.timer, 10)] last ∧
      KeepsTime .receiver 40 s [(.edge, 10), (.timer, 10)] last ∧
      run .receiver 40 s = .ok () last := by
  intro w r s
  have hrate : BitPeriod.ofRate 16000000 8000000 65535 = .ok ⟨2, 125, by decide⟩ := by decide
  have hreached : r.Reached :=
    ⟨2, _, ⟨Wire.fresh 16000000, 16000000, 8000000, 65535, _, .keep, .empty, .discard,
      [.drive false, .edge], rfl, Nat.le_refl _, hrate, rfl⟩, rfl⟩
  have hfires : Fires .receiver 50 s [(.edge, 10), (.timer, 10)] _ :=
    .edge rfl (.timer rfl rfl (by decide) rfl (.settle rfl (by decide)))
  have hkeeps := (run_keepsTime .receiver s (fun _ => hreached) 40).2 _ _ hfires
  exact ⟨hreached, _, hfires, hkeeps, hkeeps.ends.mpr (by decide)⟩

/-- An interval of zero beats once a cycle, here for a timer that was due seven cycles ago. -/
example : Wire.beats ⟨16000000, true, 10, false, false, true, 0, 3, 0, 0⟩ 13 = [10, 11, 12, 13] := by
  decide

end Station

end SerialLink
