/-
# Time in slices

Time passes on a wire in runs (`Line::run`), and it is up to whoever simulates it how long each
run is.  This module says that it makes no difference: to run for some cycles and then for some
more is to run for all of them at once, whoever listens (`bind_run`), and so it is with any
number of runs (`within_runs`).

A run that is cut in two stops its loop once more than it has to.  There are two things that this
could spoil, and each has its lemma.

* The clock is moved up to the cut.  A match that was left for the rest is still due when it was,
  and the clock goes there in any case (`serveMatches_settle`).
* The detector is looked at once more.  But the first slice took the latched edge off it, and no
  handler latches one, so it finds nothing (`unlatched_run`).

The wire may be in any state, also one that no receiver would leave it in: any interval, any
restart of the timer, anything armed and anything latched.  The receiver has to stand at a place
in a frame that occurs, or a match might be at fault.
-/
import SerialLink.Proofs.Lifetime

namespace SerialLink

/-! ## 1. The wire at the cut -/

namespace Wire

variable {w : Wire} {stop : Nat}

/-- There is nothing to take off a detector that has latched nothing. -/
theorem takeEdge_of_unlatched (h : w.edgeLatched = false) : w.takeEdge = w := by
  have hdue : w.edgeDue = false := by rw [edgeDue, h, Bool.false_and]
  rw [takeEdge, unlatch, hdue, if_neg Bool.false_ne_true, ← h]

/-- A match that comes after the cut is due when it was. -/
theorem due_settle (hnow : w.now ≤ stop) (hlater : stop < w.due) : (w.settle stop).due = w.due := by
  have htarget : (w.settle stop).target = w.target := rfl
  have hclock : (w.settle stop).now = stop := rfl
  rw [due] at hlater
  rw [due, due, htarget, hclock]
  omega

/-- To come to it, the clock moves on from the cut as it would have moved from before. -/
theorem reachMatch_settle (hnow : w.now ≤ stop) (hlater : stop < w.due) :
    (w.settle stop).reachMatch = w.reachMatch := by
  rw [reachMatch, reachMatch, due_settle hnow hlater]
  rfl

theorem takeMatch_settle (hnow : w.now ≤ stop) (hlater : stop < w.due) :
    (w.settle stop).takeMatch = w.takeMatch := by
  rw [takeMatch, takeMatch, reachMatch_settle hnow hlater]
  rfl

end Wire

/-- A receiver as some life leaves it. -/
def Receiver.Reached (r : Receiver) : Prop :=
  ∃ (m : Nat) (t : Station m), t.Reached ∧ t.receiver = r

theorem Receiver.Reached.occurs {r : Receiver} (h : r.Reached) : r.phase.Occurs := by
  obtain ⟨m, t, ht, rfl⟩ := h
  obtain ⟨timings, hsound⟩ := ht.sound
  exact hsound.phase.occurs

namespace Station

variable {n : Nat} {who : Listener} {s s' : Station n} {stop stop' : Nat}

/-! ## 2. A match in any state of the wire -/

/-- **A match is no fault where the phase occurs,** and leaves a phase that occurs. -/
theorem handleMatch_of_occurs (h : s.receiver.phase.Occurs) :
    ∃ next, s.handleMatch = .ok next ∧ next.receiver.phase.Occurs := by
  obtain ⟨r, hsample, hgoing⟩ := h.exists_sample s.wire.level
  obtain ⟨next, hnext⟩ := exists_handleMatch hsample
  refine ⟨next, hnext, ?_⟩
  cases afterMatch_of_handleMatch hnext with
  | unreadable hread => exact .inl rfl
  | going hread hsample' =>
    rw [hsample, Except.ok.injEq] at hsample'
    exact hgoing _ hsample'
  | frame hread hsample' => exact .inl rfl
  | spurious hread hsample' => exact .inl rfl

/-- Whoever listens, if it is a receiver, stands at a place in a frame that occurs. -/
def Heeds (who : Listener) (s : Station n) : Prop := who = .receiver → s.receiver.phase.Occurs

theorem Heeds.serveMatch (h : Heeds who s) :
    ∃ next, s.serveMatch who = .ok next ∧ Heeds who next := by
  cases who with
  | receiver =>
    obtain ⟨next, hnext, hoccurs⟩ :=
      handleMatch_of_occurs (s := { s with wire := s.wire.takeMatch }) (h rfl)
    exact ⟨next, hnext, fun _ => hoccurs⟩
  | nobody => exact ⟨_, rfl, fun hnobody => nomatch hnobody⟩

theorem occurs_handleEdge (h : s.receiver.phase.Occurs) : s.handleEdge.receiver.phase.Occurs := by
  rcases s.handleEdge_cases with hedge | hedge | hedge <;> rw [hedge]
  · exact h
  · exact h
  · exact .inr ⟨[], Nat.zero_le _, rfl⟩

theorem Heeds.serveEdge (h : Heeds who s) : Heeds who (s.serveEdge who) := by
  intro hwho
  unfold Station.serveEdge
  split
  · exact occurs_handleEdge (s := { s with wire := s.wire.takeEdge }) (h hwho)
  · exact h hwho

/-! ## 3. The loop at the cut -/

theorem serveMatch_settle (hnow : s.wire.now ≤ stop) (hlater : stop < s.wire.due) :
    serveMatch who { s with wire := s.wire.settle stop } = s.serveMatch who := by
  simp only [serveMatch, Wire.takeMatch_settle hnow hlater]

/-- **A loop that was stopped at the cut goes on behind it** as if it had not been stopped. -/
theorem serveMatches_settle (hs : Heeds who s) (hfits : s.wire.target < Wire.timeLimit)
    (hnow : s.wire.now ≤ stop) (hrest : ¬ (s.wire.timerArmed = true ∧ s.wire.due ≤ stop)) :
    serveMatches who stop' { s with wire := s.wire.settle stop } = s.serveMatches who stop' := by
  have hlater : s.wire.timerArmed = true → stop < s.wire.due := by
    intro harmed
    exact Nat.lt_of_not_le fun hdue => hrest ⟨harmed, hdue⟩
  -- a match behind the cut comes at the same cycle, settled or not
  by_cases hdue : s.wire.timerArmed = true ∧ s.wire.due ≤ stop'
  · obtain ⟨harmed, hbefore⟩ := hdue
    obtain ⟨next, hnext, -⟩ := hs.serveMatch
    have hdue' : (s.wire.settle stop).due ≤ stop' := by
      rw [Wire.due_settle hnow (hlater harmed)]
      exact hbefore
    rcases Nat.lt_or_ge (s.wire.matchCount + 1) Wire.countLimit with hroom | hfull
    · rw [serveMatches_of_due hfits harmed hbefore hroom hnext]
      exact serveMatches_of_due (s := { s with wire := s.wire.settle stop }) hfits harmed hdue'
        hroom ((serveMatch_settle hnow (hlater harmed)).trans hnext)
    · -- a count that is full stops both loops at the match
      rw [serveMatches_of_full hfits harmed hbefore hfull,
        serveMatches_of_full (s := { s with wire := s.wire.settle stop }) hfits harmed hdue' hfull]
      simp only [Wire.reachMatch_settle hnow (hlater harmed)]
  · have hrest' : ¬ (s.wire.timerArmed = true ∧ (s.wire.settle stop).due ≤ stop') := by
      rintro ⟨harmed, hbefore⟩
      rw [Wire.due_settle hnow (hlater harmed)] at hbefore
      exact hdue ⟨harmed, hbefore⟩
    rw [serveMatches_of_rest hfits hdue]
    exact serveMatches_of_rest (s := { s with wire := s.wire.settle stop }) hfits hrest'

/-- **The matches up to the cut, and then those behind it, are all the matches.** -/
theorem bind_serveMatches (hs : Heeds who s) (hnow : s.wire.now ≤ stop) (hstop : stop ≤ stop') :
    EStateM.bind (serveMatches who stop) (fun _ => serveMatches who stop') s
      = s.serveMatches who stop' := by
  simp only [EStateM.bind]
  fun_induction serveMatches who stop s with
  | case1 s late => rw [serveMatches_of_late late]
  | case2 s fits due full =>
    rw [serveMatches_of_full (Nat.lt_of_not_le fits) due.1 (Nat.le_trans due.2 hstop) full]
  | case3 s fits due room fault served =>
    -- a receiver at a place that occurs is not at fault, and no other place comes up
    obtain ⟨next, hnext, -⟩ := hs.serveMatch
    rw [served] at hnext
    cases hnext
  | case4 s fits due room next served ih =>
    obtain ⟨next', hnext, hheeds⟩ := hs.serveMatch
    rw [served] at hnext
    cases hnext
    have hclock : next.wire.now ≤ stop := by
      rw [(sameSetting_serveMatch served).2]
      exact due.2
    rw [serveMatches_of_due (Nat.lt_of_not_le fits) due.1 (Nat.le_trans due.2 hstop)
      (Nat.lt_of_not_le room) served]
    exact ih hheeds hclock
  | case5 s fits rest => exact serveMatches_settle hs (Nat.lt_of_not_le fits) hnow rest

/-! ## 4. The detector at the cut -/

theorem serveEdge_of_unlatched (h : s.wire.edgeLatched = false) : s.serveEdge who = s := by
  have hdue : s.wire.edgeDue = false := by rw [Wire.edgeDue, h, Bool.false_and]
  simp only [serveEdge, hdue, Wire.takeEdge_of_unlatched h]

theorem unlatched_handleEdge (h : s.wire.edgeLatched = false) :
    s.handleEdge.wire.edgeLatched = false := by
  rcases s.handleEdge_cases with hedge | hedge | hedge <;> rw [hedge]
  · exact h
  · exact h
  · rfl

/-- The latched edge is taken off the detector, due or not. -/
theorem unlatched_serveEdge (s : Station n) : (s.serveEdge who).wire.edgeLatched = false := by
  unfold serveEdge
  split
  · exact unlatched_handleEdge (s := { s with wire := s.wire.takeEdge }) rfl
  · rfl

theorem edgeLatched_handleMatch (h : s.handleMatch = .ok s') :
    s'.wire.edgeLatched = s.wire.edgeLatched := by
  rcases wire_handleMatch h with hwire | hwire <;> rw [hwire] <;> rfl

theorem edgeLatched_serveMatch (h : s.serveMatch who = .ok s') :
    s'.wire.edgeLatched = s.wire.edgeLatched := by
  cases who with
  | receiver => exact edgeLatched_handleMatch (s := { s with wire := s.wire.takeMatch }) h
  | nobody =>
    cases h
    rfl

theorem edgeLatched_serves {passed : List (Station n)} (h : Serves who stop s passed s') :
    s'.wire.edgeLatched = s.wire.edgeLatched := by
  induction h with
  | settle rest => rfl
  | serve armed due served rest ih => exact ih.trans (edgeLatched_serveMatch served)

/-- **A run leaves nothing latched.** -/
theorem unlatched_run {cycles : Nat} (h : run who cycles s = .ok () s') :
    s'.wire.edgeLatched = false := by
  obtain ⟨passed, hserves⟩ := serves_of_serveMatches (serveMatches_of_run h).2
  exact (edgeLatched_serves hserves).trans (unlatched_serveEdge s)

/-! ## 5. A run in slices -/

/-- Two runs are one. -/
theorem bind_run (hs : Heeds who s) {a b : Nat} (hends : s.wire.now + (a + b) < Wire.timeLimit) :
    (run who a >>= fun _ => run who b) s = run who (a + b) s := by
  have hfirst : ¬ Wire.timeLimit ≤ s.wire.now + a := by omega
  have hwhole : ¬ Wire.timeLimit ≤ s.wire.now + (a + b) := Nat.not_le.mpr hends
  -- the edge is served once, before the cut, so the slices differ only in the loop
  have hloop : EStateM.bind (serveMatches who (s.wire.now + a))
      (fun _ => serveMatches who (s.wire.now + (a + b))) (s.serveEdge who)
        = (s.serveEdge who).serveMatches who (s.wire.now + (a + b)) :=
    bind_serveMatches hs.serveEdge (by rw [now_serveEdge]; omega) (by omega)
  by_cases hfull : s.wire.edgeDue = true ∧ Wire.countLimit ≤ s.wire.edgeCount + 1
  · -- neither gets past the edge
    simp only [bind, EStateM.bind, run_eq, if_neg hfirst, if_neg hwhole, if_pos hfull]
  rw [run_eq who (a + b), if_neg hwhole, if_neg hfull, ← hloop]
  simp only [bind, EStateM.bind]
  cases hrun : run who a s with
  | error fault t =>
    rw [run_eq, if_neg hfirst, if_neg hfull] at hrun
    rw [hrun]
  | ok x t =>
    have hnow := (sameSetting_run hrun).2
    have hunlatched := unlatched_run hrun
    -- the first slice leaves nothing latched, so the second has no edge to serve
    have hquiet : ¬ (t.wire.edgeDue = true ∧ Wire.countLimit ≤ t.wire.edgeCount + 1) := by
      simp [Wire.edgeDue, hunlatched]
    have hsecond : run who b t = serveMatches who (s.wire.now + (a + b)) t := by
      rw [run_eq, hnow, if_neg (by omega), if_neg hquiet, serveEdge_of_unlatched hunlatched,
        Nat.add_assoc]
    rw [run_eq, if_neg hfirst, if_neg hfull] at hrun
    rw [hrun]
    exact hsecond

/-! ## 6. A run comes to its end -/

/-- How far a run of so many cycles goes, whoever listens. -/
def runExtent (s : Station n) (cycles : Nat) : Extent where
  lastCycle :=
    max s.wire.target
      (s.wire.now + cycles + max s.receiver.period.firstInterval (max s.wire.interval 1))
  interrupts := s.wire.interrupts + (cycles + 1)

/-- What holds in the course of a run that began at `s`: nobody leaves the interval as it was, a
receiver the place in a frame one that occurs, and the timer points no further than `limit`. -/
structure Running (who : Listener) (limit : Nat) (s t : Station n) : Prop where
  heeds : Heeds who t
  period : t.receiver.period = s.receiver.period
  interval : who = .nobody → t.wire.interval = s.wire.interval
  target : t.wire.target ≤ limit

variable {t : Station n} {limit : Nat}

theorem Running.serveEdge (h : Running who limit s t)
    (hlimit : t.wire.now + s.receiver.period.firstInterval ≤ limit) :
    Running who limit s (t.serveEdge who) where
  heeds := h.heeds.serveEdge
  period := (sameSetting_serveEdge t).period.trans h.period
  interval hwho := by
    subst hwho
    unfold Station.serveEdge
    split
    · contradiction
    · exact h.interval rfl
  target := by
    cases who with
    | receiver =>
      -- a receiver may set the timer again, for one first interval from now
      have hedge := target_serveEdge t
      have htarget := h.target
      rw [h.period] at hedge
      omega
    | nobody =>
      unfold Station.serveEdge
      split
      · contradiction
      · exact h.target

/-- A match leaves the timer set for one interval more, whoever serves it. -/
theorem Running.serveMatch (h : Running who limit s t) (hdue : t.wire.due ≤ stop)
    (hlimit : stop + max s.receiver.period.firstInterval (max s.wire.interval 1) ≤ limit) :
    ∃ next, t.serveMatch who = .ok next ∧ Running who limit s next := by
  obtain ⟨next, hnext, hheeds⟩ := h.heeds.serveMatch
  have hperiod := (sameSetting_serveMatch hnext).1.period
  refine ⟨next, hnext, hheeds, hperiod.trans h.period, ?_, ?_⟩
  · rintro rfl
    cases hnext
    exact h.interval rfl
  · cases who with
    | receiver =>
      have htarget := target_serveMatch hnext
      rw [h.period] at htarget
      omega
    | nobody =>
      -- nobody set the timer again: it has the interval that it began the run with
      have hinterval := h.interval rfl
      cases hnext
      have htarget : ({ t with wire := t.wire.takeMatch } : Station n).wire.target
          = t.wire.due + max t.wire.interval 1 := rfl
      rw [htarget, hinterval]
      omega

/-- **Only a word that is not wide enough can stop a run.** -/
theorem within_run_of_heeds (hs : Heeds who s) (cycles : Nat) :
    Within id (s.runExtent cycles) (fun s' => s'.wire.now = s.wire.now + cycles)
      (run who cycles s) := by
  have hself : Running who (s.runExtent cycles).lastCycle s s :=
    ⟨hs, rfl, fun _ => rfl, Nat.le_max_left _ _⟩
  have hlimit : s.wire.now + cycles + max s.receiver.period.firstInterval
      (max s.wire.interval 1) ≤ (s.runExtent cycles).lastCycle := Nat.le_max_right _ _
  have hloop : ∀ t : Station n, Running who (s.runExtent cycles).lastCycle s t →
      t.wire.timerArmed = true → t.wire.due ≤ s.wire.now + cycles →
      ∃ next, t.serveMatch who = .ok next ∧ Running who (s.runExtent cycles).lastCycle s next :=
    fun t ht _ hdue => ht.serveMatch hdue hlimit
  refine (within_run_timed (hself.serveEdge (by omega)) hloop (fun t ht => ht.target) (by omega)
    (Nat.le_refl _)).imp ?_
  rintro s' ⟨t, ht, rfl⟩
  rfl

/-- **Runs one after the other are one run,** however many they are, if each run from the start of
the first stays in its bounds.  By induction on the runs, with those that are over put together
into one. -/
theorem within_runs {x : Extent} (hs : Heeds who s) (runs : List Nat) : ∀ {a : Nat},
    (∀ cycles ≤ a + runs.sum, Within id x (fun _ => True) (run who cycles s)) →
    Within id x (fun s' => run who (a + runs.sum) s = .ok () s')
      ((run who a >>= fun _ => runs.forM (run who)) s) := by
  induction runs with
  | nil =>
    intro a hone
    have hfirst : Within id x (fun s' => True ∧ run who a s = .ok () s') (run who a s) :=
      (hone a (Nat.le_refl a)).and_of_ok fun _ _ hok => hok
    exact hfirst.bind fun _ _ hboth => hboth.2
  | cons b rest ih =>
    intro a hone
    rw [List.sum_cons, ← Nat.add_assoc] at hone ⊢
    rw [List.forM_eq_forM, List.forM_cons]
    rcases Nat.lt_or_ge (s.wire.now + (a + b)) Wire.timeLimit with hfits | hlate
    · -- the first two runs are one, and that is the first of fewer
      have hmerge : (run who a >>= fun _ => run who b >>= fun _ => rest.forM (run who)) s
          = (run who (a + b) >>= fun _ => rest.forM (run who)) s := by
        rw [← bind_assoc]
        simp only [bind, EStateM.bind] at *
        rw [← bind_run hs hfits]
        rfl
      rw [List.forM_eq_forM] at hmerge
      exact hmerge ▸ ih hone
    · -- the second run does not begin, if the first ends
      have hlimit : Wire.timeLimit ≤ x.lastCycle := by
        have hwhole := hone (a + b) (Nat.le_add_right _ _)
        rw [run_eq, if_pos hlate] at hwhole
        obtain ⟨fault, hclock, hstops⟩ := hwhole
        cases hclock
        exact hstops
      have hfirst := (hone a (by omega)).and_of_ok fun _ _ hok => (sameSetting_run hok).2
      refine hfirst.bind fun _ t hnow => ?_
      have hlate' : Wire.timeLimit ≤ t.wire.now + b := by
        rw [hnow.2]
        omega
      simp only [bind, EStateM.bind, run_eq, if_pos hlate']
      exact .of_late hlimit

/-- **Time can be sliced.**  On a wire in any state, with nobody listening or with a receiver that
stands where some life has led one, with any queue and sink and with a pin that can be read or
not: to run for `a` cycles and then for `b` is to run for `a + b`, in everything, the counts of
interrupts and the journal included.  The run comes to its end, unless a count of cycles leaves 64
bits or a count of interrupts 32. -/
theorem run_add (who : Listener) (s : Station n) (hs : who = .receiver → s.receiver.Reached)
    (a b : Nat) (hends : s.wire.now + (a + b) < Wire.timeLimit) :
    run who (a + b) s = (run who a >>= fun _ => run who b) s ∧
      Within id (s.runExtent (a + b)) (fun s' => s'.wire.now = s.wire.now + (a + b))
        (run who (a + b) s) := by
  have hheeds : Heeds who s := fun hwho => (hs hwho).occurs
  exact ⟨(bind_run hheeds hends).symm, within_run_of_heeds hheeds (a + b)⟩

/-- A receiver in a frame on a wire that it would not have left so: the interval is zero, the match
is overdue, and a latched edge waits. -/
theorem run_add_overdue :
    let w : Wire := ⟨16000000, false, 10, true, true, true, 0, 3, 0, 0⟩
    let r : Receiver := ⟨.data 0 2, ⟨2, 125, by decide⟩, .keep⟩
    let s : Station 2 := ⟨w, r, true, .empty, .discard, []⟩
    r.Reached ∧ ∃ s', run .receiver 40 s = .ok () s' ∧
      (run .receiver 0 >>= fun _ => run .receiver 40) s = .ok () s' ∧ s'.wire.now = 50 := by
  intro w r s
  have hreached : r.Reached := by
    have hrate : BitPeriod.ofRate 16000000 8000000 65535 = .ok ⟨2, 125, by decide⟩ := by decide
    exact ⟨2, _, ⟨Wire.fresh 16000000, 16000000, 8000000, 65535, _, .keep, .empty, .discard,
      [.drive false, .edge, .sample, .sample], rfl, Nat.le_refl _, hrate, rfl⟩, rfl⟩
  obtain ⟨hsliced, hends⟩ := run_add .receiver s (fun _ => hreached) 0 40 (by decide)
  obtain ⟨⟨⟩, s', hok, hnow⟩ := hends.exists_ok ⟨by decide, by decide⟩
  exact ⟨hreached, s', hok, hsliced ▸ hok, hnow⟩

end Station

end SerialLink
