/-
# How a run goes

`Station.run`, the program's `Line::run`, is a loop, and this module opens it once for
everything that is proved about runs.

* `Within` is what to say of an operation that nothing but the size of a word can stop: it ends
  in a station with some property, or a count of cycles has left 64 bits, or a count of
  interrupts 32.  Each of the two takes a count beyond a limit that is named (`Extent`).
  `Within.bind` chains such operations.
* `Serves` is the loop as a derivation: the stations it passes through, one for each match.  The
  derivation counts as words do, and does not stop at a full count.
* `within_serveMatches` is the rule for an invariant of the loop.
* With nobody listening the loop is not gone through, but skipped in one step.  `passMatches_eq`
  says that this is the same.

The rest is what no interrupt changes, whoever serves it: the level, the clock's rate, the pin,
and what the receiver was built with (`SameSetting`); and how far ahead an interrupt can set the
timer.
-/
import SerialLink.Reception.Run

namespace SerialLink

/-! ## 1. Counting interrupts -/

namespace Wire

variable {w : Wire} {stop : Nat}

/-- One of the two counts stands at the last number that it can tell. -/
def Full (w : Wire) : Prop := countLimit ≤ w.edgeCount + 1 ∨ countLimit ≤ w.matchCount + 1

/-- The larger of the two counts. -/
def interrupts (w : Wire) : Nat := max w.edgeCount w.matchCount

/-- The next number, if there is one. -/
theorem toNat_add_one {count : UInt32} (h : count.toNat + 1 < countLimit) :
    (count + 1).toNat = count.toNat + 1 := by
  rw [UInt32.toNat_add]
  exact Nat.mod_eq_of_lt h

/-- An edge that is due is counted, and no other. -/
theorem edgeCount_takeEdge (h : w.edgeDue = true → w.edgeCount + 1 < countLimit) :
    w.takeEdge.edgeCount = w.edgeCount + w.edgeDue.toNat := by
  rw [edgeCount, takeEdge]
  cases hdue : w.edgeDue with
  | true => exact toNat_add_one (h hdue)
  | false => rfl

theorem matchCount_takeMatch (h : w.matchCount + 1 < countLimit) :
    w.takeMatch.matchCount = w.matchCount + 1 := toNat_add_one h

end Wire

/-! ## 2. Operations that only a full word can stop -/

/-- How far an operation goes at the most. -/
structure Extent where
  /-- No count of cycles is past this. -/
  lastCycle : Nat
  /-- No count of interrupts is past this. -/
  interrupts : Nat

namespace Extent

/-- The words are wide enough. -/
structure Fits (x : Extent) : Prop where
  cycles : x.lastCycle < Wire.timeLimit
  counts : x.interrupts < Wire.countLimit

/-- One extent is no larger than the other. -/
structure Le (x y : Extent) : Prop where
  cycles : x.lastCycle ≤ y.lastCycle
  counts : x.interrupts ≤ y.interrupts

theorem Le.refl (x : Extent) : x.Le x := ⟨Nat.le_refl _, Nat.le_refl _⟩

/-- What stopped an operation of this extent in this station. -/
def Stops {n : Nat} (x : Extent) (s : Station n) : Fault → Prop
  | .clock => Wire.timeLimit ≤ x.lastCycle
  | .count => s.wire.Full ∧ Wire.countLimit ≤ x.interrupts
  | _ => False

variable {n : Nat} {x y : Extent} {s : Station n} {fault : Fault}

theorem Stops.mono (h : x.Stops s fault) (hle : x.Le y) : y.Stops s fault := by
  cases fault with
  | clock => exact Nat.le_trans h hle.cycles
  | count => exact ⟨h.1, Nat.le_trans h.2 hle.counts⟩
  | _ => exact h

theorem Fits.mono (h : y.Fits) (hle : x.Le y) : x.Fits :=
  ⟨Nat.lt_of_le_of_lt hle.cycles h.cycles, Nat.lt_of_le_of_lt hle.counts h.counts⟩

/-- Words that are wide enough stop nothing. -/
theorem Fits.not_stops (h : x.Fits) : ¬ x.Stops s fault := by
  intro hstops
  cases fault with
  | clock => exact absurd hstops (Nat.not_le.mpr h.cycles)
  | count => exact absurd hstops.2 (Nat.not_le.mpr h.counts)
  | _ => exact hstops

end Extent

/-- The operation ended in a station that has `P`.  The one way for it not to is a word that is not
wide enough: a count of cycles past the limit of the clock, and then the extent is past it too; or
a count of interrupts at its last number, and then the extent is past that.  `wrap` is the name of
the fault among the errors of the operation. -/
def Within {ε α : Type} {n : Nat} (wrap : Fault → ε) (x : Extent) (P : Station n → Prop) :
    EStateM.Result ε (Station n) α → Prop
  | .ok _ s => P s
  | .error e s => ∃ fault, e = wrap fault ∧ x.Stops s fault

namespace Within

variable {ε ε' α β : Type} {n : Nat} {wrap : Fault → ε} {x y : Extent} {P Q : Station n → Prop}

theorem mono {r : EStateM.Result ε (Station n) α} (h : Within wrap x P r) (hle : x.Le y)
    (hPQ : ∀ s, P s → Q s) : Within wrap y Q r := by
  cases r with
  | ok a s => exact hPQ s h
  | error e s =>
    obtain ⟨fault, he, hstops⟩ := h
    exact ⟨fault, he, hstops.mono hle⟩

/-- What follows from the property holds as well. -/
theorem imp {r : EStateM.Result ε (Station n) α} (h : Within wrap x P r) (hPQ : ∀ s, P s → Q s) :
    Within wrap x Q r :=
  h.mono (.refl x) hPQ

/-- One operation and then another. -/
theorem bind {act : EStateM ε (Station n) α} {f : α → EStateM ε (Station n) β} {s : Station n}
    (hact : Within wrap x P (act s)) (hf : ∀ a s', P s' → Within wrap x Q (f a s')) :
    Within wrap x Q ((act >>= f) s) := by
  simp only [Bind.bind, EStateM.bind]
  cases hr : act s with
  | ok a s' =>
    rw [hr] at hact
    exact hf a s' hact
  | error e s' =>
    rw [hr] at hact
    exact hact

/-- An operation that names its errors otherwise. -/
theorem adaptExcept {act : EStateM ε (Station n) α} {s : Station n} (h : Within wrap x P (act s))
    (f : ε → ε') : Within (f ∘ wrap) x P (act.adaptExcept f s) := by
  unfold EStateM.adaptExcept
  cases hr : act s with
  | ok a s' =>
    rw [hr] at h
    exact h
  | error e s' =>
    rw [hr] at h
    obtain ⟨fault, he, hstops⟩ := h
    exact ⟨fault, congrArg f he, hstops⟩

/-- With words that are wide enough the operation ends. -/
theorem exists_ok {r : EStateM.Result ε (Station n) α} (h : Within wrap x P r) (hfits : x.Fits) :
    ∃ a s, r = .ok a s ∧ P s := by
  cases r with
  | ok a s => exact ⟨a, s, rfl, h⟩
  | error e s =>
    obtain ⟨fault, -, hstops⟩ := h
    exact absurd hstops hfits.not_stops

/-- What holds of every station the operation can end in holds beside `P`. -/
theorem and_of_ok {r : EStateM.Result ε (Station n) α} (h : Within wrap x P r)
    (hQ : ∀ a s, r = .ok a s → Q s) : Within wrap x (fun s => P s ∧ Q s) r := by
  cases r with
  | ok a s => exact ⟨h, hQ a s rfl⟩
  | error e s => exact h

/-- Stopped by the clock. -/
theorem of_late {s : Station n} (h : Wire.timeLimit ≤ x.lastCycle) :
    Within wrap x P (.error (wrap .clock) s : EStateM.Result ε (Station n) α) :=
  ⟨.clock, rfl, h⟩

/-- Stopped by a full count. -/
theorem of_full {s : Station n} (hfull : s.wire.Full) (h : Wire.countLimit ≤ x.interrupts) :
    Within wrap x P (.error (wrap .count) s : EStateM.Result ε (Station n) α) :=
  ⟨.count, rfl, hfull, h⟩

end Within

/-! ## 3. A change of level -/

namespace Wire

@[simp] theorem now_drive (w : Wire) (level : Bool) : (w.drive level).now = w.now := by
  unfold drive
  split <;> rfl

@[simp] theorem edgeCount_drive (w : Wire) (level : Bool) :
    (w.drive level).edgeCount = w.edgeCount := by
  unfold drive
  split <;> rfl

@[simp] theorem matchCount_drive (w : Wire) (level : Bool) :
    (w.drive level).matchCount = w.matchCount := by
  unfold drive
  split <;> rfl

@[simp] theorem clock_drive (w : Wire) (level : Bool) : (w.drive level).clock = w.clock := by
  unfold drive
  split <;> rfl

@[simp] theorem level_drive (w : Wire) (level : Bool) : (w.drive level).level = level := by
  unfold drive
  split
  · assumption
  · rfl

end Wire

namespace Station

variable {n : Nat} {who : Listener} {stop : Nat}

/-! ## 4. The loop as a derivation -/

/-- The stations that the matches up to `stop` leave behind, one for each match, and the station
in which the clock has come to `stop`. -/
inductive Serves (who : Listener) (stop : Nat) : Station n → List (Station n) → Station n → Prop
  | settle {s : Station n} (rest : ¬ (s.wire.timerArmed = true ∧ s.wire.due ≤ stop)) :
      Serves who stop s [] { s with wire := s.wire.settle stop }
  | serve {s next last : Station n} {passed : List (Station n)}
      (armed : s.wire.timerArmed = true) (due : s.wire.due ≤ stop)
      (served : s.serveMatch who = .ok next) (rest : Serves who stop next passed last) :
      Serves who stop s (next :: passed) last

theorem serveMatches_of_late {s : Station n} (late : Wire.timeLimit ≤ s.wire.target) :
    s.serveMatches who stop = .error .clock s := by
  rw [serveMatches, if_pos late]

/-- A loop that ends could tell when its timer matches. -/
theorem target_lt_of_serveMatches {s s' : Station n} (h : s.serveMatches who stop = .ok () s') :
    s.wire.target < Wire.timeLimit := by
  refine Nat.lt_of_not_le fun late => ?_
  rw [serveMatches_of_late late] at h
  cases h

theorem serveMatches_of_rest {s : Station n} (fits : s.wire.target < Wire.timeLimit)
    (rest : ¬ (s.wire.timerArmed = true ∧ s.wire.due ≤ stop)) :
    s.serveMatches who stop = .ok () { s with wire := s.wire.settle stop } := by
  rw [serveMatches, if_neg (Nat.not_le.mpr fits), dif_neg rest]

/-- A match that is due and cannot be counted. -/
theorem serveMatches_of_full {s : Station n} (fits : s.wire.target < Wire.timeLimit)
    (armed : s.wire.timerArmed = true) (due : s.wire.due ≤ stop)
    (full : Wire.countLimit ≤ s.wire.matchCount + 1) :
    s.serveMatches who stop = .error .count { s with wire := s.wire.reachMatch } := by
  rw [serveMatches, if_neg (Nat.not_le.mpr fits), dif_pos ⟨armed, due⟩, if_pos full]

theorem serveMatches_of_due {s next : Station n} (fits : s.wire.target < Wire.timeLimit)
    (armed : s.wire.timerArmed = true) (due : s.wire.due ≤ stop)
    (room : s.wire.matchCount + 1 < Wire.countLimit) (served : s.serveMatch who = .ok next) :
    s.serveMatches who stop = next.serveMatches who stop := by
  rw [serveMatches, if_neg (Nat.not_le.mpr fits), dif_pos ⟨armed, due⟩,
    if_neg (Nat.not_le.mpr room)]
  split
  · rename_i fault hfault
    rw [served] at hfault
    cases hfault
  · rename_i next' hnext
    rw [served] at hnext
    cases hnext
    rfl

theorem serveMatches_of_fault {s : Station n} {fault : Fault}
    (fits : s.wire.target < Wire.timeLimit) (armed : s.wire.timerArmed = true)
    (due : s.wire.due ≤ stop) (room : s.wire.matchCount + 1 < Wire.countLimit)
    (served : s.serveMatch who = .error fault) :
    s.serveMatches who stop = .error fault s := by
  rw [serveMatches, if_neg (Nat.not_le.mpr fits), dif_pos ⟨armed, due⟩,
    if_neg (Nat.not_le.mpr room)]
  split
  · rename_i fault' hfault
    rw [served] at hfault
    cases hfault
    rfl
  · rename_i next hnext
    rw [served] at hnext
    cases hnext

/-- A loop that ends has a derivation. -/
theorem serves_of_serveMatches {s last : Station n} :
    s.serveMatches who stop = .ok () last → ∃ passed, Serves who stop s passed last := by
  fun_induction serveMatches who stop s with
  | case1 s late => intro h; cases h
  | case2 s fits due full => intro h; cases h
  | case3 s fits due room fault served => intro h; cases h
  | case4 s fits due room next served ih =>
    intro h
    obtain ⟨passed, hrest⟩ := ih h
    exact ⟨next :: passed, .serve due.1 due.2 served hrest⟩
  | case5 s fits rest =>
    intro h
    cases h
    exact ⟨[], .settle rest⟩

/-! ## 5. What a match does to the wire -/

/-- The next match comes later, whatever the interval. -/
theorem due_lt_of_serveMatch {s next : Station n} (h : s.serveMatch who = .ok next) :
    s.wire.due < next.wire.due := by
  rw [← timerStart_serveMatch h]
  exact next.wire.timerStart_lt_due

theorem served_handleMatch {s next : Station n} (h : s.handleMatch = .ok next) :
    next.wire.edgesServed = s.wire.edgesServed ∧
      next.wire.matchesServed = s.wire.matchesServed := by
  rcases wire_handleMatch h with hwire | hwire <;> rw [hwire] <;> exact ⟨rfl, rfl⟩

/-- A match counts one, as words count. -/
theorem served_serveMatch {s next : Station n} (h : s.serveMatch who = .ok next) :
    next.wire.edgesServed = s.wire.edgesServed ∧
      next.wire.matchesServed = s.wire.matchesServed + 1 := by
  cases who with
  | receiver => exact served_handleMatch (s := { s with wire := s.wire.takeMatch }) h
  | nobody =>
    cases h
    exact ⟨rfl, rfl⟩

/-- A match that can be counted is. -/
theorem matchCount_serveMatch {s next : Station n} (h : s.serveMatch who = .ok next)
    (room : s.wire.matchCount + 1 < Wire.countLimit) :
    next.wire.matchCount = s.wire.matchCount + 1 := by
  rw [Wire.matchCount, (served_serveMatch h).2]
  exact Wire.toNat_add_one room

theorem served_handleEdge (s : Station n) :
    s.handleEdge.wire.edgesServed = s.wire.edgesServed ∧
      s.handleEdge.wire.matchesServed = s.wire.matchesServed := by
  rcases s.handleEdge_cases with hedge | hedge | hedge <;> rw [hedge] <;> exact ⟨rfl, rfl⟩

/-- An edge counts one, if it was due. -/
theorem served_serveEdge (s : Station n) :
    (s.serveEdge who).wire.edgesServed = s.wire.takeEdge.edgesServed ∧
      (s.serveEdge who).wire.matchesServed = s.wire.matchesServed := by
  unfold serveEdge
  split
  · exact served_handleEdge { s with wire := s.wire.takeEdge }
  · exact ⟨rfl, rfl⟩

theorem matchCount_serveEdge (s : Station n) :
    (s.serveEdge who).wire.matchCount = s.wire.matchCount :=
  congrArg UInt32.toNat (served_serveEdge s).2

/-- A loop that ends has counted no more matches than cycles had come. -/
theorem counts_serveMatches {s last : Station n} :
    s.serveMatches who stop = .ok () last → last.wire.edgeCount = s.wire.edgeCount ∧
      last.wire.matchCount ≤ s.wire.matchCount + (stop + 1 - s.wire.due) := by
  fun_induction serveMatches who stop s with
  | case1 s late => intro h; cases h
  | case2 s fits due full => intro h; cases h
  | case3 s fits due room fault served => intro h; cases h
  | case4 s fits due room next served ih =>
    intro h
    obtain ⟨hedges, hmatches⟩ := ih h
    -- the next match is later by one cycle at least, which pays for the one on the count
    have hlater := due_lt_of_serveMatch served
    have hmore := matchCount_serveMatch served (Nat.lt_of_not_le room)
    have hdue := due.2
    exact ⟨hedges.trans (congrArg UInt32.toNat (served_serveMatch served).1), by omega⟩
  | case5 s fits rest =>
    intro h
    cases h
    exact ⟨rfl, Nat.le_add_right _ _⟩

/-! ## 6. Invariants of the loop -/

variable {P : Station n → Prop} {x : Extent}

/-- A loop with nothing left to serve. -/
theorem within_serveMatches_of_rest {s : Station n} (htarget : s.wire.target ≤ x.lastCycle)
    (rest : ¬ (s.wire.timerArmed = true ∧ s.wire.due ≤ stop))
    (hsettle : P { s with wire := s.wire.settle stop }) :
    Within id x P (s.serveMatches who stop) := by
  rcases Nat.lt_or_ge s.wire.target Wire.timeLimit with hfits | hlate
  · rw [serveMatches_of_rest hfits rest]
    exact hsettle
  · rw [serveMatches_of_late hlate]
    exact .of_late (Nat.le_trans hlate htarget)

/-- A loop with a match to serve. -/
theorem within_serveMatches_of_due {s next : Station n} (htarget : s.wire.target ≤ x.lastCycle)
    (hcount : s.wire.matchCount + 1 ≤ x.interrupts) (armed : s.wire.timerArmed = true)
    (due : s.wire.due ≤ stop) (served : s.serveMatch who = .ok next)
    (hnext : s.wire.matchCount + 1 < Wire.countLimit →
      Within id x P (next.serveMatches who stop)) :
    Within id x P (s.serveMatches who stop) := by
  rcases Nat.lt_or_ge s.wire.target Wire.timeLimit with hfits | hlate
  · rcases Nat.lt_or_ge (s.wire.matchCount + 1) Wire.countLimit with hroom | hfull
    · rw [serveMatches_of_due hfits armed due hroom served]
      exact hnext hroom
    · rw [serveMatches_of_full hfits armed due hfull]
      exact .of_full (.inr hfull) (Nat.le_trans hfull hcount)
  · rw [serveMatches_of_late hlate]
    exact .of_late (Nat.le_trans hlate htarget)

/-- **The rule for the loop.**  An invariant that every due match can be served under, and that
it keeps, holds when the loop ends, if it also bounds the target of the timer and the count of
matches. -/
theorem within_serveMatches {I : Station n → Prop}
    (hserve : ∀ s, I s → s.wire.timerArmed = true → s.wire.due ≤ stop →
      s.wire.matchCount + 1 < Wire.countLimit → ∃ next, s.serveMatch who = .ok next ∧ I next)
    (hlimit : ∀ s, I s → s.wire.target ≤ x.lastCycle)
    (hcount : ∀ s, I s → s.wire.timerArmed = true → s.wire.due ≤ stop →
      s.wire.matchCount + 1 ≤ x.interrupts) {s : Station n} (hs : I s) :
    Within id x
      (fun last => ∃ t, I t ∧ ¬ (t.wire.timerArmed = true ∧ t.wire.due ≤ stop) ∧
        last = { t with wire := t.wire.settle stop })
      (s.serveMatches who stop) := by
  fun_induction serveMatches who stop s with
  | case1 s late => exact .of_late (Nat.le_trans late (hlimit s hs))
  | case2 s fits due full =>
    exact .of_full (.inr full) (Nat.le_trans full (hcount s hs due.1 due.2))
  | case3 s fits due room fault served =>
    -- the invariant rules the fault of a receiver out
    obtain ⟨next, hnext, -⟩ := hserve s hs due.1 due.2 (Nat.lt_of_not_le room)
    rw [served] at hnext
    cases hnext
  | case4 s fits due room next served ih =>
    obtain ⟨next', hnext, hkeep⟩ := hserve s hs due.1 due.2 (Nat.lt_of_not_le room)
    rw [served] at hnext
    cases hnext
    exact ih hkeep
  | case5 s fits rest => exact ⟨s, hs, rest, rfl⟩

/-- The same with the count of matches bounded by the time that is left: no two of them come in one
cycle. -/
theorem within_serveMatches_timed {I : Station n → Prop}
    (hserve : ∀ s, I s → s.wire.timerArmed = true → s.wire.due ≤ stop →
      ∃ next, s.serveMatch who = .ok next ∧ I next)
    (hlimit : ∀ s, I s → s.wire.target ≤ x.lastCycle) {s : Station n} (hs : I s)
    (hcount : s.wire.matchCount + (stop + 1 - s.wire.due) ≤ x.interrupts) :
    Within id x
      (fun last => ∃ t, I t ∧ ¬ (t.wire.timerArmed = true ∧ t.wire.due ≤ stop) ∧
        last = { t with wire := t.wire.settle stop })
      (s.serveMatches who stop) := by
  -- each match takes one from the time that is left, and puts one on the count
  have hserve' : ∀ t : Station n,
      I t ∧ t.wire.matchCount + (stop + 1 - t.wire.due) ≤ x.interrupts →
      t.wire.timerArmed = true → t.wire.due ≤ stop → t.wire.matchCount + 1 < Wire.countLimit →
      ∃ next, t.serveMatch who = .ok next ∧
        I next ∧ next.wire.matchCount + (stop + 1 - next.wire.due) ≤ x.interrupts := by
    rintro t ⟨ht, hleft⟩ harmed hdue hroom
    obtain ⟨next, hnext, hkeep⟩ := hserve t ht harmed hdue
    have hlater := due_lt_of_serveMatch hnext
    have hmore := matchCount_serveMatch hnext hroom
    exact ⟨next, hnext, hkeep, by omega⟩
  refine (within_serveMatches hserve' (fun t ht => hlimit t ht.1) ?_ ⟨hs, hcount⟩).imp ?_
  · rintro t ⟨-, hleft⟩ - hdue
    omega
  · rintro last ⟨t, ⟨ht, -⟩, hrest, hlast⟩
    exact ⟨t, ht, hrest, hlast⟩

/-! ## 7. What no interrupt changes -/

/-- The two stations have the same level on wires of the same rate, the same pin, and receivers
that were built alike. -/
structure SameSetting (s s' : Station n) : Prop where
  clock : s'.wire.clock = s.wire.clock
  level : s'.wire.level = s.wire.level
  readable : s'.readable = s.readable
  period : s'.receiver.period = s.receiver.period
  policy : s'.receiver.policy = s.receiver.policy

theorem SameSetting.refl (s : Station n) : SameSetting s s := ⟨rfl, rfl, rfl, rfl, rfl⟩

theorem SameSetting.trans {s t u : Station n} (h : SameSetting s t) (h' : SameSetting t u) :
    SameSetting s u :=
  ⟨h'.clock.trans h.clock, h'.level.trans h.level, h'.readable.trans h.readable,
    h'.period.trans h.period, h'.policy.trans h.policy⟩

@[simp] theorem receiver_enqueue (s : Station n) (byte : UInt8) :
    (s.enqueue byte).2.receiver = s.receiver := by
  unfold enqueue; split <;> rfl

@[simp] theorem receiver_closeFrame (s : Station n) (byte : UInt8) (stopBit : Bool) :
    (s.closeFrame byte stopBit).receiver = s.receiver := by
  cases h : s.wants stopBit <;> cases stopBit <;> simp [closeFrame, h, report, countStop]

@[simp] theorem readable_enqueue (s : Station n) (byte : UInt8) :
    (s.enqueue byte).2.readable = s.readable := by
  unfold enqueue; split <;> rfl

@[simp] theorem readable_closeFrame (s : Station n) (byte : UInt8) (stopBit : Bool) :
    (s.closeFrame byte stopBit).readable = s.readable := by
  cases h : s.wants stopBit <;> cases stopBit <;> simp [closeFrame, h, report, countStop]

theorem sameSetting_handleEdge (s : Station n) : SameSetting s s.handleEdge := by
  rcases s.handleEdge_cases with hedge | hedge | hedge <;> rw [hedge]
  · exact .refl s
  · exact ⟨rfl, rfl, rfl, rfl, rfl⟩
  · exact ⟨rfl, rfl, rfl, rfl, rfl⟩

@[simp] theorem now_handleEdge (s : Station n) : s.handleEdge.wire.now = s.wire.now := by
  rcases s.handleEdge_cases with hedge | hedge | hedge <;> rw [hedge] <;> rfl

theorem now_serveEdge (s : Station n) : (s.serveEdge who).wire.now = s.wire.now := by
  unfold serveEdge
  split
  · exact now_handleEdge _
  · rfl

/-- No match is due before the present, an edge or not. -/
theorem now_le_due_serveEdge (s : Station n) : s.wire.now ≤ (s.serveEdge who).wire.due :=
  Nat.le_trans (Nat.le_of_eq (now_serveEdge s).symm) (Nat.le_max_right _ _)

/-- The timer is set for one bit by every match. -/
theorem interval_handleMatch {s s' : Station n} (h : s.handleMatch = .ok s') :
    s'.wire.interval = s.receiver.period.ticks := by
  rcases wire_handleMatch h with hwire | hwire <;> rw [hwire] <;> rfl

/-- The clock stands still while a match is served. -/
theorem sameSetting_handleMatch {s s' : Station n} (h : s.handleMatch = .ok s') :
    SameSetting s s' ∧ s'.wire.now = s.wire.now := by
  cases afterMatch_of_handleMatch h with
  | unreadable hread => exact ⟨⟨rfl, rfl, rfl, rfl, rfl⟩, rfl⟩
  | going hread hsample => exact ⟨⟨rfl, rfl, rfl, rfl, rfl⟩, rfl⟩
  | frame hread hsample =>
    refine ⟨⟨?_, ?_, ?_, ?_, ?_⟩, ?_⟩ <;>
      simp [awaitEdge, awaitNextBit, Wire.disarmTimer, Wire.armEdge, Wire.setInterval]
  | spurious hread hsample => exact ⟨⟨rfl, rfl, rfl, rfl, rfl⟩, rfl⟩

theorem sameSetting_serveMatch {s s' : Station n} (h : s.serveMatch who = .ok s') :
    SameSetting s s' ∧ s'.wire.now = s.wire.due := by
  cases who with
  | receiver =>
    obtain ⟨hsame, hnow⟩ := sameSetting_handleMatch h
    exact ⟨⟨hsame.clock, hsame.level, hsame.readable, hsame.period, hsame.policy⟩, hnow⟩
  | nobody =>
    cases h
    exact ⟨⟨rfl, rfl, rfl, rfl, rfl⟩, rfl⟩

theorem sameSetting_serveEdge (s : Station n) : SameSetting s (s.serveEdge who) := by
  unfold serveEdge
  split
  · obtain ⟨hclock, hlevel, hreadable, hperiod, hpolicy⟩ :=
      sameSetting_handleEdge { s with wire := s.wire.takeEdge }
    exact ⟨hclock, hlevel, hreadable, hperiod, hpolicy⟩
  · exact ⟨rfl, rfl, rfl, rfl, rfl⟩

theorem sameSetting_serves {s last : Station n} {passed : List (Station n)}
    (h : Serves who stop s passed last) : SameSetting s last ∧ last.wire.now = stop := by
  induction h with
  | settle rest => exact ⟨⟨rfl, rfl, rfl, rfl, rfl⟩, rfl⟩
  | serve armed due served rest ih =>
    exact ⟨(sameSetting_serveMatch served).1.trans ih.1, ih.2⟩

/-! ## 8. How far ahead the timer points -/

/-- An edge may start the timer, one first interval ahead. -/
theorem target_handleEdge (s : Station n) :
    s.handleEdge.wire.target
      ≤ max s.wire.target (s.wire.now + s.receiver.period.firstInterval) := by
  have hfirst := s.receiver.period.firstInterval_pos
  rcases s.handleEdge_cases with hedge | hedge | hedge <;> rw [hedge]
  · exact Nat.le_max_left _ _
  · exact Nat.le_max_left _ _
  · have hstart : s.beginFrame.wire.target
        = s.wire.now + max s.receiver.period.firstInterval 1 := rfl
    rw [hstart, Nat.max_eq_left hfirst]
    exact Nat.le_max_right _ _

theorem target_serveEdge (s : Station n) :
    (s.serveEdge .receiver).wire.target
      ≤ max s.wire.target (s.wire.now + s.receiver.period.firstInterval) := by
  unfold serveEdge
  split
  · exact target_handleEdge { s with wire := s.wire.takeEdge }
  · exact Nat.le_max_left _ _

/-- A match restarts the timer for one bit. -/
theorem target_serveMatch {s s' : Station n} (h : s.serveMatch .receiver = .ok s') :
    s'.wire.target ≤ s.wire.due + s.receiver.period.firstInterval := by
  have htwo := s.receiver.period.two_le_ticks
  have hinterval : s'.wire.interval = s.receiver.period.ticks :=
    interval_handleMatch (s := { s with wire := s.wire.takeMatch }) h
  rw [Wire.target, timerStart_serveMatch h, hinterval, BitPeriod.firstInterval]
  omega

theorem target_serves {s s' : Station n} {passed : List (Station n)}
    (h : Serves .receiver stop s passed s') :
    s'.wire.target ≤ max s.wire.target (stop + s.receiver.period.firstInterval) := by
  induction h with
  | settle rest => exact Nat.le_max_left _ _
  | serve armed due served rest ih =>
    have hnext := target_serveMatch served
    rw [(sameSetting_serveMatch served).1.period] at ih
    omega

/-! ## 9. Matches that nobody serves -/

end Station

namespace Wire

variable {w : Wire} {stop : Nat}

theorem due_takeMatch (w : Wire) : w.takeMatch.due = w.due + max w.interval 1 :=
  Nat.max_eq_left (Nat.le_add_right _ _)

theorem matchesBy_of_rest (rest : ¬ (w.timerArmed = true ∧ w.due ≤ stop)) :
    w.matchesBy stop = 0 :=
  if_neg rest

/-- A match that is due is the first of those that come. -/
theorem matchesBy_of_due (armed : w.timerArmed = true) (due : w.due ≤ stop) :
    w.matchesBy stop = w.takeMatch.matchesBy stop + 1 := by
  have hpos : 0 < max w.interval 1 := Nat.lt_of_lt_of_le Nat.zero_lt_one (Nat.le_max_right _ _)
  have hinterval : w.takeMatch.interval = w.interval := rfl
  rw [matchesBy, if_pos ⟨armed, due⟩]
  congr 1
  rcases Nat.lt_or_ge stop (w.due + max w.interval 1) with hlast | hmore
  · rw [matchesBy_of_rest]
    · exact Nat.div_eq_of_lt (by omega)
    · rintro ⟨-, hdue⟩
      rw [due_takeMatch] at hdue
      omega
  · have hdue : w.takeMatch.timerArmed = true ∧ w.takeMatch.due ≤ stop :=
      ⟨armed, (due_takeMatch w).symm ▸ hmore⟩
    rw [matchesBy, if_pos hdue, hinterval, due_takeMatch, Nat.sub_add_eq,
      ← Nat.div_eq_sub_div hpos (by omega)]

/-- To serve some matches and one is to serve one and then the others. -/
theorem takeMatches_succ (w : Wire) (count : Nat) :
    w.takeMatches (count + 1) = w.takeMatch.takeMatches count := by
  have hinterval : w.takeMatch.interval = w.interval := rfl
  cases count with
  | zero => simp [takeMatches, takeMatch, reachMatch]
  | succ count =>
    -- the last match comes at the same cycle either way, and the counts add up
    have hlast : w.due + (count + 1) * max w.interval 1
        = w.takeMatch.due + count * max w.takeMatch.interval 1 := by
      rw [due_takeMatch, hinterval, Nat.succ_mul]
      omega
    have hserved : w.matchesServed + UInt32.ofNat (count + 1 + 1)
        = w.matchesServed + 1 + UInt32.ofNat (count + 1) := by
      rw [UInt32.ofNat_add (count + 1) 1, UInt32.add_assoc, UInt32.add_comm 1]
      rfl
    simp only [takeMatches, hlast, hserved]
    rfl

end Wire

namespace Station

variable {n : Nat} {who : Listener} {stop : Nat}

/-- **To skip the matches is to go through them all,** when nobody serves them. -/
theorem passMatches_eq (hstop : stop < Wire.timeLimit) (s : Station n) :
    s.passMatches stop = s.serveMatches .nobody stop := by
  fun_induction serveMatches .nobody stop s with
  | case1 s late =>
    -- a target past the last cycle is not due by the stop, so there is nothing to skip
    have hrest : ¬ (s.wire.timerArmed = true ∧ s.wire.due ≤ stop) := by
      rintro ⟨-, hdue⟩
      have htarget : s.wire.target ≤ s.wire.due := Nat.le_max_left _ _
      omega
    simp only [passMatches, Wire.matchesBy_of_rest hrest, Nat.zero_min, Nat.not_lt_zero, if_false]
    exact if_pos late
  | case2 s fits due full =>
    -- the count is full: the first match that is due cannot be taken
    have hnone : Wire.countLimit - 1 - s.wire.matchCount = 0 := by omega
    simp only [passMatches, Wire.matchesBy_of_due due.1 due.2, hnone, Nat.min_zero,
      Nat.zero_lt_succ, if_true]
    rfl
  | case3 s fits due room fault served => cases served
  | case4 s fits due room next served ih =>
    cases served
    -- one match less is to come, and there is room for one less
    have hmore : s.wire.takeMatch.matchCount = s.wire.matchCount + 1 :=
      Wire.matchCount_takeMatch (Nat.lt_of_not_le room)
    have hroom : Wire.countLimit - 1 - s.wire.matchCount
        = Wire.countLimit - 1 - s.wire.takeMatch.matchCount + 1 := by
      rw [hmore]
      omega
    rw [← ih]
    simp only [passMatches, Wire.matchesBy_of_due due.1 due.2, hroom, Nat.add_min_add_right,
      Wire.takeMatches_succ, Nat.add_lt_add_iff_right]
  | case5 s fits rest =>
    simp only [passMatches, Wire.matchesBy_of_rest rest, Nat.zero_min, Nat.not_lt_zero, if_false]
    exact if_neg fits

/-! ## 10. A run -/

/-- A run is the edge, if one is due, and then the matches, whoever listens. -/
theorem run_eq (who : Listener) (cycles : Nat) (s : Station n) :
    run who cycles s
      = if Wire.timeLimit ≤ s.wire.now + cycles then .error .clock s
        else if s.wire.edgeDue ∧ Wire.countLimit ≤ s.wire.edgeCount + 1 then
          .error .count { s with wire := s.wire.unlatch }
        else (s.serveEdge who).serveMatches who (s.wire.now + cycles) := by
  simp only [run]
  split
  · rfl
  · rename_i hfits
    cases who with
    | receiver => rfl
    | nobody => rw [passMatches_eq (Nat.lt_of_not_le hfits)]

variable {α : Type} {P : Station n → Prop} {x : Extent} {s : Station n} {cycles : Nat}

/-- A run that nothing stops before its matches, whatever comes after it. -/
theorem bind_run_of_fits {f : Unit → EStateM Fault (Station n) α}
    (hfits : s.wire.now + cycles < Wire.timeLimit)
    (hroom : s.wire.edgeDue = true → s.wire.edgeCount + 1 < Wire.countLimit) :
    (run who cycles >>= f) s
      = EStateM.bind (serveMatches who (s.wire.now + cycles)) f (s.serveEdge who) := by
  have hroom' : ¬ (s.wire.edgeDue = true ∧ Wire.countLimit ≤ s.wire.edgeCount + 1) :=
    fun hfull => Nat.not_le.mpr (hroom hfull.1) hfull.2
  simp only [Bind.bind, EStateM.bind, run_eq, if_neg (Nat.not_le.mpr hfits), if_neg hroom']

/-- A run is as good as its matches and what comes after them. -/
theorem within_bind_run {f : Unit → EStateM Fault (Station n) α}
    (hstop : s.wire.now + cycles ≤ x.lastCycle)
    (hcount : s.wire.edgeDue = true → s.wire.edgeCount + 1 ≤ x.interrupts)
    (hloop : s.wire.now + cycles < Wire.timeLimit →
      (s.wire.edgeDue = true → s.wire.edgeCount + 1 < Wire.countLimit) →
      Within id x P
        (EStateM.bind (serveMatches who (s.wire.now + cycles)) f (s.serveEdge who))) :
    Within id x P ((run who cycles >>= f) s) := by
  rcases Nat.lt_or_ge (s.wire.now + cycles) Wire.timeLimit with hfits | hlate
  · by_cases hfull : s.wire.edgeDue = true ∧ Wire.countLimit ≤ s.wire.edgeCount + 1
    · simp only [Bind.bind, EStateM.bind, run_eq, if_neg (Nat.not_le.mpr hfits), if_pos hfull]
      exact .of_full (.inl hfull.2) (Nat.le_trans hfull.2 (hcount hfull.1))
    · have hroom : s.wire.edgeDue = true → s.wire.edgeCount + 1 < Wire.countLimit :=
        fun hdue => Nat.lt_of_not_le fun hlast => hfull ⟨hdue, hlast⟩
      rw [bind_run_of_fits hfits hroom]
      exact hloop hfits hroom
  · simp only [Bind.bind, EStateM.bind, run_eq, if_pos hlate]
    exact .of_late (Nat.le_trans hlate hstop)

/-- A run is as good as its matches. -/
theorem within_run (hstop : s.wire.now + cycles ≤ x.lastCycle)
    (hcount : s.wire.edgeDue = true → s.wire.edgeCount + 1 ≤ x.interrupts)
    (hloop : (s.wire.edgeDue = true → s.wire.edgeCount + 1 < Wire.countLimit) →
      Within id x P ((s.serveEdge who).serveMatches who (s.wire.now + cycles))) :
    Within id x P (run who cycles s) := by
  have hpure (t : Station n) : EStateM.bind (serveMatches who (s.wire.now + cycles)) pure t
      = t.serveMatches who (s.wire.now + cycles) := by
    unfold EStateM.bind
    cases t.serveMatches who (s.wire.now + cycles) <;> rfl
  have hrun : Within id x P ((run who cycles >>= pure) s) := by
    refine within_bind_run hstop hcount fun _ hroom => ?_
    rw [hpure]
    exact hloop hroom
  rwa [bind_pure] at hrun

/-- **The rule for a run.**  An invariant that holds behind the edge, and that every due match can be
served under and keeps, holds when the run ends, if it also bounds the target of the timer.  The
counts need no invariant, as no more can fire than there are cycles. -/
theorem within_run_timed {I : Station n → Prop} (hedge : I (s.serveEdge who))
    (hserve : ∀ t, I t → t.wire.timerArmed = true → t.wire.due ≤ s.wire.now + cycles →
      ∃ next, t.serveMatch who = .ok next ∧ I next)
    (hlimit : ∀ t, I t → t.wire.target ≤ x.lastCycle)
    (hstop : s.wire.now + cycles ≤ x.lastCycle)
    (hcount : s.wire.interrupts + (cycles + 1) ≤ x.interrupts) :
    Within id x
      (fun last => ∃ t, I t ∧ last = { t with wire := t.wire.settle (s.wire.now + cycles) })
      (run who cycles s) := by
  rw [Wire.interrupts] at hcount
  refine within_run hstop (fun _ => by omega) fun _ => ?_
  -- the edge is no match, and the timer was last started by now: all matches are still to come
  have hmatch : (s.serveEdge who).wire.matchCount = s.wire.matchCount := matchCount_serveEdge s
  have hdue : s.wire.now ≤ (s.serveEdge who).wire.due := now_le_due_serveEdge s
  refine (within_serveMatches_timed hserve hlimit hedge (by omega)).imp ?_
  rintro last ⟨t, ht, -, hlast⟩
  exact ⟨t, ht, hlast⟩

/-- A run that ends could count its edge, and its loop ends. -/
theorem serveMatches_of_run {s' : Station n} (h : run who cycles s = .ok () s') :
    (s.wire.edgeDue = true → s.wire.edgeCount + 1 < Wire.countLimit) ∧
      (s.serveEdge who).serveMatches who (s.wire.now + cycles) = .ok () s' := by
  rw [run_eq] at h
  split at h
  · cases h
  · split at h
    · cases h
    · rename_i hroom
      exact ⟨fun hdue => Nat.lt_of_not_le fun hfull => hroom ⟨hdue, hfull⟩, h⟩

/-- **A run takes exactly its cycles** and changes nothing but what interrupts change. -/
theorem sameSetting_run {s' : Station n} (h : run who cycles s = .ok () s') :
    SameSetting s s' ∧ s'.wire.now = s.wire.now + cycles := by
  obtain ⟨passed, hserves⟩ := serves_of_serveMatches (serveMatches_of_run h).2
  obtain ⟨hsame, hnow⟩ := sameSetting_serves hserves
  exact ⟨(sameSetting_serveEdge s).trans hsame, hnow⟩

/-- A run that ends has counted one edge at the most, and no two matches in one cycle. -/
theorem interrupts_run {s' : Station n} (h : run who cycles s = .ok () s') :
    s'.wire.interrupts ≤ s.wire.interrupts + (cycles + 1) := by
  obtain ⟨hroom, hloop⟩ := serveMatches_of_run h
  obtain ⟨hedges, hmatches⟩ := counts_serveMatches hloop
  have hedge : (s.serveEdge who).wire.edgeCount = s.wire.edgeCount + s.wire.edgeDue.toNat :=
    (congrArg UInt32.toNat (served_serveEdge s).1).trans (Wire.edgeCount_takeEdge hroom)
  have hmatch : (s.serveEdge who).wire.matchCount = s.wire.matchCount := matchCount_serveEdge s
  have hdue : s.wire.now ≤ (s.serveEdge who).wire.due := now_le_due_serveEdge s
  have hone := Bool.toNat_le s.wire.edgeDue
  simp only [Wire.interrupts]
  omega

/-! ## 11. A count that runs full -/

end Station

/-- A new wire, but that its timer was armed and left alone for so many cycles. -/
def Wire.neglected (clock : UInt32) (cycles : Nat) : Wire :=
  { (Wire.fresh clock).armTimer with
    now := cycles
    timerStart := cycles
    matchesServed := .ofNat cycles }

namespace Station

/-- **A timer that was never set matches once a cycle,** and that is how the count of matches runs
full in the shortest time. -/
theorem run_neglected {clock : UInt32} (hnew : s.wire = (Wire.fresh clock).armTimer)
    (hfits : cycles < Wire.countLimit) :
    run .nobody cycles s = .ok () { s with wire := .neglected clock cycles } := by
  have hlast : cycles + 1 < Wire.timeLimit := by
    simp only [Wire.timeLimit, Wire.countLimit, UInt64.size, UInt32.size] at *
    omega
  have hstop : s.wire.now + cycles = cycles := by
    rw [hnew]
    exact Nat.zero_add cycles
  have hquiet : s.wire.edgeDue = false := by
    rw [hnew]
    rfl
  have htaken : s.wire.takeEdge = s.wire := by
    rw [hnew]
    rfl
  -- an interval of zero counts as one cycle, so every cycle has its match
  have hcount : s.wire.matchesBy cycles = cycles := by
    rw [hnew]
    cases cycles with
    | zero => rfl
    | succ cycles => simp [Wire.matchesBy, Wire.fresh, Wire.armTimer, Wire.due, Wire.target]
  have hwire : s.wire.takeMatches cycles = .neglected clock cycles := by
    rw [hnew]
    cases cycles with
    | zero => rfl
    | succ cycles =>
      simp [Wire.takeMatches, Wire.neglected, Wire.fresh, Wire.armTimer, Wire.due, Wire.target,
        Nat.add_comm]
  have hroom : Wire.countLimit - 1 - s.wire.matchCount = Wire.countLimit - 1 := by
    rw [hnew]
    rfl
  have hmin : min cycles (Wire.countLimit - 1) = cycles := Nat.min_eq_left (by omega)
  have hall : ¬ Wire.countLimit - 1 < cycles := by omega
  have hpass : s.passMatches cycles = .ok () { s with wire := .neglected clock cycles } := by
    simp only [passMatches, hcount, hroom, hmin, hwire, if_neg hall]
    exact if_neg (Nat.not_le.mpr hlast)
  simp only [run, hstop, hquiet, serveEdge, htaken]
  rw [if_neg (by omega), if_neg (by simp)]
  exact hpass

end Station

end SerialLink
