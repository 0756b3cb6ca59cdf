/-
# The life of a receiver

A receiver is built on a new wire, and from then on anything may happen to it, in any order
(`Event`): levels come and go, time passes, `on_edge` and `on_compare` are called with or without
an interrupt, its pin cannot be read for a while, bytes are taken from its queue, and it is taken
apart by `release` and built again at another rate.

`Sound` is what holds at every moment of such a life, and the module proves it event by event.
The phase, the detector and the timer have to be looked at together: each handler moves all
three, on every path through it, and a path that forgot one would leave the receiver deaf.

* Exactly one of the detector and the timer is armed, and the phase says which.
* A phase inside a frame is one that can be sampled (`Phase.Fits`), so no handler is ever at
  fault, and a life can only be ended by the clock or by a count of interrupts, which have words
  of their own (`Sound.live`).
* The timer holds what a receiver of this life has programmed, and that is always an interval
  that its own timer could count to (`Programmed`).
-/
import SerialLink.Proofs.Serving
import SerialLink.Proofs.Sampling
import SerialLink.Proofs.Rates

namespace SerialLink

/-! ## 1. Events -/

/-- One thing that can happen to a receiver. -/
inductive Event where
  /-- The wire takes a level. -/
  | drive (level : Bool)
  /-- Cycles pass, and the receiver serves the interrupts that fall due. -/
  | run (cycles : Nat)
  /-- The edge handler is called out of turn. -/
  | edge
  /-- The match handler is called out of turn. -/
  | sample
  /-- The pin cannot be read any more, or can be read again. -/
  | pin (readable : Bool)
  /-- The oldest byte is taken. -/
  | pop
  /-- The oldest bytes are taken, at most `k` of them. -/
  | popUpTo (k : Nat)
  /-- The mark of a lost byte is taken. -/
  | takeLost
  /-- The receiver is built anew from its parts.  A rate that is refused leaves it as it is. -/
  | rebuild (clock baud longest : UInt32) (policy : StopPolicy)
  deriving DecidableEq, Repr

namespace Event

variable {n : Nat}

/-- Let it happen. -/
def perform : Event → EStateM Fault (Station n) Unit
  | drive level => Station.drive level
  | run cycles => Station.run .receiver cycles
  | edge => modify Station.handleEdge
  | sample => fun s =>
    match s.handleMatch with
    | .ok next => .ok () next
    | .error fault => .error fault s
  | pin readable => modify fun s => { s with readable := readable }
  | pop => modify fun s => { s with queue := s.queue.pop.2 }
  | popUpTo k => modify fun s => { s with queue := (s.queue.popUpTo k).2 }
  | takeLost => modify fun s => { s with queue := s.queue.takeLost.2 }
  | rebuild clock baud longest policy => modify fun s =>
    match BitPeriod.ofRate clock baud longest with
    | .ok p => s.replaceReceiver p policy
    | .error _ => s

/-- How many cycles pass. -/
def cycles : Event → Nat
  | run cycles => cycles
  | _ => 0

/-- How many interrupts of one kind there can be: no two come in one cycle. -/
def interrupts : Event → Nat
  | run cycles => cycles + 1
  | _ => 0

/-- The bit that a receiver is built for, with what its timer can count to. -/
abbrev Timing := BitPeriod × UInt32

/-- The timing that comes into use, if one does. -/
def timings : Event → List Timing
  | rebuild clock baud longest _ =>
    match BitPeriod.ofRate clock baud longest with
    | .ok p => [(p, longest)]
    | .error _ => []
  | _ => []

/-- Let events happen one after the other. -/
def live (events : List Event) : EStateM Fault (Station n) Unit := events.forM perform

/-- How many cycles pass in all. -/
def span (events : List Event) : Nat := (events.map cycles).sum

/-- How far a receiver gets from the wire `w` on, at the most. -/
def extent (w : Wire) (events : List Event) : Extent where
  lastCycle := w.now + span events + 2 ^ 32
  interrupts := w.interrupts + (events.map interrupts).sum

/-- The timings in use, the latest first, after those that were. -/
def timingsAfter (before : List Timing) (events : List Event) : List Timing :=
  events.foldl (fun timings event => event.timings ++ timings) before

end Event

open Event (Timing)

namespace Event

variable {n : Nat} {s s' : Station n}

@[simp] theorem extent_nil (w : Wire) : extent w [] = ⟨w.now + 2 ^ 32, w.interrupts⟩ := rfl

theorem extent_cons (w : Wire) (event : Event) (rest : List Event) :
    extent w (event :: rest)
      = ⟨w.now + (event.cycles + span rest) + 2 ^ 32,
          w.interrupts + (event.interrupts + (rest.map interrupts).sum)⟩ := rfl

theorem live_cons (event : Event) (rest : List Event) (s : Station n) :
    live (event :: rest) s = (event.perform >>= fun _ => live rest) s := rfl

theorem live_cons_of_ok {event : Event} (h : event.perform s = .ok () s') (rest : List Event) :
    live (event :: rest) s = live rest s' := by
  rw [live_cons]
  simp only [bind, EStateM.bind, h]

/-- The first thing of a life that came to its end, and the rest of it. -/
theorem live_cons_eq_ok {event : Event} {rest : List Event}
    (h : live (event :: rest) s = .ok () s') :
    ∃ next, event.perform s = .ok () next ∧ live rest next = .ok () s' := by
  obtain ⟨⟨⟩, next, hfirst, hrest⟩ := bind_eq_ok.mp h
  exact ⟨next, hfirst, hrest⟩

/-- Time passes in runs only, and only there are interrupts counted. -/
theorem counts_perform {event : Event} (h : event.perform s = .ok () s') :
    s'.wire.now = s.wire.now + event.cycles ∧
      s'.wire.interrupts ≤ s.wire.interrupts + event.interrupts := by
  cases event with
  | run cycles =>
    have hrun : Station.run .receiver cycles s = .ok () s' := h
    exact ⟨(Station.sameSetting_run hrun).2, Station.interrupts_run hrun⟩
  | drive level =>
    cases h
    simp only [Wire.interrupts, Wire.now_drive, Wire.edgeCount_drive, Wire.matchCount_drive]
    exact ⟨rfl, Nat.le_refl _⟩
  -- a handler that is called out of turn counts nothing, as it is the wire that counts
  | edge =>
    cases h
    obtain ⟨hedges, hmatches⟩ := Station.served_handleEdge s
    simp only [Wire.interrupts, Wire.edgeCount, Wire.matchCount, hedges, hmatches]
    exact ⟨Station.now_handleEdge s, Nat.le_refl _⟩
  | sample =>
    simp only [perform] at h
    cases hmatch : s.handleMatch with
    | error fault =>
      rw [hmatch] at h
      cases h
    | ok next =>
      rw [hmatch] at h
      cases h
      obtain ⟨hedges, hmatches⟩ := Station.served_handleMatch hmatch
      simp only [Wire.interrupts, Wire.edgeCount, Wire.matchCount, hedges, hmatches]
      exact ⟨(Station.sameSetting_handleMatch hmatch).2, Nat.le_refl _⟩
  | pin readable => cases h; exact ⟨rfl, Nat.le_refl _⟩
  | pop => cases h; exact ⟨rfl, Nat.le_refl _⟩
  | popUpTo k => cases h; exact ⟨rfl, Nat.le_refl _⟩
  | takeLost => cases h; exact ⟨rfl, Nat.le_refl _⟩
  | rebuild clock baud longest policy =>
    cases h
    cases BitPeriod.ofRate clock baud longest <;> exact ⟨rfl, Nat.le_refl _⟩

/-- What is still to come goes no further than all of it. -/
theorem extent_le {event : Event} (h : event.perform s = .ok () s') (rest : List Event) :
    (extent s'.wire rest).Le (extent s.wire (event :: rest)) := by
  obtain ⟨hnow, hinterrupts⟩ := counts_perform h
  rw [extent_cons, extent]
  constructor <;> simp only <;> omega

end Event

/-! ## 2. The invariant -/

/-- A phase that can be sampled, with the interval that leads to its sample. -/
def Phase.Fits (p : BitPeriod) (interval : Nat) : Phase → Prop
  | idle => True
  | confirming => interval = p.firstInterval
  | data pending index =>
    interval = p.ticks ∧ 1 ≤ index.toNat ∧ index.toNat ≤ 7 ∧ pending.toNat < 2 ^ index.toNat
  | stopping _ => interval = p.ticks

/-- An interval that a receiver of this timing programs, and that its timer can count to. -/
structure Programmed (timing : Timing) (interval : Nat) : Prop where
  value : interval = timing.1.ticks ∨ interval = timing.1.firstInterval
  two_le : 2 ≤ interval
  le_longest : interval ≤ timing.2.toNat

/-- **What holds of a receiver and its wire at every moment,** where `timings` have been in use
so far, the latest first. -/
structure Sound (timings : List Timing) (r : Receiver) (w : Wire) : Prop where
  edgeArmed : w.edgeArmed = r.phase.isIdle
  timerArmed : w.timerArmed = !r.phase.isIdle
  latched : w.edgeLatched = true → w.edgeArmed = true
  started : w.timerStart ≤ w.now
  phase : r.phase.Fits r.period w.interval
  programmed : w.interval = 0 ∨ ∃ timing ∈ timings, Programmed timing w.interval
  current : ∃ longest, timings.head? = some (r.period, longest) ∧ r.period.Accepted longest

theorem programmed_ticks {p : BitPeriod} {longest : UInt32} (h : p.Accepted longest) :
    Programmed (p, longest) p.ticks where
  value := .inl rfl
  two_le := p.two_le_ticks
  le_longest := Nat.le_trans (Nat.le_add_right _ _) h.firstInterval_le

theorem programmed_firstInterval {p : BitPeriod} {longest : UInt32} (h : p.Accepted longest) :
    Programmed (p, longest) p.firstInterval where
  value := .inr rfl
  two_le := Nat.le_trans p.two_le_ticks (Nat.le_add_right _ _)
  le_longest := h.firstInterval_le

namespace Phase

variable {p : BitPeriod} {interval : Nat} {phase : Phase}

/-- A data bit with a place leads to a phase that can be sampled one bit later. -/
theorem sampleData_fits {pending index : UInt8} (hindex : index.toNat ≤ 7)
    (hpending : pending.toNat < 2 ^ index.toNat) (level : Bool) :
    ∃ next, sampleData pending index level = .ok (.going next) ∧ next.isIdle = false ∧
      next.Fits p p.ticks := by
  refine ⟨_, sampleData_of_lt (by omega) level, ?_, ?_⟩
  · split <;> rfl
  · split
    · rfl
    -- there is room for the next index: the one of a data bit that is not the last is below 7
    · have hnext : (index + 1).toNat = index.toNat + 1 := by
        rw [UInt8.toNat_add, UInt8.toNat_one]
        omega
      have hvalue := toNat_withBit (by omega) hpending level
      have hbit : level.toNat * 2 ^ index.toNat ≤ 2 ^ index.toNat :=
        Nat.le_trans (Nat.mul_le_mul_right _ level.toNat_le) (Nat.le_of_eq (Nat.one_mul _))
      refine ⟨rfl, by omega, by omega, ?_⟩
      -- a new bit above all the old ones, so the value stays below the next power
      rw [hvalue, hnext, Nat.pow_succ]
      omega

/-- **A phase that fits can be sampled,** and if the frame goes on, it goes on to one that fits one
bit later. -/
theorem Fits.exists_sample (h : phase.Fits p interval) (level : Bool) :
    ∃ r, phase.sample level = .ok r ∧ ∀ next, r = .going next →
      phase.isIdle = false ∧ next.isIdle = false ∧ next.Fits p p.ticks := by
  cases phase with
  | idle => exact ⟨_, rfl, fun _ hgoing => nomatch hgoing⟩
  | confirming =>
    have hfirst : ∃ next, sampleData 0 0 level = .ok (.going next) ∧ next.isIdle = false ∧
        next.Fits p p.ticks := sampleData_fits (by decide) (by decide) level
    obtain ⟨next, hdata, hbusy, hfits⟩ := hfirst
    refine ⟨_, hdata, ?_⟩
    rintro _ ⟨⟩
    exact ⟨rfl, hbusy, hfits⟩
  | data pending index =>
    obtain ⟨-, -, hindex, hpending⟩ := h
    obtain ⟨next, hdata, hbusy, hfits⟩ := sampleData_fits hindex hpending level
    refine ⟨_, hdata, ?_⟩
    rintro _ ⟨⟩
    exact ⟨rfl, hbusy, hfits⟩
  | stopping pending => exact ⟨_, rfl, fun _ hgoing => nomatch hgoing⟩

/-- Bits that make up a number below `2 ^ k`. -/
theorem exists_byte_eq {pending : UInt8} {k : Nat} (h : pending.toNat < 2 ^ k) :
    ∃ taken : List Bool, taken.length = k ∧ Frame.byte taken = pending := by
  refine ⟨(List.range k).map pending.toNat.testBit, by simp, ?_⟩
  rw [Frame.byte, Frame.value_map_testBit, Nat.mod_eq_of_lt h]
  exact UInt8.toNat_inj.mp (by simp)

/-- **A phase that fits is one that occurs.** -/
theorem Fits.occurs (h : phase.Fits p interval) : phase.Occurs := by
  cases phase with
  | idle => exact .inl rfl
  | confirming => exact .inr ⟨[], Nat.zero_le _, rfl⟩
  | data pending index =>
    obtain ⟨-, hfirst, hlast, hpending⟩ := h
    obtain ⟨taken, hlength, hbyte⟩ := exists_byte_eq hpending
    have hindex : UInt8.ofNat taken.length = index := by rw [hlength, UInt8.ofNat_toNat]
    refine .inr ⟨taken, by omega, ?_⟩
    rw [after, if_neg (by omega), if_pos (by omega), hbyte, hindex]
  | stopping pending =>
    obtain ⟨taken, hlength, hbyte⟩ := exists_byte_eq (k := 8) pending.toNat_lt
    refine .inr ⟨taken, by omega, ?_⟩
    rw [after, if_neg (by omega), if_neg (by omega), hbyte]

end Phase

/-! ## 3. One thing at a time -/

namespace Sound

variable {n : Nat} {timings : List Timing} {r : Receiver} {w : Wire} {s : Station n}

theorem programmed_current (h : Sound timings r w) {interval : Nat}
    (hvalue : interval = r.period.ticks ∨ interval = r.period.firstInterval) :
    ∃ timing ∈ timings, Programmed timing interval := by
  obtain ⟨longest, hhead, haccepted⟩ := h.current
  refine ⟨(r.period, longest), List.mem_of_head? hhead, ?_⟩
  rcases hvalue with rfl | rfl
  · exact programmed_ticks haccepted
  · exact programmed_firstInterval haccepted

/-- The timer holds less than its word can. -/
theorem interval_lt (h : Sound timings r w) : w.interval < 2 ^ 32 := by
  rcases h.programmed with hzero | ⟨timing, -, hprogrammed⟩
  · omega
  · exact Nat.lt_of_le_of_lt hprogrammed.le_longest timing.2.toNat_lt

theorem target_le (h : Sound timings r w) : w.target ≤ w.now + 2 ^ 32 := by
  have hinterval := h.interval_lt
  have hstarted := h.started
  rw [Wire.target]
  omega

/-- A receiver that gives up its frame, with the timer set for one bit. -/
theorem awaitEdge (h : Sound timings r w) :
    Sound timings { r with phase := .idle }
      (w.setInterval r.period.ticks).disarmTimer.armEdge where
  edgeArmed := rfl
  timerArmed := rfl
  latched _ := rfl
  started := h.started
  phase := trivial
  programmed := .inr (h.programmed_current (.inl rfl))
  current := h.current

/-- A receiver that goes on in its frame. -/
theorem going (h : Sound timings r w) (hbusy : r.phase.isIdle = false) {next : Phase}
    (hnext : next.isIdle = false) (hfits : next.Fits r.period r.period.ticks) :
    Sound timings { r with phase := next } (w.setInterval r.period.ticks) where
  edgeArmed := by
    rw [hnext, ← hbusy]
    exact h.edgeArmed
  timerArmed := by
    rw [hnext, ← hbusy]
    exact h.timerArmed
  latched := h.latched
  started := h.started
  phase := hfits
  programmed := .inr (h.programmed_current (.inl rfl))
  current := h.current

/-- A receiver that begins a frame. -/
theorem beginFrame (h : Sound timings r w) :
    Sound timings { r with phase := .confirming }
      (w.disarmEdge.setInterval r.period.firstInterval).restartTimer.armTimer where
  edgeArmed := rfl
  timerArmed := rfl
  latched hlatched := by cases hlatched
  started := Nat.le_refl _
  phase := rfl
  programmed := .inr (h.programmed_current (.inr rfl))
  current := h.current

theorem drive (h : Sound timings r w) (level : Bool) : Sound timings r (w.drive level) := by
  unfold Wire.drive
  split
  · exact h
  · refine ⟨h.edgeArmed, h.timerArmed, ?_, h.started, h.phase, h.programmed, h.current⟩
    intro hlatched
    rcases (Bool.or_eq_true _ _).mp hlatched with hbefore | harmed
    · exact h.latched hbefore
    · exact harmed

theorem takeEdge (h : Sound timings r w) : Sound timings r w.takeEdge :=
  ⟨h.edgeArmed, h.timerArmed, fun hlatched => absurd hlatched Bool.false_ne_true, h.started,
    h.phase, h.programmed, h.current⟩

theorem takeMatch (h : Sound timings r w) : Sound timings r w.takeMatch :=
  ⟨h.edgeArmed, h.timerArmed, h.latched, Nat.le_refl _, h.phase, h.programmed, h.current⟩

theorem settle (h : Sound timings r w) {stop : Nat} (hstop : w.now ≤ stop) :
    Sound timings r (w.settle stop) :=
  ⟨h.edgeArmed, h.timerArmed, h.latched, Nat.le_trans h.started hstop, h.phase, h.programmed,
    h.current⟩

/-- Built anew, a receiver is sound with any accepted timing. -/
theorem rebuild (h : Sound timings r w) {p : BitPeriod} {longest : UInt32}
    (haccepted : p.Accepted longest) (policy : StopPolicy) :
    Sound ((p, longest) :: timings) ⟨.idle, p, policy⟩ w.disarmTimer.armEdge where
  edgeArmed := rfl
  timerArmed := rfl
  latched _ := rfl
  started := h.started
  phase := trivial
  programmed := h.programmed.imp_right fun ⟨timing, hmem, hprogrammed⟩ =>
    ⟨timing, List.mem_cons_of_mem _ hmem, hprogrammed⟩
  current := ⟨longest, rfl, haccepted⟩

/-! ## 4. The handlers -/

theorem handleEdge (h : Sound timings s.receiver s.wire) :
    Sound timings s.handleEdge.receiver s.handleEdge.wire := by
  rcases s.handleEdge_cases with hedge | hedge | hedge <;> rw [hedge]
  · exact h
  · exact h
  · exact h.beginFrame

/-- **The match handler is never at fault.** -/
theorem handleMatch (h : Sound timings s.receiver s.wire) :
    ∃ next, s.handleMatch = .ok next ∧ Sound timings next.receiver next.wire := by
  obtain ⟨r, hsample, hgoing⟩ := h.phase.exists_sample s.wire.level
  obtain ⟨next, hnext⟩ := Station.exists_handleMatch hsample
  refine ⟨next, hnext, ?_⟩
  cases Station.afterMatch_of_handleMatch hnext with
  | unreadable hread => exact h.awaitEdge
  | going hread hsample' =>
    rw [hsample, Except.ok.injEq] at hsample'
    obtain ⟨hbusy, hidle, hfits⟩ := hgoing _ hsample'
    exact h.going hbusy hidle hfits
  | frame hread hsample' =>
    simp only [Station.awaitEdge, Station.receiver_closeFrame, Station.wire_closeFrame]
    exact h.awaitEdge
  | spurious hread hsample' => exact h.awaitEdge

theorem serveEdge (h : Sound timings s.receiver s.wire) :
    Sound timings (s.serveEdge .receiver).receiver (s.serveEdge .receiver).wire := by
  have htaken : Sound timings s.receiver s.wire.takeEdge := h.takeEdge
  unfold Station.serveEdge
  split
  · exact handleEdge (s := { s with wire := s.wire.takeEdge }) htaken
  · exact htaken

theorem serveMatch (h : Sound timings s.receiver s.wire) :
    ∃ next, s.serveMatch .receiver = .ok next ∧ Sound timings next.receiver next.wire :=
  handleMatch (s := { s with wire := s.wire.takeMatch }) h.takeMatch

/-- Every station that a run passes through is sound. -/
theorem serves (h : Sound timings s.receiver s.wire) {stop : Nat} {last : Station n}
    {passed : List (Station n)} (hserves : Station.Serves .receiver stop s passed last) :
    ∀ t ∈ passed, Sound timings t.receiver t.wire := by
  induction hserves with
  | settle rest => exact fun t ht => absurd ht List.not_mem_nil
  | serve armed due served rest ih =>
    obtain ⟨next, hnext, hsound⟩ := h.serveMatch
    rw [served] at hnext
    cases hnext
    intro t ht
    rcases List.mem_cons.mp ht with rfl | hlater
    · exact hsound
    · exact ih hsound t hlater

/-! ## 5. Runs and lives -/

/-- **A run keeps a receiver sound** and takes exactly its cycles.  It cannot fail but for a word
that is not wide enough. -/
theorem run (h : Sound timings s.receiver s.wire) (cycles : Nat) :
    Within id (Event.extent s.wire [.run cycles])
      (fun s' => Sound timings s'.receiver s'.wire ∧ s'.wire.now = s.wire.now + cycles)
      (Station.run .receiver cycles s) := by
  have hspan : Event.span [.run cycles] = cycles := Nat.add_zero cycles
  have hcycles : (Event.extent s.wire [.run cycles]).lastCycle
      = s.wire.now + cycles + 2 ^ 32 := by rw [Event.extent, hspan]
  -- the invariant of the loop: a sound station that has not gone past the end of the run
  have hserve : ∀ t : Station n,
      Sound timings t.receiver t.wire ∧ t.wire.now ≤ s.wire.now + cycles →
      t.wire.timerArmed = true → t.wire.due ≤ s.wire.now + cycles →
      ∃ next, t.serveMatch .receiver = .ok next ∧
        Sound timings next.receiver next.wire ∧ next.wire.now ≤ s.wire.now + cycles := by
    rintro t ⟨hsound, -⟩ - hdue
    obtain ⟨next, hnext, hkeep⟩ := hsound.serveMatch
    refine ⟨next, hnext, hkeep, ?_⟩
    rw [(Station.sameSetting_serveMatch hnext).2]
    exact hdue
  -- a sound timer never points further than `2 ^ 32` cycles behind the present
  have hlimit : ∀ t : Station n,
      Sound timings t.receiver t.wire ∧ t.wire.now ≤ s.wire.now + cycles →
      t.wire.target ≤ (Event.extent s.wire [.run cycles]).lastCycle := by
    rintro t ⟨hsound, hnow⟩
    rw [hcycles]
    exact Nat.le_trans hsound.target_le (Nat.add_le_add_right hnow _)
  have hfirst : (s.serveEdge .receiver).wire.now ≤ s.wire.now + cycles := by
    rw [Station.now_serveEdge]
    exact Nat.le_add_right _ _
  refine (Station.within_run_timed ⟨h.serveEdge, hfirst⟩ hserve hlimit (by omega)
    (Nat.le_refl _)).imp ?_
  rintro last ⟨t, ⟨hsound, hnow⟩, rfl⟩
  exact ⟨hsound.settle hnow, rfl⟩

/-- **Whatever happens to a sound receiver leaves it sound.** -/
theorem perform (h : Sound timings s.receiver s.wire) (event : Event) :
    Within id (Event.extent s.wire [event])
      (fun s' => Sound (event.timings ++ timings) s'.receiver s'.wire) (event.perform s) := by
  cases event with
  | drive level => exact h.drive level
  | run cycles => exact (h.run cycles).imp fun _ hs => hs.1
  | edge => exact h.handleEdge
  | sample =>
    obtain ⟨next, hnext, hsound⟩ := h.handleMatch
    simp only [Event.perform, hnext]
    exact hsound
  | pin readable => exact h
  | pop => exact h
  | popUpTo k => exact h
  | takeLost => exact h
  -- an accepted rate is in use from now on, and comes before those that were
  | rebuild clock baud longest policy =>
    simp only [Event.perform, Event.timings]
    cases hrate : BitPeriod.ofRate clock baud longest with
    | error cause => exact h
    | ok p => exact h.rebuild ⟨clock, baud, hrate⟩ policy

/-- A sound receiver lives on soundly. -/
theorem live (events : List Event) : ∀ {timings : List Timing} {s : Station n},
    Sound timings s.receiver s.wire →
      Within id (Event.extent s.wire events)
        (fun s' => Sound (Event.timingsAfter timings events) s'.receiver s'.wire)
        (Event.live events s) := by
  induction events with
  | nil => exact fun h => h
  | cons event rest ih =>
    intro timings s h
    -- the bounds of the whole life hold for its first event and, by `extent_le`, for the rest
    have hfirst : (Event.extent s.wire [event]).Le (Event.extent s.wire (event :: rest)) := by
      rw [Event.extent_cons, Event.extent_cons]
      constructor <;> simp [Event.span]
    have hevent := (h.perform event).and_of_ok fun _ _ hok => Event.extent_le hok rest
    refine Within.bind (hevent.mono hfirst fun _ hs => hs) ?_
    rintro ⟨⟩ s' ⟨hsound, hle⟩
    exact (ih hsound).mono hle fun _ hs => hs

end Sound

namespace Station

variable {n : Nat} {s : Station n} {timing : Timing} {timings : List Timing}

/-- **A station that a life leads to:** a receiver of an accepted rate was built on a wire whose
timer was not programmed, and then these things happened. -/
def Reached (s : Station n) : Prop :=
  ∃ (w : Wire) (clock baud longest : UInt32) (p : BitPeriod) (policy : StopPolicy)
    (queue : ReceiveQueue n) (sink : Sink) (events : List Event),
    w.interval = 0 ∧ w.timerStart ≤ w.now ∧ BitPeriod.ofRate clock baud longest = .ok p ∧
      Event.live events (attach w p policy queue sink) = .ok () s

/-- A station that a life leads to is sound. -/
theorem Reached.sound (h : s.Reached) : ∃ timings, Sound timings s.receiver s.wire := by
  obtain ⟨w, clock, baud, longest, p, policy, queue, sink, events, hunset, hstart, hrate, hlive⟩ := h
  have hbuilt : Sound [(p, longest)] (attach w p policy queue sink).receiver
      (attach w p policy queue sink).wire :=
    ⟨rfl, rfl, fun _ => rfl, hstart, trivial, .inl hunset, ⟨longest, rfl, ⟨clock, baud, hrate⟩⟩⟩
  have hsound := hbuilt.live events
  rw [hlive] at hsound
  exact ⟨_, hsound⟩

/-- What the handlers program on this station is what a receiver of this timing does. -/
structure Programs (timing : Timing) (s : Station n) : Prop where
  edge : s.handleEdge.wire.interval = s.wire.interval ∨
    Programmed timing s.handleEdge.wire.interval
  sample : ∀ next, s.handleMatch = .ok next → Programmed timing next.wire.interval

theorem programs_of_accepted {longest : UInt32} (h : s.receiver.period.Accepted longest) :
    Programs (s.receiver.period, longest) s where
  edge := by
    rcases s.handleEdge_cases with hedge | hedge | hedge <;> rw [hedge]
    · exact .inl rfl
    · exact .inl rfl
    · exact .inr (programmed_firstInterval h)
  sample := by
    intro next hnext
    rw [interval_handleMatch hnext]
    exact programmed_ticks h

/-- **What holds of a station at every moment of its receiver's life:** it is sound, it is sound
at every moment of a run from here, and its receiver programs nothing but what it may. -/
structure Steady (timings : List Timing) (s : Station n) : Prop where
  sound : Sound timings s.receiver s.wire
  inRun : ∀ {cycles : Nat} {passed : List (Station n)} {last : Station n},
    Serves .receiver (s.wire.now + cycles) (s.serveEdge .receiver) passed last →
      ∀ t ∈ s.serveEdge .receiver :: passed, Sound timings t.receiver t.wire
  programs : ∀ t : Station n, t.receiver.period = s.receiver.period →
    ∃ timing, timings.head? = some timing ∧ Programs timing t

theorem steady_of_sound (h : Sound timings s.receiver s.wire) : Steady timings s where
  sound := h
  inRun := by
    intro cycles passed last hserves t ht
    -- the run begins with the edge, and then passes through a station for each match
    rcases List.mem_cons.mp ht with rfl | hlater
    · exact h.serveEdge
    · exact h.serveEdge.serves hserves t hlater
  programs := by
    intro t hperiod
    obtain ⟨longest, hhead, haccepted⟩ := h.current
    rw [← hperiod] at hhead haccepted
    exact ⟨_, hhead, programs_of_accepted haccepted⟩

/-- **A receiver is sound all its life.**  Built with any accepted rate on a new wire, with any
queue and any sink, it stays so whatever happens and in whatever order, and nothing that
happens is a fault: only a count of cycles that leaves 64 bits can end its life, or a count of
interrupts that leaves 32. -/
theorem within_live {rateClock baud longest : UInt32} {p : BitPeriod}
    (hrate : BitPeriod.ofRate rateClock baud longest = .ok p) (clock : UInt32)
    (policy : StopPolicy) (queue : ReceiveQueue n) (sink : Sink) (events : List Event) :
    Within id (Event.extent (Wire.fresh clock) events)
      (Steady (Event.timingsAfter [(p, longest)] events))
      (Event.live events (attach (Wire.fresh clock) p policy queue sink)) := by
  have hbuilt : Sound [(p, longest)] (attach (Wire.fresh clock) p policy queue sink).receiver
      (attach (Wire.fresh clock) p policy queue sink).wire :=
    ⟨rfl, rfl, fun _ => rfl, Nat.le_refl _, trivial, .inl rfl,
      ⟨longest, rfl, ⟨rateClock, baud, hrate⟩⟩⟩
  exact (hbuilt.live events).imp fun _ => steady_of_sound

/-- A life with a frame that is given up, and a second rate. -/
theorem within_live_two_rates :
    BitPeriod.ofRate 16000000 9600 65535 = .ok ⟨1666, 104166, by decide⟩ ∧
      ∃ s : Station 2,
        Event.live [.drive false, .run 3000, .pin false, .edge, .run 5000, .pin true,
            .rebuild 16000000 4800 65535 .keep, .sample]
          (attach (Wire.fresh 16000000) ⟨1666, 104166, by decide⟩ .discard .empty .discard)
            = .ok () s ∧
        Steady [(⟨3333, 208333, by decide⟩, 65535), (⟨1666, 104166, by decide⟩, 65535)] s := by
  have hrate : BitPeriod.ofRate 16000000 9600 65535 = .ok ⟨1666, 104166, by decide⟩ := rfl
  have hlive := within_live (n := 2) hrate 16000000 .discard .empty .discard
    [.drive false, .run 3000, .pin false, .edge, .run 5000, .pin true,
      .rebuild 16000000 4800 65535 .keep, .sample]
  obtain ⟨⟨⟩, s, hok, hs⟩ := hlive.exists_ok ⟨by decide, by decide⟩
  exact ⟨hrate, s, hok, hs⟩

end Station

end SerialLink
