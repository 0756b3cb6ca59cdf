/-
# A receiver hears what the waveform says

`Waveform.listen` decodes a waveform by looking at it.  A receiver never sees the waveform: it
is called when an edge is latched and when its timer matches, and reads one level each time.
This module proves that the two come to the same, for whatever `Line::drive` and `Line::run` do to
the wire of a `Receiver`.

The simulation has two invariants, one for each source of interrupts.

* `Wire.Listening`: only the detector is armed and nothing is latched.  The receiver is idle,
  and what is still to come is `listen`.
* `Wire.Sampling`: only the timer is armed, and its next match lies ahead.  The receiver is in
  a frame, and what is still to come is `resume`.

A segment of the waveform goes by in one run of the station, and inside that run the induction
is on the samples that are left of the frame (`Follows.sampling_playOn`).
-/
import SerialLink.Proofs.Serving
import SerialLink.Proofs.Waveform

namespace SerialLink

/-! ## 1. The wire while a receiver waits -/

namespace Wire

/-- Only the detector is armed, and nothing is latched. -/
structure Listening (w : Wire) : Prop where
  edgeArmed : w.edgeArmed = true
  unlatched : w.edgeLatched = false
  timerOff : w.timerArmed = false

/-- Only the timer is armed, and its next match is at `next`, which is still to come. -/
structure Sampling (w : Wire) (next : Nat) : Prop where
  edgeOff : w.edgeArmed = false
  unlatched : w.edgeLatched = false
  timerOn : w.timerArmed = true
  target : w.target = next
  ahead : w.now < next

/-- The wire at another level, once the change has been served. -/
def heed (w : Wire) (level : Bool) : Wire :=
  { w with
    level := level
    edgesServed := if w.level != level then w.edgesServed + 1 else w.edgesServed }

/-- The wire with no edge latched, and one more counted if `level` is high. -/
def forgetEdge (w : Wire) (level : Bool) : Wire :=
  { w with
    edgeLatched := false
    edgesServed := if level then w.edgesServed + 1 else w.edgesServed }

/-- The wire from the start of a frame on. -/
def beginFrame (w : Wire) (firstInterval : Nat) : Wire :=
  (w.disarmEdge.setInterval firstInterval).restartTimer.armTimer

variable {w : Wire} {next : Nat}

theorem Listening.edgeDue_drive (h : w.Listening) (level : Bool) :
    (w.drive level).edgeDue = (w.level != level) := by
  unfold drive
  split
  · rename_i hsame
    simp [edgeDue, h.unlatched, hsame]
  · rename_i hchange
    simp [edgeDue, h.edgeArmed, hchange]

theorem Listening.takeEdge_drive (h : w.Listening) (level : Bool) :
    (w.drive level).takeEdge = w.heed level := by
  rw [takeEdge, unlatch, h.edgeDue_drive, ← h.unlatched, heed, drive]
  by_cases hsame : w.level = level
  · simp [hsame]
  · have hchange : (w.level != level) = true := by simpa using hsame
    simp [hsame, hchange]

theorem edgeCount_heed {level : Bool}
    (room : (w.level != level) = true → w.edgeCount + 1 < countLimit) :
    (w.heed level).edgeCount = w.edgeCount + (w.level != level).toNat := by
  rw [edgeCount, Wire.heed]
  cases hchange : (w.level != level) with
  | true => exact toNat_add_one (room hchange)
  | false => rfl

theorem Sampling.edgeDue_drive (h : w.Sampling next) (level : Bool) :
    (w.drive level).edgeDue = false := by
  unfold drive
  split
  · simp [edgeDue, h.unlatched]
  · simp [edgeDue, h.edgeOff]

/-- Inside a frame a change of level goes unnoticed. -/
theorem Sampling.takeEdge_drive (h : w.Sampling next) (level : Bool) :
    (w.drive level).takeEdge = { w with level := level } := by
  rw [takeEdge, unlatch, h.edgeDue_drive, ← h.unlatched, drive]
  by_cases hsame : w.level = level
  · simp [← hsame, h.unlatched]
  · simp [hsame, h.unlatched]

theorem Listening.heed (h : w.Listening) (level : Bool) : (w.heed level).Listening :=
  ⟨h.edgeArmed, h.unlatched, h.timerOff⟩

theorem Listening.settle (h : w.Listening) (stop : Nat) : (w.settle stop).Listening :=
  ⟨h.edgeArmed, h.unlatched, h.timerOff⟩

theorem sampling_beginFrame (w : Wire) {interval : Nat} (h : 0 < interval) :
    (w.beginFrame interval).Sampling (w.now + interval) where
  edgeOff := rfl
  unlatched := rfl
  timerOn := rfl
  target := by
    simp only [beginFrame, Wire.target, setInterval, restartTimer, armTimer, disarmEdge]
    omega
  ahead := Nat.lt_add_of_pos_right h

theorem Sampling.due (h : w.Sampling next) : w.due = next := by
  have hahead := h.ahead
  rw [Wire.due, h.target]
  omega

/-- A match is served and the timer set for the one after it. -/
theorem Sampling.takeMatch (h : w.Sampling next) {interval : Nat} (hpos : 0 < interval) :
    (w.takeMatch.setInterval interval).Sampling (next + interval) where
  edgeOff := h.edgeOff
  unlatched := h.unlatched
  timerOn := h.timerOn
  target := by
    simp only [Wire.target, setInterval, Wire.takeMatch, reachMatch, h.due]
    omega
  ahead := by
    simp only [setInterval, Wire.takeMatch, reachMatch, h.due]
    omega

end Wire

namespace Station

open Waveform

variable {n : Nat}

/-! ## 2. What has been heard -/

/-- The station with its receiver elsewhere in a frame, and on another wire. -/
def onWire (s : Station n) (wire : Wire) (phase : Phase) : Station n :=
  { s with wire := wire, receiver := { s.receiver with phase := phase } }

theorem onWire_self {s : Station n} {phase : Phase} (h : s.receiver.phase = phase) :
    s.onWire s.wire phase = s := by
  rw [← h]
  rfl

/-- Deal with completed frames, one after the other. -/
def closeFrames (s : Station n) (frames : List (UInt8 × Bool)) : Station n :=
  frames.foldl (fun s frame => s.closeFrame frame.1 frame.2) s

/-- `s` is `base` on the wire `w` after it has heard `h`: the frames are dealt with, the edges
and the samples are counted, and nothing else but the wire has changed. -/
structure Hears (h : Heard) (base : Station n) (w : Wire) (s : Station n) : Prop where
  station : s = (base.closeFrames h.frames).onWire s.wire h.phase
  edges : s.wire.edgeCount = w.edgeCount + h.edges
  samples : s.wire.matchCount = w.matchCount + h.samples
  listening : h.phase = .idle → s.wire.Listening

variable {h : Heard} {base s : Station n} {w w' : Wire}

theorem Hears.afterEdge (hs : Hears h base w' s) {edge : Bool}
    (hedges : w'.edgeCount = w.edgeCount + edge.toNat) (hsamples : w'.matchCount = w.matchCount) :
    Hears (h.afterEdge edge) base w s where
  station := hs.station
  edges := by
    have := hs.edges
    simp only [Heard.afterEdge]
    omega
  samples := by rw [hs.samples, hsamples]; rfl
  listening := hs.listening

theorem Hears.afterSample (hs : Hears h base w' s) (hedges : w'.edgeCount = w.edgeCount)
    (hsamples : w'.matchCount = w.matchCount + 1) : Hears (h.afterSamples 1) base w s where
  station := hs.station
  edges := by rw [hs.edges, hedges]; rfl
  samples := by
    have := hs.samples
    simp only [Heard.afterSamples]
    omega
  listening := hs.listening

/-- Only the two counts of the first wire matter. -/
theorem Hears.settle {stop : Nat} (hs : Hears h base (w.settle stop) s) : Hears h base w s :=
  ⟨hs.station, hs.edges, hs.samples, hs.listening⟩

theorem Hears.afterFrame {byte : UInt8} {stopBit : Bool}
    (hs : Hears h (base.closeFrame byte stopBit) w s) :
    Hears (h.afterFrame byte stopBit) base w s :=
  ⟨hs.station, hs.edges, hs.samples, hs.listening⟩

end Station

/-- What is heard on the wire `w` can all be counted. -/
structure Extent.Admits (x : Extent) (w : Wire) (h : Heard) : Prop where
  edges : w.edgeCount + h.edges ≤ x.interrupts
  samples : w.matchCount + h.samples ≤ x.interrupts

namespace Extent

variable {x : Extent} {w w' : Wire} {h : Heard}

theorem Admits.afterEdge {edge : Bool} (hx : x.Admits w (h.afterEdge edge))
    (hedges : w'.edgeCount = w.edgeCount + edge.toNat) (hsamples : w'.matchCount = w.matchCount) :
    x.Admits w' h where
  edges := by
    have hall := hx.edges
    simp only [Heard.afterEdge] at hall
    omega
  samples := hsamples ▸ hx.samples

theorem Admits.afterSample (hx : x.Admits w (h.afterSamples 1))
    (hedges : w'.edgeCount = w.edgeCount) (hsamples : w'.matchCount = w.matchCount + 1) :
    x.Admits w' h where
  edges := hedges ▸ hx.edges
  samples := by
    have hall := hx.samples
    simp only [Heard.afterSamples] at hall
    omega

/-- The first edge can be counted. -/
theorem Admits.edge {edge : Bool} (hx : x.Admits w (h.afterEdge edge)) (hedge : edge = true) :
    w.edgeCount + 1 ≤ x.interrupts := by
  have hall := hx.edges
  simp only [Heard.afterEdge, hedge, Bool.toNat_true] at hall
  omega

/-- The first sample can be counted. -/
theorem Admits.sample (hx : x.Admits w (h.afterSamples 1)) :
    w.matchCount + 1 ≤ x.interrupts := by
  have hall := hx.samples
  simp only [Heard.afterSamples] at hall
  omega

end Extent

namespace Station

open Waveform

variable {n : Nat} {h : Heard} {base s : Station n} {w w' : Wire}

theorem enqueue_onWire (s : Station n) (wire : Wire) (phase : Phase) (byte : UInt8) :
    (s.onWire wire phase).enqueue byte
      = ((s.enqueue byte).1, (s.enqueue byte).2.onWire wire phase) := by
  simp only [enqueue, onWire]
  split <;> rfl

theorem countStop_onWire (s : Station n) (wire : Wire) (phase : Phase) (stopBit : Bool) :
    (s.onWire wire phase).countStop stopBit = (s.countStop stopBit).onWire wire phase := by
  cases stopBit <;> rfl

/-- The end of a frame looks neither at the wire nor at the phase. -/
theorem closeFrame_onWire (s : Station n) (wire : Wire) (phase : Phase) (byte : UInt8)
    (stopBit : Bool) :
    (s.onWire wire phase).closeFrame byte stopBit
      = (s.closeFrame byte stopBit).onWire wire phase := by
  have hwants : (s.onWire wire phase).wants stopBit = s.wants stopBit := rfl
  rw [closeFrame, closeFrame, hwants, countStop_onWire, enqueue_onWire]
  cases s.wants stopBit <;> rfl

/-! ## 3. One interrupt -/

theorem serveEdge_of_due (hdue : w.edgeDue = true) (phase : Phase) :
    (base.onWire w phase).serveEdge .receiver = (base.onWire w.takeEdge phase).handleEdge := by
  have hdue' : (base.onWire w phase).wire.edgeDue = true := hdue
  simp only [serveEdge, hdue']
  rfl

theorem serveEdge_of_not_due (hdue : w.edgeDue = false) (phase : Phase) :
    (base.onWire w phase).serveEdge .receiver = base.onWire w.takeEdge phase := by
  have hdue' : (base.onWire w phase).wire.edgeDue = false := hdue
  simp only [serveEdge, hdue']
  rfl

/-- An idle receiver that is called to a high wire stays idle. -/
theorem handleEdge_of_high (hread : base.readable = true) (hhigh : w.level = true) :
    (base.onWire w .idle).handleEdge = base.onWire w .idle := by
  simp [handleEdge, onWire, Phase.isIdle, hread, hhigh]

/-- An idle receiver that is called to a low wire begins a frame. -/
theorem handleEdge_of_low (hread : base.readable = true) (hlow : w.level = false) :
    (base.onWire w .idle).handleEdge
      = base.onWire (w.beginFrame base.receiver.period.firstInterval) .confirming := by
  simp [handleEdge, onWire, Phase.isIdle, hread, hlow, beginFrame, Wire.beginFrame]

/-- Outside a frame, a level that does not fall is at most an edge to be counted. -/
theorem serveEdge_of_not_fall (hw : w.Listening) (hread : base.readable = true) {level : Bool}
    (hstay : ¬ (w.level = true ∧ level = false)) :
    (base.onWire (w.drive level) .idle).serveEdge .receiver
      = base.onWire (w.heed level) .idle := by
  cases hdue : (w.drive level).edgeDue with
  | false => rw [serveEdge_of_not_due hdue, hw.takeEdge_drive]
  | true =>
    have hchange : (w.level != level) = true := hw.edgeDue_drive level ▸ hdue
    have hhigh : level = true := by
      cases level
      · exact absurd ⟨by simpa using hchange, rfl⟩ hstay
      · rfl
    rw [serveEdge_of_due hdue, hw.takeEdge_drive, handleEdge_of_high hread hhigh]

/-- Outside a frame, a fall begins one. -/
theorem serveEdge_of_fall (hw : w.Listening) (hread : base.readable = true)
    (hhigh : w.level = true) :
    (base.onWire (w.drive false) .idle).serveEdge .receiver
      = base.onWire ((w.heed false).beginFrame base.receiver.period.firstInterval)
          .confirming := by
  have hdue : (w.drive false).edgeDue = true := by rw [hw.edgeDue_drive, hhigh]; rfl
  rw [serveEdge_of_due hdue, hw.takeEdge_drive, handleEdge_of_low hread rfl]

/-- A match inside a frame takes a data bit. -/
theorem serveMatch_of_lt {taken : List Bool} (hread : base.readable = true)
    (hdata : taken.length < 8) :
    (base.onWire w (.after taken)).serveMatch .receiver
      = .ok (base.onWire (w.takeMatch.setInterval base.receiver.period.ticks)
          (.after (taken ++ [w.level]))) := by
  simp only [serveMatch, handleMatch, onWire, hread, if_true, takeSample, awaitNextBit,
    Wire.takeMatch, Wire.reachMatch, Wire.setInterval, Phase.sample_after hdata]

/-- The match after eight data bits takes the stop bit, and the receiver waits for an edge. -/
theorem serveMatch_of_eight {taken : List Bool} (hread : base.readable = true)
    (hstop : taken.length = 8) :
    (base.onWire w (.after taken)).serveMatch .receiver
      = .ok ((base.closeFrame (Frame.byte taken) w.level).onWire
          (w.takeMatch.setInterval base.receiver.period.ticks).disarmTimer.armEdge .idle) := by
  have hsample : (base.onWire w (.after taken)).serveMatch .receiver
      = .ok ((base.onWire (w.takeMatch.setInterval base.receiver.period.ticks)
          (.after taken)).closeFrame (Frame.byte taken) w.level).awaitEdge := by
    simp only [serveMatch, handleMatch, onWire, hread, if_true, takeSample, awaitNextBit,
      Wire.takeMatch, Wire.reachMatch, Wire.setInterval, Phase.sample_after_eight hstop]
  rw [hsample, closeFrame_onWire]
  rfl

/-! ## 4. One segment -/

variable {who : Listener} {stop : Nat} {x : Extent} {segment : Bool × Nat} {rest : Waveform}
  {P : Station n → Prop}

/-- The rest of a segment that ends at `stop`, and then the rest of the waveform. -/
def playOn (who : Listener) (stop : Nat) (rest : Waveform) : EStateM Fault (Station n) Unit :=
  EStateM.bind (serveMatches who stop) fun _ => play who rest

/-- A segment with nothing left to serve. -/
theorem within_playOn_of_rest (htarget : s.wire.target ≤ x.lastCycle)
    (idle : ¬ (s.wire.timerArmed = true ∧ s.wire.due ≤ stop))
    (hplay : Within id x P (play who rest { s with wire := s.wire.settle stop })) :
    Within id x P (playOn who stop rest s) := by
  rcases Nat.lt_or_ge s.wire.target Wire.timeLimit with hfits | hlate
  · simp only [playOn, EStateM.bind, serveMatches_of_rest hfits idle]
    exact hplay
  · simp only [playOn, EStateM.bind, serveMatches_of_late hlate]
    exact .of_late (Nat.le_trans hlate htarget)

/-- A segment with a match to serve. -/
theorem within_playOn_of_due {next : Station n} (htarget : s.wire.target ≤ x.lastCycle)
    (hcount : s.wire.matchCount + 1 ≤ x.interrupts) (armed : s.wire.timerArmed = true)
    (due : s.wire.due ≤ stop) (served : s.serveMatch who = .ok next)
    (hnext : s.wire.matchCount + 1 < Wire.countLimit →
      Within id x P (playOn who stop rest next)) :
    Within id x P (playOn who stop rest s) := by
  rcases Nat.lt_or_ge s.wire.target Wire.timeLimit with hfits | hlate
  · rcases Nat.lt_or_ge (s.wire.matchCount + 1) Wire.countLimit with hroom | hfull
    · simp only [playOn, EStateM.bind, serveMatches_of_due hfits armed due hroom served]
      exact hnext hroom
    · simp only [playOn, EStateM.bind, serveMatches_of_full hfits armed due hfull]
      exact .of_full (.inr hfull) (Nat.le_trans hfull hcount)
  · simp only [playOn, EStateM.bind, serveMatches_of_late hlate]
    exact .of_late (Nat.le_trans hlate htarget)

theorem play_cons_eq_bind (segment : Bool × Nat) (rest : Waveform) :
    (play who (segment :: rest) : EStateM Fault (Station n) Unit)
      = hold who segment.1 segment.2 >>= fun _ => play who rest := rfl

/-- A segment is a change of level and then a run. -/
theorem play_cons_onWire {phase : Phase} :
    play who (segment :: rest) (base.onWire w phase)
      = (run who segment.2 >>= fun _ => play who rest) (base.onWire (w.drive segment.1) phase) :=
  rfl

/-- A segment that nothing stops is the edge it may be, and the matches up to its end. -/
theorem play_cons_of_fits {phase : Phase} (hfits : w.now + segment.2 < Wire.timeLimit)
    (hroom : (w.drive segment.1).edgeDue = true → w.edgeCount + 1 < Wire.countLimit) :
    play who (segment :: rest) (base.onWire w phase)
      = playOn who (w.now + segment.2) rest
          (serveEdge who (base.onWire (w.drive segment.1) phase)) := by
  rw [← w.now_drive segment.1] at hfits ⊢
  rw [← w.edgeCount_drive segment.1] at hroom
  exact bind_run_of_fits (s := base.onWire (w.drive segment.1) phase) hfits hroom

theorem within_play_cons {phase : Phase} (hlimit : w.now + segment.2 ≤ x.lastCycle)
    (hcount : (w.drive segment.1).edgeDue = true → w.edgeCount + 1 ≤ x.interrupts)
    (hon : w.now + segment.2 < Wire.timeLimit →
      ((w.drive segment.1).edgeDue = true → w.edgeCount + 1 < Wire.countLimit) →
      Within id x P (playOn who (w.now + segment.2) rest
        (serveEdge who (base.onWire (w.drive segment.1) phase)))) :
    Within id x P (play who (segment :: rest) (base.onWire w phase)) := by
  rw [← w.now_drive segment.1] at hlimit hon
  rw [← w.edgeCount_drive segment.1] at hcount hon
  rw [play_cons_onWire]
  exact within_bind_run hlimit hcount hon

/-! ## 5. A whole waveform -/

variable {p : BitPeriod}

/-- **A receiver follows a waveform** if it hears what `listen` says when it waits for the
waveform, and what `resume` says when it is in a frame. -/
structure Follows (n : Nat) (p : BitPeriod) (x : Extent) (wave : Waveform) : Prop where
  listening {base : Station n} {w : Wire} (hread : base.readable = true)
    (hperiod : base.receiver.period = p) (hw : w.Listening) (htarget : w.target ≤ x.lastCycle)
    (hlimit : w.now + duration wave + p.firstInterval ≤ x.lastCycle)
    (hadmits : x.Admits w (listen p 0 w.level wave)) :
    Within id x (Hears (listen p 0 w.level wave) base w)
      (play .receiver wave (base.onWire w .idle))
  sampling {base : Station n} {w : Wire} {taken : List Bool} {next : Nat}
    (hread : base.readable = true) (hperiod : base.receiver.period = p)
    (htaken : taken.length ≤ 8) (hw : w.Sampling next) (hnext : next ≤ w.now + p.firstInterval)
    (hlimit : w.now + duration wave + p.firstInterval ≤ x.lastCycle)
    (hadmits : x.Admits w (resume p taken (next - w.now) wave)) :
    Within id x (Hears (resume p taken (next - w.now) wave) base w)
      (play .receiver wave (base.onWire w (.after taken)))

theorem follows_nil : Follows n p x [] where
  listening _ _ hw _ _ _ := ⟨rfl, rfl, rfl, fun _ => hw⟩
  sampling _ _ _ _ _ _ _ := by
    rw [resume_nil]
    exact ⟨rfl, rfl, rfl, fun hidle => absurd hidle (Phase.after_ne_idle _)⟩

/-- While the receiver waits, the rest of a segment brings no match. -/
theorem Follows.listening_playOn (hrest : Follows n p x rest)
    (hread : base.readable = true) (hperiod : base.receiver.period = p) (hw : w.Listening)
    (htarget : w.target ≤ x.lastCycle)
    (hlimit : stop + duration rest + p.firstInterval ≤ x.lastCycle)
    (hadmits : x.Admits w (listen p 0 w.level rest)) :
    Within id x (Hears (listen p 0 w.level rest) base w)
      (playOn .receiver stop rest (base.onWire w .idle)) := by
  have hoff : ¬ (w.timerArmed = true ∧ w.due ≤ stop) := by simp [hw.timerOff]
  have hplay := hrest.listening hread hperiod (hw.settle stop) htarget hlimit
    ⟨hadmits.edges, hadmits.samples⟩
  exact within_playOn_of_rest htarget hoff (hplay.imp fun _ => Hears.settle)

/-- A receiver in a frame, on a wire in a segment that began at `start`, with its next sample
at `next`. -/
structure MidFrame (p : BitPeriod) (segment : Bool × Nat) (start : Nat) (base : Station n)
    (w : Wire) (next : Nat) : Prop where
  readable : base.readable = true
  period : base.receiver.period = p
  sampling : w.Sampling next
  level : w.level = segment.1
  begun : start ≤ next
  now_le : w.now ≤ start + segment.2
  near : next ≤ w.now + p.firstInterval

variable {start next : Nat} {taken : List Bool}

/-- After a sample the next one is due one bit later, in the same segment or behind it. -/
theorem MidFrame.takeMatch (hmid : MidFrame p segment start base w next)
    (hdue : next ≤ start + segment.2) :
    MidFrame p segment start base (w.takeMatch.setInterval base.receiver.period.ticks)
      (next + p.ticks) := by
  have htwo := p.two_le_ticks
  have hnow : (w.takeMatch.setInterval base.receiver.period.ticks).now = next :=
    hmid.sampling.due
  have hticks : 0 < base.receiver.period.ticks := by rw [hmid.period]; omega
  have hmatch := hmid.sampling.takeMatch hticks
  rw [hmid.period] at hmatch hnow ⊢
  refine ⟨hmid.readable, hmid.period, hmatch, hmid.level, ?_, ?_, ?_⟩
  · exact Nat.le_trans hmid.begun (Nat.le_add_right _ _)
  · rw [hnow]
    exact hdue
  · rw [hnow]
    exact Nat.add_le_add_left (Nat.le_add_right _ _) _

/-- The next sample is in reach. -/
theorem MidFrame.target_le (hmid : MidFrame p segment start base w next)
    (hlimit : start + segment.2 + duration rest + p.firstInterval ≤ x.lastCycle) :
    w.target ≤ x.lastCycle := by
  have hnear := hmid.near
  have hnow := hmid.now_le
  rw [hmid.sampling.target]
  omega

/-- A sample that is due behind the segment is left to the rest of the waveform. -/
theorem Follows.playOn_of_later (hrest : Follows n p x rest)
    (hmid : MidFrame p segment start base w next) (htaken : taken.length ≤ 8)
    (hlimit : start + segment.2 + duration rest + p.firstInterval ≤ x.lastCycle)
    (hadmits : x.Admits w (resume p taken (next - start) (segment :: rest)))
    (hlater : start + segment.2 < next) :
    Within id x (Hears (resume p taken (next - start) (segment :: rest)) base w)
      (playOn .receiver (start + segment.2) rest (base.onWire w (.after taken))) := by
  have hidle : ¬ (w.timerArmed = true ∧ w.due ≤ start + segment.2) := by
    rw [hmid.sampling.due]
    omega
  have hsettle : (w.settle (start + segment.2)).Sampling next :=
    ⟨hmid.sampling.edgeOff, hmid.sampling.unlatched, hmid.sampling.timerOn, hmid.sampling.target,
      hlater⟩
  have hnear : next ≤ (w.settle (start + segment.2)).now + p.firstInterval :=
    Nat.le_trans hmid.near (Nat.add_le_add_right hmid.now_le _)
  rw [resume_of_lt (by omega), Nat.sub_sub] at hadmits ⊢
  refine within_playOn_of_rest (hmid.target_le hlimit) hidle ?_
  exact (hrest.sampling hmid.readable hmid.period htaken hsettle hnear hlimit
    ⟨hadmits.edges, hadmits.samples⟩).imp fun s hs => hs.settle

/-- The stop bit ends the frame in this segment, and the receiver waits for the rest. -/
theorem Follows.playOn_of_stop (hrest : Follows n p x rest)
    (hmid : MidFrame p segment start base w next) (hstop : taken.length = 8)
    (hlimit : start + segment.2 + duration rest + p.firstInterval ≤ x.lastCycle)
    (hadmits : x.Admits w (resume p taken (next - start) (segment :: rest)))
    (hdue : next ≤ start + segment.2) :
    Within id x (Hears (resume p taken (next - start) (segment :: rest)) base w)
      (playOn .receiver (start + segment.2) rest (base.onWire w (.after taken))) := by
  have hmatch := (hmid.takeMatch hdue).sampling
  have hlisten :
      (w.takeMatch.setInterval base.receiver.period.ticks).disarmTimer.armEdge.Listening :=
    ⟨rfl, hmatch.unlatched, rfl⟩
  have hlater : (w.takeMatch.setInterval base.receiver.period.ticks).target ≤ x.lastCycle := by
    have hfirst := p.ticks_le_firstInterval
    rw [hmatch.target]
    omega
  rw [resume_of_le_of_eight (by omega) hstop, ← hmid.level] at hadmits ⊢
  have hsample : x.Admits w ((listen p 0 w.level rest).afterSamples 1) :=
    ⟨hadmits.edges, hadmits.samples⟩
  refine within_playOn_of_due (hmid.target_le hlimit) hsample.sample hmid.sampling.timerOn
    (hmid.sampling.due.symm ▸ hdue) (serveMatch_of_eight hmid.readable hstop) fun hroom => ?_
  -- the frame is closed before the rest is heard, so the rest starts from a later base
  have hread : (base.closeFrame (Frame.byte taken) w.level).readable = true := by
    simpa using hmid.readable
  have hperiod : (base.closeFrame (Frame.byte taken) w.level).receiver.period = p := by
    simpa using hmid.period
  refine (hrest.listening_playOn hread hperiod hlisten hlater hlimit
    (hsample.afterSample rfl (Wire.matchCount_takeMatch hroom))).imp fun s hs => ?_
  exact Hears.afterFrame (hs.afterSample rfl (Wire.matchCount_takeMatch hroom))

/-- **A frame through one segment.**  The induction is on the data bits that are left; each
sample that falls into the segment reads its level. -/
theorem Follows.sampling_playOn (hrest : Follows n p x rest)
    (hlimit : start + segment.2 + duration rest + p.firstInterval ≤ x.lastCycle) (left : Nat) :
    ∀ {w : Wire} {taken : List Bool} {next : Nat}, taken.length + left = 8 →
      MidFrame p segment start base w next →
      x.Admits w (resume p taken (next - start) (segment :: rest)) →
      Within id x (Hears (resume p taken (next - start) (segment :: rest)) base w)
        (playOn .receiver (start + segment.2) rest (base.onWire w (.after taken))) := by
  induction left with
  | zero =>
    intro w taken next hlen hmid hadmits
    rcases Nat.lt_or_ge (start + segment.2) next with hlater | hdue
    · exact hrest.playOn_of_later hmid (by omega) hlimit hadmits hlater
    · exact hrest.playOn_of_stop hmid (by omega) hlimit hadmits hdue
  | succ left ih =>
    intro w taken next hlen hmid hadmits
    rcases Nat.lt_or_ge (start + segment.2) next with hlater | hdue
    · exact hrest.playOn_of_later hmid (by omega) hlimit hadmits hlater
    · have hdata : taken.length < 8 := by omega
      have hwait : next - start + p.ticks = next + p.ticks - start :=
        (Nat.sub_add_comm hmid.begun).symm
      rw [resume_of_le (by omega) hdata, ← hmid.level, hwait] at hadmits ⊢
      refine within_playOn_of_due (hmid.target_le hlimit) hadmits.sample hmid.sampling.timerOn
        (hmid.sampling.due.symm ▸ hdue) (serveMatch_of_lt hmid.readable hdata) fun hroom => ?_
      -- one data bit fewer is left, and the next sample may be in this segment still
      have hmore : (taken ++ [w.level]).length + left = 8 := by
        rw [List.length_append, List.length_singleton]
        omega
      have hnext := ih hmore (hmid.takeMatch hdue)
        (hadmits.afterSample rfl (Wire.matchCount_takeMatch hroom))
      exact hnext.imp fun s hs => hs.afterSample rfl (Wire.matchCount_takeMatch hroom)

/-- A receiver that waits takes in one more segment: either a frame starts with it, or nothing
does. -/
theorem Follows.listening_cons (hrest : Follows n p x rest) (hread : base.readable = true)
    (hperiod : base.receiver.period = p) (hw : w.Listening) (htarget : w.target ≤ x.lastCycle)
    (hlimit : w.now + duration (segment :: rest) + p.firstInterval ≤ x.lastCycle)
    (hadmits : x.Admits w (listen p 0 w.level (segment :: rest))) :
    Within id x (Hears (listen p 0 w.level (segment :: rest)) base w)
      (play .receiver (segment :: rest) (base.onWire w .idle)) := by
  rw [duration_cons] at hlimit
  have hfirst := p.firstInterval_pos
  by_cases hfall : w.level = true ∧ segment.1 = false
  · rw [hfall.1, listen_of_fall hfall.2] at hadmits ⊢
    have hdue : (w.drive segment.1).edgeDue = true := by
      rw [hw.edgeDue_drive, hfall.1, hfall.2]
      rfl
    refine within_play_cons (by omega) (fun _ => hadmits.edge rfl) fun _ hroom => ?_
    have hcount : (w.heed false).edgeCount = w.edgeCount + true.toNat := by
      rw [Wire.edgeCount_heed fun _ => hroom hdue, hfall.1]
      rfl
    rw [hfall.2, serveEdge_of_fall hw hread hfall.1, hperiod]
    -- the first sample is one first interval behind the fall
    have hmid : MidFrame p segment w.now base ((w.heed false).beginFrame p.firstInterval)
        (w.now + p.firstInterval) :=
      ⟨hread, hperiod, (w.heed false).sampling_beginFrame hfirst, hfall.2.symm,
        Nat.le_add_right _ _, Nat.le_add_right _ _, Nat.le_refl _⟩
    have hwait : w.now + p.firstInterval - w.now = p.firstInterval := Nat.add_sub_cancel_left _ _
    have hframe : x.Admits ((w.heed false).beginFrame p.firstInterval)
        (resume p [] p.firstInterval (segment :: rest)) := hadmits.afterEdge hcount rfl
    have hnone : ([] : List Bool).length + 8 = 8 := rfl
    have hon := hrest.sampling_playOn (by omega) 8 hnone hmid (by rwa [hwait])
    rw [hwait] at hon
    exact hon.imp fun s hs => hs.afterEdge hcount rfl
  · rw [listen_of_not_fall hfall] at hadmits ⊢
    refine within_play_cons (by omega)
      (fun hdue => hadmits.edge (hw.edgeDue_drive segment.1 ▸ hdue)) fun _ hroom => ?_
    have hcount : (w.heed segment.1).edgeCount = w.edgeCount + (w.level != segment.1).toNat :=
      Wire.edgeCount_heed fun hchange => hroom ((hw.edgeDue_drive segment.1).trans hchange)
    rw [serveEdge_of_not_fall hw hread hfall]
    exact (hrest.listening_playOn hread hperiod (hw.heed segment.1) htarget (by omega)
      (hadmits.afterEdge hcount rfl)).imp fun s hs => hs.afterEdge hcount rfl

/-- A receiver in a frame takes in one more segment. -/
theorem Follows.sampling_cons (hrest : Follows n p x rest) (hread : base.readable = true)
    (hperiod : base.receiver.period = p) (htaken : taken.length ≤ 8) (hw : w.Sampling next)
    (hnext : next ≤ w.now + p.firstInterval)
    (hlimit : w.now + duration (segment :: rest) + p.firstInterval ≤ x.lastCycle)
    (hadmits : x.Admits w (resume p taken (next - w.now) (segment :: rest))) :
    Within id x (Hears (resume p taken (next - w.now) (segment :: rest)) base w)
      (play .receiver (segment :: rest) (base.onWire w (.after taken))) := by
  rw [duration_cons] at hlimit
  have hahead := hw.ahead
  -- no edge can come of the new level, as the detector is off during a frame
  have hquiet := hw.edgeDue_drive segment.1
  refine within_play_cons (by omega) (fun hdue => ?_) fun _ _ => ?_
  · rw [hquiet] at hdue
    cases hdue
  · rw [serveEdge_of_not_due hquiet, hw.takeEdge_drive]
    have hstay : ({ w with level := segment.1 } : Wire).Sampling next :=
      ⟨hw.edgeOff, hw.unlatched, hw.timerOn, hw.target, hw.ahead⟩
    have hmid : MidFrame p segment w.now base { w with level := segment.1 } next :=
      ⟨hread, hperiod, hstay, rfl, Nat.le_of_lt hw.ahead, Nat.le_add_right _ _, hnext⟩
    exact (hrest.sampling_playOn (by omega) (8 - taken.length) (by omega) hmid
      ⟨hadmits.edges, hadmits.samples⟩).imp
        fun s hs => ⟨hs.station, hs.edges, hs.samples, hs.listening⟩

/-- **A receiver follows every waveform.** -/
theorem follows (wave : Waveform) : Follows n p x wave := by
  induction wave with
  | nil => exact follows_nil
  | cons segment rest ih => exact ⟨ih.listening_cons, ih.sampling_cons⟩

/-! ## 6. A receiver that is ready -/

/-- The wire is high, and the receiver waits on it for a frame. -/
structure Ready (s : Station n) : Prop where
  high : s.wire.level = true
  listening : s.wire.Listening
  idle : s.receiver.phase = .idle
  readable : s.readable = true

/-- What a ready station hears of a waveform. -/
theorem Ready.within_play (hs : s.Ready) (wave : Waveform) (htarget : s.wire.target ≤ x.lastCycle)
    (hlimit : s.wire.now + duration wave + s.receiver.period.firstInterval ≤ x.lastCycle)
    (hadmits : x.Admits s.wire (listen s.receiver.period 0 true wave)) :
    Within id x (Hears (listen s.receiver.period 0 true wave) s s.wire)
      (play .receiver wave s) := by
  rw [← hs.high] at hadmits
  have hplay := (follows wave).listening hs.readable rfl hs.listening htarget hlimit hadmits
  rw [hs.high, onWire_self hs.idle] at hplay
  exact hplay

/-- How far a ready station gets that is played a waveform. -/
def playExtent (s : Station n) (wave : Waveform) : Extent where
  lastCycle := max s.wire.target (s.wire.now + duration wave + s.receiver.period.firstInterval)
  interrupts :=
    max (s.wire.edgeCount + (listen s.receiver.period 0 true wave).edges)
      (s.wire.matchCount + (listen s.receiver.period 0 true wave).samples)

/-- What a ready station hears of a waveform, as far as words go. -/
theorem Ready.hears (hs : s.Ready) (wave : Waveform) :
    Within id (s.playExtent wave) (Hears (listen s.receiver.period 0 true wave) s s.wire)
      (play .receiver wave s) :=
  hs.within_play wave (Nat.le_max_left _ _) (Nat.le_max_right _ _)
    ⟨Nat.le_max_left _ _, Nat.le_max_right _ _⟩

/-! ## 7. A count that is full -/

/-- A sample that is due and cannot be counted is where the receiver stops. -/
theorem playOn_of_full_of_due {phase : Phase} {stop : Nat} (hw : w.Sampling next)
    (hfull : Wire.countLimit ≤ w.matchCount + 1) (hfits : next < Wire.timeLimit)
    (hdue : next ≤ stop) (rest : Waveform) :
    playOn .receiver stop rest (base.onWire w phase)
      = .error .count (base.onWire w.reachMatch phase) := by
  have hserve : (base.onWire w phase).serveMatches .receiver stop
      = .error .count (base.onWire w.reachMatch phase) :=
    serveMatches_of_full (hw.target.trans_lt hfits) hw.timerOn (hw.due.trans_le hdue) hfull
  simp only [playOn, EStateM.bind, hserve]

/-- A segment that begins before the next sample changes the level, and nothing else. -/
theorem playOn_cons_of_lt {phase : Phase} {stop : Nat} (hw : w.Sampling next)
    (hlater : stop < next) (hfits : next < Wire.timeLimit)
    (hend : stop + segment.2 < Wire.timeLimit) (rest : Waveform) :
    playOn .receiver stop (segment :: rest) (base.onWire w phase)
      = playOn .receiver (stop + segment.2) rest
          (base.onWire { w.settle stop with level := segment.1 } phase) := by
  have hsettle : (w.settle stop).Sampling next :=
    ⟨hw.edgeOff, hw.unlatched, hw.timerOn, hw.target, hlater⟩
  have hidle : ¬ (w.timerArmed = true ∧ w.due ≤ stop) := by
    rw [hw.due]
    omega
  have hserve : (base.onWire w phase).serveMatches .receiver stop
      = .ok () (base.onWire (w.settle stop) phase) :=
    serveMatches_of_rest (hw.target.trans_lt hfits) hidle
  have hquiet := hsettle.edgeDue_drive segment.1
  simp only [playOn, EStateM.bind, hserve]
  refine (play_cons_of_fits (w := w.settle stop) hend fun hedge => ?_).trans ?_
  · rw [hquiet] at hedge
    cases hedge
  · rw [serveEdge_of_not_due hquiet, hsettle.takeEdge_drive]
    rfl

/-- A frame stops at a sample that cannot be counted.  The induction is on the segments that go by
before the sample. -/
theorem playOn_of_full {phase : Phase} (rest : Waveform) : ∀ {w : Wire} {stop : Nat},
    w.Sampling next → Wire.countLimit ≤ w.matchCount + 1 →
    stop + duration rest < Wire.timeLimit → next ≤ stop + duration rest →
      ∃ last, playOn .receiver stop rest (base.onWire w phase)
        = .error .count (base.onWire last phase) := by
  induction rest with
  | nil =>
    intro w stop hw hfull hfits hdue
    exact ⟨_, playOn_of_full_of_due hw hfull (Nat.lt_of_le_of_lt hdue hfits) hdue []⟩
  | cons segment rest ih =>
    intro w stop hw hfull hfits hdue
    rw [duration_cons, ← Nat.add_assoc] at hfits hdue
    rcases Nat.lt_or_ge stop next with hlater | hnow
    · rw [playOn_cons_of_lt hw hlater (by omega) (by omega)]
      exact ih ⟨hw.edgeOff, hw.unlatched, hw.timerOn, hw.target, hlater⟩ hfull hfits hdue
    · exact ⟨_, playOn_of_full_of_due hw hfull (by omega) hnow _⟩

/-- **A count that is full lets no frame through:** a ready station that is played one stops at the
first sample. -/
theorem Ready.play_of_full (hs : s.Ready) (hfull : Wire.countLimit ≤ s.wire.matchCount + 1)
    (hroom : s.wire.edgeCount + 1 < Wire.countLimit) (cycles : Nat) (rest : Waveform)
    (hfits : s.wire.now + duration ((false, cycles) :: rest) < Wire.timeLimit)
    (hdue : s.receiver.period.firstInterval ≤ duration ((false, cycles) :: rest)) :
    ∃ last, play .receiver ((false, cycles) :: rest) s
      = .error .count (s.onWire last .confirming) := by
  rw [duration_cons] at hfits hdue
  have hbegun := (s.wire.heed false).sampling_beginFrame s.receiver.period.firstInterval_pos
  have hnow : (s.wire.heed false).now = s.wire.now := rfl
  have hplay : play .receiver ((false, cycles) :: rest) (s.onWire s.wire .idle)
      = playOn .receiver (s.wire.now + cycles) rest
          (serveEdge .receiver (s.onWire (s.wire.drive false) .idle)) :=
    play_cons_of_fits (by omega) fun _ => hroom
  rw [onWire_self hs.idle, serveEdge_of_fall hs.listening hs.readable hs.high] at hplay
  rw [hplay]
  exact playOn_of_full rest hbegun hfull (by omega) (by omega)

/-! ## 8. A receiver from its start -/

/-- The frames a receiver has completed, in order, each a byte and its stop bit. -/
def completed (s : Station n) : List (UInt8 × Bool) := s.journal.filterMap Report.frame?

theorem completed_closeFrame (s : Station n) (byte : UInt8) (stopBit : Bool) :
    (s.closeFrame byte stopBit).completed = s.completed ++ [(byte, stopBit)] := by
  have hcount : (s.countStop stopBit).journal = s.journal := by cases stopBit <;> rfl
  have hqueue : ((s.countStop stopBit).enqueue byte).2.journal = s.journal := by
    rw [← hcount]
    unfold enqueue
    split <;> rfl
  cases hwants : s.wants stopBit <;>
    simp [closeFrame, hwants, completed, report, hcount, hqueue, Report.frame?]

theorem completed_closeFrames (frames : List (UInt8 × Bool)) : ∀ s : Station n,
    (s.closeFrames frames).completed = s.completed ++ frames := by
  induction frames with
  | nil => intro s; simp [closeFrames]
  | cons frame rest ih =>
    intro s
    have hfirst := ih (s.closeFrame frame.1 frame.2)
    rw [completed_closeFrame, List.append_assoc] at hfirst
    exact hfirst

/-- An edge that was latched while the wire came to rest at high is served without effect: but
for its count, the first change of level finds the wire as if it had not been there. -/
theorem serveEdge_of_latched (hread : base.readable = true) (harmed : w.edgeArmed = true)
    (hlatched : w.edgeLatched = true) (hhigh : w.level = true) (level : Bool) :
    serveEdge .receiver (base.onWire (w.drive level) .idle)
      = serveEdge .receiver (base.onWire ((w.forgetEdge level).drive level) .idle) := by
  cases level with
  -- the fall would be latched itself, so it makes no difference that something was
  | false =>
    have hdrive : w.drive false = { w with level := false, edgeLatched := true } := by
      simp [Wire.drive, hhigh, hlatched]
    have hdrive' : (w.forgetEdge false).drive false
        = { w with level := false, edgeLatched := true } := by
      simp [Wire.drive, Wire.forgetEdge, hhigh, harmed]
    rw [hdrive, hdrive']
  | true =>
    have hdrive : w.drive true = w := by simp [Wire.drive, hhigh]
    have hdrive' : (w.forgetEdge true).drive true = w.forgetEdge true := by
      simp [Wire.drive, Wire.forgetEdge, hhigh]
    -- the wire stays high, so the edge is served, and the handler finds no start bit
    have hdue : w.edgeDue = true := by simp [Wire.edgeDue, hlatched, harmed]
    rw [hdrive, hdrive', serveEdge_of_due hdue, handleEdge_of_high (w := w.takeEdge) hread
      hhigh, serveEdge_of_not_due rfl, Wire.takeEdge, hdue]
    rfl

theorem edgeCount_forgetEdge {level : Bool} (room : w.edgeCount + 1 < Wire.countLimit) :
    (w.forgetEdge level).edgeCount = w.edgeCount + level.toNat := by
  cases level with
  | true => exact Wire.toNat_add_one room
  | false => rfl

/-- A waveform that comes to a latched edge is heard as if that edge had been served before. -/
theorem within_play_of_latched (hread : base.readable = true)
    (harmed : w.edgeArmed = true) (hlatched : w.edgeLatched = true) (hhigh : w.level = true)
    (hlimit : w.now + segment.2 ≤ x.lastCycle) (hcount : w.edgeCount + 1 ≤ x.interrupts)
    (hplay : w.edgeCount + 1 < Wire.countLimit →
      Within id x P
        (play .receiver (segment :: rest) (base.onWire (w.forgetEdge segment.1) .idle))) :
    Within id x P (play .receiver (segment :: rest) (base.onWire w .idle)) := by
  have hdue : (w.drive segment.1).edgeDue = true := by
    unfold Wire.drive
    split <;> simp [Wire.edgeDue, harmed, hlatched]
  refine within_play_cons hlimit (fun _ => hcount) fun hfits hroom => ?_
  -- a wire that stays high has no other edge, and a fall is latched in the place of the first
  have hroom' : ((w.forgetEdge segment.1).drive segment.1).edgeDue = true →
      (w.forgetEdge segment.1).edgeCount + 1 < Wire.countLimit := by
    cases segment.1 with
    | false => exact fun _ => hroom hdue
    | true => simp [Wire.drive, Wire.forgetEdge, Wire.edgeDue, hhigh]
  have hplay := hplay (hroom hdue)
  rw [play_cons_of_fits (w := w.forgetEdge segment.1) hfits hroom'] at hplay
  rw [serveEdge_of_latched hread harmed hlatched hhigh]
  exact hplay

/-- The station has completed the frames that the waveform says, and stands where it leaves
off. -/
structure Decodes (p : BitPeriod) (wave : Waveform) (s : Station n) : Prop where
  frames : s.completed = (listen p 0 true wave).frames
  phase : s.receiver.phase = (listen p 0 true wave).phase

theorem Hears.decodes {wave : Waveform} (hs : Hears (listen p 0 true wave) base w s)
    (hnew : base.completed = []) : Decodes p wave s where
  frames := by
    have hframes := completed_closeFrames (listen p 0 true wave).frames base
    rw [hnew, List.nil_append] at hframes
    rw [hs.station]
    exact hframes
  phase := by rw [hs.station]; rfl

/-- How far a receiver can get that is built on the wire `w` and played `wave`. -/
def attachExtent (p : BitPeriod) (w : Wire) (wave : Waveform) : Extent where
  lastCycle := max w.target (w.now + duration wave + p.firstInterval)
  interrupts :=
    max (w.edgeCount + w.edgeLatched.toNat + (listen p 0 true wave).edges)
      (w.matchCount + (listen p 0 true wave).samples)

/-- **A receiver decodes the waveform.**  Built on a wire that is high, in whatever state the
detector and the timer were left, and played any waveform at all, a receiver has completed
exactly the frames that the waveform says, in their order, and stands where the waveform leaves
off.  Only a count of cycles that leaves 64 bits can prevent it, or a count of interrupts that
leaves 32. -/
theorem play_attach_decodes (policy : StopPolicy) (queue : ReceiveQueue n) (sink : Sink)
    (hhigh : w.level = true) (wave : Waveform) :
    Within id (attachExtent p w wave) (Decodes p wave)
      (play .receiver wave (attach w p policy queue sink)) := by
  have hbase : attach w p policy queue sink
      = (attach w p policy queue sink).onWire w.disarmTimer.armEdge .idle := rfl
  have hwave : ∀ w' : Wire, w'.Listening → w'.level = true → w'.target = w.target →
      w'.now = w.now → (attachExtent p w wave).Admits w' (listen p 0 true wave) →
      Within id (attachExtent p w wave) (Decodes p wave) (play .receiver wave
        ((attach w p policy queue sink).onWire w' .idle)) := by
    intro w' hw hlevel htarget hnow hadmits
    have hready : ((attach w p policy queue sink).onWire w' .idle).Ready := ⟨hlevel, hw, rfl, rfl⟩
    have htarget' : w'.target ≤ (attachExtent p w wave).lastCycle := by
      rw [htarget]
      exact Nat.le_max_left _ _
    have hlimit : w'.now + duration wave + p.firstInterval
        ≤ (attachExtent p w wave).lastCycle := by
      rw [hnow]
      exact Nat.le_max_right _ _
    exact (hready.within_play wave htarget' hlimit hadmits).imp fun s hs => hs.decodes rfl
  have hedges : w.edgeCount + w.edgeLatched.toNat + (listen p 0 true wave).edges
      ≤ (attachExtent p w wave).interrupts := Nat.le_max_left _ _
  have hsamples : w.matchCount + (listen p 0 true wave).samples
      ≤ (attachExtent p w wave).interrupts := Nat.le_max_right _ _
  rw [hbase]
  cases hlatched : w.edgeLatched with
  | false =>
    rw [hlatched] at hedges
    exact hwave _ ⟨rfl, hlatched, rfl⟩ hhigh rfl rfl ⟨hedges, hsamples⟩
  | true =>
    rw [hlatched, Bool.toNat_true] at hedges
    cases wave with
    | nil => exact ⟨rfl, rfl⟩
    | cons segment rest =>
      have hlimit : w.now + segment.2 ≤ (attachExtent p w (segment :: rest)).lastCycle := by
        simp only [attachExtent, duration_cons]
        omega
      refine within_play_of_latched rfl rfl hlatched hhigh hlimit
        (Nat.le_trans (Nat.le_add_right _ _) hedges) fun hroom => ?_
      -- the latched edge is counted with the first segment, if it is counted apart at all
      have hforget : (w.disarmTimer.armEdge.forgetEdge segment.1).edgeCount ≤ w.edgeCount + 1 :=
        (edgeCount_forgetEdge hroom).trans_le (Nat.add_le_add_left (Bool.toNat_le _) _)
      exact hwave _ ⟨rfl, rfl, rfl⟩ hhigh rfl rfl
        ⟨Nat.le_trans (Nat.add_le_add_right hforget _) hedges, hsamples⟩

/-- Two frames, the second cut off by the end of the waveform, on a wire of 16 MHz. -/
theorem play_attach_decodes_two_ticks :
    (Wire.fresh 16000000).level = true ∧ ∃ s : Station 2,
      play .receiver
          [(true, 7), (false, 3), (true, 2), (false, 0), (true, 9), (false, 2), (true, 6),
            (false, 1), (true, 0), (false, 12)]
          (attach (Wire.fresh 16000000) ⟨2, 0, by decide⟩ .discard .empty .discard) = .ok () s ∧
        s.completed = [(190, true)] ∧ s.receiver.phase = .data 0 6 := by
  have hplay := play_attach_decodes (n := 2) (p := ⟨2, 0, by decide⟩) (w := Wire.fresh 16000000)
    .discard .empty .discard rfl
    [(true, 7), (false, 3), (true, 2), (false, 0), (true, 9), (false, 2), (true, 6), (false, 1),
      (true, 0), (false, 12)]
  obtain ⟨⟨⟩, s, hok, hs⟩ := hplay.exists_ok ⟨by decide +kernel, by decide +kernel⟩
  exact ⟨rfl, s, hok, hs.frames.trans (by decide +kernel), hs.phase.trans (by decide +kernel)⟩

/-- On a wire whose count of matches has run full (`run_neglected`) a new receiver does not decode a
single frame, long before a count of cycles leaves 64 bits. -/
theorem play_attach_neglected :
    let w := Wire.neglected 16000000 4294967295
    let p : BitPeriod := ⟨2, 125, by decide⟩
    let wave : Waveform := [(false, 18), (true, 2)]
    BitPeriod.ofRate 16000000 8000000 65535 = .ok p ∧ w.level = true ∧
      (attachExtent p w wave).lastCycle < Wire.timeLimit ∧
      (listen p 0 true wave).frames = [(0, true)] ∧
      ∃ s : Station 2, play .receiver wave (attach w p .discard .empty .discard)
        = .error .count s ∧ s.completed = [] := by
  intro w p wave
  have hs : (attach w p .discard (ReceiveQueue.empty (n := 2)) .discard).Ready :=
    ⟨rfl, ⟨rfl, rfl, rfl⟩, rfl, rfl⟩
  obtain ⟨last, hstopped⟩ :=
    hs.play_of_full (by decide) (by decide) 18 [(true, 2)] (by decide) (by decide)
  exact ⟨by decide, rfl, by decide, by decide +kernel, _, hstopped, rfl⟩

end Station

end SerialLink
