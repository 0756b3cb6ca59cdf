/-
# Streams of good and bad frames

Frames come one after the other, each with an idle bit behind it, as `Line::send_frame` plays
them, and some of them have a low stop bit.  This module says what becomes of such a stream, for
all bit lengths inside the window of `BitPeriod.Tolerates`.

A bad frame is the interesting one.  The receiver samples its stop bit, waits for an edge again,
and stands on a low wire while it does.  The next edge is the rise into the idle bit, and it
must neither be taken for a start bit nor keep the next one from being seen.  On the side of the
waveform that is one line: a rise is an edge and no fall (`listen_frame_idle`).

* What a stream says is every frame as it was sent, with one edge for each and one more for each
  low stop bit (`listen_streamed`).
* What a receiver makes of it follows by `Decoding` and `Delivery` (`within_playFrames`).

The receiver may have an edge latched when the stream begins, from a change of level that was over
before time moved.  The first start bit is served by the same interrupt (`Armed.within_play`).
-/
import SerialLink.Proofs.Delivery
import SerialLink.Proofs.Loopback

namespace SerialLink

/-- How many frames have a low stop bit. -/
def lowStops (frames : List (UInt8 × Bool)) : Nat := frames.countP fun frame => !frame.2

namespace Waveform

variable {p : BitPeriod} {cycles : Nat}

/-! ## 1. What a stream says -/

/-- The waveform of frames one after the other, each with an idle bit behind it. -/
def streamed (cycles : Nat) (frames : List (UInt8 × Bool)) : Waveform :=
  frames.flatMap fun frame => Station.frameWave cycles frame.1 frame.2

theorem frameWave_eq (byte : UInt8) (stopBit : Bool) :
    Station.frameWave cycles byte stopBit
      = held cycles (Frame.levels byte stopBit) ++ [(true, cycles)] := by
  rw [Station.frameWave, List.map_append]
  rfl

theorem streamed_cons (frame : UInt8 × Bool) (rest : List (UInt8 × Bool)) :
    streamed cycles (frame :: rest)
      = held cycles (Frame.levels frame.1 frame.2) ++ (true, cycles) :: streamed cycles rest := by
  rw [streamed, List.flatMap_cons, frameWave_eq, List.append_assoc]
  rfl

theorem duration_append (wave wave' : Waveform) :
    duration (wave ++ wave') = duration wave + duration wave' := by
  rw [duration, List.map_append, List.sum_append]
  rfl

theorem duration_streamed (frames : List (UInt8 × Bool)) :
    duration (streamed cycles frames) = frames.length * (11 * cycles) := by
  induction frames with
  | nil => simp [streamed]
  | cons frame rest ih =>
    rw [streamed_cons, duration_append, duration_cons, duration_held, ih, Frame.length_levels,
      List.length_cons, Nat.add_mul]
    omega

/-- A stream leaves the wire high. -/
theorem lastLevel_streamed (frames : List (UInt8 × Bool)) :
    lastLevel true (streamed cycles frames) = true := by
  induction frames with
  | nil => rfl
  | cons frame rest ih => rw [streamed_cons, lastLevel_append, lastLevel_cons, ih]

/-- A frame is heard as it was sent; and where its stop bit was low, the rise into the idle bit is
one edge more, and no start bit. -/
theorem listen_frame_idle (h : p.Tolerates cycles) (byte : UInt8) (stopBit : Bool)
    (rest : Waveform) :
    listen p 0 true (held cycles (Frame.levels byte stopBit) ++ (true, cycles) :: rest)
      = (((((listen p 0 true rest).afterEdge (!stopBit)).afterSamples 9).afterFrame byte
          stopBit)).afterEdge true := by
  have hrise : ¬ (stopBit = true ∧ (true, cycles).1 = false) := fun hfall => nomatch hfall.2
  rw [listen_frame h, listen_of_not_fall hrise, Bool.bne_true]

/-- **A stream is heard as it was sent,** however many of its frames are bad. -/
theorem listen_streamed (h : p.Tolerates cycles) (frames : List (UInt8 × Bool)) :
    listen p 0 true (streamed cycles frames)
      = ⟨frames, frames.length + lowStops frames, 9 * frames.length, .idle⟩ := by
  induction frames with
  | nil => rfl
  | cons frame rest ih =>
    obtain ⟨byte, stopBit⟩ := frame
    have hlow : lowStops ((byte, stopBit) :: rest) = lowStops rest + (!stopBit).toNat := by
      cases stopBit <;> simp [lowStops]
    rw [streamed_cons, listen_frame_idle h, ih, hlow]
    simp only [Heard.afterEdge, Heard.afterFrame, Heard.afterSamples, Bool.toNat_true,
      List.length_cons, Heard.mk.injEq, and_true, true_and]
    omega

end Waveform

namespace Station

open Waveform

variable {n cycles : Nat} {who : Listener} {s s' : Station n}

/-! ## 2. A receiver at rest -/

/-- The wire is high, and an idle receiver waits on it.  An edge may be latched. -/
structure Armed (s : Station n) : Prop where
  high : s.wire.level = true
  edgeArmed : s.wire.edgeArmed = true
  timerOff : s.wire.timerArmed = false
  idle : s.receiver.phase = .idle
  readable : s.readable = true

theorem Ready.armed (h : s.Ready) : s.Armed :=
  ⟨h.high, h.listening.edgeArmed, h.listening.timerOff, h.idle, h.readable⟩

theorem Armed.ready (h : s.Armed) (hunlatched : s.wire.edgeLatched = false) : s.Ready :=
  ⟨h.high, ⟨h.edgeArmed, hunlatched, h.timerOff⟩, h.idle, h.readable⟩

theorem closeFrames_onWire (wire : Wire) (phase : Phase) (frames : List (UInt8 × Bool)) :
    ∀ s : Station n,
      (s.onWire wire phase).closeFrames frames = (s.closeFrames frames).onWire wire phase := by
  induction frames with
  | nil => exact fun _ => rfl
  | cons frame rest ih =>
    intro s
    have hrest := ih (s.closeFrame frame.1 frame.2)
    rw [← closeFrame_onWire] at hrest
    exact hrest

/-- Only the counts of the wire matter to what is heard from a station on it. -/
theorem Hears.of_onWire {h : Heard} {w w' : Wire} {phase : Phase}
    (hs : Hears h (s.onWire w phase) w' s') : Hears h s w' s' where
  station := by
    have hstation := hs.station
    rw [closeFrames_onWire] at hstation
    exact hstation
  edges := hs.edges
  samples := hs.samples
  listening := hs.listening

/-- **What a receiver at rest hears of a waveform that begins low.**  If an edge is latched, the
interrupt that serves it finds the wire low, and there is no other for the fall. -/
theorem Armed.within_play (hs : s.Armed) (held' : Nat) (rest : Waveform) :
    Within id (s.playExtent ((false, held') :: rest))
      (Hears (listen s.receiver.period 0 true ((false, held') :: rest)) s s.wire)
      (play .receiver ((false, held') :: rest) s) := by
  cases hlatched : s.wire.edgeLatched with
  | false => exact (hs.ready hlatched).hears _
  | true =>
    -- without the latched edge the receiver is ready, and the fall would latch another
    have hready : (s.onWire (s.wire.forgetEdge false) .idle).Ready :=
      ⟨hs.high, ⟨hs.edgeArmed, rfl, hs.timerOff⟩, rfl, hs.readable⟩
    have hlimit : s.wire.now + held' ≤ (s.playExtent ((false, held') :: rest)).lastCycle := by
      simp only [playExtent, duration_cons]
      omega
    have hadmits : (s.playExtent ((false, held') :: rest)).Admits s.wire
        (listen s.receiver.period 0 true ((false, held') :: rest)) :=
      ⟨Nat.le_max_left _ _, Nat.le_max_right _ _⟩
    -- the fall is an edge, so the latched one can be counted if the waveform can
    have hcount : s.wire.edgeCount + 1 ≤ (s.playExtent ((false, held') :: rest)).interrupts := by
      rw [listen_of_fall rfl] at hadmits
      exact hadmits.edge rfl
    have hplay : Within id (s.playExtent ((false, held') :: rest))
        (Hears (listen s.receiver.period 0 true ((false, held') :: rest))
          (s.onWire (s.wire.forgetEdge false) .idle) (s.wire.forgetEdge false))
        (play .receiver ((false, held') :: rest) (s.onWire s.wire .idle)) :=
      within_play_of_latched hs.readable hs.edgeArmed hlatched hs.high hlimit hcount fun _ =>
        hready.hears ((false, held') :: rest)
    rw [onWire_self hs.idle] at hplay
    refine hplay.imp fun s' hheard => ?_
    -- served or forgotten, the edge is counted once: the counts are those of the wire as it was
    have hsame : Hears (listen s.receiver.period 0 true ((false, held') :: rest))
        (s.onWire (s.wire.forgetEdge false) .idle) s.wire s' :=
      ⟨hheard.station, hheard.edges, hheard.samples, hheard.listening⟩
    exact hsame.of_onWire

/-! ## 3. What becomes of a stream -/

/-- **`s'` is `s` after these frames.**  The wanted bytes were queued and handed on, and every low
stop bit was counted; each frame took nine matches and one edge, and one more edge if its stop bit
was low; and the receiver waits for the next. -/
structure Streams (frames : List (UInt8 × Bool)) (s s' : Station n) : Prop
    extends Delivers frames s s' where
  edges : s'.wire.edgeCount = s.wire.edgeCount + (frames.length + lowStops frames)
  samples : s'.wire.matchCount = s.wire.matchCount + 9 * frames.length
  armed : s'.Armed
  unlatched : frames ≠ [] → s'.wire.edgeLatched = false

theorem streams_nil (hs : s.Armed) : Streams [] s s where
  toDelivers := delivers_nil s
  edges := rfl
  samples := rfl
  armed := hs
  unlatched h := absurd rfl h

/-- What is heard of a stream becomes of it, if there is room. -/
theorem Hears.streams {frames : List (UInt8 × Bool)}
    (hheard : Hears ⟨frames, frames.length + lowStops frames, 9 * frames.length, .idle⟩ s s.wire s')
    (hs : s.Armed) (hhigh : s'.wire.level = true)
    (hroom : s.queue.toList.length + (s.receiver.policy.wanted frames).length ≤ n - 1) :
    Streams frames s s' := by
  have hdelivers := delivers_closeFrames frames hroom
  have hstation := hheard.station
  have hlistening := hheard.listening rfl
  have hreceiver : ∀ t : Station n, t.receiver = s.receiver → t.onWire s'.wire .idle
      = { t with wire := s'.wire } := by
    intro t ht
    rw [onWire, ← hs.idle, ← ht]
  rw [hreceiver _ hdelivers.receiver] at hstation
  have hsame : Delivers frames s s' := by
    rw [hstation]
    exact ⟨hdelivers.queue, hdelivers.lost, hdelivers.badFrames, hdelivers.sink,
      hdelivers.journal, hdelivers.receiver, hdelivers.readable⟩
  refine ⟨hsame, hheard.edges, hheard.samples, ?_, fun _ => hlistening.unlatched⟩
  refine ⟨hhigh, hlistening.edgeArmed, hlistening.timerOff, ?_, ?_⟩
  · rw [hsame.receiver, hs.idle]
  · rw [hsame.readable, hs.readable]

/-- To play frames is to play their stream. -/
theorem playFrames_eq_play (frames : List (UInt8 × Bool)) :
    (playFrames who cycles frames : EStateM Fault (Station n) Unit)
      = play who (streamed cycles frames) := by
  rw [playFrames, play, streamed]
  induction frames with
  | nil => rfl
  | cons frame rest ih =>
    rw [List.forM_eq_forM, List.forM_cons, List.flatMap_cons, List.forM_eq_forM, List.forM_append]
    exact congrArg _ (funext fun _ => ih)

/-- How far a receiver at rest gets that is played frames of so many cycles a bit. -/
def streamExtent (s : Station n) (cycles : Nat) (frames : List (UInt8 × Bool)) : Extent where
  lastCycle :=
    max s.wire.target
      (s.wire.now + frames.length * (11 * cycles) + s.receiver.period.firstInterval)
  interrupts :=
    max (s.wire.edgeCount + (frames.length + lowStops frames))
      (s.wire.matchCount + 9 * frames.length)

theorem playExtent_streamed (hwindow : s.receiver.period.Tolerates cycles)
    (frames : List (UInt8 × Bool)) :
    s.playExtent (streamed cycles frames) = s.streamExtent cycles frames := by
  rw [playExtent, streamExtent, duration_streamed, listen_streamed hwindow]

/-- **What is heard of a stream inside the window,** whether or not there is room for it. -/
theorem Armed.hears_playFrames (hs : s.Armed) (hwindow : s.receiver.period.Tolerates cycles)
    (frame : UInt8 × Bool) (rest : List (UInt8 × Bool)) :
    Within id (s.streamExtent cycles (frame :: rest))
      (fun s' =>
        Hears ⟨frame :: rest, (frame :: rest).length + lowStops (frame :: rest),
          9 * (frame :: rest).length, .idle⟩ s s.wire s' ∧ s'.wire.level = true)
      (playFrames .receiver cycles (frame :: rest) s) := by
  rw [playFrames_eq_play, ← playExtent_streamed hwindow]
  have hlevel : ∀ a s', play .receiver (streamed cycles (frame :: rest)) s = .ok a s' →
      s'.wire.level = true := by
    intro a s' hok
    rw [level_play _ hok, hs.high, lastLevel_streamed]
  have hplay : Within id (s.playExtent (streamed cycles (frame :: rest)))
      (Hears (listen s.receiver.period 0 true (streamed cycles (frame :: rest))) s s.wire)
      (play .receiver (streamed cycles (frame :: rest)) s) := hs.within_play cycles _
  rw [listen_streamed hwindow] at hplay
  exact hplay.and_of_ok hlevel

/-- What becomes of a stream inside the window, if there is room for it. -/
theorem within_playFrames (hs : s.Armed) (hwindow : s.receiver.period.Tolerates cycles)
    (frames : List (UInt8 × Bool))
    (hroom : s.queue.toList.length + (s.receiver.policy.wanted frames).length ≤ n - 1) :
    Within id (s.streamExtent cycles frames) (Streams frames s)
      (playFrames .receiver cycles frames s) := by
  cases frames with
  | nil => exact streams_nil hs
  | cons frame rest =>
    refine (hs.hears_playFrames hwindow frame rest).imp ?_
    rintro s' ⟨hheard, hhigh⟩
    exact hheard.streams hs hhigh hroom

theorem length_wanted_append (policy : StopPolicy) (before rest : List (UInt8 × Bool)) :
    (policy.wanted (before ++ rest)).length
      = (policy.wanted before).length + (policy.wanted rest).length := by
  simp [StopPolicy.wanted]

/-- **Streams of good and bad frames.**  Played to a receiver at rest, with room for what it wants
of them, frames of any bytes and with any stop bits are taken in one by one: wherever the stream
is looked at between two frames, those before have been dealt with by the policy, and the receiver
waits for the next, whatever the last one was.  Only a count of cycles that leaves 64 bits can
prevent it, or a count of interrupts that leaves 32. -/
theorem playFrames_streams (hs : s.Armed) (hwindow : s.receiver.period.Tolerates cycles)
    (frames : List (UInt8 × Bool))
    (hroom : s.queue.toList.length + (s.receiver.policy.wanted frames).length ≤ n - 1) :
    ∀ before rest, frames = before ++ rest →
      playFrames .receiver cycles frames s
        = (playFrames .receiver cycles before >>= fun _ => playFrames .receiver cycles rest) s ∧
      Within id (s.streamExtent cycles before) (Streams before s)
        (playFrames .receiver cycles before s) := by
  rintro before rest rfl
  rw [length_wanted_append] at hroom
  refine ⟨?_, within_playFrames hs hwindow before (by omega)⟩
  rw [playFrames, List.forM_eq_forM, List.forM_append]
  rfl

/-- A good frame and a bad one, with an edge latched before the first, and with bits so short that
a stop bit is sampled in the very cycle in which it ends. -/
theorem playFrames_streams_boundary :
    let w : Wire := ⟨16000000, true, 5, true, true, false, 0, 0, 0, 0⟩
    let r : Receiver := ⟨.idle, ⟨40, 2500, by decide⟩, .discard⟩
    let s : Station 3 := ⟨w, r, true, .empty, .collect [], []⟩
    s.Armed ∧ r.period.Tolerates 38 ∧ ∃ s',
      playFrames .receiver 38 [(85, true), (0, false)] s = .ok () s' ∧
        Streams [(85, true), (0, false)] s s' ∧ s'.sink = .collect [85] ∧
        s'.queue.badFrames = 1 ∧ s'.wire.edgeCount = 3 ∧ s'.wire.matchCount = 18 := by
  intro w r s
  have hs : s.Armed := ⟨rfl, rfl, rfl, rfl, rfl⟩
  have hwindow : r.period.Tolerates 38 := by
    constructor <;> decide
  have hroom : s.queue.toList.length
      + (s.receiver.policy.wanted [(85, true), (0, false)]).length ≤ 3 - 1 := by
    have hempty : s.queue.toList = [] := ReceiveQueue.toList_empty
    rw [hempty]
    decide
  obtain ⟨-, hends⟩ := playFrames_streams hs hwindow _ hroom _ [] (List.append_nil _).symm
  obtain ⟨⟨⟩, s', hok, hstreams⟩ := hends.exists_ok ⟨by decide, by decide⟩
  exact ⟨hs, hwindow, s', hok, hstreams, hstreams.sink, hstreams.badFrames, hstreams.edges,
    hstreams.samples⟩

/-- Bad frames that are thrown away need no room in the queue, but they are counted, and they take
their time.  Where the count of matches has run full (`run_neglected`), or the clock has, there is
not one frame more. -/
theorem playFrames_runs_out :
    let period : BitPeriod := ⟨40, 2500, by decide⟩
    let s : Station 2 :=
      attach (Wire.neglected 16000000 4294967295) period .discard .empty .discard
    let late : Wire := { Wire.fresh 16000000 with now := 18446744073709551615 }
    let t : Station 2 := attach late period .discard .empty .discard
    period.Tolerates 40 ∧ (StopPolicy.discard.wanted [(85, false)]).length = 0 ∧
      (s.Armed ∧ (s.streamExtent 40 [(85, false)]).lastCycle < Wire.timeLimit ∧
        ∃ s', playFrames .receiver 40 [(85, false)] s = .error .count s' ∧
          s'.queue.badFrames = 0 ∧ s'.receiver.phase = .confirming) ∧
      t.Armed ∧ ∃ t', playFrames .receiver 40 [(85, false)] t = .error .clock t' ∧
        t'.queue.badFrames = 0 := by
  intro period s late t
  have hwindow : period.Tolerates 40 := ⟨by decide, by decide⟩
  have hs : s.Ready := ⟨rfl, ⟨rfl, rfl, rfl⟩, rfl, rfl⟩
  have hwave : streamed 40 [(85, false)] = (false, 40) :: (streamed 40 [(85, false)]).tail := rfl
  -- the first bit confirms the start with the last match there is room for
  obtain ⟨last, hstopped⟩ := hs.play_of_full (by decide) (by decide) 40
    (streamed 40 [(85, false)]).tail (by decide) (by decide)
  rw [← hwave, ← playFrames_eq_play] at hstopped
  exact ⟨hwindow, by decide, ⟨hs.armed, by decide, _, hstopped, rfl, rfl⟩,
    ⟨rfl, rfl, rfl, rfl, rfl⟩, _, rfl, rfl⟩

end Station

end SerialLink
