/-
# A station that hears itself

The transmitter of a station sends on the wire its own receiver listens to, as a `Transmitter`
on the `TxPin` of a `Line` does when the `Delay` of that line serves the `Receiver`.  Its bits
are as long as its nanoseconds come to in cycles, the receiver's are counted in ticks, and the
two lengths come from different divisions.  This module says exactly when the receiver gets what
the transmitter sends.

* Sending is playing: a transmitter on a station's wire plays the waveform of its bytes
  (`sendEach_eq_play`), so all of `Decoding` and `Framing` applies.
* The window of `BitPeriod.Tolerates` is exact (section 3).  Inside it any bytes arrive, in any
  number and at any station that is ready for them (`within_sendEach`); outside it not even a
  zero arrives at a new one.
* A transmitter and a receiver of one rate are not always inside it (section 4).  The
  transmitter's bit is never the longer one, so half of the window is for free; the other half
  can fail, for bits of a few ticks, and is then missed by every byte.
-/
import SerialLink.Proofs.Delivery
import SerialLink.Proofs.Framing
import SerialLink.Proofs.Rates

namespace SerialLink

/-! ## 1. Sending is playing -/

namespace Station

open Waveform

variable {n cycles : Nat} {who : Listener} {tx : BitPeriod} {s s' : Station n}

/-- One level is put on the wire and held for as many cycles as its nanoseconds hold. -/
theorem holdLevel_eq_hold (hcycles : s.wire.cyclesIn tx.nanos = cycles) (level : Bool) :
    (transmitter who tx).holdLevel level s
      = (hold who level cycles).adaptExcept Halt.fault s := by
  have hdrive : (s.wire.drive level).cyclesIn tx.nanos = cycles := by
    rw [← hcycles, Wire.cyclesIn, Wire.cyclesIn, Wire.clock_drive]
  rw [hold, adaptExcept_bind]
  simp only [Transmitter.holdLevel, transmitter, driver, drive, pause, EStateM.adaptExcept, bind,
    EStateM.bind, modify, modifyGet, MonadStateOf.modifyGet, EStateM.modifyGet, hdrive]

theorem sameSetting_hold {level : Bool} (h : hold who level cycles s = .ok () s') :
    s'.wire.clock = s.wire.clock ∧ s'.wire.level = level ∧
      s'.wire.now = s.wire.now + cycles := by
  have hrun : run who cycles { s with wire := s.wire.drive level } = .ok () s' := h
  obtain ⟨hsame, hnow⟩ := sameSetting_run hrun
  exact ⟨hsame.clock.trans (s.wire.clock_drive level),
    hsame.level.trans (s.wire.level_drive level), by rw [hnow, s.wire.now_drive]⟩

theorem forM_holdLevel_eq_play (levels : List Bool) : ∀ {s : Station n},
    s.wire.cyclesIn tx.nanos = cycles →
      (levels.forM (transmitter who tx).holdLevel) s
        = (play who (held cycles levels)).adaptExcept Halt.fault s := by
  induction levels with
  | nil => exact fun _ => rfl
  | cons level rest ih =>
    intro s hcycles
    rw [held_cons, play_cons_eq_bind, adaptExcept_bind, List.forM_eq_forM, List.forM_cons]
    simp only [bind, EStateM.bind, holdLevel_eq_hold hcycles]
    unfold EStateM.adaptExcept
    cases hhold : hold who level cycles s with
    | error fault s' => rfl
    | ok a s' =>
      obtain ⟨hclock, -, -⟩ := sameSetting_hold hhold
      exact ih (by rw [← hcycles, Wire.cyclesIn, Wire.cyclesIn, hclock])

/-- There is nothing to mask on a simulated wire. -/
theorem sendByte_eq_forM (byte : UInt8) :
    (transmitter who tx).sendByte byte
      = (Frame.levels byte true).forM (transmitter (n := n) who tx).holdLevel := by
  funext s
  simp only [Transmitter.sendByte, Transmitter.masked]
  have hmask : (transmitter (n := n) who tx).driver.mask s = s := rfl
  rw [hmask]
  cases (Frame.levels byte true).forM (transmitter who tx).holdLevel s <;> rfl

theorem sendEach_eq_forM (bytes : List UInt8) :
    (transmitter who tx).sendEach bytes
      = (bytes.flatMap fun byte => Frame.levels byte true).forM
          (transmitter (n := n) who tx).holdLevel := by
  rw [Transmitter.sendEach]
  induction bytes with
  | nil => rfl
  | cons byte rest ih =>
    rw [List.forM_eq_forM, List.forM_cons, List.flatMap_cons, List.forM_eq_forM, List.forM_append,
      sendByte_eq_forM]
    exact congrArg _ (funext fun _ => ih)

/-- **To send bytes is to play their waveform.** -/
theorem sendEach_eq_play (hcycles : s.wire.cyclesIn tx.nanos = cycles) (bytes : List UInt8) :
    (transmitter who tx).sendEach bytes s
      = (play who (framed cycles bytes)).adaptExcept Halt.fault s := by
  rw [sendEach_eq_forM, forM_holdLevel_eq_play _ hcycles, framed]

/-- A waveform leaves the wire at its last level. -/
theorem level_play (wave : Waveform) : ∀ {s s' : Station n},
    play who wave s = .ok () s' → s'.wire.level = lastLevel s.wire.level wave := by
  induction wave with
  | nil =>
    intro s s' h
    cases h
    rfl
  | cons segment rest ih =>
    intro s s' h
    rw [play_cons_eq_bind] at h
    obtain ⟨⟨⟩, t, hhold, hrest⟩ := bind_eq_ok.mp h
    obtain ⟨-, hlevel, -⟩ := sameSetting_hold hhold
    rw [ih hrest, hlevel, lastLevel_cons]

/-! ## 2. Inside the window -/

/-- **`s'` is `s` after it has received these bytes** and nothing else: they wait behind the
others in the order they came, no frame was bad and none was lost, each took one edge and nine
matches, and the station is ready again. -/
structure Receives (bytes : List UInt8) (s s' : Station n) : Prop where
  queue : s'.queue.toList = s.queue.toList ++ bytes
  lost : s'.queue.lost = s.queue.lost
  badFrames : s'.queue.badFrames = s.queue.badFrames
  journal : s'.journal = s.journal ++ bytes.map fun byte => .frame byte true .delivered
  edges : s'.wire.edgeCount = s.wire.edgeCount + bytes.length
  samples : s'.wire.matchCount = s.wire.matchCount + 9 * bytes.length
  ready : s'.Ready

/-- How far a ready station gets that is sent so many bytes of so many cycles a bit. -/
def sendExtent (s : Station n) (count cycles : Nat) : Extent where
  lastCycle :=
    max s.wire.target (s.wire.now + count * (10 * cycles) + s.receiver.period.firstInterval)
  interrupts := max (s.wire.edgeCount + count) (s.wire.matchCount + 9 * count)

/-- **A station hears what it is sent inside the window.** -/
theorem Hears.receives {bytes : List UInt8}
    (hheard : Hears ⟨bytes.map (·, true), bytes.length, 9 * bytes.length, .idle⟩ s s.wire s')
    (hs : s.Ready) (hroom : s.queue.toList.length + bytes.length ≤ n - 1)
    (hhigh : s'.wire.level = true) : Receives bytes s s' := by
  have hdelivers := delivers_closeFrames (bytes.map (·, true))
    (by rw [StopPolicy.wanted_good]; exact hroom)
  have hcount : (bytes.map (·, true)).countP (fun frame : UInt8 × Bool => !frame.2) = 0 := by
    simp
  -- a high stop bit is wanted whatever the policy, so every byte is handed on
  have hjournal : (bytes.map (·, true)).map (fun frame : UInt8 × Bool =>
      Report.frame frame.1 frame.2 (s.receiver.policy.fate frame.2))
      = bytes.map fun byte => .frame byte true .delivered := by
    rw [List.map_map]
    rfl
  have hqueue := hdelivers.queue
  have hbad := hdelivers.badFrames
  have hentries := hdelivers.journal
  rw [StopPolicy.wanted_good] at hqueue
  rw [hcount] at hbad
  rw [hjournal] at hentries
  have hstation := hheard.station
  refine ⟨?_, ?_, ?_, ?_, hheard.edges, hheard.samples, hhigh, hheard.listening rfl, ?_, ?_⟩ <;>
    rw [hstation]
  · exact hqueue
  · exact hdelivers.lost
  · exact hbad.trans (UInt16.add_zero _)
  · exact hentries
  · rfl
  · exact hdelivers.readable.trans hs.readable

/-- **Inside the window, whatever is sent arrives.** -/
theorem within_sendEach (hs : s.Ready)
    (hwindow : s.receiver.period.Tolerates (s.wire.cyclesIn tx.nanos)) (bytes : List UInt8)
    (hroom : s.queue.toList.length + bytes.length ≤ n - 1) :
    Within Halt.fault (s.sendExtent bytes.length (s.wire.cyclesIn tx.nanos))
      (Receives bytes s) ((transmitter .receiver tx).sendEach bytes s) := by
  rw [sendEach_eq_play rfl]
  have hlast : s.wire.now + duration (framed (s.wire.cyclesIn tx.nanos) bytes)
      + s.receiver.period.firstInterval
      ≤ (s.sendExtent bytes.length (s.wire.cyclesIn tx.nanos)).lastCycle := by
    rw [duration_framed]
    exact Nat.le_max_right _ _
  have hadmits : (s.sendExtent bytes.length (s.wire.cyclesIn tx.nanos)).Admits s.wire
      (listen s.receiver.period 0 true (framed (s.wire.cyclesIn tx.nanos) bytes)) := by
    rw [listen_framed hwindow]
    exact ⟨Nat.le_max_left _ _, Nat.le_max_right _ _⟩
  have hplay := hs.within_play (framed (s.wire.cyclesIn tx.nanos) bytes)
    (Nat.le_max_left _ _) hlast hadmits
  rw [listen_framed hwindow] at hplay
  -- the last thing on the wire is a stop bit, so the station is left on a high wire
  have hlevel : ∀ a s', play .receiver (framed (s.wire.cyclesIn tx.nanos) bytes) s = .ok a s' →
      s'.wire.level = true := by
    intro a s' hok
    rw [level_play _ hok, hs.high, lastLevel_framed]
  refine ((hplay.and_of_ok hlevel).adaptExcept Halt.fault).imp ?_
  rintro s' ⟨hheard, hhigh⟩
  exact hheard.receives hs hroom hhigh

/-! ## 3. The window is exact -/

/-- What is sent to a ready station is heard as its waveform, if it is sent at all. -/
theorem Ready.hears_of_sendEach (hs : s.Ready) {bytes : List UInt8}
    (hok : (transmitter .receiver tx).sendEach bytes s = .ok () s') :
    Hears (listen s.receiver.period 0 true (framed (s.wire.cyclesIn tx.nanos) bytes)) s s.wire
      s' := by
  rw [sendEach_eq_play rfl] at hok
  have hplay := (hs.hears (framed (s.wire.cyclesIn tx.nanos) bytes)).adaptExcept
    (Halt.fault : Fault → Halt PinFault)
  rw [hok] at hplay
  exact hplay

/-- A station that has received a byte heard its stop bit in time. -/
theorem Receives.reached {byte : UInt8} (hs : s.Ready)
    (hok : (transmitter .receiver tx).sendEach [byte] s = .ok () s')
    (hreceives : Receives [byte] s s') :
    9 * s.receiver.period.ticks + s.receiver.period.half ≤ 10 * s.wire.cyclesIn tx.nanos := by
  by_contra hshort
  have hheard := hs.hears_of_sendEach hok
  have hphase : s'.receiver.phase
      = (listen s.receiver.period 0 true (framed (s.wire.cyclesIn tx.nanos) [byte])).phase := by
    rw [hheard.station]
    rfl
  exact listen_framed_of_short (Nat.lt_of_not_le hshort) byte
    (hphase.symm.trans hreceives.ready.idle)

/-- A station that has received a zero took its stop bit after its data bits. -/
theorem Receives.passed (hs : s.Ready)
    (hok : (transmitter .receiver tx).sendEach [0] s = .ok () s')
    (hreceives : Receives [0] s s') :
    9 * s.wire.cyclesIn tx.nanos < 9 * s.receiver.period.ticks + s.receiver.period.half := by
  by_contra hlong
  obtain ⟨byte, frames, hframes⟩ := listen_zeros_of_long (Nat.le_of_not_lt hlong)
  have hheard := hs.hears_of_sendEach hok
  have hcompleted : s'.completed = s.completed ++ (byte, false) :: frames := by
    rw [hheard.station, ← hframes]
    exact completed_closeFrames _ s
  -- one zero with its stop bit was received, and what is heard begins with a low stop bit
  have hgood : s'.completed = s.completed ++ [(0, true)] := by
    rw [completed, completed, hreceives.journal, List.filterMap_append]
    rfl
  rw [hcompleted, List.append_cancel_left_eq, List.cons.injEq] at hgood
  exact absurd (congrArg Prod.snd hgood.1) Bool.false_ne_true

/-- A receiver on a wire that has just been made, with nothing in its queue. -/
def waiting (clock : UInt32) (p : BitPeriod) : Station 2 :=
  attach (Wire.fresh clock) p .discard .empty .discard

theorem ready_waiting (clock : UInt32) (p : BitPeriod) : (waiting clock p).Ready :=
  ⟨rfl, ⟨rfl, rfl, rfl⟩, rfl, rfl⟩

theorem room_waiting (clock : UInt32) (p : BitPeriod) (byte : UInt8) :
    (waiting clock p).queue.toList.length + [byte].length ≤ 2 - 1 := by
  have hempty : (waiting clock p).queue.toList = [] := ReceiveQueue.toList_empty
  rw [hempty]
  exact Nat.le_refl 1

/-- One byte of accepted lengths is sent long before the clock or a count runs out. -/
theorem sendExtent_waiting_fits {rx : BitPeriod} {longestTx longestRx clock : UInt32}
    (htx : tx.Accepted longestTx) (hrx : rx.Accepted longestRx) :
    ((waiting clock rx).sendExtent 1 ((waiting clock rx).wire.cyclesIn tx.nanos)).Fits := by
  have hcycles : (waiting clock rx).wire.cyclesIn tx.nanos ≤ clock.toNat :=
    Wire.cyclesIn_le_clock htx.nanos_le
  have hfirst : (waiting clock rx).receiver.period.firstInterval ≤ longestRx.toNat :=
    hrx.firstInterval_le
  have hclock := clock.toNat_lt
  have hlongest := longestRx.toNat_lt
  have htarget : (waiting clock rx).wire.target = 1 := rfl
  have hnow : (waiting clock rx).wire.now = 0 := rfl
  -- no bit is longer than a second, and a wire that is new has counted nothing
  refine ⟨?_, (by decide : max (0 + 1) (0 + 9 * 1) < Wire.countLimit)⟩
  simp only [sendExtent, Wire.timeLimit, UInt64.size, htarget, hnow]
  omega

/-- **The window is exact.**  For a transmitter and a receiver of any accepted lengths and a
wire of any rate, the two bounds on the ninth sample hold if and only if every ready station
receives every sequence of bytes it has room for, however long, and nothing else with it.  Only
a count of cycles that leaves 64 bits can prevent it, or a count of interrupts that leaves 32. -/
theorem tolerates_iff_sendEach_receives {rx : BitPeriod} {longestTx longestRx : UInt32}
    (htx : tx.Accepted longestTx) (hrx : rx.Accepted longestRx) (clock : UInt32) :
    rx.Tolerates ((Wire.fresh clock).cyclesIn tx.nanos) ↔
      ∀ {n : Nat} (s : Station n) (bytes : List UInt8), s.Ready → s.wire.clock = clock →
        s.receiver.period = rx → s.queue.toList.length + bytes.length ≤ n - 1 →
        Within Halt.fault (s.sendExtent bytes.length (s.wire.cyclesIn tx.nanos))
          (Receives bytes s) ((transmitter .receiver tx).sendEach bytes s) := by
  constructor
  · intro hwindow n s bytes hs hclock hperiod hroom
    have hcycles : s.wire.cyclesIn tx.nanos = (Wire.fresh clock).cyclesIn tx.nanos := by
      rw [Wire.cyclesIn, hclock]
      rfl
    exact within_sendEach hs (by rw [hperiod, hcycles]; exact hwindow) bytes hroom
  -- one zero at one new station is enough for both bounds
  · intro hall
    have hs := ready_waiting clock rx
    have hsent := hall (waiting clock rx) [0] hs rfl rfl (room_waiting clock rx 0)
    obtain ⟨⟨⟩, s', hok, hreceives⟩ := hsent.exists_ok (sendExtent_waiting_fits htx hrx)
    exact ⟨hreceives.reached hs hok, hreceives.passed hs hok⟩

/-- A zero at 9600 bits a second, on a board of 16 MHz. -/
theorem tolerates_iff_sendEach_receives_9600 :
    BitPeriod.Accepted ⟨1666, 104166, by decide⟩ 65535 ∧
      ∃ s', (transmitter .receiver ⟨1666, 104166, by decide⟩).sendEach [0]
          (waiting 16000000 ⟨1666, 104166, by decide⟩) = .ok () s' ∧
        Receives [0] (waiting 16000000 ⟨1666, 104166, by decide⟩) s' := by
  have haccepted : BitPeriod.Accepted ⟨1666, 104166, by decide⟩ 65535 :=
    ⟨16000000, 9600, by decide⟩
  have hwindow : BitPeriod.Tolerates ⟨1666, 104166, by decide⟩
      ((Wire.fresh 16000000).cyclesIn 104166) := ⟨by decide, by decide⟩
  have hsent := (tolerates_iff_sendEach_receives haccepted haccepted 16000000).mp hwindow
    (waiting 16000000 _) [0] (ready_waiting _ _) rfl rfl (room_waiting _ _ 0)
  obtain ⟨⟨⟩, s', hok, hreceives⟩ := hsent.exists_ok
    (sendExtent_waiting_fits haccepted haccepted)
  exact ⟨haccepted, s', hok, hreceives⟩

/-- Inside the window, and with room for a byte, a station whose count of matches has run full
(`run_neglected`) does not receive it. -/
theorem sendEach_neglected :
    let p : BitPeriod := ⟨1666, 104166, by decide⟩
    let s : Station 2 := attach (Wire.neglected 16000000 4294967295) p .discard .empty .discard
    p.Accepted 65535 ∧ p.Tolerates (s.wire.cyclesIn p.nanos) ∧ s.Ready ∧
      s.queue.toList.length + 1 ≤ 2 - 1 ∧
      (s.sendExtent 1 (s.wire.cyclesIn p.nanos)).lastCycle < Wire.timeLimit ∧
      ∃ s', (transmitter .receiver p).sendEach [0] s = .error (.fault .count) s' ∧
        s'.queue.toList = [] := by
  intro p s
  have hs : s.Ready := ⟨rfl, ⟨rfl, rfl, rfl⟩, rfl, rfl⟩
  have hempty : s.queue.toList = [] := ReceiveQueue.toList_empty
  have hwave : framed 1666 [0] = (false, 1666) :: (framed 1666 [0]).tail := rfl
  have hcycles : s.wire.cyclesIn p.nanos = 1666 := by decide
  obtain ⟨last, hstopped⟩ := hs.play_of_full (by decide) (by decide) 1666
    (framed 1666 [0]).tail (by decide) (by decide)
  rw [← hwave] at hstopped
  have hsent : (transmitter .receiver p).sendEach [0] s
      = .error (.fault .count) (s.onWire last .confirming) := by
    rw [sendEach_eq_play hcycles, EStateM.adaptExcept, hstopped]
  exact ⟨⟨16000000, 9600, by decide⟩, ⟨by decide, by decide⟩, hs, by rw [hempty]; decide,
    by decide, _, hsent, hempty⟩

/-! ## 4. One rate for both -/

theorem sendEach_singleton (byte : UInt8) (s : Station n) :
    (transmitter .receiver tx).sendEach [byte] s = (transmitter .receiver tx).sendByte byte s := by
  rw [Transmitter.sendEach, List.forM_eq_forM, List.forM_cons]
  simp only [bind, EStateM.bind]
  cases (transmitter .receiver tx).sendByte byte s <;> rfl

/-- **When a station hears itself.**  With a transmitter and a receiver of one accepted rate, a
ready station receives a byte that is sent on its own wire if and only if the frame lasts until
its stop bit is sampled, and which byte it is makes no difference.  A rate that no nanoseconds
are left for is accepted as well, and is one of those that fail. -/
theorem sendByte_receives_iff {p : BitPeriod} {clock baud longest : UInt32}
    (hrate : BitPeriod.ofRate clock baud longest = .ok p) {s : Station n} (hs : s.Ready)
    (hclock : s.wire.clock = clock) (hperiod : s.receiver.period = p)
    (hroom : s.queue.toList.length + 1 ≤ n - 1)
    (hfits : (s.sendExtent 1 (s.wire.cyclesIn p.nanos)).Fits) (byte : UInt8) :
    ((∃ s', (transmitter .receiver p).sendByte byte s = .ok () s' ∧ Receives [byte] s s') ↔
      9 * p.ticks + p.half ≤ 10 * s.wire.cyclesIn p.nanos) ∧
    (p.nanos ≠ 0 ↔ baud.toNat ≤ 1000000000) := by
  refine ⟨⟨?_, ?_⟩, BitPeriod.nanos_ne_zero_iff hrate⟩
  · rintro ⟨s', hok, hreceives⟩
    rw [← sendEach_singleton] at hok
    rw [← hperiod] at hok ⊢
    exact hreceives.reached hs hok
  · intro hreached
    -- both lengths are cut, the transmitter's twice, so its bit is never the longer one
    have hshort : s.wire.cyclesIn p.nanos ≤ p.ticks :=
      Wire.cyclesIn_nanos_le_ticks (by rw [hclock]; exact hrate)
    have hhalf : 0 < p.half := Nat.div_pos p.two_le_ticks (by decide)
    have hwindow : s.receiver.period.Tolerates (s.wire.cyclesIn p.nanos) := by
      rw [hperiod]
      exact ⟨hreached, by omega⟩
    obtain ⟨⟨⟩, s', hok, hreceives⟩ := (within_sendEach hs hwindow [byte] hroom).exists_ok hfits
    rw [sendEach_singleton] at hok
    exact ⟨s', hok, hreceives⟩

/-- A byte at 9600 bits a second, on a board of 16 MHz. -/
theorem sendByte_receives_iff_9600 :
    BitPeriod.ofRate 16000000 9600 65535 = .ok ⟨1666, 104166, by decide⟩ ∧
      ∃ s', (transmitter .receiver ⟨1666, 104166, by decide⟩).sendByte 85
          (waiting 16000000 ⟨1666, 104166, by decide⟩) = .ok () s' ∧
        Receives [85] (waiting 16000000 ⟨1666, 104166, by decide⟩) s' := by
  have hrate : BitPeriod.ofRate 16000000 9600 65535 = .ok ⟨1666, 104166, by decide⟩ := by decide
  have hreceives := sendByte_receives_iff hrate (ready_waiting 16000000 ⟨1666, 104166, by decide⟩)
    rfl rfl (room_waiting _ _ 85) ⟨by decide, by decide⟩ 85
  exact ⟨hrate, hreceives.1.mpr (by decide)⟩

/-- 16 MHz and 5333333 bits a second: the ticks round to three a bit and the nanoseconds to two
cycles, and the frame is over before the seventh data bit is sampled.  At 4 GHz and 2 * 10 ^ 9
bits a second no nanosecond is left of a bit. -/
theorem sendByte_three_ticks_unfinished :
    BitPeriod.ofRate 16000000 5333333 65535 = .ok ⟨3, 187, by decide⟩ ∧
      (∃ s', (transmitter .receiver ⟨3, 187, by decide⟩).sendByte 85
          (waiting 16000000 ⟨3, 187, by decide⟩) = .ok () s' ∧
        s'.queue.toList = [] ∧ s'.receiver.phase = .data 51 6) ∧
      BitPeriod.ofRate 4000000000 2000000000 65535 = .ok ⟨2, 0, by decide⟩ := by
  have hs := ready_waiting 16000000 ⟨3, 187, by decide⟩
  have hplay := hs.hears (framed 2 [85])
  have hsend : (transmitter .receiver ⟨3, 187, by decide⟩).sendEach [85]
      (waiting 16000000 ⟨3, 187, by decide⟩) = _ := sendEach_eq_play rfl [85]
  obtain ⟨⟨⟩, s', hok, hheard⟩ := (hplay.adaptExcept Halt.fault).exists_ok
    ⟨by decide +kernel, by decide +kernel⟩
  -- `listen` is small enough to be evaluated, where the loop of a run is not
  have hframes : (listen ⟨3, 187, by decide⟩ 0 true (framed 2 [85])).frames = [] := by
    decide +kernel
  have hphase : (listen ⟨3, 187, by decide⟩ 0 true (framed 2 [85])).phase = .data 51 6 := by
    decide +kernel
  refine ⟨by decide, ⟨s', ?_, ?_, ?_⟩, by decide⟩
  · rw [← sendEach_singleton, hsend]
    exact hok
  · have hqueue : s'.queue = ((waiting 16000000 ⟨3, 187, by decide⟩).closeFrames
        (listen ⟨3, 187, by decide⟩ 0 true (framed 2 [85])).frames).queue := by
      rw [hheard.station]
      rfl
    rw [hqueue, hframes]
    exact ReceiveQueue.toList_empty
  · rw [hheard.station]
    exact hphase

end Station

end SerialLink
