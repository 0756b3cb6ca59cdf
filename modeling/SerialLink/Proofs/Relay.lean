/-
# Commands over the wire

One party of a link sends commands, one after the other (`Sender::send_command`), and after each
of them the other party puts what has arrived through its router (`Ingress::drain`).  Everything
that the program does to a byte lies on this way: a command is trimmed and written in pieces,
the pieces are sent as frames, the frames are sampled, the samples are put together again and
queued, and the queue is drained into lines that find their handlers.

Each of these parts has its theorem, and this module puts them in a row.

* A request that is carried out on a transmitter sends its frame, in however many pieces
  (`perform_of_sendEach`).
* The clock goes on by the length of what is sent, and the timer never points further than one
  first interval behind it (`Elapses`).  With the counts of interrupts, which go on by one edge
  and nine samples a byte, that is what lets one bound at the start hold for any number of
  commands.
* One command arrives whole and leaves the link as it was, but for the clock (`relay_ok`), and
  so do all of them (`relayEach_ok`).
-/
import SerialLink.Link
import SerialLink.Proofs.Loopback
import SerialLink.Proofs.Feeding

namespace SerialLink

/-! ## 1. What a request sends -/

namespace Transmitter

variable {σ ε : Type}

/-- To write pieces is to send what they are pieces of. -/
theorem forM_writePiece (tx : Transmitter σ) (f : PinFault → ε) (pieces : List (List UInt8)) :
    ∀ s : σ, pieces.forM (Request.writePiece (tx.writer.mapError f)) s
      = (tx.sendEach pieces.flatten).adaptExcept (Halt.mapError f) s := by
  induction pieces with
  | nil => exact fun _ => rfl
  | cons first rest ih =>
    intro s
    have hpiece : Request.writePiece (tx.writer.mapError f) first s
        = (tx.sendEach first).adaptExcept (Halt.mapError f) s := by
      simp only [Request.writePiece, bind, EStateM.bind, Writer.writeFully_mapError,
        writeFully_writer]
      cases (tx.sendEach first).adaptExcept (Halt.mapError f) s <;> rfl
    -- a piece is sent by sending its bytes, so the loop over the pieces is one over all bytes
    have hsplit : tx.sendEach (first :: rest).flatten
        = tx.sendEach first >>= fun _ => tx.sendEach rest.flatten := by
      rw [List.flatten_cons]
      exact List.forM_append
    rw [hsplit, adaptExcept_bind, List.forM_eq_forM, List.forM_cons]
    simp only [bind, EStateM.bind, hpiece]
    cases (tx.sendEach first).adaptExcept (Halt.mapError f) s with
    | error e s' => rfl
    | ok a s' => exact ih s'

/-- **A request that is carried out sends its frame** and answers what it has to. -/
theorem perform_of_sendEach {tx : Transmitter σ} {settings : CommandSettings} {request : Request}
    {s s' : σ} (h : tx.sendEach (request.frame settings) s = .ok () s') :
    request.perform settings tx.writer s = .ok (request.answer settings) s' := by
  have hpieces := tx.forM_writePiece (fun _ => WriteFailure.mk) (request.pieces settings) s
  rw [EStateM.adaptExcept, ← Request.frame, h] at hpieces
  simp only [Request.perform, bind, EStateM.bind, hpieces]
  rfl

/-- A request stops at a fault of its transmitter. -/
theorem perform_of_fault {tx : Transmitter σ} {settings : CommandSettings} {request : Request}
    {s s' : σ} {fault : Fault}
    (h : tx.sendEach (request.frame settings) s = .error (.fault fault) s') :
    request.perform settings tx.writer s = .error (.fault fault) s' := by
  have hpieces := tx.forM_writePiece (fun _ => WriteFailure.mk) (request.pieces settings) s
  rw [EStateM.adaptExcept, ← Request.frame, h] at hpieces
  simp only [Request.perform, bind, EStateM.bind, hpieces]
  rfl

end Transmitter

/-- A command goes out trimmed, with the end of commands behind it. -/
theorem Request.frame_command (settings : CommandSettings) (bytes : List UInt8) :
    (Request.command bytes).frame settings
      = Request.trimmed settings bytes ++ settings.commandEnd :=
  congrArg (_ ++ ·) (List.append_nil _)

/-! ## 2. The clock -/

namespace Station

open Waveform

variable {n : Nat} {s s' : Station n}

/-- **So many cycles have gone by,** and the timer points no further than one first interval
from here, unless it did so before. -/
structure Elapses (cycles : Nat) (s s' : Station n) : Prop where
  now : s'.wire.now = s.wire.now + cycles
  target : s'.wire.target ≤ max s.wire.target (s'.wire.now + s.receiver.period.firstInterval)
  clock : s'.wire.clock = s.wire.clock
  period : s'.receiver.period = s.receiver.period

theorem Elapses.refl (s : Station n) : Elapses 0 s s := ⟨rfl, Nat.le_max_left _ _, rfl, rfl⟩

theorem Elapses.trans {t : Station n} {cycles more : Nat} (h : Elapses cycles s t)
    (h' : Elapses more t s') : Elapses (cycles + more) s s' := by
  have htarget := h.target
  have htarget' := h'.target
  have hnow' := h'.now
  rw [h.period] at htarget'
  refine ⟨?_, ?_, h'.clock.trans h.clock, h'.period.trans h.period⟩
  · rw [hnow', h.now, Nat.add_assoc]
  · omega

theorem elapses_hold {level : Bool} {cycles : Nat}
    (h : hold .receiver level cycles s = .ok () s') : Elapses cycles s s' := by
  have hrun : run .receiver cycles { s with wire := s.wire.drive level } = .ok () s' := h
  obtain ⟨hsame, hnow⟩ := sameSetting_run hrun
  have hperiod : s'.receiver.period = s.receiver.period := hsame.period
  have hdrive : (s.wire.drive level).target = s.wire.target := by
    unfold Wire.drive
    split <;> rfl
  obtain ⟨passed, hserves⟩ := serves_of_serveMatches (serveMatches_of_run hrun).2
  have htarget := target_serves hserves
  have hedge := target_serveEdge { s with wire := s.wire.drive level }
  rw [(sameSetting_serveEdge _).period] at htarget
  simp only [Wire.now_drive, hdrive] at hnow htarget hedge
  exact ⟨hnow, by omega, (sameSetting_hold h).1, hperiod⟩

theorem elapses_play (wave : Waveform) : ∀ {s s' : Station n},
    play .receiver wave s = .ok () s' → Elapses (duration wave) s s' := by
  induction wave with
  | nil =>
    intro s s' h
    cases h
    exact .refl s
  | cons segment rest ih =>
    intro s s' h
    rw [play_cons_eq_bind] at h
    obtain ⟨⟨⟩, t, hhold, hrest⟩ := bind_eq_ok.mp h
    rw [duration_cons]
    exact (elapses_hold hhold).trans (ih hrest)

/-- Ten bits go by for each byte that is sent. -/
theorem elapses_sendEach {tx : BitPeriod} {bytes : List UInt8}
    (h : (transmitter .receiver tx).sendEach bytes s = .ok () s') :
    Elapses (bytes.length * (10 * s.wire.cyclesIn tx.nanos)) s s' := by
  rw [sendEach_eq_play rfl, adaptExcept_eq_ok] at h
  rw [← duration_framed]
  exact elapses_play _ h

variable {count rest cycles : Nat}

/-- What is counted behind some bytes is counted for them and the rest. -/
theorem Elapses.sendExtent_le (h : Elapses (count * (10 * cycles)) s s')
    (hedges : s'.wire.edgeCount = s.wire.edgeCount + count)
    (hsamples : s'.wire.matchCount = s.wire.matchCount + 9 * count) :
    (s'.sendExtent rest cycles).Le (s.sendExtent (count + rest) cycles) := by
  have hnow := h.now
  have htarget := h.target
  simp only [sendExtent, h.period, Nat.add_mul, hedges, hsamples]
  constructor <;> simp only <;> omega

theorem sendExtent_mono (h : count ≤ rest) :
    (s.sendExtent count cycles).Le (s.sendExtent rest cycles) := by
  have hmul := Nat.mul_le_mul_right (10 * cycles) h
  constructor <;> simp only [sendExtent] <;> omega

end Station

/-! ## 3. One command -/

/-- What came of one command. -/
structure Relayed (ω : Type) where
  /-- What its sender was answered. -/
  answer : Option Nat
  /-- The bytes that waited when the queue was drained. -/
  arrived : List UInt8
  batch : Batch ω

namespace Link

variable {n : Nat} {ω : Type}

/-- The modem sends a command, and the host drains what has arrived. -/
def relay (command : List UInt8) : EStateM (Halt WriteFailure) (Link n ω) (Relayed ω) := do
  let answer ← send .modem (.command command)
  let arrived := (← get).down.queue.toList
  let batch ← modifyGet drain
  return ⟨answer, arrived, batch⟩

/-- Commands one after the other. -/
def relayEach :
    List (List UInt8) → EStateM (Halt WriteFailure) (Link n ω) (List (Relayed ω))
  | [] => return []
  | first :: rest => do
    let result ← relay first
    let others ← relayEach rest
    return result :: others

/-- What a command comes to on the wire. -/
def frame (l : Link n ω) (command : List UInt8) : List UInt8 :=
  Request.trimmed l.settings command ++ l.settings.commandEnd

/-- The cycles of one bit of the modem. -/
def bitCycles (l : Link n ω) : Nat := l.down.wire.cyclesIn l.modemPeriod.nanos

/-- The host waits for the modem: its receiver is ready, its queue is empty, and the modem's
bits are inside its window. -/
structure Awaits (l : Link n ω) : Prop where
  ready : l.down.Ready
  empty : l.down.queue.toList = []
  window : l.down.receiver.period.Tolerates l.bitCycles

/-- **The link is as it was,** but for the clock and the counts of interrupts, which have gone on
by so many bytes. -/
structure Continues (count : Nat) (l l' : Link n ω) : Prop where
  awaits : l'.Awaits
  settings : l'.settings = l.settings
  modemPeriod : l'.modemPeriod = l.modemPeriod
  elapses : Station.Elapses (count * (10 * l.bitCycles)) l.down l'.down
  edges : l'.down.wire.edgeCount = l.down.wire.edgeCount + count
  samples : l'.down.wire.matchCount = l.down.wire.matchCount + 9 * count

variable {l l' : Link n ω} {registry : Registry ω} {settings : CommandSettings} {limit : Nat}
  {before : List UInt8}

theorem Continues.frame {count : Nat} (h : Continues count l l') : l'.frame = l.frame := by
  funext command
  rw [Link.frame, Link.frame, h.settings]

theorem Continues.bitCycles {count : Nat} (h : Continues count l l') :
    l'.bitCycles = l.bitCycles := by
  rw [Link.bitCycles, Link.bitCycles, h.modemPeriod, Wire.cyclesIn, Wire.cyclesIn, h.elapses.clock]

/-- **A frame has been conveyed** behind these bytes: its sender was told that all of it was
written, just that arrived, and the router completed the lines that it brought. -/
structure Conveyed (registry : Registry ω) (settings : CommandSettings) (limit : Nat)
    (before frame : List UInt8) (result : Relayed ω) : Prop where
  answer : result.answer = some frame.length
  arrived : result.arrived = frame
  deliveries : Router.deliveries registry settings limit before ++ result.batch.deliveries
    = Router.deliveries registry settings limit (before ++ frame)

/-- A drained link has an empty queue, and the rest of it is as it was. -/
theorem drain_of_settled (hrouter : l.router.settled = .after registry settings limit before) :
    Router.deliveries registry settings limit before ++ l.drain.1.deliveries
        = Router.deliveries registry settings limit (before ++ l.down.queue.toList) ∧
      l.drain.2.router.settled
        = .after registry settings limit (before ++ l.down.queue.toList) ∧
      l.drain.2.down.queue.toList = [] := by
  obtain ⟨hafter, hdeliveries⟩ :=
    Inlet.feed_of_settled (i := ⟨l.router, l.down.queue⟩) hrouter .drain
  exact ⟨hdeliveries, hafter, Inlet.toList_feed ⟨l.router, l.down.queue⟩ .drain⟩

/-- **A command is conveyed.** -/
theorem relay_ok (hl : l.Awaits)
    (hrouter : l.router.settled = .after registry settings limit before)
    {command : List UInt8} (hroom : (l.frame command).length ≤ n - 1)
    (hfits : (l.down.sendExtent (l.frame command).length l.bitCycles).Fits) :
    ∃ result l', relay command l = .ok result l' ∧
      Conveyed registry settings limit before (l.frame command) result ∧
      l'.router.settled = .after registry settings limit (before ++ l.frame command) ∧
      Continues (l.frame command).length l l' := by
  have hframe : (Request.command command).frame l.settings = l.frame command :=
    Request.frame_command l.settings command
  have hroom' : l.down.queue.toList.length + (l.frame command).length ≤ n - 1 := by
    rw [hl.empty, List.length_nil, Nat.zero_add]
    exact hroom
  obtain ⟨⟨⟩, down, hsend, hreceives⟩ :=
    (Station.within_sendEach hl.ready hl.window (l.frame command) hroom').exists_ok hfits
  have helapses := Station.elapses_sendEach hsend
  have hqueue : down.queue.toList = l.frame command := by
    rw [hreceives.queue, hl.empty, List.nil_append]
  rw [← hframe] at hsend
  have hperform := Transmitter.perform_of_sendEach hsend
  have hsent : send .modem (.command command) l
      = .ok (some (l.frame command).length) { l with down := down } := by
    simp only [send, sendOn, hperform, Request.answer, Request.isCommand, hframe, if_true]
  -- the frame is all that the drain finds
  obtain ⟨hdeliveries, hafter, hempty⟩ := drain_of_settled (l := { l with down := down }) hrouter
  rw [hqueue] at hdeliveries hafter
  -- no clock has changed on the way, so the window is still good for the next command
  have hcycles : down.wire.cyclesIn l.modemPeriod.nanos = l.bitCycles := by
    rw [bitCycles, Wire.cyclesIn, Wire.cyclesIn, helapses.clock]
  have hready := hreceives.ready
  have hwindow : down.receiver.period.Tolerates (down.wire.cyclesIn l.modemPeriod.nanos) := by
    rw [helapses.period, hcycles]
    exact hl.window
  refine ⟨⟨some (l.frame command).length, down.queue.toList, (drain { l with down := down }).1⟩,
    (drain { l with down := down }).2, ?_, ⟨rfl, hqueue, hdeliveries⟩, hafter,
    ⟨⟨hready.high, hready.listening, hready.idle, hready.readable⟩, hempty, hwindow⟩, rfl, rfl, ?_,
    hreceives.edges, hreceives.samples⟩
  · simp only [relay, bind, EStateM.bind, hsent]
    rfl
  · exact ⟨helapses.now, helapses.target, helapses.clock, helapses.period⟩

/-! ## 4. Many commands -/

/-- These frames have been conveyed in order, with these results. -/
inductive Relays (registry : Registry ω) (settings : CommandSettings) (limit : Nat) :
    List UInt8 → List (List UInt8) → List (Relayed ω) → Prop
  | nil {before : List UInt8} : Relays registry settings limit before [] []
  | cons {before frame : List UInt8} {result : Relayed ω} {frames : List (List UInt8)}
      {results : List (Relayed ω)} (first : Conveyed registry settings limit before frame result)
      (rest : Relays registry settings limit (before ++ frame) frames results) :
      Relays registry settings limit before (frame :: frames) (result :: results)

/-- **Commands are conveyed,** one after the other.  By induction, with one bound on the clock and
the counts for all of them. -/
theorem relayEach_ok (commands : List (List UInt8)) : ∀ {l : Link n ω} {before : List UInt8},
    l.Awaits → l.router.settled = .after registry settings limit before →
    (∀ command ∈ commands, (l.frame command).length ≤ n - 1) →
    (l.down.sendExtent (commands.flatMap l.frame).length l.bitCycles).Fits →
    ∃ results l', relayEach commands l = .ok results l' ∧
      Relays registry settings limit before (commands.map l.frame) results := by
  induction commands with
  | nil => exact fun {l} _ _ _ _ _ => ⟨[], l, rfl, .nil⟩
  | cons first rest ih =>
    intro l before hl hrouter hroom hfits
    rw [List.flatMap_cons, List.length_append] at hfits
    have hfirst := hfits.mono (Station.sendExtent_mono (Nat.le_add_right _ _))
    obtain ⟨result, t, hrelay, hconveyed, hrouter', hcontinues⟩ :=
      relay_ok hl hrouter (hroom first List.mem_cons_self) hfirst
    -- what the first command has used is no more than its share of the bounds
    have hfits' : (t.down.sendExtent (rest.flatMap t.frame).length t.bitCycles).Fits := by
      rw [hcontinues.frame, hcontinues.bitCycles]
      exact hfits.mono (hcontinues.elapses.sendExtent_le hcontinues.edges hcontinues.samples)
    have hroom' : ∀ command ∈ rest, (t.frame command).length ≤ n - 1 := by
      rw [hcontinues.frame]
      exact fun command hmem => hroom command (List.mem_cons_of_mem _ hmem)
    obtain ⟨results, l', hrest, hrelays⟩ := ih hcontinues.awaits hrouter' hroom' hfits'
    rw [hcontinues.frame] at hrelays
    refine ⟨result :: results, l', ?_, .cons hconveyed hrelays⟩
    simp only [relayEach, bind, EStateM.bind, hrelay, hrest]
    rfl

variable {frames : List (List UInt8)} {results : List (Relayed ω)}

namespace Relays

theorem answers (h : Relays registry settings limit before frames results) :
    results.map Relayed.answer = frames.map fun frame => some frame.length := by
  induction h with
  | nil => rfl
  | cons first rest ih => rw [List.map_cons, List.map_cons, ih, first.answer]

theorem arrived (h : Relays registry settings limit before frames results) :
    results.map Relayed.arrived = frames := by
  induction h with
  | nil => rfl
  | cons first rest ih => rw [List.map_cons, ih, first.arrived]

/-- All the lines are those of the stream of all the frames. -/
theorem deliveries (h : Relays registry settings limit before frames results) :
    Router.deliveries registry settings limit before
        ++ results.flatMap (fun result => result.batch.deliveries)
      = Router.deliveries registry settings limit (before ++ frames.flatten) := by
  induction h with
  | nil => rw [List.flatten_nil, List.append_nil, List.flatMap_nil, List.append_nil]
  | cons first rest ih =>
    rw [List.flatten_cons, ← List.append_assoc, ← ih, ← first.deliveries, List.append_assoc,
      List.flatMap_cons]

end Relays

/-! ## 5. One line for each command -/

/-- A command that makes one line under the usual settings: not empty, without the two bytes
that end a command, and short enough for the line buffer. -/
structure OneLine (limit : Nat) (text : List UInt8) : Prop where
  ne_nil : text ≠ []
  plain : ∀ byte ∈ text, byte ≠ 10 ∧ byte ≠ 13
  length_le : text.length ≤ limit

/-- Its frame closes the line, and leaves none open. -/
theorem OneLine.parts {text : List UInt8} (h : OneLine limit text)
    (hbefore : CommandSettings.standard.unfinished before = []) :
    CommandSettings.standard.lines limit (before ++ (text ++ [13, 10]))
        = CommandSettings.standard.lines limit before ++ [⟨text, false⟩] ∧
      CommandSettings.standard.unfinished (before ++ (text ++ [13, 10])) = [] := by
  have hplain : ∀ byte ∈ text, CommandSettings.standard.ignored ≠ some byte ∧
      byte ≠ CommandSettings.standard.lineEnd := by
    intro byte hmem
    obtain ⟨hend, hignored⟩ := h.plain byte hmem
    exact ⟨fun heq => hignored (Option.some.inj heq).symm, hend⟩
  obtain ⟨hclosed, hopen⟩ := CommandSettings.standard.parts_append hplain before
  rw [hbefore, List.nil_append] at hopen
  -- the first end byte is ignored by the receiving side, and the second closes the line
  obtain ⟨hclosed', hopen'⟩ := CommandSettings.standard.parts_concat (before ++ text) 13
  rw [if_neg (by decide), hclosed] at hclosed'
  rw [if_pos (by decide), hopen] at hopen'
  obtain ⟨hclosed'', hopen''⟩ := CommandSettings.standard.parts_concat (before ++ text ++ [13]) 10
  rw [if_pos (by decide), hclosed', hopen'] at hclosed''
  rw [if_neg (by decide), if_pos (by decide)] at hopen''
  have hframe : before ++ (text ++ [13, 10]) = before ++ text ++ [13] ++ [10] := by simp
  -- the line is not cut, as the text fits the buffer
  have hline : CommandSettings.standard.lineOf limit text = some ⟨text, false⟩ := by
    have hfull : ¬ limit < text.length := Nat.not_lt.mpr h.length_le
    simp [CommandSettings.lineOf, h.ne_nil, hfull, List.take_of_length_le h.length_le]
  rw [hframe]
  refine ⟨?_, hopen''⟩
  rw [CommandSettings.lines, hclosed'', List.filterMap_append, List.filterMap_cons_some hline]
  rfl

/-- **Each command is one line,** and the drain behind it delivers that line and no other. -/
theorem Relays.lines {texts : List (List UInt8)} (htexts : ∀ text ∈ texts, OneLine limit text) :
    ∀ {before : List UInt8} {results : List (Relayed ω)},
      CommandSettings.standard.unfinished before = [] →
      Relays registry .standard limit before (texts.map (· ++ [13, 10])) results →
      results.map (fun result => result.batch.deliveries)
        = texts.map fun text => [Router.deliver registry ⟨text, false⟩] := by
  induction texts with
  | nil =>
    intro before results hbefore h
    cases h
    rfl
  | cons text texts ih =>
    intro before results hbefore h
    cases h with
    | cons first rest =>
      -- no line is open before the frame, and none is behind it: the next one starts the same way
      obtain ⟨hlines, hclosed⟩ := (htexts text List.mem_cons_self).parts hbefore
      have hdeliveries := first.deliveries
      rw [Router.deliveries, Router.deliveries, hlines, List.map_append,
        List.append_cancel_left_eq] at hdeliveries
      rw [List.map_cons, List.map_cons, hdeliveries,
        ih (fun t ht => htexts t (List.mem_cons_of_mem _ ht)) hclosed rest]
      rfl

/-- **What comes of commands** that are sent over a link to a new router. -/
structure AllConveyed (l : Link n ω) (registry : Registry ω) (settings : CommandSettings)
    (limit : Nat) (commands : List (List UInt8)) (results : List (Relayed ω)) : Prop where
  /-- Every sender is told the length of its frame. -/
  answers : results.map Relayed.answer = commands.map fun command => some (l.frame command).length
  /-- Every frame arrives as it is. -/
  arrived : results.map Relayed.arrived = commands.map l.frame
  /-- The calls are those of the lines of all the frames put together. -/
  calls : results.flatMap (fun result => result.batch.calls)
    = (settings.lines limit (commands.flatMap l.frame)).filterMap
        fun line => registry.dispatch line.bytes
  /-- Under the usual settings a command of one line brings that line when it is drained, and
  nothing else. -/
  oneLine : l.settings = .standard → settings = .standard →
    (∀ command ∈ commands, OneLine limit (Request.trimmed .standard command)) →
    results.map (fun result => result.batch.deliveries)
      = commands.map fun command =>
          [Router.deliver registry ⟨Request.trimmed .standard command, false⟩]

theorem Relays.allConveyed {commands : List (List UInt8)}
    (h : Relays registry settings limit [] (commands.map l.frame) results) :
    AllConveyed l registry settings limit commands results where
  answers := by
    rw [h.answers, List.map_map]
    rfl
  arrived := h.arrived
  calls := by
    have hdeliveries := h.deliveries
    rw [Router.deliveries, settings.lines_nil, List.map_nil, List.nil_append, List.nil_append,
      ← List.flatMap_def] at hdeliveries
    rw [← Router.filterMap_call_deliveries, ← hdeliveries, List.filterMap_flatMap]
    rfl
  oneLine := by
    rintro hsend rfl hline
    have hframe : l.frame = (· ++ [13, 10]) ∘ Request.trimmed .standard := by
      funext command
      rw [frame, hsend]
      rfl
    -- the frames are those of the trimmed commands, each with the two end bytes
    have htexts : ∀ text ∈ commands.map (Request.trimmed .standard), OneLine limit text := by
      simpa using hline
    rw [hframe, ← List.map_map] at h
    rw [h.lines htexts CommandSettings.standard.parts_nil.2, List.map_map]
    rfl

/-- **From command to handler.**  If the host waits for the modem with a new router, then every
list of commands comes through, as long as each fits the queue and the clock and the counts of
interrupts last. -/
theorem relayEach_conveys {l : Link n ω} (hl : l.Awaits)
    (hrouter : l.router = .attach registry settings limit) (commands : List (List UInt8))
    (hroom : ∀ command ∈ commands, (l.frame command).length ≤ n - 1)
    (hfits : (l.down.sendExtent (commands.flatMap l.frame).length l.bitCycles).Fits) :
    ∃ results l', relayEach commands l = .ok results l' ∧
      AllConveyed l registry settings limit commands results := by
  have hnew : l.router.settled = .after registry settings limit [] := by
    rw [hrouter]
    exact Router.settled_attach registry settings limit
  obtain ⟨results, l', hok, hrelays⟩ := relayEach_ok commands hl hnew hroom hfits
  exact ⟨results, l', hok, hrelays.allConveyed⟩

/-- `AT` and an `A` with a NUL behind it, at 9600 bits a second on a board of 16 MHz, into a queue
with room for seven bytes. -/
theorem relayEach_conveys_9600 :
    let period : BitPeriod := ⟨1666, 104166, by decide⟩
    let registry : Registry Nat := ⟨1, [⟨[65, 84], 4, 7, by decide⟩], by decide⟩
    let l : Link 8 Nat :=
      connect 16000000 .standard (period, .discard) (period, .keep) registry 8
    l.Awaits ∧ ∃ results l', relayEach [[65, 84], [65, 0, 66]] l = .ok results l' ∧
      results.map Relayed.answer = [some 4, some 3] ∧
      results.map Relayed.arrived = [[65, 84, 13, 10], [65, 13, 10]] ∧
      results.flatMap (fun result => result.batch.calls) = [⟨⟨0⟩, 7, [65, 84]⟩] ∧
      results.map (fun result => result.batch.deliveries)
        = [[⟨⟨[65, 84], false⟩, some ⟨⟨0⟩, 7, [65, 84]⟩⟩], [⟨⟨[65], false⟩, none⟩]] := by
  intro period registry l
  have hawaits : l.Awaits :=
    ⟨⟨rfl, ⟨rfl, rfl, rfl⟩, rfl, rfl⟩, ReceiveQueue.toList_empty, ⟨by decide, by decide⟩⟩
  obtain ⟨results, l', hok, hconveyed⟩ :=
    relayEach_conveys hawaits rfl [[65, 84], [65, 0, 66]] (by decide)
      ⟨by decide, by decide⟩
  have hfirst : Request.trimmed .standard [65, 84] = [65, 84] := by decide
  have hsecond : Request.trimmed .standard [65, 0, 66] = [65] := by decide
  have hone : ∀ command ∈ [[65, 84], [65, 0, 66]],
      OneLine 8 (Request.trimmed .standard command) := by
    simp only [List.forall_mem_cons, hfirst, hsecond]
    exact ⟨⟨by simp, by simp, by simp⟩, ⟨by simp, by simp, by simp⟩, by simp⟩
  exact ⟨hawaits, results, l', hok, hconveyed.answers.trans (by decide),
    hconveyed.arrived.trans (by decide), hconveyed.calls.trans (by decide),
    (hconveyed.oneLine rfl rfl hone).trans (by decide)⟩

/-- A host that waits for `AT` on a wire whose count of matches has run full
(`Station.run_neglected`): the command is not conveyed, though it fits the queue and the clock. -/
theorem relayEach_neglected :
    let period : BitPeriod := ⟨1666, 104166, by decide⟩
    let registry : Registry Nat := ⟨1, [⟨[65, 84], 4, 7, by decide⟩], by decide⟩
    let fresh : Link 8 Nat :=
      connect 16000000 .standard (period, .discard) (period, .keep) registry 8
    let l : Link 8 Nat :=
      { fresh with
        down := .attach (.neglected 16000000 4294967295) period .discard .empty .discard }
    l.Awaits ∧ l.router = .attach registry .standard 8 ∧ (l.frame [65, 84]).length ≤ 8 - 1 ∧
      (l.down.sendExtent (l.frame [65, 84]).length l.bitCycles).lastCycle < Wire.timeLimit ∧
      ∃ l', relayEach [[65, 84]] l = .error (.fault .count) l' ∧ l'.down.queue.toList = [] := by
  intro period registry fresh l
  have hawaits : l.Awaits :=
    ⟨⟨rfl, ⟨rfl, rfl, rfl⟩, rfl, rfl⟩, ReceiveQueue.toList_empty, ⟨by decide, by decide⟩⟩
  have hframe : (Request.command [65, 84]).frame l.settings = [65, 84, 13, 10] := by decide
  have hcycles : l.down.wire.cyclesIn l.modemPeriod.nanos = 1666 := by decide
  have hwave : Waveform.framed 1666 [65, 84, 13, 10]
      = (false, 1666) :: (Waveform.framed 1666 [65, 84, 13, 10]).tail := rfl
  obtain ⟨last, hstopped⟩ := hawaits.ready.play_of_full (by decide) (by decide) 1666
    (Waveform.framed 1666 [65, 84, 13, 10]).tail (by decide) (by decide)
  rw [← hwave] at hstopped
  -- the fault comes up through the layers: wire, transmitter, request, link
  have hsend : (Station.transmitter .receiver l.modemPeriod).sendEach
      ((Request.command [65, 84]).frame l.settings) l.down
      = .error (.fault .count) (l.down.onWire last .confirming) := by
    rw [hframe, Station.sendEach_eq_play hcycles, EStateM.adaptExcept, hstopped]
  have hsent : send .modem (.command [65, 84]) l = .error (.fault .count)
      { l with down := l.down.onWire last .confirming } := by
    simp only [send, sendOn, Transmitter.perform_of_fault hsend]
  refine ⟨hawaits, rfl, by decide, by decide,
    { l with down := l.down.onWire last .confirming }, ?_, ReceiveQueue.toList_empty⟩
  simp only [relayEach, relay, bind, EStateM.bind, hsent]

end Link

end SerialLink
