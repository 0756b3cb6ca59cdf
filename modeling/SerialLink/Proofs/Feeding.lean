/-
# Two ways into a router

Bytes reach a router in pieces that are handed over (`Ingress::write`), or out of a receive
queue that somebody else fills and that is drained now and then (`Ingress::drain`).  A line may
begin in one piece and end in another, or lie half in the queue when it is drained.  This module
proves that none of this matters.

What matters is the *stream* (`Feed.stream`): the pieces, and what the queue held each time it
was drained, in order.  The lines of the stream, as `Proofs.Splitting` says them, are the lines
that the router delivers, each to the first header that starts it.  The router that has been given
a stream is `Router.after`, whatever pieces it came in, once it is rid of a line that it has given
and still stores (`takeEach_of_settled`, `feed_of_settled`).

So two ways to bring the same bytes, in pieces or through a queue that refuses none of them,
make the same calls in the same order (`Brings.stream_eq`).
-/
import SerialLink.Proofs.Splitting
import SerialLink.Command.Router

namespace SerialLink

/-! ## 1. The router after some bytes -/

namespace Router

variable {ω : Type}

/-- The router without a line that its buffer has given. -/
def settled (r : Router ω) : Router ω := { r with buffer := r.buffer.settled }

/-- The settled router that has been given these bytes. -/
def after (registry : Registry ω) (settings : CommandSettings) (limit : Nat)
    (bytes : List UInt8) : Router ω :=
  ⟨registry, .after settings limit bytes⟩

/-- What comes of a line. -/
def deliver (registry : Registry ω) (line : Line) : Delivery ω :=
  ⟨line, registry.dispatch line.bytes⟩

/-- What comes of a stream, line by line. -/
def deliveries (registry : Registry ω) (settings : CommandSettings) (limit : Nat)
    (bytes : List UInt8) : List (Delivery ω) :=
  (settings.lines limit bytes).map (deliver registry)

variable {registry : Registry ω} {settings : CommandSettings} {limit : Nat} {r : Router ω}

theorem settled_attach (registry : Registry ω) (settings : CommandSettings) (limit : Nat) :
    (attach registry settings limit).settled = after registry settings limit [] := by
  rw [after, LineBuffer.after_nil]
  rfl

/-- **One byte takes the router after some bytes to the router after one byte more.** -/
theorem take_of_settled {before : List UInt8}
    (hr : r.settled = after registry settings limit before) (byte : UInt8) :
    (r.take byte).1 = (settings.answer limit before byte).map (deliver registry) ∧
      (r.take byte).2.settled = after registry settings limit (before ++ [byte]) := by
  obtain ⟨rfl, hbuffer⟩ := Router.mk.inj hr
  obtain ⟨hline, hsettled⟩ := LineBuffer.push_of_settled hbuffer byte
  refine ⟨?_, congrArg (Router.mk r.registry) hsettled⟩
  rw [← hline]
  rfl

/-- **Bytes that are taken one after the other bring the lines that they complete.** -/
theorem takeEach_of_settled (bytes : List UInt8) : ∀ {r : Router ω} {before : List UInt8},
    r.settled = after registry settings limit before →
    deliveries registry settings limit before ++ (r.takeEach bytes).1
      = deliveries registry settings limit (before ++ bytes) ∧
    (r.takeEach bytes).2.settled = after registry settings limit (before ++ bytes) := by
  induction bytes with
  | nil =>
    intro r before hr
    rw [List.append_nil]
    exact ⟨List.append_nil _, hr⟩
  | cons byte rest ih =>
    intro r before hr
    obtain ⟨hdelivery, htaken⟩ := take_of_settled hr byte
    obtain ⟨hdeliveries, hrouter⟩ := ih htaken
    -- the lines of one byte more are the lines so far and the one it completes, if any
    have hconcat : deliveries registry settings limit (before ++ [byte])
        = deliveries registry settings limit before ++ (r.take byte).1.toList := by
      rw [hdelivery, deliveries, settings.lines_concat, List.map_append]
      cases settings.answer limit before byte <;> rfl
    rw [List.append_cons]
    rw [hconcat, List.append_assoc] at hdeliveries
    exact ⟨hdeliveries, hrouter⟩

/-- The calls of a stream are those of its lines. -/
theorem filterMap_call_deliveries (bytes : List UInt8) :
    (deliveries registry settings limit bytes).filterMap Delivery.call
      = (settings.lines limit bytes).filterMap fun line => registry.dispatch line.bytes := by
  rw [deliveries, List.filterMap_map]
  rfl

end Router

/-! ## 2. A router and its queue -/

/-- A router, and the queue that it drains. -/
structure Inlet (n : Nat) (ω : Type) where
  router : Router ω
  queue : ReceiveQueue n

/-- One thing that happens at an inlet. -/
inductive Feed where
  /-- Bytes are handed over. -/
  | accept (bytes : List UInt8)
  /-- A byte is put into the queue, if there is room for it. -/
  | push (byte : UInt8)
  /-- The queue is told that a byte was lost. -/
  | markLost
  /-- The queue is drained. -/
  | drain
  deriving DecidableEq, Repr

/-- What is answered. -/
inductive Response (ω : Type) where
  /-- What came of the bytes. -/
  | batch (batch : Batch ω)
  /-- Whether there was room for the byte. -/
  | taken (room : Bool)
  | done
  deriving DecidableEq, Repr

namespace Response

variable {ω : Type}

/-- The completed lines and their calls. -/
def deliveries : Response ω → List (Delivery ω)
  | batch b => b.deliveries
  | _ => []

/-- The calls that were made. -/
def calls (r : Response ω) : List (Call ω) := r.deliveries.filterMap Delivery.call

/-- How many lines were completed. -/
def lineCount : Response ω → Nat
  | batch b => b.lineCount
  | _ => 0

theorem lineCount_eq (r : Response ω) : r.lineCount = r.deliveries.length := by
  cases r <;> rfl

end Response

namespace Inlet

variable {n : Nat} {ω : Type}

/-- A new router at a queue. -/
def attach (registry : Registry ω) (settings : CommandSettings) (limit : Nat)
    (queue : ReceiveQueue n) : Inlet n ω :=
  ⟨.attach registry settings limit, queue⟩

/-- Let it happen. -/
def feed (i : Inlet n ω) : Feed → Response ω × Inlet n ω
  | .accept bytes =>
    let (batch, router) := i.router.accept bytes
    (.batch batch, { i with router := router })
  | .push byte =>
    let (taken, queue) := i.queue.push byte
    (.taken taken, { i with queue := queue })
  | .markLost => (.done, { i with queue := i.queue.markLost })
  | .drain =>
    let (batch, router, queue) := i.router.drain i.queue
    (.batch batch, ⟨router, queue⟩)

/-- All the calls that are made while things happen. -/
def calls (i : Inlet n ω) (feeds : List Feed) : List (Call ω) :=
  (callEach feed i feeds).1.flatMap Response.calls

end Inlet

/-! ## 3. The stream -/

namespace Feed

/-- The bytes that wait in a queue of `n` slots, if these did before. -/
def waits (n : Nat) (waiting : List UInt8) : Feed → List UInt8
  | push byte => if waiting.length < n - 1 then waiting ++ [byte] else waiting
  | drain => []
  | _ => waiting

/-- The bytes that come to the router, if these wait in the queue. -/
def brings (waiting : List UInt8) : Feed → List UInt8
  | accept bytes => bytes
  | drain => waiting
  | _ => []

/-- The bytes that wait in the end. -/
def left (n : Nat) (waiting : List UInt8) (feeds : List Feed) : List UInt8 :=
  feeds.foldl (waits n) waiting

/-- The bytes that come to the router in all. -/
def stream (n : Nat) : List UInt8 → List Feed → List UInt8
  | _, [] => []
  | waiting, first :: rest => first.brings waiting ++ stream n (first.waits n waiting) rest

theorem stream_append (n : Nat) (feeds more : List Feed) : ∀ waiting : List UInt8,
    stream n waiting (feeds ++ more)
      = stream n waiting feeds ++ stream n (left n waiting feeds) more := by
  induction feeds with
  | nil => exact fun _ => rfl
  | cons first rest ih =>
    intro waiting
    rw [List.cons_append, stream, stream, ih, List.append_assoc]
    rfl

/-- Pieces that are handed over come through as they are. -/
theorem stream_accept (n : Nat) (waiting : List UInt8) (pieces : List (List UInt8)) :
    stream n waiting (pieces.map accept) = pieces.flatten := by
  induction pieces with
  | nil => rfl
  | cons first rest ih =>
    rw [List.map_cons, stream, List.flatten_cons]
    exact congrArg (first ++ ·) ih

/-- The byte that goes to the queue, if there is one. -/
def byte? : Feed → Option UInt8
  | push byte => some byte
  | _ => none

end Feed

namespace Inlet

variable {n : Nat} {ω : Type} {registry : Registry ω} {settings : CommandSettings} {limit : Nat}
  {before : List UInt8}

/-! ## 4. One thing, and many -/

/-- The bytes that wait are those that `Feed.waits` says. -/
theorem toList_feed (i : Inlet n ω) (f : Feed) :
    (i.feed f).2.queue.toList = f.waits n i.queue.toList := by
  cases f with
  | accept bytes => rfl
  | push byte =>
    have hlength : i.queue.toList.length < n := by
      rw [ReceiveQueue.length_toList]
      exact i.queue.ring.length_lt
    have hroom : i.queue.hasRoom = true ↔ i.queue.toList.length < n - 1 := by
      rw [ReceiveQueue.hasRoom_iff]
      omega
    exact (ReceiveQueue.toList_push _ _).trans (if_congr hroom rfl rfl)
  | markLost => rfl
  | drain => exact (ReceiveQueue.toList_popAll _).2

/-- A drained queue is empty, and its mark is clear. -/
theorem queue_feed_drain (i : Inlet n ω) :
    (i.feed .drain).2.queue.toList = [] ∧ (i.feed .drain).2.queue.lost = false :=
  ⟨toList_feed i .drain, ReceiveQueue.lost_popUpTo _ _⟩

/-- **One thing brings its bytes to the router,** which answers with the lines that they
complete. -/
theorem feed_of_settled {i : Inlet n ω}
    (hrouter : i.router.settled = .after registry settings limit before) (f : Feed) :
    (i.feed f).2.router.settled = .after registry settings limit (before ++ f.brings i.queue.toList) ∧
    Router.deliveries registry settings limit before ++ (i.feed f).1.deliveries
      = Router.deliveries registry settings limit (before ++ f.brings i.queue.toList) := by
  cases f with
  | accept bytes =>
    obtain ⟨hdeliveries, htaken⟩ := Router.takeEach_of_settled bytes hrouter
    exact ⟨htaken, hdeliveries⟩
  | drain =>
    -- a drain hands over what waits, whether or not the mark was set
    have hpopped : i.queue.takeLost.2.popAll.1 = i.queue.toList :=
      (ReceiveQueue.toList_popAll _).1
    obtain ⟨hdeliveries, htaken⟩ := Router.takeEach_of_settled i.queue.toList hrouter
    simp only [feed, Router.drain, hpopped]
    exact ⟨htaken, hdeliveries⟩
  | push byte =>
    -- a push and a mark stay in the queue: the router does not hear of them
    have hnone : before ++ (Feed.push byte).brings i.queue.toList = before := List.append_nil _
    rw [hnone]
    exact ⟨hrouter, List.append_nil _⟩
  | markLost =>
    have hnone : before ++ Feed.markLost.brings i.queue.toList = before := List.append_nil _
    rw [hnone]
    exact ⟨hrouter, List.append_nil _⟩

/-- **Many things bring their stream.**  By induction, with the router after everything that
came before. -/
theorem callEach_feed_of_settled (feeds : List Feed) :
    ∀ {i : Inlet n ω} {before : List UInt8},
    i.router.settled = .after registry settings limit before →
    (callEach feed i feeds).2.router.settled
      = .after registry settings limit (before ++ Feed.stream n i.queue.toList feeds) ∧
    (callEach feed i feeds).2.queue.toList = Feed.left n i.queue.toList feeds ∧
    Router.deliveries registry settings limit before
        ++ (callEach feed i feeds).1.flatMap Response.deliveries
      = Router.deliveries registry settings limit
          (before ++ Feed.stream n i.queue.toList feeds) := by
  induction feeds with
  | nil =>
    intro i before hrouter
    rw [Feed.stream, List.append_nil]
    exact ⟨hrouter, rfl, List.append_nil _⟩
  | cons first rest ih =>
    intro i before hrouter
    obtain ⟨hfirst, hdeliveries⟩ := feed_of_settled hrouter first
    have hrest := ih hfirst
    rw [toList_feed, ← hdeliveries, List.append_assoc, List.append_assoc] at hrest
    exact hrest

/-! ## 5. Bytes on their way -/

/-- **Ways to bring some bytes.** -/
inductive Brings (i : Inlet n ω) (bytes : List UInt8) : List Feed → Prop
  /-- They are handed over in pieces. -/
  | pieces (pieces : List (List UInt8)) (whole : pieces.flatten = bytes) :
      Brings i bytes (pieces.map .accept)
  /-- They go through the queue, which refuses none of them, and which is drained now and then
  and once in the end. -/
  | queued (feeds : List Feed) (empty : i.queue.toList = [])
      (through : ∀ piece, .accept piece ∉ feeds) (all : feeds.filterMap Feed.byte? = bytes)
      (taken : .taken false ∉ (callEach feed i feeds).1) :
      Brings i bytes (feeds ++ [.drain])

/-- If no byte is refused, then what has come to the router and what waits are all the bytes, in
order. -/
theorem stream_append_left (feeds : List Feed) : ∀ {i : Inlet n ω},
    (∀ piece, .accept piece ∉ feeds) → .taken false ∉ (callEach feed i feeds).1 →
    Feed.stream n i.queue.toList feeds ++ Feed.left n i.queue.toList feeds
      = i.queue.toList ++ feeds.filterMap Feed.byte? := by
  induction feeds with
  | nil => exact fun _ _ => (List.append_nil _).symm
  | cons first rest ih =>
    intro i hthrough htaken
    simp only [callEach, List.mem_cons, not_or] at htaken
    have hrest := ih (fun piece hmem => hthrough piece (List.mem_cons_of_mem _ hmem)) htaken.2
    rw [toList_feed] at hrest
    rw [Feed.stream, List.append_assoc]
    -- what is left to show: the first thing neither loses a byte nor changes their order
    refine (congrArg (first.brings i.queue.toList ++ ·) hrest).trans ?_
    cases first with
    | accept piece => exact absurd (List.mem_cons_self) (hthrough piece)
    | push byte =>
      have hroom : i.queue.hasRoom = true := by
        rw [← ReceiveQueue.push_fst i.queue byte]
        cases hpush : (i.queue.push byte).1 with
        | true => rfl
        | false => exact absurd (congrArg Response.taken hpush).symm htaken.1
      have hwaits : (Feed.push byte).waits n i.queue.toList = i.queue.toList ++ [byte] := by
        rw [← toList_feed]
        exact (ReceiveQueue.toList_push i.queue byte).trans (if_pos hroom)
      rw [hwaits, List.append_assoc]
      rfl
    | markLost => rfl
    | drain => rfl

/-- **Whichever way they come, they are the stream.** -/
theorem Brings.stream_eq {i : Inlet n ω} {bytes : List UInt8} {feeds : List Feed}
    (h : i.Brings bytes feeds) : Feed.stream n i.queue.toList feeds = bytes := by
  cases h with
  | pieces pieces whole => rw [Feed.stream_accept, whole]
  | queued feeds empty through all taken =>
    have hparts := stream_append_left feeds through taken
    rw [empty, List.nil_append, all] at hparts
    rw [Feed.stream_append, empty]
    simp only [Feed.stream, Feed.brings, List.append_nil]
    exact hparts

/-! ## 6. The lines of the stream -/

/-- **What comes of a stream:** the responses to these things and the inlet behind them, if these
bytes waited at first. -/
structure Fed (registry : Registry ω) (settings : CommandSettings) (limit : Nat)
    (waiting : List UInt8) (feeds : List Feed) (responses : List (Response ω)) (i : Inlet n ω) :
    Prop where
  /-- The calls are those that the lines of the stream lead to, in order. -/
  calls : responses.flatMap Response.calls
    = (settings.lines limit (Feed.stream n waiting feeds)).filterMap
        fun line => registry.dispatch line.bytes
  /-- Each response counts the lines that its own bytes completed. -/
  count : ∀ before next rest, feeds = before ++ next :: rest →
    ∃ response, responses[before.length]? = some response ∧
      (settings.lines limit (Feed.stream n waiting before)).length + response.lineCount
        = (settings.lines limit (Feed.stream n waiting (before ++ [next]))).length
  /-- The length is that of the line that is being received. -/
  length : i.router.length
    = ((settings.unfinished (Feed.stream n waiting feeds)).take limit).length
  /-- What has been pushed and not drained waits, as far as there was room for it. -/
  queue : i.queue.toList = Feed.left n waiting feeds
  /-- A drained queue is empty, and its mark is clear. -/
  drained : ∀ before, feeds = before ++ [.drain] → i.queue.toList = [] ∧ i.queue.lost = false

theorem fed_attach (registry : Registry ω) (settings : CommandSettings) (limit : Nat)
    (q : ReceiveQueue n) (feeds : List Feed) :
    Fed registry settings limit q.toList feeds
      (callEach feed (attach registry settings limit q) feeds).1
      (callEach feed (attach registry settings limit q) feeds).2 := by
  have hattach : (attach registry settings limit q).router.settled
      = .after registry settings limit [] := Router.settled_attach registry settings limit
  -- everything is read off the run lemma, from a router that has taken no bytes
  have hfed := fun feeds => callEach_feed_of_settled feeds hattach
  have hnil : Router.deliveries registry settings limit [] = [] := by
    rw [Router.deliveries, settings.lines_nil]
    rfl
  have hwaits : (attach registry settings limit q).queue = q := rfl
  simp only [List.nil_append, hnil, hwaits] at hfed
  obtain ⟨hrouter, hqueue, hdeliveries⟩ := hfed feeds
  refine ⟨?_, ?_, ?_, hqueue, ?_⟩
  · rw [← Router.filterMap_call_deliveries, ← hdeliveries, List.filterMap_flatMap]
    rfl
  · rintro before next rest rfl
    obtain ⟨hbefore, hwaiting, -⟩ := hfed before
    obtain ⟨-, hnext⟩ := feed_of_settled hbefore next
    refine ⟨_, getElem?_callEach _ before next rest, ?_⟩
    have hlength := congrArg List.length hnext
    rw [hwaiting, List.length_append, ← Response.lineCount_eq] at hlength
    rw [Feed.stream_append]
    simpa only [Router.deliveries, List.length_map, Feed.stream, List.append_nil] using hlength
  · rw [Router.length, LineBuffer.held_eq]
    exact congrArg (fun r => r.buffer.stored.length) hrouter
  · rintro before rfl
    rw [callEach_append]
    exact queue_feed_drain _

/-- **The stream decides.**  What a new router makes of the bytes that come to it, through its
queue or past it, is what their stream comes to; and two ways to bring the same bytes make the
same calls. -/
theorem callEach_feed_attach (registry : Registry ω) (settings : CommandSettings) (limit : Nat) :
    (∀ (n : Nat) (q : ReceiveQueue n) (feeds : List Feed),
      Fed registry settings limit q.toList feeds
        (callEach feed (attach registry settings limit q) feeds).1
        (callEach feed (attach registry settings limit q) feeds).2) ∧
    ∀ (n n' : Nat) (q : ReceiveQueue n) (q' : ReceiveQueue n') (bytes : List UInt8)
      (feeds feeds' : List Feed),
      Brings (attach registry settings limit q) bytes feeds →
      Brings (attach registry settings limit q') bytes feeds' →
      (attach registry settings limit q).calls feeds
        = (attach registry settings limit q').calls feeds' := by
  refine ⟨fun n q feeds => fed_attach registry settings limit q feeds, ?_⟩
  intro n n' q q' bytes feeds feeds' hbrings hbrings'
  have hcalls := (fed_attach registry settings limit q feeds).calls
  have hcalls' := (fed_attach registry settings limit q' feeds').calls
  have hstream : Feed.stream n q.toList feeds = bytes := hbrings.stream_eq
  have hstream' : Feed.stream n' q'.toList feeds' = bytes := hbrings'.stream_eq
  rw [hstream] at hcalls
  rw [hstream'] at hcalls'
  exact hcalls.trans hcalls'.symm

/-- `+A` and `OK`, each with its line end: handed over in two pieces, and through a queue with room
for two bytes that is drained in the middle of the second line. -/
theorem callEach_feed_attach_two_ways :
    let registry : Registry Nat := ⟨2, [⟨[43], 8, 1, by decide⟩, ⟨[79, 75], 2, 5, by decide⟩],
      by decide⟩
    let pieces : List Feed := [[43, 65, 10, 79], [75, 10]].map .accept
    let queued : List Feed :=
      [.push 43, .push 65, .drain, .push 10, .push 79, .drain, .markLost, .push 75, .push 10]
        ++ [.drain]
    let whole : Inlet 1 Nat := attach registry .standard 8 .empty
    let drained : Inlet 3 Nat := attach registry .standard 8 .empty
    whole.Brings [43, 65, 10, 79, 75, 10] pieces ∧
    drained.Brings [43, 65, 10, 79, 75, 10] queued ∧
    whole.calls pieces = drained.calls queued ∧
    whole.calls pieces = [⟨⟨0⟩, 1, [43, 65]⟩, ⟨⟨1⟩, 5, [79, 75]⟩] := by
  intro registry pieces queued whole drained
  have hpieces : whole.Brings [43, 65, 10, 79, 75, 10] pieces := .pieces _ (by decide)
  have hqueued : drained.Brings [43, 65, 10, 79, 75, 10] queued :=
    .queued _ (by decide) (by simp) (by decide) (by decide)
  have hcalls :=
    (callEach_feed_attach registry .standard 8).2 1 3 .empty .empty _ _ _ hpieces hqueued
  exact ⟨hpieces, hqueued, hcalls, by decide⟩

end Inlet

end SerialLink
