/-
# A registry and its calls

A registry is asked one thing after the other: to register a header (`AtMaster::register`), or
to dispatch a line (`AtMaster::dispatch`).  This module says what it answers, and what it holds,
after any such history.

* A line leads to a call for the first entry whose header starts it, and to no other
  (`dispatch_eq_some_iff`).
* An offer is refused for its own length before it is refused for want of room, and a query that
  registers nothing leaves the registry as it was (`replies_ask`).
* The entries are the offers that were accepted, in order, each with its place for an id.  They
  can be told from the history alone: the first offers that fit their own length, as many as
  there is room for (`Kept`).

What a handler gets is cut to the length of its entry, and the header of an entry fits that
length because no offer that breaks it was ever accepted.  So the line that is handed over still
starts with the whole header (`First.header_cut`).
-/
import Mathlib
import SerialLink.Command.Registry
import SerialLink.Proofs.Calling

namespace SerialLink

variable {ω : Type}

namespace Registry

/-! ## 1. The first match -/

/-- The entry `e`, with place `i`, is the first whose header starts the line. -/
structure First (r : Registry ω) (line : List UInt8) (i : Nat) (e : Entry ω) : Prop where
  entry : r.entries[i]? = some e
  starts : e.header <+: line
  earlier : ∀ j < i, ∀ e', r.entries[j]? = some e' → ¬ e'.header <+: line

variable {r : Registry ω} {line : List UInt8} {i : Nat} {e : Entry ω}

theorem accepts_iff : e.accepts line = true ↔ e.header <+: line := List.isPrefixOf_iff_prefix

theorem find?_eq_some_iff : r.find? line = some (e, i) ↔ r.First line i e := by
  -- the library speaks of the places in the numbered list, and `First` of those in the entries
  rw [find?, List.find?_eq_some_iff_getElem]
  constructor
  · rintro ⟨haccepts, k, hk, hplace, hearlier⟩
    rw [List.getElem_zipIdx, Prod.mk.injEq] at hplace
    obtain ⟨rfl, rfl⟩ := hplace
    rw [List.length_zipIdx] at hk
    refine ⟨?_, accepts_iff.mp haccepts, ?_⟩
    · rw [Nat.zero_add, List.getElem?_eq_getElem hk]
    · intro j hj e' he' hstarts
      obtain ⟨hj', rfl⟩ := List.getElem?_eq_some_iff.mp he'
      have hnot := hearlier j (by omega)
      rw [List.getElem_zipIdx, accepts_iff.mpr hstarts] at hnot
      cases hnot
  · rintro ⟨hentry, hstarts, hearlier⟩
    obtain ⟨hi, rfl⟩ := List.getElem?_eq_some_iff.mp hentry
    refine ⟨accepts_iff.mpr hstarts, i, by rw [List.length_zipIdx]; exact hi, ?_, ?_⟩
    · rw [List.getElem_zipIdx, Nat.zero_add]
    · intro j hj
      have hj' : j < r.entries.length := Nat.lt_trans hj hi
      rw [List.getElem_zipIdx, Bool.not_eq_true', ← Bool.not_eq_true, accepts_iff]
      exact hearlier j hj _ (List.getElem?_eq_getElem hj')

theorem find?_eq_none_iff : r.find? line = none ↔ ∀ e ∈ r.entries, ¬ e.header <+: line := by
  rw [find?, List.find?_eq_none]
  constructor
  · intro h e he hstarts
    obtain ⟨i, hi, rfl⟩ := List.mem_iff_getElem.mp he
    exact h (r.entries[i], i) (List.mem_zipIdx_iff_getElem?.mpr (List.getElem?_eq_getElem hi))
      (accepts_iff.mpr hstarts)
  · rintro h ⟨e, i⟩ hmem haccepts
    exact h e (List.mem_of_getElem? (List.mem_zipIdx_iff_getElem?.mp hmem))
      (accepts_iff.mp haccepts)

/-- **A line leads to one call,** for the first entry whose header starts it. -/
theorem dispatch_eq_some_iff {call : Call ω} :
    r.dispatch line = some call ↔
      ∃ i e, r.First line i e ∧ call = ⟨⟨i⟩, e.owner, line.take (min line.length e.maxLength)⟩ := by
  have hcut : ∀ e : Entry ω, e.cut line = line.take (min line.length e.maxLength) := fun e => by
    rw [Entry.cut, List.take_eq_take_iff]
    omega
  rw [dispatch, Option.map_eq_some_iff]
  constructor
  · rintro ⟨⟨e, i⟩, hfind, rfl⟩
    exact ⟨i, e, find?_eq_some_iff.mp hfind, congrArg (Call.mk ⟨i⟩ e.owner) (hcut e)⟩
  · rintro ⟨i, e, hfirst, rfl⟩
    exact ⟨(e, i), find?_eq_some_iff.mpr hfirst, congrArg (Call.mk ⟨i⟩ e.owner) (hcut e)⟩

theorem dispatch_eq_none_iff :
    r.dispatch line = none ↔ ∀ e ∈ r.entries, ¬ e.header <+: line := by
  rw [dispatch, Option.map_eq_none_iff, find?_eq_none_iff]

/-- **What a handler gets still starts with the whole header.** -/
theorem First.header_cut (h : r.First line i e) :
    e.header <+: line.take (min line.length e.maxLength) := by
  obtain ⟨rest, rfl⟩ := h.starts
  have hheader := e.header_le
  rw [List.length_append, List.prefix_take_iff]
  exact ⟨List.prefix_append _ _, by omega⟩

/-! ## 2. Queries -/

/-- A header that somebody wants registered. -/
structure Offer (ω : Type) where
  header : List UInt8
  maxLength : Nat
  owner : ω
  deriving DecidableEq, Repr

/-- The header is no longer than the lines it is to get. -/
def Offer.fits (o : Offer ω) : Bool := o.header.length ≤ o.maxLength

/-- The offer that an entry was made of. -/
def offerOf (e : Entry ω) : Offer ω := ⟨e.header, e.maxLength, e.owner⟩

/-- What a registry can be asked. -/
inductive Query (ω : Type) where
  | register (offer : Offer ω)
  | dispatch (line : List UInt8)
  deriving DecidableEq, Repr

/-- What it answers. -/
inductive Answer (ω : Type) where
  | registered (result : Except RegistryError CommandId)
  | dispatched (call : Option (Call ω))

/-- Answer a query. -/
def ask (r : Registry ω) : Query ω → Answer ω × Registry ω
  | .register offer =>
    match r.register offer.header offer.maxLength offer.owner with
    | .ok (id, r') => (.registered (.ok id), r')
    | .error cause => (.registered (.error cause), r)
  | .dispatch line => (.dispatched (r.dispatch line), r)

/-- What becomes of an offer in a registry `r`, which it leaves as `r'`. -/
structure Registers (r : Registry ω) (offer : Offer ω) (result : Except RegistryError CommandId)
    (r' : Registry ω) : Prop where
  /-- The length is looked at first, however full the registry is. -/
  headerTooLong : result = .error .headerTooLong ↔ offer.maxLength < offer.header.length
  full : result = .error .full ↔
    offer.header.length ≤ offer.maxLength ∧ r.entries.length = r.capacity
  accepted : ∀ id, result = .ok id →
    id.index = r.entries.length ∧ r'.entries.map offerOf = r.entries.map offerOf ++ [offer]
  refused : ∀ cause, result = .error cause → r' = r

/-- What becomes of a line in a registry. -/
structure Dispatches (r : Registry ω) (line : List UInt8) (result : Option (Call ω)) : Prop where
  none : result = none ↔ ∀ e ∈ r.entries, ¬ e.header <+: line
  call : ∀ call, result = some call ↔
    ∃ i e, r.First line i e ∧ call = ⟨⟨i⟩, e.owner, line.take (min line.length e.maxLength)⟩
  header : ∀ call, result = some call → ∃ e, r.get? call.id = some e ∧ e.header <+: call.line

/-- The answer to a query, and what it makes of the registry. -/
inductive Replies (r : Registry ω) : Query ω → Answer ω → Registry ω → Prop
  | register {offer : Offer ω} {result : Except RegistryError CommandId} {r' : Registry ω}
      (h : Registers r offer result r') : Replies r (.register offer) (.registered result) r'
  | dispatch {line : List UInt8} {result : Option (Call ω)} (h : Dispatches r line result) :
      Replies r (.dispatch line) (.dispatched result) r

theorem ask_of_long {offer : Offer ω} (h : offer.maxLength < offer.header.length) :
    r.ask (.register offer) = (.registered (.error .headerTooLong), r) := by
  simp only [ask, register, dif_neg (Nat.not_le.mpr h)]

theorem ask_of_full {offer : Offer ω} (hfits : offer.header.length ≤ offer.maxLength)
    (hfull : r.entries.length = r.capacity) :
    r.ask (.register offer) = (.registered (.error .full), r) := by
  simp only [ask, register, dif_pos hfits, dif_neg (Nat.not_lt.mpr (Nat.le_of_eq hfull.symm))]

theorem ask_of_room {offer : Offer ω} (hfits : offer.header.length ≤ offer.maxLength)
    (hroom : r.entries.length < r.capacity) :
    ∃ r', r.ask (.register offer) = (.registered (.ok ⟨r.entries.length⟩), r') ∧
      r'.capacity = r.capacity ∧ r'.entries.map offerOf = r.entries.map offerOf ++ [offer] := by
  let entry : Entry ω := ⟨offer.header, offer.maxLength, offer.owner, hfits⟩
  have hlength : (r.entries ++ [entry]).length ≤ r.capacity := by
    rw [List.length_append]
    exact hroom
  refine ⟨⟨r.capacity, r.entries ++ [entry], hlength⟩, ?_, rfl, ?_⟩
  · simp only [ask, register, dif_pos hfits, dif_pos hroom]
    rfl
  · rw [List.map_append]
    rfl

theorem registers_ask (r : Registry ω) (offer : Offer ω) :
    ∃ result r', r.ask (.register offer) = (.registered result, r') ∧
      Registers r offer result r' := by
  -- the header is looked at before the room, so a full registry refuses a long one for its length
  by_cases hfits : offer.header.length ≤ offer.maxLength
  · rcases Nat.lt_or_eq_of_le r.length_le with hroom | hfull
    · obtain ⟨r', hask, -, hentries⟩ := ask_of_room hfits hroom
      refine ⟨_, r', hask, ?_, ?_, ?_, ?_⟩
      · exact ⟨nofun, fun h => absurd h (Nat.not_lt.mpr hfits)⟩
      · exact ⟨nofun, fun h => absurd h.2 (Nat.ne_of_lt hroom)⟩
      · rintro id hid
        cases hid
        exact ⟨rfl, hentries⟩
      · rintro cause hcause
        cases hcause
    · refine ⟨_, r, ask_of_full hfits hfull, ?_, ?_, ?_, fun _ _ => rfl⟩
      · exact ⟨nofun, fun h => absurd h (Nat.not_lt.mpr hfits)⟩
      · exact ⟨fun _ => ⟨hfits, hfull⟩, fun _ => rfl⟩
      · rintro id hid
        cases hid
  · have hlong : offer.maxLength < offer.header.length := Nat.lt_of_not_le hfits
    refine ⟨_, r, ask_of_long hlong, ?_, ?_, ?_, fun _ _ => rfl⟩
    · exact ⟨fun _ => hlong, fun _ => rfl⟩
    · exact ⟨nofun, fun h => absurd h.1 hfits⟩
    · rintro id hid
      cases hid

theorem dispatches_dispatch (r : Registry ω) (line : List UInt8) :
    Dispatches r line (r.dispatch line) where
  none := dispatch_eq_none_iff
  call _ := dispatch_eq_some_iff
  header call hcall := by
    obtain ⟨i, e, hfirst, rfl⟩ := dispatch_eq_some_iff.mp hcall
    exact ⟨e, hfirst.entry, hfirst.header_cut⟩

/-- **Every query has its answer.** -/
theorem replies_ask (r : Registry ω) (query : Query ω) :
    Replies r query (r.ask query).1 (r.ask query).2 := by
  cases query with
  | register offer =>
    obtain ⟨result, r', hask, hregisters⟩ := registers_ask r offer
    rw [hask]
    exact .register hregisters
  | dispatch line => exact .dispatch (dispatches_dispatch r line)

/-! ## 3. Histories -/

/-- What a query offers, if it offers anything. -/
def Query.offer? : Query ω → Option (Offer ω)
  | register offer => some offer
  | dispatch _ => none

/-- The offers that find their way into a registry with this room: those that fit their own
length, as many as there is room for. -/
def taken (capacity : Nat) (queries : List (Query ω)) : List (Offer ω) :=
  ((queries.filterMap Query.offer?).filter Offer.fits).take capacity

/-- The offer that was accepted, with the place it was given. -/
def acceptance? : Query ω × Answer ω → Option (Offer ω × Nat)
  | (.register offer, .registered (.ok id)) => some (offer, id.index)
  | _ => none

/-- The offers that were accepted, in order, each with the place it was given. -/
def acceptances (queries : List (Query ω)) (answers : List (Answer ω)) : List (Offer ω × Nat) :=
  (queries.zip answers).filterMap acceptance?

theorem taken_dispatch (capacity : Nat) (queries : List (Query ω)) (line : List UInt8) :
    taken capacity (queries ++ [.dispatch line]) = taken capacity queries := by
  simp [taken, Query.offer?]

theorem taken_of_not_fits (capacity : Nat) (queries : List (Query ω)) {offer : Offer ω}
    (h : ¬ offer.header.length ≤ offer.maxLength) :
    taken capacity (queries ++ [.register offer]) = taken capacity queries := by
  simp [taken, Query.offer?, Offer.fits, h]

/-- An offer that fits is taken if there is room left. -/
theorem taken_of_fits (capacity : Nat) (queries : List (Query ω)) {offer : Offer ω}
    (h : offer.header.length ≤ offer.maxLength) :
    taken capacity (queries ++ [.register offer])
      = taken capacity queries
        ++ if (taken capacity queries).length < capacity then [offer] else [] := by
  have hfits : offer.fits = true := decide_eq_true h
  have hsplit : (queries ++ [Query.register offer]).filterMap Query.offer?
      = queries.filterMap Query.offer? ++ [offer] := by
    rw [List.filterMap_append]
    rfl
  rw [taken, hsplit, List.filter_append, List.filter_cons_of_pos hfits, List.filter_nil,
    List.take_append, taken, List.length_take]
  congr 1
  split
  · exact List.take_of_length_le (by rw [List.length_singleton]; omega)
  · have hnone : capacity - ((queries.filterMap Query.offer?).filter Offer.fits).length = 0 := by
      omega
    rw [hnone, List.take_zero]

/-- **What a history has made of a registry that was empty,** and what it was answered. -/
structure Kept (room : Nat) (queries : List (Query ω)) (answers : List (Answer ω))
    (r : Registry ω) : Prop where
  capacity : r.capacity = room
  /-- The entries can be told from the queries. -/
  entries : r.entries.map offerOf = taken room queries
  /-- They are what was accepted, and each has its place for an id. -/
  acceptances : acceptances queries answers = (r.entries.map offerOf).zipIdx
  length_le : r.entries.length ≤ room

theorem kept_nil (capacity : Nat) :
    Kept capacity [] [] (empty capacity : Registry ω) where
  capacity := rfl
  entries := by simp [empty, taken]
  acceptances := rfl
  length_le := Nat.zero_le _

/-- A query that nothing comes of leaves things as they are. -/
theorem Kept.of_not_accepted {capacity : Nat} {queries : List (Query ω)}
    {answers : List (Answer ω)} (h : Kept capacity queries answers r) {query : Query ω}
    {answer : Answer ω} (hlength : answers.length = queries.length)
    (htaken : taken capacity (queries ++ [query]) = taken capacity queries)
    (hnone : acceptance? (query, answer) = none) :
    Kept capacity (queries ++ [query]) (answers ++ [answer]) r where
  capacity := h.capacity
  entries := htaken ▸ h.entries
  acceptances := by
    rw [← h.acceptances, Registry.acceptances, List.zip_append hlength.symm,
      List.filterMap_append, List.zip_cons_cons, List.filterMap_cons_none hnone]
    exact List.append_nil _
  length_le := h.length_le

/-- **One query more** keeps the registry in order. -/
theorem Kept.ask {capacity : Nat} {queries : List (Query ω)} {answers : List (Answer ω)}
    (h : Kept capacity queries answers r) (hlength : answers.length = queries.length)
    (query : Query ω) :
    Kept capacity (queries ++ [query]) (answers ++ [(r.ask query).1]) (r.ask query).2 := by
  -- the room that is left can be told from the history, as there is one entry for each offer taken
  have hcount : (taken capacity queries).length = r.entries.length := by
    rw [← h.entries, List.length_map]
  cases query with
  | dispatch line => exact h.of_not_accepted hlength (taken_dispatch capacity queries line) rfl
  | register offer =>
    by_cases hfits : offer.header.length ≤ offer.maxLength
    · have htaken := taken_of_fits capacity queries hfits
      rw [hcount] at htaken
      rcases Nat.lt_or_eq_of_le r.length_le with hroom | hfull
      · obtain ⟨r', hask, hcapacity, hentries⟩ := ask_of_room hfits hroom
        rw [h.capacity] at hcapacity
        rw [if_pos (h.capacity ▸ hroom), ← h.entries, ← hentries] at htaken
        rw [hask]
        refine ⟨hcapacity, htaken.symm, ?_, hcapacity ▸ r'.length_le⟩
        rw [Registry.acceptances, List.zip_append hlength.symm, List.filterMap_append, hentries,
          List.zipIdx_append, List.length_map, Nat.zero_add]
        exact congrArg (· ++ _) h.acceptances
      -- a full registry has no room for an offer that fits, and the history takes no more either
      · rw [if_neg (by rw [← h.capacity, hfull]; exact Nat.lt_irrefl _), List.append_nil] at htaken
        rw [ask_of_full hfits hfull]
        exact h.of_not_accepted hlength htaken rfl
    · rw [ask_of_long (Nat.lt_of_not_le hfits)]
      exact h.of_not_accepted hlength (taken_of_not_fits capacity queries hfits) rfl

theorem kept_callEach_ask (capacity : Nat) (queries : List (Query ω)) :
    Kept capacity queries (callEach ask (empty capacity) queries).1
      (callEach ask (empty capacity) queries).2 := by
  -- from the end, as the last query meets what all those before it have registered
  induction queries using List.reverseRecOn with
  | nil => exact kept_nil capacity
  | append_singleton queries query ih =>
    rw [callEach_concat]
    exact ih.ask (length_callEach queries _) query

/-- **A registry holds what was accepted and calls the first that matches.**  Whatever an empty
registry is asked, and in whatever order: its entries are the offers that were accepted, in
order, each with its place for an id; and each query along the way is answered by what has been
registered before it, and moves the registry only if it is an offer that is accepted. -/
theorem callEach_ask_empty (capacity : Nat) (queries : List (Query ω)) :
    Kept capacity queries (callEach ask (empty capacity) queries).1
        (callEach ask (empty capacity) queries).2 ∧
      ∀ before query rest, queries = before ++ query :: rest →
        ∃ answer, (callEach ask (empty capacity) queries).1[before.length]? = some answer ∧
          Replies (callEach ask (empty capacity) before).2 query answer
            (callEach ask (empty capacity) (before ++ [query])).2 := by
  refine ⟨kept_callEach_ask capacity queries, ?_⟩
  rintro before query rest rfl
  refine ⟨_, getElem?_callEach _ before query rest, ?_⟩
  rw [callEach_concat]
  exact replies_ask _ query

end Registry

end SerialLink
