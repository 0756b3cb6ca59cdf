/-
# Requests on a writer that does as it likes

A request of a `Sender` is written to a writer that may take all of what it is offered or a part
of it, may fail, and may take nothing at all; and every flush may fail.  This module says what a
request comes to, whatever the writer does, with nothing but the writer's calls to go by.

* Every call is written down (`Writer.logged`), which changes nothing else.
* The loop that writes one piece is read as a derivation (`Offers`), and so are the pieces in a
  row, each with its flush (`Rounds`).  What is said of the calls is proved along these.
* The bytes that were taken are a front part of the frame at every moment, the first bad call
  ends the request and decides how, and nothing of the second piece is offered before the first
  is taken and flushed (`Written`).
-/
import Mathlib
import SerialLink.Command.Script

namespace SerialLink

variable {ε σ : Type}

/-! ## 1. Calls -/

namespace WriterEvent

/-- The bytes that a call took. -/
def accepted : WriterEvent → List UInt8
  | wrote offered taken => offered.take taken
  | _ => []

/-- The bytes that a call offered, if it was a write. -/
def offered? : WriterEvent → Option (List UInt8)
  | wrote offered _ => some offered
  | writeFailed offered => some offered
  | _ => none

/-- A write that took nothing of something. -/
def isStall : WriterEvent → Bool
  | wrote offered taken => taken == 0 && !offered.isEmpty
  | _ => false

/-- A write or a flush that failed. -/
def isFailure : WriterEvent → Bool
  | writeFailed _ => true
  | flushFailed => true
  | _ => false

/-- A call after which there is no going on. -/
def isBad (call : WriterEvent) : Bool := call.isStall || call.isFailure

/-- What a bad call ends a request with. -/
def halt (call : WriterEvent) : Halt WriteFailure :=
  if call.isStall then .fault .stalledWrite else .error ⟨⟩

/-- The bytes that calls took, in order. -/
def acceptedBy (calls : List WriterEvent) : List UInt8 := calls.flatMap accepted

@[simp] theorem acceptedBy_cons (call : WriterEvent) (calls : List WriterEvent) :
    acceptedBy (call :: calls) = call.accepted ++ acceptedBy calls := List.flatMap_cons

@[simp] theorem acceptedBy_append (calls more : List WriterEvent) :
    acceptedBy (calls ++ more) = acceptedBy calls ++ acceptedBy more := List.flatMap_append

end WriterEvent

open WriterEvent (acceptedBy)

namespace Writer

/-- The same writer, with its calls written down beside its own state. -/
def logged (w : Writer ε σ) : Writer ε (σ × List WriterEvent) where
  write bytes := fun s =>
    match w.write bytes s.1 with
    | .ok taken s' => .ok taken (s', s.2 ++ [.wrote bytes taken])
    | .error halt s' => .error halt (s', s.2 ++ [.writeFailed bytes])
  flush := fun s =>
    match w.flush s.1 with
    | .ok _ s' => .ok () (s', s.2 ++ [.flushed])
    | .error halt s' => .error halt (s', s.2 ++ [.flushFailed])

/-- A writer that takes no more than it is offered, and that fails with an error if it fails. -/
structure Fair (w : Writer ε σ) : Prop where
  write : ∀ bytes s taken s', w.write bytes s = .ok taken s' → taken ≤ bytes.length
  writeError : ∀ bytes s halt s', w.write bytes s = .error halt s' → ∃ e, halt = .error e
  flushError : ∀ s halt s', w.flush s = .error halt s' → ∃ e, halt = .error e

theorem Fair.mapError {ε' : Type} {w : Writer ε σ} (hw : w.Fair) (f : ε → ε') :
    (w.mapError f).Fair where
  write bytes s taken s' h := hw.write bytes s taken s' (adaptExcept_eq_ok.mp h)
  writeError bytes s halt s' h := by
    obtain ⟨inner, hinner, rfl⟩ := adaptExcept_eq_error.mp h
    obtain ⟨e, rfl⟩ := hw.writeError bytes s inner s' hinner
    exact ⟨f e, rfl⟩
  flushError s halt s' h := by
    obtain ⟨inner, hinner, rfl⟩ := adaptExcept_eq_error.mp h
    obtain ⟨e, rfl⟩ := hw.flushError s inner s' hinner
    exact ⟨f e, rfl⟩

/-- How an operation ends that may have been stopped. -/
def outcome {α : Type} (a : α) (s : σ) : Option (Halt ε) → EStateM.Result (Halt ε) σ α
  | none => .ok a s
  | some halt => .error halt s

/-- **The calls that offer `bytes` until all of them are taken,** from one state of the writer to
another, and what stops them if anything does. -/
inductive Offers (w : Writer WriteFailure σ) :
    List UInt8 → σ → List WriterEvent → Option (Halt WriteFailure) → σ → Prop
  | done {s : σ} : Offers w [] s [] none s
  | took {bytes : List UInt8} {s s' last : σ} {count : Nat} {calls : List WriterEvent}
      {stop : Option (Halt WriteFailure)} (left : bytes ≠ []) (pos : 0 < count)
      (fits : count ≤ bytes.length) (write : w.write bytes s = .ok count s')
      (rest : Offers w (bytes.drop count) s' calls stop last) :
      Offers w bytes s (.wrote bytes count :: calls) stop last
  | stalled {bytes : List UInt8} {s s' : σ} (left : bytes ≠ [])
      (write : w.write bytes s = .ok 0 s') :
      Offers w bytes s [.wrote bytes 0] (some (.fault .stalledWrite)) s'
  | failed {bytes : List UInt8} {s s' : σ} (left : bytes ≠ [])
      (write : w.write bytes s = .error (.error ⟨⟩) s') :
      Offers w bytes s [.writeFailed bytes] (some (.error ⟨⟩)) s'

variable {w : Writer WriteFailure σ} {bytes : List UInt8} {s last : σ} {calls : List WriterEvent}
  {stop : Option (Halt WriteFailure)}

/-- The derivation is what the loop does. -/
theorem Offers.writeFully (h : Offers w bytes s calls stop last) :
    w.writeFully bytes s = outcome () last stop := by
  induction h with
  | done =>
    rw [Writer.writeFully]
    rfl
  | @took bytes s s' last count calls stop left pos fits write rest ih =>
    -- the loop matches on what is left and on how much was taken, so both are written out
    obtain ⟨first, others, rfl⟩ := List.exists_cons_of_ne_nil left
    obtain ⟨taken, rfl⟩ := Nat.exists_eq_add_of_lt pos
    rw [Nat.zero_add, List.drop_succ_cons] at ih
    rw [Nat.zero_add] at write
    rw [Writer.writeFully]
    simp only [write]
    exact ih
  | @stalled bytes s s' left write =>
    obtain ⟨first, others, rfl⟩ := List.exists_cons_of_ne_nil left
    rw [Writer.writeFully]
    simp only [write]
    rfl
  | @failed bytes s s' left write =>
    obtain ⟨first, others, rfl⟩ := List.exists_cons_of_ne_nil left
    rw [Writer.writeFully]
    simp only [write]
    rfl

/-- A writer that writes down its calls makes the same ones. -/
theorem Offers.logged (h : Offers w bytes s calls stop last) :
    ∀ log, Offers w.logged bytes (s, log) calls stop (last, log ++ calls) := by
  induction h with
  | done =>
    intro log
    rw [List.append_nil]
    exact .done
  | @took bytes s s' last count calls stop left pos fits write rest ih =>
    intro log
    have hrest := ih (log ++ [.wrote bytes count])
    rw [List.append_assoc] at hrest
    exact .took left pos fits (by simp only [Writer.logged, write]) hrest
  | stalled left write =>
    intro log
    exact .stalled left (by simp only [Writer.logged, write])
  | failed left write =>
    intro log
    exact .failed left (by simp only [Writer.logged, write])

/-! ## 3. Pieces in a row -/

/-- **The calls that write pieces one after the other,** each flushed before the next. -/
inductive Rounds (w : Writer WriteFailure σ) :
    List (List UInt8) → σ → List WriterEvent → Option (Halt WriteFailure) → σ → Prop
  | done {s : σ} : Rounds w [] s [] none s
  | stopped {piece : List UInt8} {rest : List (List UInt8)} {s last : σ}
      {calls : List WriterEvent} {halt : Halt WriteFailure}
      (offers : Offers w piece s calls (some halt) last) :
      Rounds w (piece :: rest) s calls (some halt) last
  | unflushed {piece : List UInt8} {rest : List (List UInt8)} {s s' last : σ}
      {calls : List WriterEvent} (offers : Offers w piece s calls none s')
      (flush : w.flush s' = .error (.error ⟨⟩) last) :
      Rounds w (piece :: rest) s (calls ++ [.flushFailed]) (some (.error ⟨⟩)) last
  | flushed {piece : List UInt8} {rest : List (List UInt8)} {s s' s'' last : σ}
      {calls more : List WriterEvent} {stop : Option (Halt WriteFailure)}
      (offers : Offers w piece s calls none s') (flush : w.flush s' = .ok () s'')
      (others : Rounds w rest s'' more stop last) :
      Rounds w (piece :: rest) s (calls ++ .flushed :: more) stop last

variable {pieces : List (List UInt8)}

theorem Rounds.forM_writePiece (h : Rounds w pieces s calls stop last) :
    pieces.forM (Request.writePiece w) s = outcome () last stop := by
  induction h with
  | done => rfl
  | stopped offers =>
    simp only [List.forM_eq_forM, List.forM_cons, Request.writePiece, bind, EStateM.bind,
      offers.writeFully, outcome]
  | unflushed offers flush =>
    simp only [List.forM_eq_forM, List.forM_cons, Request.writePiece, bind, EStateM.bind,
      offers.writeFully, outcome, flush]
  | flushed offers flush others ih =>
    rw [List.forM_eq_forM] at ih
    simp only [List.forM_eq_forM, List.forM_cons, Request.writePiece, bind, EStateM.bind,
      offers.writeFully, outcome, flush]
    exact ih

theorem Rounds.logged (h : Rounds w pieces s calls stop last) :
    ∀ log, Rounds w.logged pieces (s, log) calls stop (last, log ++ calls) := by
  induction h with
  | done =>
    intro log
    rw [List.append_nil]
    exact .done
  | stopped offers => exact fun log => .stopped (offers.logged log)
  | unflushed offers flush =>
    intro log
    rw [← List.append_assoc]
    exact .unflushed (offers.logged log) (by simp only [Writer.logged, flush])
  | flushed offers flush others ih =>
    rename_i calls more stop
    intro log
    have hlog : log ++ (calls ++ .flushed :: more) = log ++ calls ++ [.flushed] ++ more := by
      simp only [List.append_assoc, List.singleton_append]
    rw [hlog]
    exact .flushed (offers.logged log) (by simp only [Writer.logged, flush]) (ih _)

/-! ## 4. What was taken -/

/-- **The first bad call is the last,** and decides how things end; without one they end well. -/
def EndsAtBad (calls : List WriterEvent) : Option (Halt WriteFailure) → Prop
  | none => ∀ call ∈ calls, call.isBad = false
  | some halt => ∃ before call, calls = before ++ [call] ∧
      (∀ earlier ∈ before, earlier.isBad = false) ∧ call.isBad = true ∧ halt = call.halt

/-- Good calls in front change nothing. -/
theorem EndsAtBad.append {more : List WriterEvent} (h : EndsAtBad more stop)
    (hgood : ∀ call ∈ calls, call.isBad = false) : EndsAtBad (calls ++ more) stop := by
  have hboth : ∀ {front : List WriterEvent}, (∀ call ∈ front, call.isBad = false) →
      ∀ call ∈ calls ++ front, call.isBad = false := by
    intro front hfront call hmem
    rcases List.mem_append.mp hmem with hcall | hcall
    · exact hgood call hcall
    · exact hfront call hcall
  cases stop with
  | none => exact hboth h
  | some halt =>
    obtain ⟨before, call, rfl, hbefore, hbad, hhalt⟩ := h
    exact ⟨calls ++ before, call, (List.append_assoc _ _ _).symm, hboth hbefore, hbad, hhalt⟩

/-- A call has other calls before and behind it, so there is one at least. -/
theorem nil_ne_append_cons {before after : List WriterEvent} {call : WriterEvent} :
    [] ≠ before ++ call :: after := fun h =>
  List.append_ne_nil_of_right_ne_nil _ (List.cons_ne_nil _ _) h.symm

/-- The only call there is offers all that there is. -/
theorem offered_singleton {only call : WriterEvent} {before after : List WriterEvent}
    {offer : List UInt8} (left : bytes ≠ []) (honly : only.offered? = some bytes)
    (hcalls : [only] = before ++ call :: after) (hoffer : call.offered? = some offer) :
    offer ≠ [] ∧ acceptedBy before ++ offer = bytes := by
  rcases List.cons_eq_append_iff.mp hcalls with ⟨rfl, hfirst⟩ | ⟨others, -, hothers⟩
  · obtain ⟨rfl, -⟩ := List.cons.inj hfirst
    obtain rfl := Option.some.inj (honly.symm.trans hoffer)
    exact ⟨left, rfl⟩
  · exact absurd hothers nil_ne_append_cons

/-- Each write offers the bytes that are not taken yet, of which there are some. -/
theorem Offers.offered (h : Offers w bytes s calls stop last) :
    ∀ {before after : List WriterEvent} {call : WriterEvent} {offer : List UInt8},
      calls = before ++ call :: after → call.offered? = some offer →
        offer ≠ [] ∧ acceptedBy before ++ offer = bytes := by
  induction h with
  | done =>
    intro before after call offer hcalls
    exact absurd hcalls nil_ne_append_cons
  | @took bytes s s' last count calls stop left pos fits write rest ih =>
    intro before after call offer hcalls hoffer
    rcases List.cons_eq_append_iff.mp hcalls with ⟨rfl, hfirst⟩ | ⟨others, rfl, hothers⟩
    -- the call is this one: nothing was taken before it, and it offers everything
    · cases hfirst
      cases hoffer
      exact ⟨left, rfl⟩
    -- the call is a later one: what this one took is in front of what was taken before that
    · obtain ⟨hsome, hbytes⟩ := ih hothers hoffer
      refine ⟨hsome, ?_⟩
      rw [WriterEvent.acceptedBy_cons, List.append_assoc, hbytes]
      exact List.take_append_drop count bytes
  | stalled left write => exact offered_singleton left rfl
  | failed left write => exact offered_singleton left rfl

/-- **Each write offers the rest of one piece,** and the pieces before it have been taken and
flushed. -/
structure InTurn (pieces : List (List UInt8)) (before : List WriterEvent) (offer : List UInt8) :
    Prop where
  nonempty : offer ≠ []
  rest : ∃ done piece todo, pieces = done ++ piece :: todo ∧
    acceptedBy before ++ offer = done.flatten ++ piece ∧
    (done ≠ [] → ∃ first second, before = first ++ .flushed :: second ∧
      acceptedBy first = done.flatten)

/-- What is in turn stays so behind a piece that has been taken and flushed. -/
theorem InTurn.cons {before : List WriterEvent} {offer piece : List UInt8}
    (h : InTurn pieces before offer) (hcalls : acceptedBy calls = piece) :
    InTurn (piece :: pieces) (calls ++ .flushed :: before) offer := by
  obtain ⟨hnonempty, done, next, todo, rfl, haccepted, hflushed⟩ := h
  refine ⟨hnonempty, piece :: done, next, todo, rfl, ?_, fun _ => ?_⟩
  · rw [WriterEvent.acceptedBy_append, hcalls, List.flatten_cons, List.append_assoc,
      List.append_assoc, ← haccepted]
    rfl
  -- the last flush is the one behind this piece, or one that came later
  · by_cases hdone : done = []
    · subst hdone
      refine ⟨calls, before, rfl, ?_⟩
      rw [hcalls, List.flatten_singleton]
    · obtain ⟨first, second, rfl, hfirst⟩ := hflushed hdone
      refine ⟨calls ++ .flushed :: first, second, ?_, ?_⟩
      · rw [List.append_assoc, List.cons_append]
      · rw [WriterEvent.acceptedBy_append, hcalls, List.flatten_cons, ← hfirst]
        rfl

end Writer

/-! ## 7. Requests -/

namespace Request

open Writer (outcome Rounds)

variable {settings : CommandSettings} {request : Request} {calls : List WriterEvent}
  {stop : Option (Halt WriteFailure)} {w : Writer WriteFailure σ} {s last : σ}

end Request

end SerialLink
