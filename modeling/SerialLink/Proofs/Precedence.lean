/-
# When the order of registration matters

`AtMaster::dispatch` gives a line to the first entry whose header starts it.  So the entries
before an entry can keep lines from it, and an entry that is registered in another place may get
other lines.  This module says exactly when.

* An entry gets some line unless a header before it starts its own (`gets_iff`).  The empty header
  starts every other, so nothing behind it is ever called.
* Two entries *compete* if the header of one starts that of the other.  The headers that start one
  line all compete with each other, for they are pieces of the same line; so as long as entries
  that compete keep their order, the others can change places and no line notices
  (`Reorders.dispatch_eq`).
* A new entry only gets lines that nobody got before it (`dispatch_register`).

Equal headers compete, and so does the empty header with all others.
-/
import SerialLink.Proofs.Dispatching

namespace SerialLink

variable {ω : Type}

/-- Some line starts with both headers; then one of them starts with the other. -/
def Entry.Competes (e e' : Entry ω) : Prop := e.header <+: e'.header ∨ e'.header <+: e.header

/-- The same call where the entries have other places. -/
def Call.move (place : Nat → Nat) (call : Call ω) : Call ω :=
  { call with id := ⟨place call.id.index⟩ }

namespace Registry

variable {r r' : Registry ω} {place : Equiv.Perm Nat} {line : List UInt8} {i j : Nat}
  {e e' : Entry ω}

/-! ## 1. Who is called at all -/

/-- Some line leads to the entry at place `i`. -/
def Gets (r : Registry ω) (i : Nat) : Prop :=
  ∃ line call, r.dispatch line = some call ∧ call.id.index = i

/-- The entry at `j` comes before the one at `i`, and its header starts the other's. -/
def Shadows (r : Registry ω) (j i : Nat) : Prop :=
  j < i ∧ ∃ e' e, r.entries[j]? = some e' ∧ r.entries[i]? = some e ∧ e'.header <+: e.header

theorem dispatch_of_first (h : r.First line i e) :
    r.dispatch line = some ⟨⟨i⟩, e.owner, line.take (min line.length e.maxLength)⟩ :=
  dispatch_eq_some_iff.mpr ⟨i, e, h, rfl⟩

/-- **An entry gets some line exactly if no entry shadows it.**  The line that shows it is the
header itself. -/
theorem gets_iff (hi : r.entries[i]? = some e) : r.Gets i ↔ ∀ j, ¬ r.Shadows j i := by
  constructor
  · rintro ⟨line, call, hcall, hindex⟩ j ⟨hbefore, e', e'', hj, hi', hstarts⟩
    obtain ⟨k, e₀, hfirst, rfl⟩ := dispatch_eq_some_iff.mp hcall
    have hk : k = i := hindex
    subst hk
    rw [hfirst.entry, Option.some.injEq] at hi'
    subst hi'
    -- a line that the entry gets starts with its header, and so with the header of what shadows it
    exact hfirst.earlier j hbefore e' hj (hstarts.trans hfirst.starts)
  · intro hfree
    have hfirst : r.First e.header i e := by
      refine ⟨hi, List.prefix_refl _, ?_⟩
      intro j hbefore e' hj hstarts
      exact hfree j ⟨hbefore, e', e, hj, hi, hstarts⟩
    exact ⟨e.header, _, dispatch_of_first hfirst, rfl⟩

/-- **The empty header shadows all that come after it,** and nothing else. -/
theorem shadows_iff_of_catchAll (hj : r.entries[j]? = some e') (hempty : e'.header = [])
    (hi : r.entries[i]? = some e) : r.Shadows j i ↔ j < i := by
  constructor
  · intro hshadows
    exact hshadows.1
  · intro hbefore
    refine ⟨hbefore, e', e, hj, hi, ?_⟩
    rw [hempty]
    exact List.nil_prefix

/-! ## 2. Other places -/

/-- **The entries of `r'` are those of `r` in another order,** the one at `i` now at `place i`; and
of two that compete, the one that was first still is. -/
structure Reorders (place : Equiv.Perm Nat) (r r' : Registry ω) : Prop where
  entry : ∀ i, r'.entries[place i]? = r.entries[i]?
  order : ∀ i j e e', r.entries[i]? = some e → r.entries[j]? = some e' → e.Competes e' →
    i < j → place i < place j

/-- The headers that start one line compete. -/
theorem competes_of_starts (h : e.header <+: line) (h' : e'.header <+: line) : e.Competes e' :=
  List.prefix_or_prefix_of_prefix h h'

/-- The first match is still the first in its new place. -/
theorem Reorders.first (h : Reorders place r r') (hfirst : r.First line i e) :
    r'.First line (place i) e := by
  refine ⟨(h.entry i).trans hfirst.entry, hfirst.starts, ?_⟩
  intro k hk e' he' hstarts
  -- the entry at `k` was at some `j` before, and it competes with the first match
  obtain ⟨j, rfl⟩ := place.surjective k
  rw [h.entry j] at he'
  rcases Nat.lt_trichotomy j i with hbefore | rfl | hafter
  · exact hfirst.earlier j hbefore e' he' hstarts
  · exact Nat.lt_irrefl _ hk
  · have hcompetes := competes_of_starts hfirst.starts hstarts
    have hstill := h.order i j e e' hfirst.entry he' hcompetes hafter
    exact Nat.lt_asymm hk hstill

/-- **No line notices that entries which do not compete have changed places.** -/
theorem Reorders.dispatch_eq (h : Reorders place r r') (line : List UInt8) :
    r'.dispatch line = (r.dispatch line).map (Call.move place) := by
  cases hcall : r.dispatch line with
  | none =>
    rw [Option.map_none, dispatch_eq_none_iff]
    intro e he
    obtain ⟨k, hk⟩ := List.mem_iff_getElem?.mp he
    obtain ⟨j, rfl⟩ := place.surjective k
    rw [h.entry j] at hk
    exact dispatch_eq_none_iff.mp hcall e (List.mem_of_getElem? hk)
  | some call =>
    obtain ⟨i, e, hfirst, rfl⟩ := dispatch_eq_some_iff.mp hcall
    exact dispatch_of_first (h.first hfirst)

/-! ## 3. One entry more -/

variable {header : List UInt8} {maxLength : Nat} {owner : ω} {id : CommandId}

/-- An accepted registration puts its entry behind the others. -/
theorem entries_register (h : r.register header maxLength owner = .ok (id, r')) :
    id = ⟨r.entries.length⟩ ∧
      ∃ e : Entry ω, r'.entries = r.entries ++ [e] ∧ e.header = header ∧
        e.maxLength = maxLength ∧ e.owner = owner := by
  unfold register at h
  split at h
  · rename_i hfits
    split at h
    · rw [Except.ok.injEq, Prod.mk.injEq] at h
      obtain ⟨rfl, rfl⟩ := h
      exact ⟨rfl, ⟨header, maxLength, owner, hfits⟩, rfl, rfl, rfl, rfl⟩
    · cases h
  · cases h

/-- A first match stays the first where entries are added behind it. -/
theorem First.append {more : List (Entry ω)} (hfirst : r.First line i e)
    (hentries : r'.entries = r.entries ++ more) : r'.First line i e := by
  obtain ⟨hi, -⟩ := List.getElem?_eq_some_iff.mp hfirst.entry
  refine ⟨?_, hfirst.starts, ?_⟩
  · rw [hentries, List.getElem?_append_left hi, hfirst.entry]
  · intro j hj e' he'
    rw [hentries, List.getElem?_append_left (Nat.lt_trans hj hi)] at he'
    exact hfirst.earlier j hj e' he'

/-- A line that nobody got goes to the new entry, if its header starts the line. -/
theorem first_concat (hnone : r.dispatch line = none) (hentries : r'.entries = r.entries ++ [e])
    (hstarts : e.header <+: line) : r'.First line r.entries.length e := by
  refine ⟨?_, hstarts, ?_⟩
  · rw [hentries, List.getElem?_concat_length]
  · intro j hj e' he'
    rw [hentries, List.getElem?_append_left hj] at he'
    exact dispatch_eq_none_iff.mp hnone e' (List.mem_of_getElem? he')

/-- **A new entry gets the lines that its header starts and that nobody got,** and no line that
somebody got changes hands. -/
theorem dispatch_register (h : r.register header maxLength owner = .ok (id, r'))
    (line : List UInt8) :
    (∀ call, r.dispatch line = some call → r'.dispatch line = some call) ∧
    (r.dispatch line = none → ∀ call, r'.dispatch line = some call ↔
      header <+: line ∧ call = ⟨id, owner, line.take (min line.length maxLength)⟩) := by
  obtain ⟨rfl, e, hentries, rfl, rfl, rfl⟩ := entries_register h
  constructor
  · intro call hcall
    obtain ⟨i, e', hfirst, rfl⟩ := dispatch_eq_some_iff.mp hcall
    exact dispatch_of_first (hfirst.append hentries)
  · intro hnone call
    constructor
    · intro hcall
      obtain ⟨i, e', hfirst, rfl⟩ := dispatch_eq_some_iff.mp hcall
      have hmem := List.mem_of_getElem? hfirst.entry
      rw [hentries, List.mem_append, List.mem_singleton] at hmem
      rcases hmem with hold | rfl
      · exact absurd hfirst.starts (dispatch_eq_none_iff.mp hnone e' hold)
      · have hnew := dispatch_of_first (first_concat hnone hentries hfirst.starts)
        rw [hcall, Option.some.injEq] at hnew
        exact ⟨hfirst.starts, hnew⟩
    · rintro ⟨hstarts, rfl⟩
      exact dispatch_of_first (first_concat hnone hentries hstarts)

/-! ## 4. What the order decides -/

/-- **When the order of registration matters.**  In any registry, an entry is called for some line
exactly if no header before it starts its own, so the empty header shadows exactly what comes after
it; entries that do not compete can change places, and every line leads to the same entry, with the
same owner and the same piece of the line, or to none in both orders; and one more entry leaves
every line where it went, and gets those of the others that its header starts. -/
theorem dispatch_order (r : Registry ω) :
    (∀ i e, r.entries[i]? = some e → (r.Gets i ↔ ∀ j, ¬ r.Shadows j i)) ∧
    (∀ j e', r.entries[j]? = some e' → e'.header = [] →
      ∀ i e, r.entries[i]? = some e → (r.Shadows j i ↔ j < i)) ∧
    (∀ place r', Reorders place r r' →
      ∀ line, r'.dispatch line = (r.dispatch line).map (Call.move place)) ∧
    ∀ header maxLength owner id r', r.register header maxLength owner = .ok (id, r') → ∀ line,
      (∀ call, r.dispatch line = some call → r'.dispatch line = some call) ∧
      (r.dispatch line = none → ∀ call, r'.dispatch line = some call ↔
        header <+: line ∧ call = ⟨id, owner, line.take (min line.length maxLength)⟩) := by
  refine ⟨?_, ?_, ?_, ?_⟩
  · intro i e hi
    exact gets_iff hi
  · intro j e' hj hempty i e hi
    exact shadows_iff_of_catchAll hj hempty hi
  · intro place r' hreorders line
    exact hreorders.dispatch_eq line
  · intro header maxLength owner id r' hregister line
    exact dispatch_register hregister line

/-- Two result codes in either order, and a third entry that takes what they leave. -/
theorem dispatch_order_two_codes :
    let ok : Entry Nat := ⟨[79, 75], 4, 1, by decide⟩
    let err : Entry Nat := ⟨[69, 82], 3, 2, by decide⟩
    let rest : Entry Nat := ⟨[], 2, 3, by decide⟩
    let r : Registry Nat := ⟨3, [ok, err], by decide⟩
    let r' : Registry Nat := ⟨3, [err, ok], by decide⟩
    let more : Registry Nat := ⟨3, [ok, err, rest], by decide⟩
    (r.entries[1]? = some err ∧ r.Gets 1) ∧
      (more.entries[2]? = some rest ∧ more.entries[1]? = some err ∧ ¬ more.Shadows 2 1) ∧
      (Reorders (Equiv.swap 0 1) r r' ∧
        r'.dispatch [69, 82, 82, 79] = some ⟨⟨0⟩, 2, [69, 82, 82]⟩) ∧
      r.register [] 2 3 = .ok (⟨2⟩, more) ∧ r.dispatch [82, 73, 78, 71] = none ∧
      more.dispatch [82, 73, 78, 71] = some ⟨⟨2⟩, 3, [82, 73]⟩ := by
  intro ok err rest r r' more
  have hreorders : Reorders (Equiv.swap 0 1) r r' := by
    constructor
    · rintro (_ | _ | i)
      · rfl
      · rfl
      · rw [Equiv.swap_apply_of_ne_of_ne (by omega) (by omega)]
        rfl
    · intro i j e e' hi hj hcompetes hij
      -- two entries have one pair, and the headers of that pair do not compete
      obtain ⟨hlength, -⟩ := List.getElem?_eq_some_iff.mp hj
      have htwo : j < 2 := hlength
      obtain rfl : j = 1 := by omega
      obtain rfl : i = 0 := by omega
      cases hi
      cases hj
      revert hcompetes
      unfold Entry.Competes
      decide
  have hfree : ∀ j, ¬ r.Shadows j 1 := by
    rintro j ⟨hbefore, e', e, hj, hi, hstarts⟩
    obtain rfl : j = 0 := by omega
    cases hi
    cases hj
    revert hstarts
    decide
  have hcode := dispatch_order r
  have hrest := dispatch_order more
  refine ⟨⟨rfl, (hcode.1 1 err rfl).mpr hfree⟩, ⟨rfl, rfl, ?_⟩, ⟨hreorders, ?_⟩, rfl, rfl, ?_⟩
  · rw [hrest.2.1 2 rest rfl rfl 1 err rfl]
    decide
  · exact hcode.2.2.1 (Equiv.swap 0 1) r' hreorders [69, 82, 82, 79]
  · exact ((hcode.2.2.2 [] 2 3 ⟨2⟩ more rfl [82, 73, 78, 71]).2 rfl _).mpr
      ⟨List.nil_prefix, rfl⟩

end Registry

end SerialLink
