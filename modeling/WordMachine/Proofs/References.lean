import WordMachine.Proofs.Refusal

/-!
# The order of references

References are resolved one after the other. If all of them can be resolved, each place ends with
the target of the last reference to it, so the order matters only where two references to one place
have different targets. The references of an assembled program go to different places, below the
pool: they can be resolved again at any time and in any order.

## Main definitions

* `Resolvable`, `Failure.ofReference`: a reference can be resolved, and the failure of one that
  cannot
* `Consistent`: references to one place have one target
* `Resolved`: what resolving references does if all of them can be resolved
* `Workspace.Settled`: what holds of the references of an assembled program

## Main results

* `resolve_append`: references are resolved behind others if those could be
* `resolve_of_settled`: references whose targets are in their places change nothing
* `resolve_perm`, `exists_perm_get?_resolve`: the order is free, or some order shows that it is not
* `resolve_total`: how references are resolved, in general and in an assembled program
-/

namespace WordMachine

variable {m m' : Memory} {symbols : SymbolTable} {references before after p : List (Int × String)}
  {a : Int} {s : String}

/-! ## References that can be resolved -/

/-- A reference can be resolved: its symbol is known and its place can be written. -/
def Resolvable (symbols : SymbolTable) (r : Int × String) : Prop :=
  r.2 ∈ symbols ∧ 0 ≤ r.1

instance (symbols : SymbolTable) (r : Int × String) : Decidable (Resolvable symbols r) :=
  inferInstanceAs (Decidable (_ ∧ _))

/-- The failure of a reference that cannot be resolved. Its symbol is looked up first. -/
def Failure.ofReference (symbols : SymbolTable) (r : Int × String) : Failure :=
  if r.2 ∈ symbols then .negativeAddress ⟨r.1⟩
  else .refused { complaint := .undefinedLabel r.2 r.1 }

/-- References to one place have one target. -/
def Consistent (symbols : SymbolTable) (references : List (Int × String)) : Prop :=
  ∀ r ∈ references, ∀ q ∈ references, r.1 = q.1 → symbols[r.2]? = symbols[q.2]?

theorem SymbolTable.exists_of_mem (h : s ∈ symbols) : ∃ target, symbols[s]? = some target :=
  Option.isSome_iff_exists.mp (Std.ExtTreeMap.mem_iff_isSome_getElem?.mp h)

/-- References are resolved behind others if those could be resolved. -/
theorem resolve_append (m : Memory) (symbols : SymbolTable) (before after : List (Int × String)) :
    resolve m symbols (before ++ after) =
      match resolve m symbols before with
      | (.ok (), n) => resolve n symbols after
      | (.error f, n) => (.error f, n) := by
  -- Induction on the references before: each is resolved, or ends both passes.
  induction before generalizing m with
  | nil => rfl
  | cons r before ih =>
    obtain ⟨a, s⟩ := r
    rw [List.cons_append, resolve, resolve]
    cases symbols[s]? with
    | none => rfl
    | some target =>
      dsimp only
      cases m.write a target with
      | ok n => exact ih n
      | error e => rfl

/-- Where all references can be resolved they are. -/
theorem exists_resolve_eq_ok (m : Memory) (h : ∀ r ∈ references, Resolvable symbols r) :
    ∃ n, resolve m symbols references = (.ok (), n) := by
  induction references generalizing m with
  | nil => exact ⟨m, rfl⟩
  | cons r references ih =>
    rw [List.forall_mem_cons] at h
    obtain ⟨hr, hrest⟩ := h
    obtain ⟨target, ht⟩ := SymbolTable.exists_of_mem hr.1
    obtain ⟨n, hn⟩ := m.exists_write_eq_ok hr.2 target
    obtain ⟨n', hn'⟩ := ih n hrest
    refine ⟨n', ?_⟩
    simp only [resolve, ht, hn, hn']

/-- A reference that cannot be resolved ends the pass and changes nothing. -/
theorem resolve_cons_of_not_resolvable {r : Int × String} (h : ¬Resolvable symbols r) (m : Memory)
    (after : List (Int × String)) :
    resolve m symbols (r :: after) = (.error (.ofReference symbols r), m) := by
  obtain ⟨a, s⟩ := r
  rw [resolve, Failure.ofReference]
  by_cases hs : s ∈ symbols
  · -- the symbol is known, so it is the place that cannot be written
    obtain ⟨target, ht⟩ := SymbolTable.exists_of_mem hs
    have ha : a < 0 := by
      by_contra hge
      exact h ⟨hs, Int.not_lt.mp hge⟩
    have hw : m.write a target = .error ⟨a⟩ := Memory.write_eq_error_iff.mpr ⟨ha, rfl⟩
    simp only [ht, hw, if_pos hs]
  · have hnone : symbols[s]? = none := Std.ExtTreeMap.getElem?_eq_none hs
    simp only [hnone, if_neg hs]

/-! ## What is in memory then -/

theorem lastReference?_append (before after : List (Int × String)) (a : Int) :
    lastReference? (before ++ after) a = (lastReference? after a).or (lastReference? before a) := by
  induction before with
  | nil => simp [lastReference?]
  | cons r before ih =>
    rw [List.cons_append, lastReference?_cons, ih, lastReference?_cons, Option.or_assoc]

theorem lastReference?_eq_none_iff :
    lastReference? references a = none ↔ ∀ r ∈ references, r.1 ≠ a := by
  simp [lastReference?]

/-- A place holds the target of the last reference to it. -/
theorem get?_resolve_last (h : resolve m symbols (before ++ (a, s) :: after) = (.ok (), m'))
    (hlast : ∀ r ∈ after, r.1 ≠ a) : m'.get? a = symbols[s]? := by
  have hmem : (a, s) ∈ before ++ (a, s) :: after := by simp
  obtain ⟨-, target, ht⟩ := exists_of_resolve_eq_ok h hmem
  have hnone : lastReference? after a = none := lastReference?_eq_none_iff.mpr hlast
  rw [get?_resolve h, lastReference?_append, lastReference?_cons, hnone]
  simp [ht]

/-- References that are resolved can be resolved again, which changes nothing. -/
theorem resolve_again (h : resolve m symbols references = (.ok (), m')) :
    resolve m' symbols references = (.ok (), m') := by
  -- memory does not decide whether references are resolved
  have hresult : (resolve m' symbols references).1 = .ok () := by
    rw [resolve_fst_eq symbols references m' m, h]
  have hmemory : (resolve m' symbols references).2 = m' := by
    have htwice := (blind_resolve symbols references).idempotent m
    rwa [h] at htwice
  exact Prod.ext hresult hmemory

theorem Memory.write_of_get? {a w : Int} (h : m.get? a = some w) : m.write a w = .ok m := by
  cases a with
  | negSucc a => cases h
  | ofNat a =>
    obtain ⟨n, hn⟩ := m.exists_write_eq_ok (Int.natCast_nonneg a) w
    -- the word is written where it is already
    have hsame : n = m := by
      apply Memory.ext
      intro b
      rw [Memory.get?_write hn]
      split
      · next hb => rw [hb]; exact h.symm
      · rfl
    exact hsame ▸ hn

/-- References whose targets are in their places change nothing. -/
theorem resolve_of_settled
    (h : ∀ r ∈ references, ∃ target, symbols[r.2]? = some target ∧ m.get? r.1 = some target) :
    resolve m symbols references = (.ok (), m) := by
  induction references with
  | nil => rfl
  | cons r references ih =>
    rw [List.forall_mem_cons] at h
    obtain ⟨⟨target, ht, hm⟩, hrest⟩ := h
    have hw := Memory.write_of_get? hm
    have hnext := ih hrest
    simp only [resolve, ht, hw, hnext]

/-! ## The order -/

/-- Any of several consistent references to a place tells the target that ends there. -/
theorem get?_resolve_of_mem (hc : Consistent symbols references)
    (h : resolve m symbols references = (.ok (), m')) {r : Int × String} (hr : r ∈ references) :
    m'.get? r.1 = symbols[r.2]? := by
  obtain ⟨-, target, ht⟩ := exists_of_resolve_eq_ok h hr
  cases hl : lastReference? references r.1 with
  | none => exact absurd rfl (lastReference?_eq_none_iff.mp hl r hr)
  | some s =>
    have hsame : symbols[s]? = symbols[r.2]? := hc (r.1, s) (mem_of_lastReference? hl) r hr rfl
    rw [get?_resolve h, hl, Option.bind_some, hsame, ht]
    rfl

/-- Consistent references are resolved alike in any order. -/
theorem resolve_perm (hc : Consistent symbols references)
    (h : resolve m symbols references = (.ok (), m')) (hp : p.Perm references) :
    resolve m symbols p = (.ok (), m') := by
  -- the references in the other order can be resolved too, so only memory is to be compared
  have hresolvable : ∀ r ∈ p, Resolvable symbols r := by
    intro r hr
    obtain ⟨ha, target, ht⟩ := exists_of_resolve_eq_ok h (hp.mem_iff.mp hr)
    exact ⟨Std.ExtTreeMap.mem_iff_isSome_getElem?.mpr (ht ▸ rfl), ha⟩
  have hcp : Consistent symbols p := fun r hr q hq =>
    hc r (hp.mem_iff.mp hr) q (hp.mem_iff.mp hq)
  obtain ⟨n, hn⟩ := exists_resolve_eq_ok m hresolvable
  suffices hsame : n = m' from hsame ▸ hn
  apply Memory.ext
  intro a
  by_cases ha : ∃ r ∈ references, r.1 = a
  · -- each reference to the place tells what it holds, for both orders
    obtain ⟨r, hr, rfl⟩ := ha
    rw [get?_resolve_of_mem hc h hr, get?_resolve_of_mem hcp hn (hp.mem_iff.mpr hr)]
  · have ha : ∀ r ∈ references, r.1 ≠ a := fun r hr hra => ha ⟨r, hr, hra⟩
    have hout : (resolve m symbols references).2.get? a = m.get? a := get?_resolve_of_outside ha m
    have houtp : (resolve m symbols p).2.get? a = m.get? a :=
      get?_resolve_of_outside (fun r hr => ha r (hp.mem_iff.mp hr)) m
    rw [h] at hout
    rw [hn] at houtp
    exact houtp.trans hout.symm

/-- In some order the target of a reference ends in its place: if it comes last. -/
theorem exists_perm_get?_resolve (m : Memory) (h : ∀ r ∈ references, Resolvable symbols r)
    {r : Int × String} (hr : r ∈ references) :
    ∃ p, p.Perm references ∧ (resolve m symbols p).2.get? r.1 = symbols[r.2]? := by
  obtain ⟨before, after, rfl⟩ := List.append_of_mem hr
  have hp : (before ++ after ++ [r]).Perm (before ++ r :: after) :=
    (List.perm_append_singleton r (before ++ after)).trans List.perm_middle.symm
  obtain ⟨n, hn⟩ := exists_resolve_eq_ok m fun q hq => h q (hp.mem_iff.mp hq)
  refine ⟨_, hp, ?_⟩
  rw [hn]
  exact get?_resolve_last hn (by simp)

/-- References that are resolved alike in any order are consistent. -/
theorem consistent_of_perm (h : ∀ r ∈ references, Resolvable symbols r)
    (horder : ∀ p, p.Perm references → (resolve m symbols p).2 = m') :
    Consistent symbols references := by
  intro r hr q hq hplace
  -- each of the two references can come last, and both orders end in one memory
  obtain ⟨p, hp, hr⟩ := exists_perm_get?_resolve m h hr
  obtain ⟨p', hp', hq⟩ := exists_perm_get?_resolve m h hq
  rw [horder p hp] at hr
  rw [horder p' hp'] at hq
  rw [← hr, ← hq, hplace]

/-- What resolving references does if all of them can be resolved. -/
structure Resolved (m : Memory) (symbols : SymbolTable) (references : List (Int × String))
    (m' : Memory) : Prop where
  /-- All references are resolved. -/
  result : resolve m symbols references = (.ok (), m')
  /-- A place holds the target of the last reference to it. -/
  last : ∀ before a s after, references = before ++ (a, s) :: after → (∀ r ∈ after, r.1 ≠ a) →
    m'.get? a = symbols[s]?
  /-- Where no reference goes, nothing has changed. -/
  outside : ∀ a, (∀ r ∈ references, r.1 ≠ a) → m'.get? a = m.get? a
  /-- To resolve the references again changes nothing. -/
  again : resolve m' symbols references = (.ok (), m')
  /-- The order is free if references to one place have one target, and only then. -/
  order : (∀ p, p.Perm references → (resolve m symbols p).2 = m') ↔ Consistent symbols references

theorem exists_resolved (m : Memory) (h : ∀ r ∈ references, Resolvable symbols r) :
    ∃ n, Resolved m symbols references n := by
  obtain ⟨n, hn⟩ := exists_resolve_eq_ok m h
  refine ⟨n, ?_⟩
  constructor
  case result => exact hn
  case last =>
    rintro before a s after rfl hlast
    exact get?_resolve_last hn hlast
  case outside =>
    intro a ha
    have hout : (resolve m symbols references).2.get? a = m.get? a := get?_resolve_of_outside ha m
    rwa [hn] at hout
  case again => exact resolve_again hn
  case order =>
    constructor
    · exact consistent_of_perm h
    · intro hc p hp
      rw [resolve_perm hc hn hp]

/-! ## Assembled programs -/

namespace Workspace

/-- What holds of the references of an assembled program. -/
structure Settled (w : Workspace) : Prop where
  /-- Each goes to a higher address than the one before. -/
  increasing : w.references.Pairwise fun r q => r.1 < q.1
  /-- All go to words that were assembled. -/
  inside : ∀ r ∈ w.references, w.base ≤ r.1 ∧ r.1 < w.address
  /-- None goes to the pool or behind it. -/
  beforePool : ∀ r ∈ w.references, ∀ (token : String) (a : Int), w.literals[token]? = some a →
    r.1 < a
  /-- To resolve them again, in any order, changes nothing. -/
  order : ∀ p, p.Perm w.references → resolve w.memory w.symbols p = (.ok (), w.memory)
  /-- So does resolving them any number of times, each time in any order. -/
  again : ∀ orders : List (List (Int × String)), (∀ p ∈ orders, p.Perm w.references) →
    w.afterUses (orders.map (Use.resolve w.symbols)) = w

theorem Assembly.settled {w w' : Workspace} {d : Draft} (h : w.Assembly d w') : w'.Settled := by
  have hsettled (p : List (Int × String)) (hp : p.Perm w'.references) :
      resolve w'.memory w'.symbols p = (.ok (), w'.memory) := by
    apply resolve_of_settled
    rintro ⟨a, s⟩ hr
    -- the place of a reference holds the address of its symbol since the assembly
    have hm := hp.mem_iff.mp hr
    obtain ⟨n, i, c, hc, hs, rfl⟩ := h.exists_of_references hm
    obtain ⟨target, ht⟩ := h.exists_symbol hc hs
    exact ⟨target, ht, (h.get?_reference hm).trans ht⟩
  constructor
  case increasing =>
    rw [h.references_eq]
    exact pairwise_openPlaces _ _
  case inside =>
    rintro ⟨a, s⟩ hr
    obtain ⟨n, i, c, hc, -, rfl⟩ := h.exists_of_references hr
    have hn := (List.getElem?_eq_some_iff.mp hc).1
    rw [h.base_eq, h.address_eq, h.draft_address_eq]
    dsimp only
    omega
  case beforePool =>
    rintro ⟨a, s⟩ hr token b hb
    obtain ⟨n, i, c, hc, -, rfl⟩ := h.exists_of_references hr
    obtain ⟨j, literal, -, -, rfl⟩ := h.exists_of_literals hb
    have hn := (List.getElem?_eq_some_iff.mp hc).1
    rw [h.draft_address_eq]
    dsimp only
    omega
  case order => exact hsettled
  case again =>
    intro orders horders
    -- Induction on the orders: each of them leaves the workspace as it is.
    induction orders with
    | nil => rfl
    | cons p orders ih =>
      rw [List.forall_mem_cons] at horders
      have hp : w'.use (.resolve w'.symbols p) = w' := by
        rw [use, hsettled p horders.1]
      rw [List.map_cons, afterUses, List.foldl_cons, hp]
      exact ih horders.2

/-- **Resolution.** If all references can be resolved, each place ends with the target of the last
reference to it and nothing else changes, to resolve them again changes nothing, and any order does
the same if and only if no two references to one place have different targets. Otherwise those
before the first that cannot be resolved are. The references of an assembled program go to
different places below the pool and can be resolved again in any order, any number of times. -/
theorem resolve_total (m : Memory) (symbols : SymbolTable) (references : List (Int × String))
    (w : Workspace) :
    ((∀ r ∈ references, Resolvable symbols r) → ∃ n, Resolved m symbols references n) ∧
      (∀ before r after, references = before ++ r :: after →
        (∀ q ∈ before, Resolvable symbols q) → ¬Resolvable symbols r →
          ∃ n, Resolved m symbols before n ∧
            resolve m symbols references = (.error (.ofReference symbols r), n)) ∧
      ∀ map w', w.assemble = (.ok map, w') → w'.Settled := by
  refine ⟨exists_resolved m, ?_, ?_⟩
  · rintro before r after rfl hbefore hr
    obtain ⟨n, hn⟩ := exists_resolved m hbefore
    refine ⟨n, hn, ?_⟩
    rw [resolve_append, hn.result]
    exact resolve_cons_of_not_resolvable hr n after
  · intro map w' h
    obtain ⟨⟨d, hd⟩, -⟩ := assemble_eq_ok h
    exact hd.settled

/-- The addresses of two symbols. -/
def twoSymbols : SymbolTable :=
  (Std.ExtTreeMap.empty.insert "A" 5).insert "B" 7

theorem settled_crossReferences :
    (∃ n, Resolved ∅ twoSymbols [(3, "A"), (4, "A"), (3, "B")] n) ∧
      (∃ n, Resolved ∅ twoSymbols [(3, "A")] n ∧
        resolve ∅ twoSymbols [(3, "A"), (-1, "B"), (4, "C")] =
          (.error (.ofReference twoSymbols (-1, "B")), n)) ∧
      ∃ map w', crossReferences.assemble = (.ok map, w') ∧ w'.Settled := by
  refine ⟨?_, ?_, ?_⟩
  · exact (resolve_total ∅ twoSymbols _ crossReferences).1 (by decide +kernel)
  · exact (resolve_total ∅ twoSymbols _ crossReferences).2.1 [(3, "A")] (-1, "B") [(4, "C")] rfl
      (by decide +kernel) (by decide +kernel)
  · have hok := isOk_assemble_crossReferences
    generalize h : crossReferences.assemble = outcome at hok
    rcases outcome with ⟨_ | map, w'⟩
    · cases hok
    · exact ⟨map, w', rfl, (resolve_total ∅ twoSymbols [] crossReferences).2.2 map w' h⟩

end Workspace

end WordMachine
