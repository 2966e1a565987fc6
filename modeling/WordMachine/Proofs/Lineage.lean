import Mathlib.Data.List.Find
import Mathlib.Data.List.Infix
import Mathlib.Data.List.Pairwise
import WordMachine.Journal.Hierarchy

/-!
# What lies above a dotted name

The hierarchy of names is kept by links: a name knows only what lies right above it, and names that
become known step in between. For dotted names the links come out as the spelling says. Above a
name lie the known names that it begins with, up to a dot, whatever the order in which all of them
became known, as long as no name that also begins the spelling of the top steps in late.

## Main definitions

* `IsAbove`: one name is what stands in front of a dot of another
* `IsDotted`: no dot stands at the front or behind another dot
* `ancestors`: the names above a name, the nearest first
* `StepsIn`: whether a name that becomes known steps in above the names below it

## Main results

* `mem_ancestors_iff`: the ancestors are the names above
* `namesAbove_eq_ancestors`: the hierarchy looks for all names above a dotted name
* `lineage_eq`: a lineage consists of all known names above
-/

namespace WordMachine

/-! ### Names above -/

/-- Whether a name is what stands in front of a dot of another. -/
def IsAbove (upper name : String) : Prop :=
  upper.toList ++ ['.'] <+: name.toList

instance (upper name : String) : Decidable (IsAbove upper name) :=
  inferInstanceAs (Decidable (_ <+: _))

/-- Whether no dot of a name stands at the front or right behind another dot. -/
def IsDotted (name : String) : Prop :=
  ¬['.', '.'] <:+: '.' :: name.toList

instance (name : String) : Decidable (IsDotted name) :=
  inferInstanceAs (Decidable (¬_))

/-- What stands in front of the dots of a name that is spelled backwards. -/
def ancestorsReversed : List Char → List String
  | [] => []
  | c :: cs =>
    if c = '.' then String.ofList cs.reverse :: ancestorsReversed cs else ancestorsReversed cs

/-- The names above a name, the nearest first. -/
def ancestors (name : String) : List String :=
  ancestorsReversed name.toList.reverse

theorem mem_ancestorsReversed_iff {upper : String} {cs : List Char} :
    upper ∈ ancestorsReversed cs ↔ '.' :: upper.toList.reverse <:+ cs := by
  induction cs with
  | nil => simp [ancestorsReversed]
  | cons c cs ih =>
    have h_rest : upper = String.ofList cs.reverse ↔ upper.toList.reverse = cs := by
      rw [← String.toList_inj, String.toList_ofList, List.reverse_eq_iff]
    rw [List.suffix_cons_iff, List.cons_eq_cons, ← ih, ancestorsReversed, ← h_rest]
    split
    · next h => simp [h]
    · next h => simp [Ne.symm h]

/-- The ancestors of a name are the names above it. -/
theorem mem_ancestors_iff {upper name : String} :
    upper ∈ ancestors name ↔ IsAbove upper name := by
  rw [ancestors, mem_ancestorsReversed_iff, IsAbove, ← List.reverse_suffix]
  simp

theorem IsAbove.prefix {upper name : String} (h : IsAbove upper name) :
    upper.toList <+: name.toList :=
  (List.prefix_append ..).trans h

/-- A name above is shorter. -/
theorem IsAbove.length_lt {upper name : String} (h : IsAbove upper name) :
    upper.length < name.length := by
  have := h.length_le
  simp only [List.length_append, String.length_toList, List.length_singleton] at this
  omega

theorem not_isAbove_self (name : String) : ¬IsAbove name name :=
  fun h => absurd h.length_lt (lt_irrefl _)

/-- Of two names above the same name, the longer one begins with the shorter one. -/
theorem IsAbove.prefix_iff {u v name : String} (hu : IsAbove u name) (hv : IsAbove v name) :
    u.toList <+: v.toList ↔ u.length ≤ v.length := by
  rw [← String.length_toList, ← String.length_toList]
  exact ⟨List.IsPrefix.length_le, List.prefix_of_prefix_length_le hu.prefix hv.prefix⟩

theorem length_le_of_mem_ancestorsReversed {upper : String} {cs : List Char}
    (h : upper ∈ ancestorsReversed cs) : upper.length + 1 ≤ cs.length := by
  have := (mem_ancestorsReversed_iff.1 h).length_le
  rwa [List.length_cons, List.length_reverse, String.length_toList] at this

theorem pairwise_ancestorsReversed (cs : List Char) :
    (ancestorsReversed cs).Pairwise fun u v => v.length < u.length := by
  induction cs with
  | nil => exact .nil
  | cons c cs ih =>
    rw [ancestorsReversed]
    split
    · refine ih.cons fun v hv => ?_
      have := length_le_of_mem_ancestorsReversed hv
      simp only [← String.length_toList, String.toList_ofList, List.length_reverse] at this ⊢
      omega
    · exact ih

/-- The ancestors of a name stand in the order of their lengths. -/
theorem pairwise_ancestors (name : String) :
    (ancestors name).Pairwise fun u v => v.length < u.length :=
  pairwise_ancestorsReversed _

theorem ancestorsReversed_eq_append {cs : List Char} {nearer : List String} {upper : String}
    {farther : List String} (h : ancestorsReversed cs = nearer ++ upper :: farther) :
    farther = ancestorsReversed upper.toList.reverse := by
  induction cs generalizing nearer with
  | nil => simp [ancestorsReversed] at h
  | cons c cs ih =>
    rw [ancestorsReversed] at h
    split at h
    · cases nearer with
      | nil =>
        obtain ⟨rfl, rfl⟩ := List.cons_eq_cons.1 h
        simp
      | cons nearest nearer => exact ih (List.cons_eq_cons.1 h).2
    · exact ih h

/-- Behind a name's ancestor stand the ancestors of that ancestor. -/
theorem ancestors_eq_append {name upper : String} {nearer farther : List String}
    (h : ancestors name = nearer ++ upper :: farther) : farther = ancestors upper :=
  ancestorsReversed_eq_append h

/-- Names above the same name are told apart by their lengths. -/
theorem IsAbove.eq_of_length {u v name : String} (hu : IsAbove u name) (hv : IsAbove v name)
    (h : u.length = v.length) : u = v := by
  refine String.toList_inj.1 (((hu.prefix_iff hv).2 h.le).eq_of_length ?_)
  rwa [String.length_toList, String.length_toList]

/-- The first ancestor that is found is the longest one. -/
theorem find?_ancestors_eq_some_iff {name upper : String} {p : String → Bool} :
    (ancestors name).find? p = some upper ↔
      (IsAbove upper name ∧ p upper) ∧ ∀ v, IsAbove v name → p v → v.length ≤ upper.length := by
  have h_longest {u : String} (h : (ancestors name).find? p = some u) :
      (IsAbove u name ∧ p u) ∧ ∀ v, IsAbove v name → p v → v.length ≤ u.length := by
    obtain ⟨hp, nearer, farther, h_split, h_nearer⟩ := List.find?_eq_some_iff_append.1 h
    have h_order := pairwise_ancestors name
    rw [h_split, List.pairwise_append, List.pairwise_cons] at h_order
    refine ⟨⟨mem_ancestors_iff.1 (List.mem_of_find?_eq_some h), hp⟩, fun v hv hpv => ?_⟩
    -- what stands before the name that is found does not fit, what stands behind it is shorter
    rw [← mem_ancestors_iff, h_split, List.mem_append, List.mem_cons] at hv
    rcases hv with hv | rfl | hv
    · exact absurd (h_nearer v hv) (by simp [hpv])
    · exact le_rfl
    · exact (h_order.2.1.1 v hv).le
  refine ⟨h_longest, fun ⟨⟨h_above, hp⟩, h_upper⟩ => ?_⟩
  cases h : (ancestors name).find? p with
  | none => exact absurd hp (List.find?_eq_none.1 h upper (mem_ancestors_iff.2 h_above))
  | some v =>
    obtain ⟨⟨hv, hpv⟩, h_v⟩ := h_longest h
    rw [hv.eq_of_length h_above (le_antisymm (h_upper v hv hpv) (h_v upper h_above hp))]

/-! ### Links -/

theorem namesAboveReversed_eq {cs : List Char} (h : ¬['.', '.'] <:+: cs ++ ['.']) :
    namesAboveReversed cs = ancestorsReversed cs := by
  fun_induction namesAboveReversed cs with
  | case1 c cs ih =>
    have hc : c ≠ '.' := by
      rintro rfl
      exact h (List.infix_append [] ['.', '.'] (cs ++ ['.']))
    rw [ih fun h' => h ((h'.trans (List.suffix_cons c _).isInfix).trans
      (List.suffix_cons '.' _).isInfix)]
    simp [ancestorsReversed, hc]
  | case2 c cs h_dot ih =>
    have hc : c ≠ '.' := by
      rintro rfl
      cases cs with
      | nil => exact h (List.infix_refl _)
      | cons d ds => exact h_dot d ds rfl rfl
    rw [ih fun h' => h (h'.trans (List.suffix_cons c _).isInfix), ancestorsReversed, if_neg hc]
  | case3 => rfl

/-- All names above a dotted name may lie above it. -/
theorem namesAbove_eq_ancestors {name : String} (h : IsDotted name) :
    namesAbove name = ancestors name := by
  refine namesAboveReversed_eq fun h' => h ?_
  rw [← List.reverse_infix]
  simpa using h'

/-- A name above a dotted name is dotted. -/
theorem IsDotted.of_isAbove {upper name : String} (h : IsDotted name)
    (h_above : IsAbove upper name) : IsDotted upper :=
  fun h' => h (h'.trans ((List.prefix_cons_inj '.').2 h_above.prefix).isInfix)

/-- Whether a name that becomes known steps in above the names below it that are known before. A
name that begins the spelling of the top does not. -/
def StepsIn (earlier later : String) : Prop :=
  ¬(IsAbove later earlier ∧ later.toList <+: topName.toList)

instance (earlier later : String) : Decidable (StepsIn earlier later) :=
  inferInstanceAs (Decidable (¬_))

section

variable {name : String} (h_name : IsDotted name)
include h_name

theorem stepIn_eq (upper : Option String) (newcomer : String) :
    stepIn name upper newcomer =
      if IsAbove newcomer name ∧ ¬newcomer.toList <+: (upper.getD topName).toList then some newcomer
      else upper := by
  rw [stepIn, namesAbove_eq_ancestors h_name]
  refine if_congr ?_ rfl rfl
  simp [mem_ancestors_iff, ← List.isPrefixOf_iff_prefix]

/-- When a name becomes known, the link still goes to the nearest known name above. -/
theorem stepIn_find? {newcomer : String} (h : StepsIn name newcomer) (known : List String) :
    stepIn name ((ancestors name).find? known.contains) newcomer =
      (ancestors name).find? (known ++ [newcomer]).contains := by
  have h_known (v : String) : (known ++ [newcomer]).contains v ↔ v ∈ known ∨ v = newcomer := by
    simp
  rw [stepIn_eq h_name]
  by_cases h_above : IsAbove newcomer name
  · -- the newcomer takes the link over if it is longer than the name that the link goes to
    cases hu : (ancestors name).find? known.contains with
    | none =>
      rw [if_pos ⟨h_above, fun h' => h ⟨h_above, h'⟩⟩, eq_comm, find?_ancestors_eq_some_iff]
      refine ⟨⟨h_above, (h_known _).2 (.inr rfl)⟩, fun v hv h_v => ?_⟩
      rcases (h_known v).1 h_v with h_v | rfl
      · exact absurd (List.contains_iff_mem.2 h_v)
          (List.find?_eq_none.1 hu v (mem_ancestors_iff.2 hv))
      · exact le_rfl
    | some u =>
      obtain ⟨⟨hu_above, hu_known⟩, h_longest⟩ := find?_ancestors_eq_some_iff.1 hu
      rw [Option.getD_some, if_congr (and_congr_right' (h_above.prefix_iff hu_above).not) rfl rfl]
      split
      · next h_longer =>
        rw [eq_comm, find?_ancestors_eq_some_iff]
        refine ⟨⟨h_above, (h_known _).2 (.inr rfl)⟩, fun v hv h_v => ?_⟩
        rcases (h_known v).1 h_v with h_v | rfl
        · have := h_longest v hv (List.contains_iff_mem.2 h_v)
          omega
        · exact le_rfl
      · next h_shorter =>
        rw [eq_comm, find?_ancestors_eq_some_iff]
        refine ⟨⟨hu_above, (h_known u).2 (.inl (List.contains_iff_mem.1 hu_known))⟩,
          fun v hv h_v => ?_⟩
        rcases (h_known v).1 h_v with h_v | rfl
        · exact h_longest v hv (List.contains_iff_mem.2 h_v)
        · simpa [h_above] using h_shorter
  · rw [if_neg fun h' => h_above h'.1]
    refine List.find?_congr fun v hv => ?_
    have h_ne : v ≠ newcomer := by
      rintro rfl
      exact h_above (mem_ancestors_iff.1 hv)
    rw [Bool.eq_iff_iff, h_known, List.contains_iff_mem, or_iff_left h_ne]

theorem foldl_stepIn {newcomers : List String} (h : ∀ n ∈ newcomers, StepsIn name n)
    (known : List String) :
    newcomers.foldl (stepIn name) ((ancestors name).find? known.contains) =
      (ancestors name).find? (known ++ newcomers).contains := by
  induction newcomers generalizing known with
  | nil => simp
  | cons newcomer newcomers ih =>
    obtain ⟨h_first, h_rest⟩ := List.forall_mem_cons.1 h
    rw [List.foldl_cons, stepIn_find? h_name h_first, ih h_rest, List.append_assoc,
      List.singleton_append]

/-- The link of a dotted name goes to the nearest known name above. -/
theorem nameAbove?_eq {known : List String} (h_order : known.Pairwise StepsIn) :
    nameAbove? known name = (ancestors name).find? known.contains := by
  have h_split := List.takeWhile_append_dropWhile (p := (· ≠ name)) (l := known)
  have h_head := List.head?_dropWhile_not (· ≠ name) known
  rw [nameAbove?, namesAbove_eq_ancestors h_name]
  generalize known.takeWhile (· ≠ name) = early at h_split ⊢
  generalize known.dropWhile (· ≠ name) = late at h_split h_head ⊢
  subst h_split
  -- the names that were known before need not step in
  refine foldl_stepIn h_name (fun n hn => ?_) early
  cases late with
  | nil => simp at hn
  | cons first later =>
    obtain rfl : first = name := by simpa using h_head
    rw [List.pairwise_append, List.pairwise_cons] at h_order
    rcases List.mem_cons.1 hn with rfl | hn
    · exact fun h => not_isAbove_self _ h.1
    · exact h_order.2.1.1 n hn

end

/-- The lineage of a dotted name consists of the known names above it, whatever the order in which
they became known, if each of them steps in. -/
theorem lineage_eq {known : List String} (h_order : known.Pairwise StepsIn) {name : String}
    (h_name : IsDotted name) :
    lineage known name = name :: (ancestors name).filter known.contains := by
  -- Induction on the links: no name that is nearer than the one a link goes to is known.
  fun_induction lineage known name with
  | case1 name h =>
    rw [nameAbove?_eq h_name h_order, List.find?_eq_none] at h
    rw [List.filter_eq_nil_iff.2 h]
  | case2 name upper h ih =>
    rw [nameAbove?_eq h_name h_order] at h
    obtain ⟨⟨h_above, -⟩, -⟩ := find?_ancestors_eq_some_iff.1 h
    obtain ⟨h_known, nearer, farther, h_split, h_nearer⟩ := List.find?_eq_some_iff_append.1 h
    have h_none : nearer.filter known.contains = [] :=
      List.filter_eq_nil_iff.2 fun v hv => by simpa using h_nearer v hv
    rw [ih (h_name.of_isAbove h_above), h_split, ← ancestors_eq_append h_split, List.filter_append,
      h_none, List.filter_cons_of_pos h_known, List.nil_append]

end WordMachine
