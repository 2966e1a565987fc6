/-!
# The hierarchy of names

Names are dotted, and what stands in front of a dot names what lies above. The character right in
front of a dot belongs to the name above, whatever it is: above `a..b` there is `a.`, and no `a`.
Only names that are known take a place in the hierarchy. A name that becomes known steps in above
the names below it, unless what lies above them so far is already spelled with that name in front;
what lies above all names is spelled `root`.

## Main definitions

* `namesAbove`: the names that may lie above a name, the nearest first
* `nameAbove?`: the known name that lies right above a name
* `lineage`: a name and the known names that lie above it, the nearest first

## Main results

* `length_lt_of_mem_namesAbove`: a name above is shorter
* `mem_namesAbove_of_nameAbove?`: what lies right above a name is one of the names that may
-/

namespace WordMachine

/-- The names above a name that is spelled backwards. -/
def namesAboveReversed : List Char → List String
  | '.' :: c :: cs => String.ofList (c :: cs).reverse :: namesAboveReversed cs
  | _ :: cs => namesAboveReversed cs
  | [] => []

/-- The names that may lie above a name, the nearest first. -/
def namesAbove (name : String) : List String :=
  namesAboveReversed name.toList.reverse

theorem length_lt_of_mem_namesAboveReversed {upper : String} {cs : List Char}
    (h : upper ∈ namesAboveReversed cs) : upper.length < cs.length := by
  fun_induction namesAboveReversed cs with
  | case1 c cs ih =>
    rcases List.mem_cons.1 h with rfl | h
    · simp [← String.length_toList]
    · have := ih h
      simp only [List.length_cons]
      omega
  | case2 _ cs _ ih =>
    have := ih h
    simp only [List.length_cons]
    omega
  | case3 => simp at h

/-- A name above is shorter. -/
theorem length_lt_of_mem_namesAbove {upper name : String} (h : upper ∈ namesAbove name) :
    upper.length < name.length := by
  have := length_lt_of_mem_namesAboveReversed h
  simpa [← String.length_toList] using this

/-- The spelling of what lies above all names. -/
def topName : String := "root"

/-- What lies right above a name after another name has become known. -/
def stepIn (name : String) (upper : Option String) (newcomer : String) : Option String :=
  if (namesAbove name).contains newcomer &&
      !newcomer.toList.isPrefixOf (upper.getD topName).toList then some newcomer
  else upper

/-- The known name that lies right above a name, if one does: at first the nearest of those that
are known before it, then a name that has stepped in. The names are given in the order in which
they became known. -/
def nameAbove? (known : List String) (name : String) : Option String :=
  (known.dropWhile (· ≠ name)).foldl (stepIn name)
    ((namesAbove name).find? (known.takeWhile (· ≠ name)).contains)

theorem mem_namesAbove_of_foldl_stepIn {name upper : String} {start : Option String}
    (h_start : ∀ u, start = some u → u ∈ namesAbove name) (newcomers : List String)
    (h : newcomers.foldl (stepIn name) start = some upper) : upper ∈ namesAbove name := by
  induction newcomers generalizing start with
  | nil => exact h_start upper h
  | cons newcomer newcomers ih =>
    refine ih (fun u hu => ?_) h
    unfold stepIn at hu
    split at hu
    · next hc =>
      cases hu
      simp only [Bool.and_eq_true, List.contains_iff_mem] at hc
      exact hc.1
    · exact h_start u hu

/-- What lies right above a name is one of the names that may. -/
theorem mem_namesAbove_of_nameAbove? {known : List String} {name upper : String}
    (h : nameAbove? known name = some upper) : upper ∈ namesAbove name :=
  mem_namesAbove_of_foldl_stepIn (fun _ hu => List.mem_of_find?_eq_some hu) _ h

/-- A name and the known names that lie above it, the nearest first. -/
def lineage (known : List String) (name : String) : List String :=
  match _h : nameAbove? known name with
  | none => [name]
  | some upper => name :: lineage known upper
termination_by name.length
decreasing_by exact length_lt_of_mem_namesAbove (mem_namesAbove_of_nameAbove? _h)

end WordMachine
