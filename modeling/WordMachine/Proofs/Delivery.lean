import Mathlib.Data.List.Nodup
import WordMachine.Journal.Basic
import WordMachine.Proofs.Lineage

/-!
# Where records are delivered

A journal keeps links between names and a memo of what passes. None of this shows in what it does,
as long as its rules are the usual ones for the names that are called. What a journal has delivered
after any calls can be told from the calls alone: the first call that sets a logger up and does not
fail settles its level and its handlers, and a record goes once to each handler of its logger and of
the loggers above, if it passes the level that is in force for its logger and the level of the
handler.

A call fails if its file cannot be opened. It leaves its level and no handlers, so that the calls
behind it may still settle the logger.

## Main definitions

* `Setting`, `Call`: what a logger is set up with, and the calls of a journal
* `firstSetup?`: the setting of the first call that sets a logger up and does not fail
* `threshold`: the level that is in force for a name
* `Passes`, `Takes`: whether a record passes, and whether a handler takes it
* `Rules.Follows`: rules go by the names that are called
* `Journal.Keeps`: what a journal keeps of the calls
* `Journal.Faithful`: settings and deliveries are those of the calls

## Main results

* `Journal.Keeps.log`, `Journal.Keeps.perform`: what a record and what a call leaves
* `Journal.faithful_of_follows`: what all calls leave
* `Rules.follows_standard`: the standard rules go by dotted names
-/

namespace WordMachine

/-! ### Calls -/

/-- What a logger is set up with. -/
structure Setting where
  /-- The level of the logger. -/
  level : Int
  /-- The level of the console handler. -/
  consoleLevel : Int
  /-- What becomes of the file. -/
  file : LogFile
deriving DecidableEq, Repr

namespace Setting

/-- The handlers of a logger that is set up: the file, if there is one, and the console. -/
def handlers (s : Setting) : List Handler :=
  if s.file = .opened then [⟨.file, Level.debug⟩, ⟨.console, s.consoleLevel⟩]
  else [⟨.console, s.consoleLevel⟩]

/-- Why a logger that has no handlers cannot be set up, if it cannot. -/
def refusal? (s : Setting) : Option String :=
  match s.file with
  | .refused reason => some reason
  | _ => none

theorem refusal?_eq_some_iff {s : Setting} {reason : String} :
    s.refusal? = some reason ↔ s.file = .refused reason := by
  unfold refusal?
  split
  · next hfile => simp [hfile]
  · next hfile => simpa using hfile reason

theorem newHandlers_eq (s : Setting) :
    Journal.newHandlers s.consoleLevel s.file = s.handlers := by
  by_cases h : s.file = .opened <;> simp [Journal.newHandlers, handlers, h]

theorem handlers_ne_nil (s : Setting) : s.handlers ≠ [] := by
  unfold handlers
  split <;> exact List.cons_ne_nil _ _

theorem nodup_handlers (s : Setting) : s.handlers.Nodup := by
  unfold handlers
  split <;> simp

theorem any_file_handlers (s : Setting) :
    s.handlers.any (·.outlet = .file) = decide (s.file = .opened) := by
  by_cases h : s.file = .opened <;> simp [handlers, h]

end Setting

/-- A call of a journal. -/
inductive Call where
  /-- A logger is set up. -/
  | setup (name : String) (s : Setting)
  /-- A record comes in. -/
  | log (r : Record)
deriving DecidableEq, Repr

namespace Call

/-- The name of the logger that is called. -/
def name : Call → String
  | .setup name _ => name
  | .log r => r.logger

/-- The setting that a call has for a name. -/
def setting? (name : String) : Call → Option Setting
  | .setup n s => if n = name then some s else none
  | .log _ => none

end Call

/-- The setting of the first call that sets a name up and does not fail. -/
def firstSetup? (calls : List Call) (name : String) : Option Setting :=
  calls.findSome? fun c => (c.setting? name).filter (·.refusal? = none)

/-- The setting of the last call that sets a name up, whether it fails or not. -/
def lastSetup? (calls : List Call) (name : String) : Option Setting :=
  calls.reverse.findSome? (Call.setting? name)

/-- The names with one more, if it is not among them. -/
def noteName (names : List String) (name : String) : List String :=
  if name ∈ names then names else names ++ [name]

/-- The names that are called, in the order of their first calls. -/
def calledNames (calls : List Call) : List String :=
  calls.foldl (fun names c => noteName names c.name) []

/-- The level that a name has after calls: that of the first one that sets it up and does not fail,
else that of the last one that fails to, else zero. -/
def levelAfter (calls : List Call) (name : String) : Int :=
  ((firstSetup? calls name).or (lastSetup? calls name)).elim 0 Setting.level

/-- The handlers that a name has after calls. -/
def handlersAfter (calls : List Call) (name : String) : List Handler :=
  (firstSetup? calls name).elim [] Setting.handlers

/-- What a call is answered behind others: a set-up fails if its file cannot be opened, unless the
name was set up before. -/
def answerOf (earlier : List Call) : Call → Except String Unit
  | .setup name s =>
    match firstSetup? earlier name, s.refusal? with
    | none, some reason => .error reason
    | _, _ => .ok ()
  | .log _ => .ok ()

/-- The record of a call. A set-up has one as well, if it is the first one that does not fail. -/
def recordOf? (earlier : List Call) : Call → Option Record
  | .setup name s =>
    match firstSetup? earlier name, s.refusal? with
    | none, none => some ⟨Level.debug, name, "Logger initialized: " ++ name⟩
    | _, _ => none
  | .log r => some r

/-! ### Deliveries -/

section

variable (rules : Rules) (level : String → Int) (handlers : String → List Handler)

/-- The level that is in force for a name: its own, if it is not zero, else that of the nearest name
above with such a level, else that of warnings. -/
def threshold (name : String) : Int :=
  (((name :: ancestors name).map level).find? (· ≠ 0)).getD Level.warning

/-- Whether records of a name and a level pass: the level is admitted, and it is not below the one
that is in force for the name. -/
def Passes (name : String) (l : Int) : Prop :=
  rules.admits l = true ∧ threshold level name ≤ l

instance (name : String) (l : Int) : Decidable (Passes rules level name l) :=
  inferInstanceAs (Decidable (_ ∧ _))

/-- Whether a handler of a name takes a record: the record is of this name or of one below, it
passes, and it is not below the level of the handler. -/
def Takes (name : String) (h : Handler) (r : Record) : Prop :=
  (name = r.logger ∨ IsAbove name r.logger) ∧ Passes rules level r.logger r.level ∧
    h.level ≤ r.level

instance (name : String) (h : Handler) (r : Record) : Decidable (Takes rules level name h r) :=
  inferInstanceAs (Decidable (_ ∧ _))

/-- The deliveries of a record to the handlers of its own name and of those above, if it passes. -/
def deliveriesOf (r : Record) : List Delivery :=
  if Passes rules level r.logger r.level then
    (r.logger :: ancestors r.logger).flatMap fun name =>
      ((handlers name).filter (·.takes r)).map (⟨name, ·, r⟩)
  else []

variable {rules level handlers} {r : Record}

theorem record_of_mem_deliveriesOf {d : Delivery} (h : d ∈ deliveriesOf rules level handlers r) :
    d.record = r := by
  unfold deliveriesOf at h
  split at h
  · obtain ⟨name, -, h⟩ := List.mem_flatMap.mp h
    obtain ⟨_, -, rfl⟩ := List.mem_map.mp h
    rfl
  · cases h

theorem mem_deliveriesOf_iff {name : String} {h : Handler} :
    ⟨name, h, r⟩ ∈ deliveriesOf rules level handlers r ↔
      h ∈ handlers name ∧ Takes rules level name h r := by
  have hname : name ∈ r.logger :: ancestors r.logger ↔ name = r.logger ∨ IsAbove name r.logger := by
    rw [List.mem_cons, mem_ancestors_iff]
  unfold deliveriesOf Takes
  by_cases hr : Passes rules level r.logger r.level
  · rw [if_pos hr, ← hname, List.mem_flatMap]
    constructor
    · rintro ⟨n, hn, hd⟩
      obtain ⟨h', hh, heq⟩ := List.mem_map.mp hd
      obtain ⟨rfl, rfl, -⟩ := Delivery.mk.inj heq
      obtain ⟨hmem, htakes⟩ := List.mem_filter.mp hh
      exact ⟨hmem, hn, hr, of_decide_eq_true htakes⟩
    · rintro ⟨hmem, hn, -, htakes⟩
      refine ⟨name, hn, List.mem_map.mpr ⟨h, List.mem_filter.mpr ⟨hmem, ?_⟩, rfl⟩⟩
      exact decide_eq_true htakes
  · simp [hr]

/-- The names above a name, with the name itself, are told apart. -/
theorem nodup_cons_ancestors (name : String) : (name :: ancestors name).Nodup := by
  refine List.nodup_cons.mpr ⟨?_, (pairwise_ancestors name).imp ?_⟩
  · rw [mem_ancestors_iff]
    exact not_isAbove_self name
  · rintro u _ hlt rfl
    exact lt_irrefl _ hlt

theorem nodup_deliveriesOf (hh : ∀ name, (handlers name).Nodup) :
    (deliveriesOf rules level handlers r).Nodup := by
  unfold deliveriesOf
  split
  · refine List.nodup_flatMap.mpr ⟨fun name _ => ?_, (nodup_cons_ancestors _).imp ?_⟩
    · exact ((hh name).filter _).map fun _ _ heq => (Delivery.mk.inj heq).2.1
    · -- deliveries to different names have different loggers
      intro u v hne d hu hv
      obtain ⟨_, -, rfl⟩ := List.mem_map.mp hu
      obtain ⟨_, -, hd⟩ := List.mem_map.mp hv
      exact hne (Delivery.mk.inj hd).1.symm
  · exact .nil

/-- A handler takes a record once or not at all. -/
theorem count_deliveriesOf (hh : ∀ name, (handlers name).Nodup) (name : String) (h : Handler) :
    (deliveriesOf rules level handlers r).count ⟨name, h, r⟩ =
      if h ∈ handlers name ∧ Takes rules level name h r then 1 else 0 := by
  rw [(nodup_deliveriesOf hh).count]
  exact if_congr mem_deliveriesOf_iff rfl rfl

end

/-- The deliveries of a call. Those that set names up later have no part in them. -/
def deliveriesBy (rules : Rules) (earlier : List Call) (c : Call) : List Delivery :=
  (recordOf? earlier c).elim []
    (deliveriesOf rules (levelAfter (earlier ++ [c])) (handlersAfter (earlier ++ [c])))

/-! ### One more call -/

section

variable {calls : List Call} {name : String}

theorem firstSetup?_append_of_eq_some (later : List Call) {s : Setting}
    (h : firstSetup? calls name = some s) : firstSetup? (calls ++ later) name = some s := by
  rw [firstSetup?, List.findSome?_append, ← firstSetup?, h, Option.some_or]

theorem firstSetup?_snoc (c : Call) : firstSetup? (calls ++ [c]) name =
    (firstSetup? calls name).or ((c.setting? name).filter (·.refusal? = none)) := by
  rw [firstSetup?, List.findSome?_append, List.findSome?_singleton]
  rfl

theorem lastSetup?_snoc (c : Call) :
    lastSetup? (calls ++ [c]) name = (c.setting? name).or (lastSetup? calls name) := by
  rw [lastSetup?, List.reverse_append, List.reverse_singleton, List.singleton_append,
    List.findSome?_cons]
  cases c.setting? name <;> rfl

/-- A record sets nothing up. -/
theorem setup_snoc_log (calls : List Call) (r : Record) :
    levelAfter (calls ++ [.log r]) = levelAfter calls ∧
      handlersAfter (calls ++ [.log r]) = handlersAfter calls := by
  constructor <;> funext n
  · simp [levelAfter, firstSetup?_snoc, lastSetup?_snoc, Call.setting?]
  · simp [handlersAfter, firstSetup?_snoc, Call.setting?]

/-- A name that was set up stays as it is. -/
theorem setup_snoc_again (s : Setting) {first : Setting}
    (h : firstSetup? calls name = some first) :
    levelAfter (calls ++ [.setup name s]) = levelAfter calls ∧
      handlersAfter (calls ++ [.setup name s]) = handlersAfter calls := by
  constructor <;> funext n <;> by_cases hn : name = n
  · subst hn
    simp [levelAfter, firstSetup?_snoc, h]
  · simp [levelAfter, firstSetup?_snoc, lastSetup?_snoc, Call.setting?, hn]
  · subst hn
    simp [handlersAfter, firstSetup?_snoc, h]
  · simp [handlersAfter, firstSetup?_snoc, Call.setting?, hn]

/-- A name that was not set up gets the level of the call. -/
theorem levelAfter_snoc_new (s : Setting) (h : firstSetup? calls name = none) :
    levelAfter (calls ++ [.setup name s]) = Function.update (levelAfter calls) name s.level := by
  funext n
  by_cases hn : name = n
  · subst hn
    cases hs : s.refusal? <;>
      simp [levelAfter, firstSetup?_snoc, lastSetup?_snoc, Call.setting?, h, hs, Option.filter]
  · simp [levelAfter, firstSetup?_snoc, lastSetup?_snoc, Call.setting?, hn, Ne.symm hn]

/-- A name that was not set up gets the handlers of the call, unless this fails. -/
theorem handlersAfter_snoc_new (s : Setting) (h : firstSetup? calls name = none) :
    handlersAfter (calls ++ [.setup name s]) =
      if s.refusal? = none then Function.update (handlersAfter calls) name s.handlers
      else handlersAfter calls := by
  funext n
  by_cases hn : name = n
  · subst hn
    cases hs : s.refusal? <;>
      simp [handlersAfter, firstSetup?_snoc, Call.setting?, h, hs, Option.filter]
  · split <;> simp [handlersAfter, firstSetup?_snoc, Call.setting?, hn, Ne.symm hn]

theorem handlersAfter_eq_nil_iff :
    handlersAfter calls name = [] ↔ firstSetup? calls name = none := by
  rw [handlersAfter]
  cases firstSetup? calls name with
  | none => simp
  | some s => simpa using s.handlers_ne_nil

theorem any_file_handlersAfter (calls : List Call) (name : String) :
    (handlersAfter calls name).any (·.outlet = .file) =
      (firstSetup? calls name).any (·.file = .opened) := by
  rw [handlersAfter]
  cases firstSetup? calls name with
  | none => rfl
  | some s => exact s.any_file_handlers

theorem nodup_handlersAfter (calls : List Call) (name : String) :
    (handlersAfter calls name).Nodup := by
  rw [handlersAfter]
  cases firstSetup? calls name with
  | none => exact .nil
  | some s => exact s.nodup_handlers

theorem mem_noteName (names : List String) (name : String) : name ∈ noteName names name := by
  unfold noteName
  split
  · assumption
  · simp

theorem noteName_of_mem {names : List String} (h : name ∈ names) : noteName names name = names :=
  if_pos h

theorem prefix_noteName (names : List String) (name : String) : names <+: noteName names name := by
  unfold noteName
  split
  · exact List.prefix_rfl
  · exact List.prefix_append ..

theorem calledNames_snoc (calls : List Call) (c : Call) :
    calledNames (calls ++ [c]) = noteName (calledNames calls) c.name := by
  rw [calledNames, List.foldl_append]
  rfl

theorem prefix_calledNames (calls later : List Call) :
    calledNames calls <+: calledNames (calls ++ later) := by
  induction later using List.reverseRecOn with
  | nil => rw [List.append_nil]
  | append_singleton later c ih =>
    rw [← List.append_assoc, calledNames_snoc]
    exact ih.trans (prefix_noteName ..)

end

/-! ### Rules -/

/-- Rules go by the names of calls: the names are not those of the top, and above a name there are
all the names that were called so far and that it begins with, up to a dot, the nearest first. -/
structure Rules.Follows (rules : Rules) (calls : List Call) : Prop where
  not_top : ∀ c ∈ calls, c.name ≠ "" ∧ c.name ≠ topName
  lineage : ∀ earlier c, earlier ++ [c] <+: calls →
    rules.lineage (calledNames (earlier ++ [c])) c.name =
      c.name :: (ancestors c.name).filter (calledNames (earlier ++ [c])).contains

theorem Rules.Follows.of_append {rules : Rules} {calls later : List Call}
    (h : rules.Follows (calls ++ later)) : rules.Follows calls where
  not_top c hc := h.not_top c (List.mem_append_left _ hc)
  lineage earlier c hearlier := h.lineage earlier c (hearlier.trans (List.prefix_append _ _))

/-- Whether calls name their loggers such that the standard rules go by them: by dotted names, which
are not those of the top, and so that a name that begins the spelling of the top is not called later
than a name below it. -/
structure WellNamed (calls : List Call) : Prop where
  dotted : ∀ c ∈ calls, IsDotted c.name
  not_top : ∀ c ∈ calls, c.name ≠ "" ∧ c.name ≠ topName
  order : (calledNames calls).Pairwise StepsIn

instance (calls : List Call) : Decidable (WellNamed calls) :=
  decidable_of_iff
    ((∀ c ∈ calls, IsDotted c.name) ∧ (∀ c ∈ calls, c.name ≠ "" ∧ c.name ≠ topName) ∧
      (calledNames calls).Pairwise StepsIn)
    ⟨fun h => ⟨h.1, h.2.1, h.2.2⟩, fun h => ⟨h.dotted, h.not_top, h.order⟩⟩

/-- The standard rules go by calls that name their loggers well. -/
theorem Rules.follows_standard {calls : List Call} (h : WellNamed calls) :
    Rules.standard.Follows calls where
  not_top := h.not_top
  lineage := by
    rintro earlier c ⟨later, rfl⟩
    exact lineage_eq (h.order.sublist (prefix_calledNames (earlier ++ [c]) later).sublist)
      (h.dotted c (by simp))

/-! ### What a journal keeps -/

namespace Journal

theorem taken_know (j : Journal) (name : String) : (j.know name).taken = j.taken := by
  unfold know
  split <;> rfl

theorem taken_settle (rules : Rules) (j : Journal) (name : String) (l : Int) :
    (j.settle rules name l).taken = j.taken := by
  unfold settle
  split <;> rfl

/-- What a journal keeps: names, each with a level and with handlers, and memos of what passes. -/
structure Keeps (rules : Rules) (names : List String) (level : String → Int)
    (handlers : String → List Handler) (j : Journal) : Prop where
  /-- The loggers are those of the names, in their order. -/
  loggers : j.loggers = names.map fun name => ⟨name, level name, handlers name⟩
  /-- Other names have no level and no handlers. -/
  unset : ∀ name ∉ names, level name = 0 ∧ handlers name = []
  /-- What is decided agrees with the levels in force. -/
  verdicts : ∀ name l verdict, j.verdicts.lookup (name, l) = some verdict →
    verdict = decide (Passes rules level name l)

namespace Keeps

variable {rules : Rules} {names : List String} {level : String → Int}
  {handlers : String → List Handler} {j : Journal} {name : String}

theorem empty (rules : Rules) : Keeps rules [] (fun _ => 0) (fun _ => []) {} where
  loggers := rfl
  unset _ _ := ⟨rfl, rfl⟩
  verdicts := nofun

theorem names_eq (h : Keeps rules names level handlers j) : j.names = names := by
  rw [Journal.names, h.loggers, List.map_map]
  exact List.map_id names

theorem logger?_eq (h : Keeps rules names level handlers j) (name : String) :
    j.logger? name =
      if name ∈ names then some ⟨name, level name, handlers name⟩ else none := by
  rw [logger?, h.loggers, List.find?_map]
  change (names.find? (· == name)).map _ = _
  split
  · next hmem =>
    cases hfind : names.find? (· == name) with
    | none => exact absurd (List.find?_eq_none.mp hfind name hmem) (by simp)
    | some n =>
      obtain rfl : n = name := by simpa using List.find?_some hfind
      rfl
  · next hmem =>
    rw [List.find?_eq_none.mpr fun n hn => ?_, Option.map_none]
    rintro heq
    exact hmem (eq_of_beq heq ▸ hn)

theorem levelOf_eq (h : Keeps rules names level handlers j) : j.levelOf = level := by
  funext name
  rw [levelOf, h.logger?_eq]
  split
  · rfl
  · next hmem => exact (h.unset name hmem).1.symm

theorem handlersOf_eq (h : Keeps rules names level handlers j) : j.handlersOf = handlers := by
  funext name
  rw [handlersOf, h.logger?_eq]
  split
  · rfl
  · next hmem => exact (h.unset name hmem).2.symm

/-- A name becomes known. -/
theorem know (h : Keeps rules names level handlers j) (name : String) :
    Keeps rules (noteName names name) level handlers (j.know name) := by
  rw [Journal.know, noteName, h.logger?_eq]
  split
  · exact h
  · next hmem =>
    obtain ⟨hlevel, hhandlers⟩ := h.unset name hmem
    exact { h with
      loggers := by
        rw [h.loggers, List.map_append, List.map_singleton, hlevel, hhandlers]
        rfl
      unset := fun n hn => h.unset n fun hn' => hn (List.mem_append_left _ hn') }

/-- One of the loggers is changed. -/
theorem loggers_edit {level' : String → Int} {handlers' : String → List Handler}
    (h : Keeps rules names level handlers j) (edit : Logger → Logger)
    (hname : edit ⟨name, level name, handlers name⟩ = ⟨name, level' name, handlers' name⟩)
    (hother : ∀ n, n ≠ name → level' n = level n ∧ handlers' n = handlers n) :
    (j.loggers.map fun l => if l.name = name then edit l else l) =
      names.map fun n => ⟨n, level' n, handlers' n⟩ := by
  rw [h.loggers, List.map_map]
  refine List.map_congr_left fun n _ => ?_
  by_cases hn : n = name
  · subst hn
    rw [Function.comp_apply, if_pos rfl, hname]
  · rw [Function.comp_apply, if_neg hn, (hother n hn).1, (hother n hn).2]

/-- A name gets a level. -/
theorem setLevel (h : Keeps rules names level handlers j) (hmem : name ∈ names) (l : Int) :
    Keeps rules names (Function.update level name l) handlers (j.setLevel name l) where
  loggers := h.loggers_edit ({ · with level := l }) (by rw [Function.update_self])
    fun n hn => ⟨Function.update_of_ne hn .., rfl⟩
  unset n hn := by
    rw [Function.update_of_ne (ne_of_mem_of_not_mem hmem hn).symm]
    exact h.unset n hn
  verdicts := nofun

/-- A name gets handlers. -/
theorem setHandlers (h : Keeps rules names level handlers j) (hmem : name ∈ names)
    (hs : List Handler) :
    Keeps rules names level (Function.update handlers name hs) (j.setHandlers name hs) where
  loggers := h.loggers_edit ({ · with handlers := hs }) (by rw [Function.update_self])
    fun n hn => ⟨rfl, Function.update_of_ne hn ..⟩
  unset n hn := by
    rw [Function.update_of_ne (ne_of_mem_of_not_mem hmem hn).symm]
    exact h.unset n hn
  verdicts := h.verdicts

/-! The level in force is told by the names that the name begins with. -/

section

variable (hlineage : rules.lineage names name = name :: (ancestors name).filter names.contains)
include hlineage

theorem effectiveLevel_eq (h : Keeps rules names level handlers j) :
    j.effectiveLevel rules name = threshold level name := by
  -- a name that is not known has no level to give
  have hfind : ((ancestors name).filter names.contains).find? ((· ≠ 0) ∘ level) =
      (ancestors name).find? ((· ≠ 0) ∘ level) := by
    rw [List.find?_filter]
    refine List.find?_congr fun n _ => ?_
    by_cases hn : n ∈ names
    · simp [hn]
    · simp [hn, (h.unset n hn).1]
  rw [effectiveLevel, threshold, h.names_eq, hlineage, h.levelOf_eq, List.find?_map,
    List.find?_map]
  simp only [List.find?_cons, hfind]

theorem passes_eq (h : Keeps rules names level handlers j) (l : Int) :
    j.passes rules name l = decide (Passes rules level name l) := by
  have hpasses : Passes rules level name l ↔
      rules.admits l = true ∧ threshold level name ≤ l := Iff.rfl
  rw [passes, h.effectiveLevel_eq hlineage, decide_eq_decide.mpr hpasses, Bool.decide_and,
    Bool.decide_eq_true]

theorem verdict_eq (h : Keeps rules names level handlers j) (l : Int) :
    j.verdict rules name l = decide (Passes rules level name l) := by
  rw [verdict]
  cases hdecided : j.verdicts.lookup (name, l) with
  | some verdict => exact h.verdicts name l verdict hdecided
  | none => exact h.passes_eq hlineage l

/-- It is decided what becomes of the records of a level. -/
theorem settle (h : Keeps rules names level handlers j) (l : Int) :
    Keeps rules names level handlers (j.settle rules name l) := by
  rw [Journal.settle]
  split
  · exact h
  · refine { h with verdicts := fun n l' verdict hlookup => ?_ }
    rw [List.lookup_append, Option.or_eq_some_iff] at hlookup
    rcases hlookup with hlookup | ⟨-, hlookup⟩
    · exact h.verdicts n l' verdict hlookup
    · rw [List.lookup_cons] at hlookup
      split at hlookup
      · next heq =>
        obtain ⟨rfl, rfl⟩ := Prod.mk.inj (eq_of_beq heq)
        rw [← Option.some.inj hlookup, h.passes_eq hlineage]
      · cases hlookup

end

theorem deliver (h : Keeps rules names level handlers j) (r : Record) :
    Keeps rules names level handlers (j.deliver rules r) :=
  { h with }

/-- What is handed to the handlers of the known names is all that is to be handed on: other names
have no handlers. -/
theorem deliveries_eq (h : Keeps rules names level handlers j) (r : Record) :
    (r.logger :: (ancestors r.logger).filter names.contains).flatMap (j.deliveriesAt r) =
      (r.logger :: ancestors r.logger).flatMap fun name =>
        ((handlers name).filter (·.takes r)).map (⟨name, ·, r⟩) := by
  have hat : j.deliveriesAt r = fun name =>
      ((handlers name).filter (·.takes r)).map (⟨name, ·, r⟩) := by
    funext name
    rw [deliveriesAt, h.handlersOf_eq]
  rw [hat, List.flatMap_cons, List.flatMap_cons]
  congr 1
  generalize ancestors r.logger = above
  induction above with
  | nil => rfl
  | cons name above ih =>
    rw [List.flatMap_cons]
    by_cases hname : name ∈ names
    · rw [List.filter_cons_of_pos (List.contains_iff_mem.mpr hname), List.flatMap_cons, ih]
    · rw [List.filter_cons_of_neg (mt List.contains_iff_mem.mp hname), ih,
        (h.unset name hname).2]
      rfl

/-- A record comes in. -/
theorem log (h : Keeps rules names level handlers j) {r : Record}
    (hlineage : rules.lineage (noteName names r.logger) r.logger =
      r.logger :: (ancestors r.logger).filter (noteName names r.logger).contains) :
    Keeps rules (noteName names r.logger) level handlers (j.log rules r) ∧
      (j.log rules r).taken.toList = j.taken.toList ++ deliveriesOf rules level handlers r := by
  have hsettled := (h.know r.logger).settle hlineage r.level
  have htaken : ((j.know r.logger).settle rules r.logger r.level).taken = j.taken := by
    rw [taken_settle, taken_know]
  rw [Journal.log, hsettled.verdict_eq hlineage, deliveriesOf]
  by_cases hr : Passes rules level r.logger r.level
  · rw [if_pos (decide_eq_true hr), if_pos hr]
    refine ⟨hsettled.deliver r, ?_⟩
    rw [Journal.deliver, hsettled.names_eq, hlineage,
      hsettled.deliveries_eq r, Array.toList_append, htaken]
  · rw [if_neg (by simpa using hr), if_neg hr, List.append_nil, htaken]
    exact ⟨hsettled, rfl⟩

/-- Whether a name was set up before shows in its handlers. -/
theorem any_isSetUp (h : Keeps rules names level handlers j) (hmem : name ∈ names) :
    (j.logger? name).any Logger.isSetUp = !(handlers name).isEmpty := by
  rw [h.logger?_eq, if_pos hmem]
  rfl

end Keeps

/-! ### All calls -/

section

variable (rules : Rules)

/-- What a call is answered, and the journal after it. -/
def perform (j : Journal) : Call → Except String Unit × Journal
  | .setup name s => j.setup rules name s.level s.consoleLevel s.file
  | .log r => (.ok (), j.log rules r)

/-- The journal after all calls. -/
def after (calls : List Call) : Journal :=
  calls.foldl (fun j c => (j.perform rules c).2) {}

end

variable {rules : Rules} {calls : List Call} {j : Journal}

/-- What a journal keeps of calls, and what the answer and the deliveries of one more are. -/
structure Performs (rules : Rules) (earlier : List Call) (c : Call) (j : Journal) : Prop where
  keeps : Keeps rules (calledNames (earlier ++ [c])) (levelAfter (earlier ++ [c]))
    (handlersAfter (earlier ++ [c])) (j.perform rules c).2
  answer : (j.perform rules c).1 = answerOf earlier c
  taken : (j.perform rules c).2.taken.toList = j.taken.toList ++ deliveriesBy rules earlier c

/-- A logger that was set up before is set up once more. -/
theorem Keeps.setup_again {name : String} {s first : Setting}
    (h : Keeps rules (calledNames calls) (levelAfter calls) (handlersAfter calls) j)
    (hfirst : firstSetup? calls name = some first) : Performs rules calls (.setup name s) j := by
  have hknown := h.know name
  have hset : ((j.know name).logger? name).any Logger.isSetUp = true := by
    rw [hknown.any_isSetUp (mem_noteName _ name), handlersAfter, hfirst]
    simpa using first.handlers_ne_nil
  have hperform : j.perform rules (.setup name s) = (.ok (), j.know name) := by
    rw [perform, setup]
    exact if_pos hset
  obtain ⟨hlevel, hhandlers⟩ := setup_snoc_again s hfirst
  constructor
  · rw [calledNames_snoc, hlevel, hhandlers, hperform]
    exact hknown
  · rw [hperform, answerOf, hfirst]
  · rw [hperform, deliveriesBy, recordOf?, hfirst, Option.elim_none, List.append_nil]
    exact congrArg Array.toList (taken_know j name)

/-- A logger is set up that was not set up before. -/
theorem Keeps.setup_new {name : String} {s : Setting}
    (h : Keeps rules (calledNames calls) (levelAfter calls) (handlersAfter calls) j)
    (hnone : firstSetup? calls name = none)
    (hlineage : rules.lineage (noteName (calledNames calls) name) name =
      name :: (ancestors name).filter (noteName (calledNames calls) name).contains) :
    Performs rules calls (.setup name s) j := by
  have hmem := mem_noteName (calledNames calls) name
  have hknown := h.know name
  have hunset : ((j.know name).logger? name).any Logger.isSetUp ≠ true := by
    rw [hknown.any_isSetUp hmem, handlersAfter_eq_nil_iff.mpr hnone]
    nofun
  have hleveled := hknown.setLevel hmem s.level
  have htaken : ((j.know name).setLevel name s.level).taken = j.taken := taken_know j name
  rw [← levelAfter_snoc_new s hnone] at hleveled
  have hhandlers := handlersAfter_snoc_new s hnone
  cases hs : s.refusal? with
  | some reason =>
    -- the file cannot be opened: the level is kept
    have hperform : j.perform rules (.setup name s) =
        (.error reason, (j.know name).setLevel name s.level) := by
      have hfile : s.file = .refused reason := Setting.refusal?_eq_some_iff.mp hs
      rw [Journal.perform, setup, if_neg hunset, hfile]
    constructor
    · rw [calledNames_snoc, hhandlers, if_neg (by simp [hs]), hperform]
      exact hleveled
    · rw [hperform, answerOf, hnone, hs]
    · rw [hperform, deliveriesBy, recordOf?, hnone, hs, htaken, Option.elim_none, List.append_nil]
  | none =>
    have hperform : j.perform rules (.setup name s) =
        (.ok (), (((j.know name).setLevel name s.level).setHandlers name s.handlers).log rules
          ⟨Level.debug, name, "Logger initialized: " ++ name⟩) := by
      rw [Journal.perform, setup, if_neg hunset]
      split
      · next hfile => cases (Setting.refusal?_eq_some_iff.mpr hfile).symm.trans hs
      · rw [s.newHandlers_eq]
    rw [if_pos hs] at hhandlers
    have hset := hleveled.setHandlers hmem s.handlers
    rw [← hhandlers] at hset
    obtain ⟨hkeeps, hdelivered⟩ := hset.log
      (r := ⟨Level.debug, name, "Logger initialized: " ++ name⟩)
      (by rwa [noteName_of_mem hmem])
    rw [noteName_of_mem hmem] at hkeeps
    constructor
    · rw [calledNames_snoc, hperform]
      exact hkeeps
    · rw [hperform, answerOf, hnone, hs]
    · rw [hperform, deliveriesBy, recordOf?, hnone, hs, Option.elim_some]
      exact hdelivered.trans (by rw [← htaken]; rfl)

/-- A call adds to what was called before. -/
theorem Keeps.perform {c : Call}
    (h : Keeps rules (calledNames calls) (levelAfter calls) (handlersAfter calls) j)
    (hfollows : rules.Follows (calls ++ [c])) : Performs rules calls c j := by
  have hlineage := hfollows.lineage calls c List.prefix_rfl
  rw [calledNames_snoc] at hlineage
  cases c with
  | setup name s =>
    cases hfirst : firstSetup? calls name with
    | some first => exact h.setup_again hfirst
    | none => exact h.setup_new hfirst hlineage
  | log r =>
    obtain ⟨hlevel, hhandlers⟩ := setup_snoc_log calls r
    obtain ⟨hkeeps, hdelivered⟩ := h.log hlineage
    refine ⟨?_, rfl, ?_⟩
    · rw [calledNames_snoc, hlevel, hhandlers]
      exact hkeeps
    · rw [deliveriesBy, recordOf?, Option.elim_some, hlevel, hhandlers]
      exact hdelivered

theorem after_snoc (earlier : List Call) (c : Call) :
    after rules (earlier ++ [c]) = ((after rules earlier).perform rules c).2 := by
  rw [after, List.foldl_append]
  rfl

/-- What a journal keeps of all calls. -/
theorem keeps_after (h : rules.Follows calls) :
    Keeps rules (calledNames calls) (levelAfter calls) (handlersAfter calls)
      (after rules calls) := by
  -- Induction on the calls from the last one on: each adds to what is kept of those before it.
  induction calls using List.reverseRecOn with
  | nil => exact .empty rules
  | append_singleton calls c ih =>
    rw [after_snoc]
    exact ((ih h.of_append).perform h).keeps

/-- What a journal does is told by its calls. -/
structure Faithful (rules : Rules) (calls : List Call) : Prop where
  /-- The first call that sets a logger up and does not fail settles its level and its handlers,
  whatever is called later. -/
  first_setup : ∀ earlier name s, earlier <+: calls → firstSetup? earlier name = some s →
    ∃ l, (after rules calls).logger? name = some l ∧ l.level = s.level ∧ l.handlers = s.handlers
  /-- A logger that no call has set up has no handlers; it has the level of the last call that has
  failed to set it up, or none. -/
  never_setup : ∀ name l, firstSetup? calls name = none →
    (after rules calls).logger? name = some l →
      l.level = (lastSetup? calls name).elim 0 Setting.level ∧ l.handlers = []
  /-- A call fails only if it is the first one to set a logger up but for those that have failed as
  well, and its file cannot be opened. -/
  answer : ∀ earlier c, earlier ++ [c] <+: calls →
    ((after rules earlier).perform rules c).1 = answerOf earlier c
  /-- What is taken when a call has a record is this record, once by each handler that takes it and
  by no other. -/
  once : ∀ earlier c r, earlier ++ [c] <+: calls → recordOf? earlier c = some r →
    ∃ ds, (after rules (earlier ++ [c])).taken.toList = (after rules earlier).taken.toList ++ ds ∧
      (∀ d ∈ ds, d.record = r) ∧
      ∀ name h, ds.count ⟨name, h, r⟩ =
        if h ∈ handlersAfter (earlier ++ [c]) name ∧
          Takes rules (levelAfter (earlier ++ [c])) name h r then 1 else 0
  /-- When a call has no record nothing is taken. -/
  silent : ∀ earlier c, earlier ++ [c] <+: calls → recordOf? earlier c = none →
    (after rules (earlier ++ [c])).taken = (after rules earlier).taken
  /-- There is a file for each name that was set up with one. -/
  files : (after rules calls).files.map Prod.fst =
    (calledNames calls).filter fun name => (firstSetup? calls name).any (·.file = .opened)

/-- **Delivery.** What a journal does is told by its calls, if its rules go by their names. -/
theorem faithful_of_follows (rules : Rules) (calls : List Call) (h : rules.Follows calls) :
    Faithful rules calls := by
  have hkeeps := keeps_after h
  have hperforms {earlier : List Call} {c : Call} (hearlier : earlier ++ [c] <+: calls) :
      Performs rules earlier c (after rules earlier) := by
    obtain ⟨later, rfl⟩ := hearlier
    have hthen := h.of_append
    exact (keeps_after hthen.of_append).perform hthen
  have hlogger {name : String} {l : Logger} (hl : (after rules calls).logger? name = some l) :
      l = ⟨name, levelAfter calls name, handlersAfter calls name⟩ := by
    rw [hkeeps.logger?_eq] at hl
    split at hl <;> cases hl
    rfl
  constructor
  case first_setup =>
    rintro earlier name s ⟨later, rfl⟩ hsetup
    have hfirst := firstSetup?_append_of_eq_some later hsetup
    have hmem : name ∈ calledNames (earlier ++ later) := by
      by_contra hmem
      have hnil := (hkeeps.unset name hmem).2
      rw [handlersAfter_eq_nil_iff, hfirst] at hnil
      cases hnil
    refine ⟨_, by rw [hkeeps.logger?_eq, if_pos hmem], ?_, ?_⟩
    · rw [levelAfter, hfirst]
      rfl
    · rw [handlersAfter, hfirst]
      rfl
  case never_setup =>
    intro name l hnone hl
    obtain rfl := hlogger hl
    rw [levelAfter, handlersAfter, hnone, Option.none_or]
    exact ⟨rfl, rfl⟩
  case answer => exact fun earlier c hearlier => (hperforms hearlier).answer
  case once =>
    intro earlier c r hearlier hrecord
    refine ⟨deliveriesBy rules earlier c, ?_, ?_⟩
    · rw [after_snoc]
      exact (hperforms hearlier).taken
    · rw [deliveriesBy, hrecord, Option.elim_some]
      exact ⟨fun d hd => record_of_mem_deliveriesOf hd,
        count_deliveriesOf (nodup_handlersAfter (earlier ++ [c]))⟩
  case silent =>
    intro earlier c hearlier hrecord
    have htaken := (hperforms hearlier).taken
    rw [deliveriesBy, hrecord, Option.elim_none, List.append_nil] at htaken
    rw [after_snoc]
    exact Array.toList_inj.mp htaken
  case files =>
    rw [files, List.map_map, hkeeps.loggers, List.filter_map, List.map_map]
    refine (List.map_id _).trans (List.filter_congr fun name _ => ?_)
    exact any_file_handlersAfter calls name

/-- A logger is set up below one that is set up later, and once more; the file of a third one cannot
be opened at first. -/
theorem faithful_nested :
    let calls : List Call := [.setup "app.io" ⟨0, 30, .opened⟩, .setup "app" ⟨20, 10, .absent⟩,
      .setup "net/io" ⟨10, 30, .refused "No such file or directory"⟩,
      .log ⟨20, "app.io.net", "sent"⟩, .log ⟨0, "app", "low"⟩, .setup "app.io" ⟨10, 10, .absent⟩]
    Rules.standard.Follows calls ∧ Faithful Rules.standard calls := by
  intro calls
  have hfollows : Rules.standard.Follows calls := Rules.follows_standard (by decide)
  exact ⟨hfollows, faithful_of_follows _ _ hfollows⟩

/-- A logger whose file cannot be opened is left without handlers by the first call that sets it up,
and a later call settles its level and its handlers. -/
theorem resettled_refused :
    let first : Call := .setup "net/io" ⟨10, 30, .refused "No such file or directory"⟩
    let second : Call := .setup "net/io" ⟨20, 40, .absent⟩
    Rules.standard.Follows [first, second] ∧
      (after .standard [first]).logger? "net/io" = some ⟨"net/io", 10, []⟩ ∧
        (after .standard [first, second]).logger? "net/io" =
          some ⟨"net/io", 20, [⟨.console, 40⟩]⟩ :=
  ⟨Rules.follows_standard (by decide), by decide +kernel, by decide +kernel⟩

end Journal

end WordMachine
