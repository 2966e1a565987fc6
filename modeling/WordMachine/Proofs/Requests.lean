import WordMachine.Command.Options
import WordMachine.Proofs.Numerals

/-!
# Numbers on the command line

The limit on the number of instructions stands on the command line in decimal, and a decimal numeral
that can be read has few enough digits to be written. So whatever a command line asks for, a run
that reaches its limit can tell it.

## Main definitions

* `Options.HasWritableLimit`: the limit of options can be written

## Main results

* `IntegerText.lt_of_readGrouped`: a numeral is less than the power of the base with its digits
* `IntegerText.isUnwritable_of_read?`: what is read in decimal can be written
* `Request.hasWritableLimit_of_parse?`: the limit that a command line asks for can be written
-/

namespace WordMachine

/-! ## Decimal numerals -/

namespace IntegerText

variable {base n v : Nat} {c : Char} {cs : List Char}

/-- A digit is no underscore, and counts. -/
theorem countP_cons_of_digit? {d : Nat} (h : Numeral.digit? base c = some d) (cs : List Char) :
    (c :: cs).countP (· ≠ '_') = cs.countP (· ≠ '_') + 1 := by
  refine List.countP_cons_of_pos (decide_eq_true ?_)
  rintro rfl
  cases h

/-- A further digit takes the bound of a numeral one power of the base up. -/
theorem lt_of_digit {d k : Nat} (hd : d < base) (h : v < (n * base + d + 1) * base ^ k) :
    v < (n + 1) * base ^ (k + 1) := by
  have hdigit : n * base + d + 1 ≤ (n + 1) * base := by
    rw [Nat.add_mul, Nat.one_mul]
    omega
  calc v < (n * base + d + 1) * base ^ k := h
    _ ≤ (n + 1) * base * base ^ k := Nat.mul_le_mul_right _ hdigit
    _ = (n + 1) * base ^ (k + 1) := by rw [Nat.pow_succ', Nat.mul_assoc]

/-- Digits behind a number, each of them one power of the base; underscores do not count. -/
theorem lt_of_readGrouped (h : readGrouped base n cs = some v) :
    v < (n + 1) * base ^ cs.countP (· ≠ '_') := by
  -- Induction along the recursion: each digit that is read is no underscore.
  induction n, cs using readGrouped.induct base with
  | case1 n =>
    obtain rfl : n = v := Option.some.inj h
    simp
  | case2 n c cs ih =>
    rw [readGrouped] at h
    obtain ⟨d, hd, h⟩ := Option.bind_eq_some_iff.mp h
    have hunderscore : ('_' :: c :: cs).countP (· ≠ '_') = (c :: cs).countP (· ≠ '_') :=
      List.countP_cons_of_neg (by decide)
    rw [hunderscore, countP_cons_of_digit? hd]
    exact lt_of_digit (Numeral.digit?_eq_some_iff.mp hd).2 (ih d h)
  | case3 n c cs hne ih =>
    rw [readGrouped] at h
    · obtain ⟨d, hd, h⟩ := Option.bind_eq_some_iff.mp h
      rw [countP_cons_of_digit? hd]
      exact lt_of_digit (Numeral.digit?_eq_some_iff.mp hd).2 (ih d h)
    · exact hne

theorem lt_of_readMagnitude? (h : readMagnitude? base cs = some v) :
    v < base ^ cs.countP (· ≠ '_') := by
  cases cs with
  | nil => cases h
  | cons c cs =>
    obtain ⟨d, hd, h⟩ := Option.bind_eq_some_iff.mp h
    have hlt := lt_of_readGrouped h
    rw [countP_cons_of_digit? hd, ← Nat.one_mul (_ ^ _)]
    refine lt_of_digit (n := 0) (Numeral.digit?_eq_some_iff.mp hd).2 ?_
    rwa [Nat.zero_mul, Nat.zero_add]

/-- A decimal numeral that can be read has no more digits than can be written. -/
theorem lt_of_readUnsigned? (h : readUnsigned? 10 cs = some v) : v < 10 ^ Numeral.maxDigits := by
  have hnumeral : (if 10 = 16 then dropMark cs else cs) = cs := if_neg (by decide)
  rw [readUnsigned?, hnumeral] at h
  split at h
  · cases h
  · next hlimit =>
    rw [Numeral.exceedsLimit_ten, Nat.not_lt] at hlimit
    exact Nat.lt_of_lt_of_le (lt_of_readMagnitude? h) (Nat.pow_le_pow_right (by decide) hlimit)

/-- An integer is read as an unsigned numeral and perhaps a sign. -/
theorem exists_of_read? {count : Int} (h : read? base cs = some count) :
    ∃ ds n, readUnsigned? base ds = some n ∧ count.natAbs = n := by
  unfold read? at h
  generalize dropMargins (cs.map toAscii) = ds at h
  split at h
  case h_1 ds | h_2 ds | h_3 =>
    cases hn : readUnsigned? base ds with
    | none =>
      rw [hn] at h
      cases h
    | some n =>
      rw [hn] at h
      cases h
      exact ⟨ds, n, hn, by simp⟩

/-- What is read in decimal can be written. -/
theorem isUnwritable_of_read? {count : Int} (h : read? 10 cs = some count) :
    Numeral.isUnwritable count = false := by
  have hlt : count.natAbs < 10 ^ Numeral.maxDigits := by
    obtain ⟨ds, n, hn, hcount⟩ := exists_of_read? h
    rw [hcount]
    exact lt_of_readUnsigned? hn
  rw [Bool.eq_false_iff]
  intro hunwritable
  exact Nat.not_lt.mpr (Numeral.isUnwritable_iff.mp hunwritable) hlt

end IntegerText

/-! ## Requests -/

/-- The limit on the number of instructions can be written, if there is one. -/
def Options.HasWritableLimit (o : Options) : Prop :=
  ∀ count, o.maxSteps = .atMost count → Numeral.isUnwritable count = false

theorem Options.hasWritableLimit_of_eq {o o' : Options} (h : o'.maxSteps = o.maxSteps)
    (ho : o.HasWritableLimit) : o'.HasWritableLimit :=
  fun count hcount => ho count (h ▸ hcount)

namespace Request

open Options

variable {r r' : Reading} {switch : Switch}

theorem options_place (r : Reading) (s : String) : (r.place s).options = r.options := by
  unfold Reading.place
  split <;> rfl

/-- A long option without a value is turned on, whatever follows it. -/
theorem ofArguments?_of_not_takesValue (h : ¬switch.takesValue = true) (rest : List Argument) :
    ofArguments? r (.long switch none :: rest) =
      match r.turnOn switch with
      | .inl r => ofArguments? r rest
      | .inr request => some request := by
  rcases rest with _ | ⟨_ | _ | _ | _ | _, rest⟩ <;> rw [ofArguments?, if_neg h]
  -- either what is behind is no value, or the option is turned on
  all_goals first | rintro _ _ ⟨⟩ | cases r.turnOn switch <;> rfl

/-- The options that have no value do not change the limit. -/
theorem maxSteps_of_turnOn (h : r.turnOn switch = .inl r') :
    r'.options.maxSteps = r.options.maxSteps := by
  cases switch <;> cases h <;> rfl

theorem maxSteps_of_turnAllOn {switches : List Switch} (h : r.turnAllOn switches = .inl r') :
    r'.options.maxSteps = r.options.maxSteps := by
  induction switches generalizing r with
  | nil =>
    cases h
    rfl
  | cons switch switches ih =>
    rw [Reading.turnAllOn] at h
    split at h
    · next hfirst => rw [ih h, maxSteps_of_turnOn hfirst]
    · cases h

/-- A limit that is given can be written. -/
theorem hasWritableLimit_of_give? {value : Option String} (hr : r.options.HasWritableLimit)
    (h : r.give? switch value = some r') : r'.options.HasWritableLimit := by
  unfold Reading.give? at h
  split at h
  · cases h
    exact hr
  · cases h
    nofun
  · obtain ⟨count, hcount, rfl⟩ := Option.map_eq_some_iff.mp h
    rintro _ ⟨⟩
    exact IntegerText.isUnwritable_of_read? hcount
  · cases h

theorem not_run_of_turnOn {o : Options} (h : r.turnOn switch = .inr (.run o)) : False := by
  cases switch <;> cases h

theorem not_run_of_turnAllOn {switches : List Switch} {o : Options}
    (h : r.turnAllOn switches = .inr (.run o)) : False := by
  induction switches generalizing r with
  | nil => cases h
  | cons switch switches ih =>
    rw [Reading.turnAllOn] at h
    split at h
    · exact ih h
    · next hfirst =>
      cases h
      exact not_run_of_turnOn hfirst

theorem hasWritableLimit_of_ofArguments? {arguments : List Argument} {o : Options}
    (hr : r.options.HasWritableLimit) (h : ofArguments? r arguments = some (.run o)) :
    o.HasWritableLimit := by
  -- Induction along the arguments: only an option with a value can change the limit.
  induction r, arguments using ofArguments?.induct with
  | case1 r =>
    rw [ofArguments?, Reading.finish?] at h
    split at h
    · cases h
      exact hr
    · cases h
  | case2 r s rest ih =>
    rw [ofArguments?] at h
    refine ih ?_ h
    split
    · exact hr
    · rwa [options_place]
  | case3 r s rest hne ih =>
    rw [ofArguments?] at h
    · exact ih (by rwa [options_place]) h
    · exact hne
  | case4 r s rest ih =>
    rw [ofArguments?] at h
    exact ih (by rwa [options_place]) h
  | case5 r rest hne ih =>
    rw [ofArguments?] at h
    · exact ih hr h
    · exact hne
  | case6 r rest ih =>
    rw [ofArguments?] at h
    exact ih hr h
  | case7 r switch attached rest ih =>
    rw [ofArguments?] at h
    obtain ⟨switches, -, h⟩ := Option.bind_eq_some_iff.mp h
    split at h
    · next hfirst => exact ih _ (hasWritableLimit_of_eq (maxSteps_of_turnAllOn hfirst) hr) h
    · next hfirst =>
      cases h
      exact (not_run_of_turnAllOn hfirst).elim
  | case8 r switch htakes text rest ih =>
    rw [ofArguments?, if_pos htakes] at h
    obtain ⟨r', hgive, h⟩ := Option.bind_eq_some_iff.mp h
    exact ih r' (hasWritableLimit_of_give? hr hgive) h
  | case9 r switch htakes value rest ih =>
    rw [ofArguments?, if_pos htakes] at h
    obtain ⟨r', hgive, h⟩ := Option.bind_eq_some_iff.mp h
    exact ih r' (hasWritableLimit_of_give? hr hgive) h
  | case10 r switch rest htakes hne =>
    rw [ofArguments?, if_pos htakes] at h
    · cases h
    · exact hne
  | case11 r switch rest htakes text =>
    rw [ofArguments?, if_neg htakes] at h
    cases h
  | case12 r switch rest htakes r' hfirst ih =>
    rw [ofArguments?_of_not_takesValue htakes, hfirst] at h
    exact ih (hasWritableLimit_of_eq (maxSteps_of_turnOn hfirst) hr) h
  | case13 r switch rest htakes request hfirst =>
    rw [ofArguments?_of_not_takesValue htakes, hfirst] at h
    cases h
    exact (not_run_of_turnOn hfirst).elim

/-- The limit that a command line asks for can be written. -/
theorem hasWritableLimit_of_parse? {arguments : List String} {o : Options}
    (h : parse? arguments = some (.run o)) : o.HasWritableLimit := by
  obtain ⟨classified, -, h⟩ := Option.bind_eq_some_iff.mp h
  exact hasWritableLimit_of_ofArguments? (fun _ hcount => by cases hcount) h

end Request

end WordMachine
