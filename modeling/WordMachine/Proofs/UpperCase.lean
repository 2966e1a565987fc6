import WordMachine.Proofs.Quoting

/-!
# Upper case and marks

The marks are the characters that part a line: blanks, apostrophes, commas and semicolons. A mark is
its own upper case, and no other character has a mark in its upper case; so a text in upper case is
parted as the text is. An upper case has no other upper case.

That is read off the tables. They are too long to be searched for every letter, so the runs are
compared by their ends, and by parity where only every second code point belongs to a run.

## Main definitions

* `Text.marks`, `Text.IsMark`: the marks
* `Text.CaseRun.isSettled`: every member of a run is its own upper case, and none is a mark

## Main results

* `Text.upper_upper`: the upper case of an upper case
* `Text.Solid.upper`, `Text.quotedAfter_upper`: separators and quotes in upper case
* `IsLabel.upper`: a label in upper case is a label
-/

namespace WordMachine

namespace Text

/-! ## Runs -/

namespace CaseRun

/-- The run of one code point. -/
def point (n : Nat) : CaseRun :=
  ⟨n, n, 1, 0⟩

/-- The run of the upper cases. -/
def image (r : CaseRun) : CaseRun :=
  ⟨(r.first + r.shift).toNat, (r.last + r.shift).toNat, r.stride, 0⟩

/-- Two runs have no code point in common: one ends before the other begins, or one has the even
code points and the other the odd ones. -/
def avoids (r t : CaseRun) : Bool :=
  Nat.blt r.last t.first || Nat.blt t.last r.first ||
    (Nat.beq t.stride 2 && (Nat.beq r.stride 2 || Nat.beq r.first r.last) &&
      Nat.beq ((r.first + t.first) % 2) 1)

theorem contains_iff {r : CaseRun} {n : Nat} :
    r.contains n = true ↔ r.first ≤ n ∧ n ≤ r.last ∧ (n - r.first) % r.stride = 0 := by
  simp [contains, and_assoc]

theorem contains_point (n : Nat) : (point n).contains n = true := by
  simp [contains_iff, point]

theorem not_contains_of_avoids {r t : CaseRun} {n : Nat} (h : r.avoids t = true)
    (hr : r.contains n = true) : t.contains n = false := by
  rw [Bool.eq_false_iff]
  intro ht
  obtain ⟨hr₁, hr₂, hr₃⟩ := contains_iff.mp hr
  obtain ⟨ht₁, ht₂, ht₃⟩ := contains_iff.mp ht
  simp only [avoids, Bool.or_eq_true, Bool.and_eq_true, Nat.blt_eq, Nat.beq_eq] at h
  -- apart by their ends, or by parity when the second run has every second code point
  rcases h with (h | h) | ⟨⟨ht₂, hr₂ | hone⟩, hodd⟩
  · omega
  · omega
  · rw [ht₂] at ht₃
    rw [hr₂] at hr₃
    omega
  · rw [ht₂] at ht₃
    omega

theorem contains_image {r : CaseRun} {n : Nat} (hs : 0 ≤ r.first + r.shift)
    (h : r.contains n = true) : r.image.contains (n + r.shift).toNat = true := by
  obtain ⟨h₁, h₂, h₃⟩ := contains_iff.mp h
  refine contains_iff.mpr ⟨?_, ?_, ?_⟩
  · simp only [image]
    omega
  · simp only [image]
    omega
  · have hsame : (n + r.shift).toNat - r.image.first = n - r.first := by
      simp only [image]
      omega
    rw [hsame]
    exact h₃

end CaseRun

/-! ## Letters and marks -/

/-- The runs of letters that have an upper case of one other letter, those of ASCII among them. -/
def letterRuns : List CaseRun :=
  ⟨0x61, 0x7A, 1, -32⟩ :: caseRuns

/-- The marks, as runs: blanks, apostrophe, comma and semicolon. -/
def marks : List CaseRun :=
  [⟨0x09, 0x0D, 1, 0⟩, ⟨0x1C, 0x20, 1, 0⟩, .point 0x27, .point 0x2C, .point 0x3B, .point 0x85,
    .point 0xA0, .point 0x1680, ⟨0x2000, 0x200A, 1, 0⟩, ⟨0x2028, 0x2029, 1, 0⟩, .point 0x202F,
    .point 0x205F, .point 0x3000]

/-- A mark parts a line. -/
def IsMark (c : Char) : Prop :=
  ∃ r ∈ marks, r.contains c.toNat = true

/-- No member of a run has an upper case other than itself. -/
def CaseRun.isOutside (r : CaseRun) : Bool :=
  letterRuns.all (r.avoids ·) && caseExpansions.all fun e => r.avoids (.point e.1)

/-- Every member of a run is a character and its own upper case, and none is a mark. -/
def CaseRun.isSettled (r : CaseRun) : Bool :=
  r.isOutside && marks.all (r.avoids ·) &&
    (Nat.blt r.last 0xD800 || Nat.blt 0xDFFF r.first && Nat.blt r.last 0x110000)

/-! What the tables say. -/

theorem all_marks_isOutside : marks.all CaseRun.isOutside = true := by
  decide +kernel

theorem all_letterRuns_isSettled :
    (letterRuns.all fun r => decide (0 ≤ r.first + r.shift) && r.image.isSettled) = true := by
  decide +kernel

theorem all_caseExpansions_isSettled :
    (caseExpansions.all fun e => !e.2.isEmpty && e.2.all fun n => (CaseRun.point n).isSettled) =
      true := by
  decide +kernel

/-- An ASCII letter in lower case is thirty-two behind its upper case. -/
theorem toUpper_ofNat : ∀ n < 0x80, (Char.ofNat n).toUpper = Char.ofNat n ∨
    (CaseRun.mk 0x61 0x7A 1 (-32)).contains n = true ∧
      (Char.ofNat n).toUpper = Char.ofNat (n + (-32) : Int).toNat := by
  decide +kernel

/-! ## The upper case of a character -/

/-- A character is its own upper case, or it is in one of the tables. -/
theorem upperChar_cases (c : Char) :
    upperChar c = [c] ∨
      (∃ r ∈ letterRuns, r.contains c.toNat = true ∧
        upperChar c = [Char.ofNat (c.toNat + r.shift).toNat]) ∨
      ∃ letters, (c.toNat, letters) ∈ caseExpansions ∧ upperChar c = letters.map Char.ofNat := by
  unfold upperChar
  split
  · next hascii =>
    have hupper := toUpper_ofNat c.toNat hascii
    rw [Char.ofNat_toNat] at hupper
    -- the letters of ASCII are one more run
    rcases hupper with hsame | ⟨hrun, hupper⟩
    · exact .inl (by rw [hsame])
    · exact .inr (.inl ⟨_, List.mem_cons_self, hrun, by rw [hupper]⟩)
  · unfold upperBeyondAscii
    split
    · next letters hlookup =>
      obtain ⟨before, behind, htable, -⟩ := List.lookup_eq_some_iff.mp hlookup
      exact .inr (.inr ⟨letters, htable ▸ List.mem_append_right _ List.mem_cons_self, rfl⟩)
    · split
      · next r hfind =>
        have hin := List.find?_some hfind
        exact .inr (.inl ⟨r, List.mem_cons_of_mem _ (List.mem_of_find?_eq_some hfind), hin, rfl⟩)
      · exact .inl rfl

theorem upperChar_of_isOutside {r : CaseRun} {c : Char} (h : r.isOutside = true)
    (hc : r.contains c.toNat = true) : upperChar c = [c] := by
  simp only [CaseRun.isOutside, Bool.and_eq_true, List.all_eq_true] at h
  rcases upperChar_cases c with hsame | ⟨t, ht, hin, -⟩ | ⟨letters, hletters, -⟩
  · exact hsame
  · rw [CaseRun.not_contains_of_avoids (h.1 t ht) hc] at hin
    cases hin
  · have hout := CaseRun.not_contains_of_avoids (h.2 _ hletters) hc
    rw [CaseRun.contains_point] at hout
    cases hout

theorem upperChar_of_isMark {c : Char} (h : IsMark c) : upperChar c = [c] := by
  obtain ⟨r, hr, hc⟩ := h
  exact upperChar_of_isOutside (List.all_eq_true.mp all_marks_isOutside r hr) hc

theorem of_isSettled {r : CaseRun} {n : Nat} (h : r.isSettled = true) (hn : r.contains n = true) :
    ¬IsMark (Char.ofNat n) ∧ upperChar (Char.ofNat n) = [Char.ofNat n] := by
  simp only [CaseRun.isSettled, Bool.and_eq_true, List.all_eq_true, Bool.or_eq_true,
    Nat.blt_eq] at h
  obtain ⟨⟨hout, hmarks⟩, hvalid⟩ := h
  obtain ⟨hfirst, hlast, -⟩ := CaseRun.contains_iff.mp hn
  have hchar : (Char.ofNat n).toNat = n := by
    have hvalid : n.isValidChar := by
      unfold Nat.isValidChar
      omega
    rw [Char.toNat_ofNat, if_pos hvalid]
  constructor
  · rintro ⟨t, ht, hin⟩
    rw [hchar, CaseRun.not_contains_of_avoids (hmarks t ht) hn] at hin
    cases hin
  · refine upperChar_of_isOutside hout ?_
    rwa [hchar]

/-- The upper case of a character that is no mark has no mark, and is in upper case. -/
theorem upperChar_of_not_isMark {c : Char} (h : ¬IsMark c) :
    upperChar c ≠ [] ∧ ∀ d ∈ upperChar c, ¬IsMark d ∧ upperChar d = [d] := by
  rcases upperChar_cases c with hsame | ⟨r, hr, hc, hupper⟩ | ⟨letters, hletters, hupper⟩
  · rw [hsame]
    refine ⟨List.cons_ne_nil _ _, ?_⟩
    intro d hd
    obtain rfl := List.mem_singleton.mp hd
    exact ⟨h, hsame⟩
  · have hrun := List.all_eq_true.mp all_letterRuns_isSettled r hr
    rw [Bool.and_eq_true, decide_eq_true_eq] at hrun
    rw [hupper]
    refine ⟨List.cons_ne_nil _ _, ?_⟩
    intro d hd
    obtain rfl := List.mem_singleton.mp hd
    exact of_isSettled hrun.2 (CaseRun.contains_image hrun.1 hc)
  · have hexpansion := List.all_eq_true.mp all_caseExpansions_isSettled _ hletters
    simp only [Bool.and_eq_true, Bool.not_eq_true', List.isEmpty_eq_false_iff,
      List.all_eq_true] at hexpansion
    rw [hupper]
    refine ⟨by simpa using hexpansion.1, ?_⟩
    intro d hd
    obtain ⟨n, hn, rfl⟩ := List.mem_map.mp hd
    exact of_isSettled (hexpansion.2 n hn) (CaseRun.contains_point n)

theorem upperChar_ne_nil (c : Char) : upperChar c ≠ [] := by
  by_cases h : IsMark c
  · rw [upperChar_of_isMark h]
    exact List.cons_ne_nil _ _
  · exact (upperChar_of_not_isMark h).1

theorem upperChar_of_mem_upperChar {c d : Char} (h : d ∈ upperChar c) : upperChar d = [d] := by
  by_cases hc : IsMark c
  · have hsame := upperChar_of_isMark hc
    rw [hsame, List.mem_singleton] at h
    rwa [h]
  · exact ((upperChar_of_not_isMark hc).2 d h).2

/-- A mark in the upper case of a character is that character. -/
theorem eq_of_mem_upperChar {c d : Char} (h : d ∈ upperChar c) (hd : IsMark d) : d = c := by
  by_cases hc : IsMark c
  · rwa [upperChar_of_isMark hc, List.mem_singleton] at h
  · exact absurd hd ((upperChar_of_not_isMark hc).2 d h).1

/-! ## The upper case of a text -/

/-- An upper case has no other upper case. -/
@[simp] theorem upper_upper (s : String) : upper (upper s) = upper s := by
  rw [upper, upper, String.toList_ofList, List.flatMap_assoc]
  congr 1
  refine List.flatMap_congr ?_
  intro c _
  have hall : ∀ d ∈ upperChar c, upperChar d = [d] := fun d hd => upperChar_of_mem_upperChar hd
  rw [List.flatMap_congr hall]
  simp

theorem upper_eq_empty_iff {s : String} : upper s = "" ↔ s = "" := by
  rw [upper, ← String.toList_inj, String.toList_ofList, ← String.toList_inj]
  simp only [String.toList_empty, List.flatMap_eq_nil_iff]
  constructor
  · intro h
    rw [List.eq_nil_iff_forall_not_mem]
    intro c hc
    exact upperChar_ne_nil c (h c hc)
  · intro h
    rw [h]
    nofun

/-! The characters that part a line are marks. -/

theorem isMark_of_isBlank {c : Char} (h : isBlank c = true) : IsMark c := by
  simp only [isBlank, Bool.or_eq_true, Bool.and_eq_true, decide_eq_true_eq, beq_iff_eq] at h
  simp only [IsMark, marks, List.mem_cons, List.not_mem_nil, or_false, exists_eq_or_imp,
    exists_eq_left, CaseRun.contains_iff, CaseRun.point]
  omega

theorem isMark_quote : IsMark '\'' :=
  ⟨.point 0x27, by simp [marks], by decide⟩

theorem isMark_comma : IsMark ',' :=
  ⟨.point 0x2C, by simp [marks], by decide⟩

theorem isMark_semicolon : IsMark ';' :=
  ⟨.point 0x3B, by simp [marks], by decide⟩

variable {p : Char → Bool} {q : Bool} {cs : List Char}

theorem quotedAfter_upperChar (q : Bool) (c : Char) :
    quotedAfter q (upperChar c) = quotedAfter q [c] := by
  by_cases hc : IsMark c
  · rw [upperChar_of_isMark hc]
  · have hne : ∀ d ∈ upperChar c, d ≠ '\'' ∧ (fun _ => false) d = false := by
      intro d hd
      refine ⟨?_, rfl⟩
      rintro rfl
      exact hc (eq_of_mem_upperChar hd isMark_quote ▸ isMark_quote)
    have hquote : c ≠ '\'' := by
      rintro rfl
      exact hc isMark_quote
    rw [(solid_of_plain hne).2, quotedAfter, if_neg hquote, quotedAfter]

/-- Quotes are open behind a text in upper case as they are behind the text. -/
@[simp] theorem quotedAfter_upper (q : Bool) (cs : List Char) :
    quotedAfter q (cs.flatMap upperChar) = quotedAfter q cs := by
  induction cs generalizing q with
  | nil => rfl
  | cons c cs ih =>
    rw [List.flatMap_cons, quotedAfter_append, quotedAfter_upperChar, ih]
    rfl

/-- A text in upper case has a separator outside quotes only if the text has one. -/
theorem Solid.upper (hp : ∀ c, p c = true → IsMark c) (h : Solid p q cs) :
    Solid p q (cs.flatMap upperChar) := by
  induction cs generalizing q with
  | nil => exact h
  | cons c cs ih =>
    rw [← List.singleton_append, solid_append_iff] at h
    rw [List.flatMap_cons, solid_append_iff, quotedAfter_upperChar]
    refine ⟨?_, ih h.2⟩
    by_cases hc : IsMark c
    · rw [upperChar_of_isMark hc]
      exact h.1
    · refine (solid_of_plain ?_).1
      intro d hd
      have hd := ((upperChar_of_not_isMark hc).2 d hd).1
      refine ⟨?_, ?_⟩
      · rintro rfl
        exact hd isMark_quote
      · rw [Bool.eq_false_iff]
        exact fun hpd => hd (hp d hpd)

/-- A text in upper case ends in a blank only if the text does. -/
theorem trimEnd_upper (h : trimEnd cs = cs) :
    trimEnd (cs.flatMap upperChar) = cs.flatMap upperChar := by
  rw [trimEnd_eq_self_iff] at h ⊢
  intro hne hblank
  have hcs : cs ≠ [] := by
    rintro rfl
    exact hne rfl
  have hlast : cs.flatMap upperChar =
      cs.dropLast.flatMap upperChar ++ upperChar (cs.getLast hcs) := by
    conv_lhs => rw [← List.dropLast_append_getLast hcs]
    simp
  -- a blank at the end would be the last character of the text itself
  have hmem : (cs.flatMap upperChar).getLast hne ∈ upperChar (cs.getLast hcs) := by
    simp only [hlast]
    rw [List.getLast_append_of_ne_nil _ (upperChar_ne_nil _)]
    exact List.getLast_mem _
  rw [eq_of_mem_upperChar hmem (isMark_of_isBlank hblank)] at hblank
  exact h hcs hblank

end Text

/-- A label in upper case is a label. -/
theorem IsLabel.upper {s : String} (h : IsLabel s.toList) : IsLabel (Text.upper s).toList := by
  rw [Text.upper, String.toList_ofList]
  constructor
  · intro hnil
    rw [List.flatMap_eq_nil_iff] at hnil
    obtain ⟨c, cs, hs⟩ := List.exists_cons_of_ne_nil h.ne_nil
    exact Text.upperChar_ne_nil c (hnil c (hs ▸ List.mem_cons_self))
  · intro hmem
    obtain ⟨c, hc, hnewline⟩ := List.mem_flatMap.mp hmem
    have hmark : Text.IsMark '\n' := Text.isMark_of_isBlank (by decide)
    rw [← Text.eq_of_mem_upperChar hnewline hmark] at hc
    exact h.newline hc
  · refine h.comment.upper ?_
    intro c hc
    rw [eq_of_beq hc]
    exact Text.isMark_semicolon
  · exact h.field.upper fun c hc => Text.isMark_of_isBlank hc
  · exact Text.trimEnd_upper h.ends

end WordMachine
