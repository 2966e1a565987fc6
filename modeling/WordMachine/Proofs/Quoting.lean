import Mathlib
import WordMachine.Proofs.Sequence
import WordMachine.Source.Statement

/-!
# Quoted text

A text is cut at the separators outside quotes, so what a piece of it is depends on the quotes
before: each apostrophe turns quoting on or off. A piece has no separator outside quotes, and a
separator comes only where no quotes are open. A label is the first piece of a line, and as such it
is a piece of every line in which it stands between blanks.

## Main definitions

* `Text.quotedAfter`: whether quotes are open at the end of a text
* `Text.Solid`: a text has no separator outside quotes
* `IsLabel`: what holds of the characters of a label

## Main results

* `Text.splitOutside_cases`: the first piece of a text, and what follows it
* `Text.splitOutside_append`: a solid text before a separator is a piece
* `IsLabel.readStatement_jumpLine`: what a jump to a label is read as
-/

namespace WordMachine

namespace Text

variable {p : Char → Bool} {q : Bool} {c : Char} {cs xs ys : List Char}

/-! ## Quotes -/

/-- Whether quotes are open at the end of a text, when they are open before it as `quoted` says. -/
def quotedAfter (quoted : Bool) : List Char → Bool
  | [] => quoted
  | c :: cs => quotedAfter (if c = '\'' then !quoted else quoted) cs

theorem quotedAfter_append (q : Bool) (xs ys : List Char) :
    quotedAfter q (xs ++ ys) = quotedAfter (quotedAfter q xs) ys := by
  induction xs generalizing q with
  | nil => rfl
  | cons x xs ih => exact ih _

/-- A text has no separator outside quotes. -/
def Solid (separates : Char → Bool) (quoted : Bool) (cs : List Char) : Prop :=
  splitOutside separates quoted cs = [cs]

theorem consHead_eq_cons {c : Char} {pieces rest : List (List Char)} {piece : List Char}
    (hne : pieces ≠ []) (h : consHead c pieces = piece :: rest) :
    ∃ tail, piece = c :: tail ∧ pieces = tail :: rest := by
  cases pieces with
  | nil => exact absurd rfl hne
  | cons tail rest' =>
    obtain ⟨rfl, rfl⟩ := List.cons.inj h
    exact ⟨tail, rfl, rfl⟩

theorem solid_nil : Solid p q [] := rfl

theorem solid_quote_iff : Solid p q ('\'' :: cs) ↔ Solid p (!q) cs := by
  unfold Solid
  rw [splitOutside, if_pos rfl]
  constructor
  · intro h
    obtain ⟨tail, ht, hs⟩ := consHead_eq_cons (splitOutside_ne_nil _ _ _) h
    obtain rfl := (List.cons.inj ht).2
    exact hs
  · intro h
    rw [h]
    rfl

theorem solid_cons_iff (hc : c ≠ '\'') :
    Solid p q (c :: cs) ↔ (p c = true → q = true) ∧ Solid p q cs := by
  unfold Solid
  rw [splitOutside, if_neg hc]
  split
  · next hsep =>
    -- a separator outside quotes would start a second piece
    simp only [Bool.and_eq_true, Bool.not_eq_true'] at hsep
    simp [hsep]
  · next hsep =>
    have himp : p c = true → q = true := by
      intro hp
      simpa [hp] using hsep
    constructor
    · intro h
      obtain ⟨tail, ht, hs⟩ := consHead_eq_cons (splitOutside_ne_nil _ _ _) h
      obtain rfl := (List.cons.inj ht).2
      exact ⟨himp, hs⟩
    · rintro ⟨-, h⟩
      rw [h]
      rfl

theorem solid_append_iff :
    Solid p q (xs ++ ys) ↔ Solid p q xs ∧ Solid p (quotedAfter q xs) ys := by
  induction xs generalizing q with
  | nil => simp [solid_nil, quotedAfter]
  | cons x xs ih =>
    by_cases hx : x = '\''
    · subst hx
      rw [List.cons_append, solid_quote_iff, solid_quote_iff, ih]
      rfl
    · rw [List.cons_append, solid_cons_iff hx, solid_cons_iff hx, ih, quotedAfter, if_neg hx,
        and_assoc]

/-- A text without quotes and separators is solid and leaves the quotes as they are. -/
theorem solid_of_plain (h : ∀ c ∈ cs, c ≠ '\'' ∧ p c = false) :
    Solid p q cs ∧ quotedAfter q cs = q := by
  induction cs with
  | nil => exact ⟨solid_nil, rfl⟩
  | cons c cs ih =>
    rw [List.forall_mem_cons] at h
    obtain ⟨hs, hq⟩ := ih h.2
    rw [solid_cons_iff h.1.1, quotedAfter, if_neg h.1.1]
    exact ⟨⟨by simp [h.1.2], hs⟩, hq⟩

/-- A solid text that ends in a separator ends inside quotes. -/
theorem quotedAfter_of_solid (hc : c ≠ '\'') (hp : p c = true) (h : Solid p q (cs ++ [c])) :
    quotedAfter q (cs ++ [c]) = true := by
  rw [solid_append_iff, solid_cons_iff hc] at h
  rw [quotedAfter_append, quotedAfter, if_neg hc]
  exact h.2.1 hp

/-! ## Pieces -/

/-- A solid text in front of a separator is a piece. -/
theorem splitOutside_append (hc : c ≠ '\'') (hp : p c = true) (hs : Solid p q xs)
    (hq : quotedAfter q xs = false) (ys : List Char) :
    splitOutside p q (xs ++ c :: ys) = xs :: splitOutside p false ys := by
  induction xs generalizing q with
  | nil =>
    obtain rfl : q = false := hq
    rw [List.nil_append, splitOutside, if_neg hc, if_pos (by simp [hp])]
  | cons x xs ih =>
    by_cases hx : x = '\''
    · subst hx
      rw [List.cons_append, splitOutside, if_pos rfl, ih (solid_quote_iff.mp hs) hq]
      rfl
    · rw [solid_cons_iff hx] at hs
      rw [quotedAfter, if_neg hx] at hq
      have hsep : ¬(p x && !q) = true := by
        simpa [Bool.and_eq_true] using hs.1
      rw [List.cons_append, splitOutside, if_neg hx, if_neg hsep, ih hs.2 hq]
      rfl

/-- The first piece of a text is solid. It is the whole text, or it ends outside quotes, and behind
a separator the other pieces begin. -/
theorem splitOutside_cases {piece : List Char} {rest : List (List Char)}
    (h : splitOutside p q cs = piece :: rest) :
    Solid p q piece ∧ (piece = cs ∧ rest = [] ∨ ∃ c ys, c ≠ '\'' ∧ p c = true ∧
      quotedAfter q piece = false ∧ cs = piece ++ c :: ys ∧ rest = splitOutside p false ys) := by
  induction cs generalizing q piece with
  | nil =>
    obtain ⟨rfl, rfl⟩ := List.cons.inj h
    exact ⟨solid_nil, .inl ⟨rfl, rfl⟩⟩
  | cons c cs ih =>
    by_cases hc : c = '\''
    · -- an apostrophe turns the quotes and belongs to the piece
      subst hc
      rw [splitOutside, if_pos rfl] at h
      obtain ⟨tail, rfl, htail⟩ := consHead_eq_cons (splitOutside_ne_nil _ _ _) h
      obtain ⟨hs, hend⟩ := ih htail
      refine ⟨solid_quote_iff.mpr hs, ?_⟩
      rcases hend with ⟨rfl, hrest⟩ | ⟨d, ys, hd, hp, hq, rfl, hrest⟩
      · exact .inl ⟨rfl, hrest⟩
      · exact .inr ⟨d, ys, hd, hp, hq, rfl, hrest⟩
    rw [splitOutside, if_neg hc] at h
    split at h
    · next hsep =>
      -- a separator outside quotes: the piece before it is empty
      obtain ⟨rfl, rfl⟩ := List.cons.inj h
      obtain ⟨hp, hq⟩ := Bool.and_eq_true_iff.mp hsep
      obtain rfl : q = false := by simpa using hq
      exact ⟨solid_nil, .inr ⟨c, cs, hc, hp, rfl, rfl, rfl⟩⟩
    · next hsep =>
      obtain ⟨tail, rfl, htail⟩ := consHead_eq_cons (splitOutside_ne_nil _ _ _) h
      obtain ⟨hs, hend⟩ := ih htail
      have himp : p c = true → q = true := by
        intro hp
        simpa [hp] using hsep
      refine ⟨(solid_cons_iff hc).mpr ⟨himp, hs⟩, ?_⟩
      rw [quotedAfter, if_neg hc]
      rcases hend with ⟨rfl, hrest⟩ | ⟨d, ys, hd, hp, hq, rfl, hrest⟩
      · exact .inl ⟨rfl, hrest⟩
      · exact .inr ⟨d, ys, hd, hp, hq, rfl, hrest⟩

/-- The first piece of a text is the whole text, or it ends outside quotes. -/
theorem of_splitOutside_eq_cons {piece : List Char} {rest : List (List Char)}
    (h : splitOutside p q cs = piece :: rest) :
    Solid p q piece ∧ (piece = cs ∨ quotedAfter q piece = false ∧ piece <+: cs) := by
  obtain ⟨hs, ⟨rfl, -⟩ | ⟨c, ys, -, -, hq, rfl, -⟩⟩ := splitOutside_cases h
  · exact ⟨hs, .inl rfl⟩
  · exact ⟨hs, .inr ⟨hq, List.prefix_append _ _⟩⟩

theorem length_consHead {pieces : List (List Char)} (hne : pieces ≠ []) (c : Char) :
    ((consHead c pieces).map List.length).sum = (pieces.map List.length).sum + 1 ∧
      (consHead c pieces).length = pieces.length := by
  cases pieces with
  | nil => exact absurd rfl hne
  | cons piece pieces =>
    simp only [consHead, List.map_cons, List.sum_cons, List.length_cons, and_true]
    omega

/-- The pieces of a text are as long as the text without the separators between them. -/
theorem length_splitOutside (p : Char → Bool) (q : Bool) (cs : List Char) :
    ((splitOutside p q cs).map List.length).sum + (splitOutside p q cs).length =
      cs.length + 1 := by
  induction cs generalizing q with
  | nil => rfl
  | cons c cs ih =>
    have hne (q : Bool) := length_consHead (splitOutside_ne_nil p q cs) c
    rw [splitOutside]
    split
    · have hrest := ih (!q)
      rw [(hne _).1, (hne _).2, List.length_cons]
      omega
    · have hrest := ih q
      split
      · rw [List.map_cons, List.sum_cons, List.length_cons, List.length_cons, List.length_nil]
        omega
      · rw [(hne _).1, (hne _).2, List.length_cons]
        omega

/-- A text that is one of its own pieces is solid. -/
theorem solid_of_mem_splitOutside (h : cs ∈ splitOutside p q cs) : Solid p q cs := by
  -- the pieces together leave no room for a second one
  have hlength := length_splitOutside p q cs
  have hle : cs.length ≤ ((splitOutside p q cs).map List.length).sum :=
    List.le_sum_of_mem (List.mem_map_of_mem h)
  have hone : (splitOutside p q cs).length ≤ 1 := by omega
  obtain ⟨piece, hp⟩ := List.length_eq_one_iff.mp
    (Nat.le_antisymm hone (List.length_pos_of_mem h))
  rw [hp, List.mem_singleton] at h
  rw [Solid, hp, h]

/-! ## Lines -/

theorem splitOn_append (hp : p c = true) (xs ys : List Char) :
    splitOn p (xs ++ c :: ys) = splitOn p xs ++ splitOn p ys := by
  induction xs with
  | nil => simp [splitOn, hp]
  | cons x xs ih =>
    rw [List.cons_append, splitOn, splitOn, ih]
    split
    · rfl
    · -- the first piece of the front grows
      cases h : splitOn p xs with
      | nil => exact absurd h (splitOn_ne_nil p xs)
      | cons piece pieces => rfl

theorem splitOn_of_forall (h : ∀ c ∈ cs, p c = false) : splitOn p cs = [cs] := by
  induction cs with
  | nil => rfl
  | cons c cs ih =>
    rw [List.forall_mem_cons] at h
    simp [splitOn, h.1, ih h.2, consHead]

theorem not_of_mem_splitOn {piece : List Char} (h : piece ∈ splitOn p cs) :
    ∀ c ∈ piece, p c = false := by
  induction cs generalizing piece with
  | nil =>
    obtain rfl := List.mem_singleton.mp h
    nofun
  | cons c cs ih =>
    rw [splitOn] at h
    split at h
    · rcases List.mem_cons.mp h with rfl | h
      · nofun
      · exact ih h
    · next hc =>
      cases hs : splitOn p cs with
      | nil => exact absurd hs (splitOn_ne_nil p cs)
      | cons first pieces =>
        rw [hs] at h ih
        rcases List.mem_cons.mp h with rfl | h
        · rw [List.forall_mem_cons]
          exact ⟨Bool.eq_false_iff.mpr hc, ih List.mem_cons_self⟩
        · exact ih (List.mem_cons_of_mem _ h)

/-- The lines of a text with one more line. -/
theorem pieces_append (source : String) {line : List Char} (h : '\n' ∉ line) :
    pieces (source ++ "\n" ++ String.ofList line) = pieces source ++ [String.ofList line] := by
  have hline : splitOn (· == '\n') line = [line] := by
    refine splitOn_of_forall ?_
    intro c hc
    rw [beq_eq_false_iff_ne]
    rintro rfl
    exact h hc
  have hlist : (source ++ "\n" ++ String.ofList line).toList = source.toList ++ '\n' :: line := by
    simp
  rw [pieces, hlist, splitOn_append (by rfl), hline, List.map_append]
  rfl

/-! ## Ends -/

theorem trimEnd_prefix (cs : List Char) : trimEnd cs <+: cs :=
  List.rdropWhile_prefix isBlank cs

@[simp] theorem trimEnd_trimEnd (cs : List Char) : trimEnd (trimEnd cs) = trimEnd cs :=
  List.rdropWhile_idempotent isBlank cs

/-- Nothing is cut from a text that ends in no blank. -/
theorem trimEnd_eq_self_iff :
    trimEnd cs = cs ↔ ∀ h : cs ≠ [], ¬isBlank (cs.getLast h) = true :=
  List.rdropWhile_eq_self_iff

theorem trimEnd_append {xs ys : List Char} (hne : ys ≠ []) (h : trimEnd ys = ys) :
    trimEnd (xs ++ ys) = xs ++ ys := by
  rw [trimEnd_eq_self_iff] at h ⊢
  intro happend
  rw [List.getLast_append_of_ne_nil _ hne]
  exact h hne

theorem ne_nil_of_splitOutside_eq_cons {piece : List Char} {rest : List (List Char)}
    (hp : p c = false) (h : splitOutside p q (c :: cs) = piece :: rest) : piece ≠ [] := by
  rw [splitOutside] at h
  split at h
  · obtain ⟨tail, rfl, -⟩ := consHead_eq_cons (splitOutside_ne_nil _ _ _) h
    exact List.cons_ne_nil _ _
  · rw [if_neg (by simp [hp])] at h
    obtain ⟨tail, rfl, -⟩ := consHead_eq_cons (splitOutside_ne_nil _ _ _) h
    exact List.cons_ne_nil _ _

/-- A text without blanks outside quotes that ends outside quotes does not end in a blank. -/
theorem trimEnd_of_closed (hs : Solid isBlank q cs) (hq : quotedAfter q cs = false) :
    trimEnd cs = cs := by
  rw [trimEnd_eq_self_iff]
  intro hne hblank
  have hlast : cs.dropLast ++ [cs.getLast hne] = cs := List.dropLast_append_getLast hne
  have hquote : cs.getLast hne ≠ '\'' := by
    intro he
    rw [he] at hblank
    cases hblank
  -- the blank would stand inside quotes, and these would be open
  rw [← hlast] at hs hq
  rw [quotedAfter_of_solid hquote hblank hs] at hq
  cases hq

end Text

/-! ## Labels of statements -/

/-- What holds of the characters of a label: there is one, they are on one line, no comment and no
blank stands in them outside quotes, and they do not end in a blank. -/
structure IsLabel (cs : List Char) : Prop where
  ne_nil : cs ≠ []
  newline : '\n' ∉ cs
  comment : Text.Solid (· == ';') false cs
  field : Text.Solid Text.isBlank false cs
  ends : Text.trimEnd cs = cs

theorem withoutComment_spec (line : List Char) :
    Text.Solid (· == ';') false (withoutComment line) ∧ withoutComment line <+: line := by
  unfold withoutComment
  cases h : Text.splitOutside (· == ';') false line with
  | nil => exact absurd h (Text.splitOutside_ne_nil _ _ _)
  | cons first rest =>
    obtain ⟨hs, hp⟩ := Text.of_splitOutside_eq_cons h
    refine ⟨hs, ?_⟩
    rcases hp with rfl | ⟨-, hp⟩
    · exact List.prefix_rfl
    · exact hp

theorem exists_of_readLines {number : Int} {lines : List String} {rows : List Row} {r : Row}
    (h : readLines number lines = .ok rows) (hr : r ∈ rows) :
    ∃ line ∈ lines, ∃ n, readStatement line n = .ok (some r) := by
  induction lines generalizing number rows with
  | nil =>
    obtain rfl := Except.ok.inj h
    cases hr
  | cons line lines ih =>
    obtain ⟨row?, hrow, h⟩ := bind_eq_ok h
    obtain ⟨rest, hrest, h⟩ := bind_eq_ok h
    obtain rfl := Except.ok.inj h
    rcases List.mem_append.mp hr with hr | hr
    · obtain rfl := Option.mem_toList.mp hr
      exact ⟨line, List.mem_cons_self, number, hrow⟩
    · obtain ⟨line', hline, hn⟩ := ih hrest hr
      exact ⟨line', List.mem_cons_of_mem _ hline, hn⟩

theorem readLines_append {number : Int} {lines : List String} {rows : List Row}
    (h : readLines number lines = .ok rows) (line : String) :
    readLines number (lines ++ [line]) =
      (readStatement line (number + lines.length)).map fun row? => rows ++ row?.toList := by
  induction lines generalizing number rows with
  | nil =>
    obtain rfl := Except.ok.inj h
    rw [List.nil_append, readLines, List.length_nil, Int.natCast_zero, Int.add_zero]
    cases readStatement line number with
    | error d => rfl
    | ok row? => simp [readLines, bind, Except.bind, pure, Except.pure, Except.map]
  | cons first lines ih =>
    obtain ⟨row?, hrow, h⟩ := bind_eq_ok h
    obtain ⟨rest, hrest, h⟩ := bind_eq_ok h
    obtain rfl := Except.ok.inj h
    have hnumber : number + ((first :: lines).length : Int) = number + 1 + lines.length := by
      rw [List.length_cons]
      omega
    rw [List.cons_append, readLines, hrow, ih hrest, hnumber]
    cases readStatement line (number + 1 + lines.length) with
    | error d => rfl
    | ok last? => simp [bind, Except.bind, pure, Except.pure, Except.map]

/-- A program with one more line has the row of the line behind its rows. -/
theorem readSource_append {source : String} {rows : List Row} {line : List Char}
    (h : readSource source = .ok rows) (hline : '\n' ∉ line) :
    readSource (source ++ "\n" ++ String.ofList line) =
      (readStatement (String.ofList line) (1 + (Text.pieces source).length)).map fun row? =>
        rows ++ row?.toList := by
  rw [readSource, Text.pieces_append source hline]
  exact readLines_append h _

/-! ## Jump lines -/

/-- A line that jumps to a label: blanks, the mnemonic, a gap and the label. -/
def jumpLine (blanks : List Char) (gap : Char) (label : String) : List Char :=
  blanks ++ ("JUMP".toList ++ gap :: label.toList)

theorem jumpLine_eq_append (blanks : List Char) (gap : Char) (label : String) :
    jumpLine blanks gap label = blanks ++ ("JUMP".toList ++ [gap]) ++ label.toList := by
  simp [jumpLine]

/-- The row of a line that jumps to a label. The label is split and spelled as any operand field. -/
def jumpRow (label : String) : Row where
  mnemonic := "JUMP"
  operands := (splitOperands label).map normalOperand

theorem ne_of_isBlank {c : Char} (h : Text.isBlank c = true) : c ≠ '\'' ∧ (c == ';') = false := by
  constructor
  · rintro rfl
    cases h
  · rw [beq_eq_false_iff_ne]
    rintro rfl
    cases h

theorem splitFields_of_blanks {blanks : List Char} (h : ∀ c ∈ blanks, Text.isBlank c = true)
    (cs : List Char) : splitFields (blanks ++ cs) = splitFields cs := by
  induction blanks with
  | nil => rfl
  | cons c blanks ih =>
    rw [List.forall_mem_cons] at h
    rw [← ih h.2, List.cons_append, splitFields, Text.splitOutside, if_neg (ne_of_isBlank h.1).1,
      if_pos (by simp [h.1]), List.filter_cons_of_neg (by simp)]
    rfl

section Field

variable {s : String} (hne : s.toList ≠ []) (hs : Text.Solid Text.isBlank false s.toList)
include hne hs

theorem splitFields_of_solid : splitFields s.toList = [s] := by
  rw [splitFields, hs, List.filter_cons_of_pos (by simpa using hne), List.filter_nil,
    List.map_singleton, String.ofList_toList]

/-- A field before a blank is the first one, if its quotes are closed. -/
theorem splitFields_append (hq : Text.quotedAfter false s.toList = false) {c : Char}
    (hc : Text.isBlank c = true) (cs : List Char) :
    splitFields (s.toList ++ c :: cs) = s :: splitFields cs := by
  rw [splitFields, Text.splitOutside_append (ne_of_isBlank hc).1 hc hs hq,
    List.filter_cons_of_pos (by simpa using hne), List.map_cons, String.ofList_toList]
  rfl

/-- A field does not start with a blank. -/
theorem exists_cons_of_solid : ∃ c cs, s.toList = c :: cs ∧ Text.isBlank c = false := by
  obtain ⟨c, cs, hcons⟩ := List.exists_cons_of_ne_nil hne
  refine ⟨c, cs, hcons, ?_⟩
  by_cases hc : c = '\''
  · rw [hc]
    rfl
  · rw [hcons, Text.solid_cons_iff hc] at hs
    simpa using hs.1

end Field

/-- What is left of a line without its comment is read by its fields, of which the first is a label
just if the line does not start with a blank. -/
theorem readStatement_of_cut {line : String} {label : Option String} {fields : List String}
    {c : Char} {cs : List Char} (hcut : Text.trimEnd (withoutComment line.toList) = c :: cs)
    (hfields : splitFields (c :: cs) = label.toList ++ fields) (hc : Text.isBlank c = label.isNone)
    (number : Int) :
    readStatement line number =
      if (rowOfFields (label.getD "") fields).operands.length ≤ maxOperands then
        .ok (some (rowOfFields (label.getD "") fields))
      else .error ⟨.tooManyOperands (rowOfFields (label.getD "") fields).operands.length, number,
        line⟩ := by
  rw [readStatement, hcut]
  dsimp only
  rw [hc, hfields]
  cases label <;> rfl

namespace IsLabel

variable {label : String} {blanks : List Char} {gap : Char} (hl : IsLabel label.toList)
  (hblanks : ∀ c ∈ blanks, Text.isBlank c = true) (hgap : Text.isBlank gap = true)
include hl

theorem splitFields_eq : splitFields label.toList = [label] :=
  splitFields_of_solid hl.ne_nil hl.field

include hblanks hgap

theorem withoutComment_jumpLine :
    withoutComment (jumpLine blanks gap label) = jumpLine blanks gap label := by
  have hplain : ∀ c ∈ blanks ++ ("JUMP".toList ++ [gap]), c ≠ '\'' ∧ (c == ';') = false := by
    intro c hc
    rcases List.mem_append.mp hc with hc | hc
    · exact ne_of_isBlank (hblanks c hc)
    rcases List.mem_append.mp hc with hc | hc
    · have hjump : ∀ c ∈ "JUMP".toList, c ≠ '\'' ∧ (c == ';') = false := by simp
      exact hjump c hc
    · exact List.mem_singleton.mp hc ▸ ne_of_isBlank hgap
  obtain ⟨hs, hq⟩ := Text.solid_of_plain hplain
  have hsolid : Text.Solid (· == ';') false (jumpLine blanks gap label) := by
    rw [jumpLine_eq_append, Text.solid_append_iff, hq]
    exact ⟨hs, hl.comment⟩
  rw [withoutComment, hsolid]
  rfl

theorem splitFields_jumpLine : splitFields (jumpLine blanks gap label) = ["JUMP", label] := by
  have hjump : ∀ c ∈ "JUMP".toList, c ≠ '\'' ∧ Text.isBlank c = false := by
    simp [Text.isBlank]
  obtain ⟨hs, hq⟩ := Text.solid_of_plain hjump
  rw [jumpLine, splitFields_of_blanks hblanks, splitFields_append (by decide) hs hq hgap,
    hl.splitFields_eq]

omit hblanks hgap in
theorem trimEnd_jumpLine :
    Text.trimEnd (jumpLine blanks gap label) = jumpLine blanks gap label := by
  rw [jumpLine_eq_append, Text.trimEnd_append hl.ne_nil hl.ends]

/-- A line that jumps to a label is read as a jump with the operands of the label, of which a row
has room for three. -/
theorem readStatement_jumpLine (hne : blanks ≠ []) (number : Int) :
    readStatement (String.ofList (jumpLine blanks gap label)) number =
      if (splitOperands label).length ≤ maxOperands then .ok (some (jumpRow label))
      else .error ⟨.tooManyOperands (splitOperands label).length, number,
        String.ofList (jumpLine blanks gap label)⟩ := by
  have htext := hl.withoutComment_jumpLine hblanks hgap
  have hfields := hl.splitFields_jumpLine hblanks hgap
  have htrim : Text.trimEnd (jumpLine blanks gap label) = jumpLine blanks gap label :=
    hl.trimEnd_jumpLine
  obtain ⟨c, cs, hline⟩ : ∃ c cs, jumpLine blanks gap label = c :: cs := by
    cases blanks with
    | nil => exact absurd rfl hne
    | cons c cs => exact ⟨c, _, rfl⟩
  have hc : Text.isBlank c = true := by
    cases blanks with
    | nil => exact absurd rfl hne
    | cons d ds => exact (List.cons.inj hline).1 ▸ hblanks d List.mem_cons_self
  have hcut : Text.trimEnd (withoutComment (String.ofList (jumpLine blanks gap label)).toList) =
      c :: cs := by
    rw [String.toList_ofList, htext, htrim, hline]
  have hnone : splitFields (c :: cs) = (none : Option String).toList ++ ["JUMP", label] := by
    rw [← hline, hfields]
    rfl
  have hrow : rowOfFields "" ["JUMP", label] = jumpRow label := by
    rw [rowOfFields, show Text.upper "JUMP" = "JUMP" by decide]
    rfl
  have hcount : (jumpRow label).operands.length = (splitOperands label).length :=
    List.length_map ..
  have hread := readStatement_of_cut hcut hnone hc number
  rwa [Option.getD_none, hrow, hcount] at hread

end IsLabel

end WordMachine
