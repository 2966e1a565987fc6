import WordMachine.Proofs.OperandForms

/-!
# Names of labels

An operand that is no number, no register, no literal and no string is the name of a label. A
renaming puts other names in the place of the names in a program, different ones for different
names, and leaves all other operands as they are. What a row makes does not depend on the names: a
row with other names makes the same words, and is refused with the same complaint.

## Main definitions

* `Operand.isName`: an operand is the name of a label
* `Renaming`, `Renaming.apply`: names that take the place of others, and an operand with them
* `Cell.rename`, `Complaint.rename`, `Row.rename`: cells, complaints and rows with other names

## Main results

* `Renaming.reading_apply`: a reading that makes no difference between names does not see a renaming
* `Mnemonic.encode_rename`: an instruction with other names is encoded in the same way
* `Row.items_rename`: a row with other names makes the same items, with other names
-/

namespace WordMachine

/-! ## Names -/

namespace Operand

/-- An operand is the name of a label: it is no number, not even one with too many digits, not
spelled like a register, and neither a literal nor a string. -/
def isName (s : String) : Bool :=
  s ≠ "" && (number? s).isNone && (overlong? s).isNone && !isRegisterLike s &&
    !startsWith s '=' && !startsWith s '\''

theorem isName_eq_true_iff {s : String} :
    isName s = true ↔ s ≠ "" ∧ number? s = none ∧ overlong? s = none ∧ isRegisterLike s = false ∧
      startsWith s '=' = false ∧ startsWith s '\'' = false := by
  simp [isName, and_assoc]

section Name

variable {s : String} (h : isName s = true)
include h

theorem ne_empty_of_isName : s ≠ "" := (isName_eq_true_iff.mp h).1

theorem number?_of_isName : number? s = none := (isName_eq_true_iff.mp h).2.1

theorem overlong?_of_isName : overlong? s = none := (isName_eq_true_iff.mp h).2.2.1

theorem isRegisterLike_of_isName : isRegisterLike s = false := (isName_eq_true_iff.mp h).2.2.2.1

theorem startsWith_equals_of_isName : startsWith s '=' = false :=
  (isName_eq_true_iff.mp h).2.2.2.2.1

theorem startsWith_quote_of_isName : startsWith s '\'' = false :=
  (isName_eq_true_iff.mp h).2.2.2.2.2

theorem register?_of_isName : register? s = none :=
  register?_of_isRegisterLike (isRegisterLike_of_isName h)

end Name

theorem constant?_of_isName {s : String} (h : isName s = true) : constant? s = none := by
  rw [constant?, number?_of_isName h]
  dsimp only
  unfold character?
  split
  · next hs => cases (startsWith_quote_of_isName h).symm.trans (startsWith_of_spelling hs)
  · rfl

end Operand

/-! ## Renamings -/

/-- New names for the names of labels: a name for each name, and different ones for different
names. -/
structure Renaming where
  /-- The new name. -/
  newName : String → String
  /-- The new name is a name. -/
  isName_newName : ∀ s, Operand.isName s = true → Operand.isName (newName s) = true
  /-- Different names have different new names. -/
  newName_inj : ∀ s t, Operand.isName s = true → Operand.isName t = true →
    newName s = newName t → s = t

namespace Renaming

/-- An operand with the new names: another name if it is a name, and the same operand if not. -/
def apply (ρ : Renaming) (s : String) : String :=
  if Operand.isName s then ρ.newName s else s

instance : CoeFun Renaming fun _ => String → String := ⟨apply⟩

/-- Two names change places. -/
def swap (s t : String) (hs : Operand.isName s = true) (ht : Operand.isName t = true) :
    Renaming where
  newName := Equiv.swap s t
  isName_newName u hu := by
    rw [Equiv.swap_apply_def]
    split
    · exact ht
    · split
      · exact hs
      · exact hu
  newName_inj _ _ _ _ h := (Equiv.swap s t).injective h

variable (ρ : Renaming)

theorem apply_of_not_isName {s : String} (h : Operand.isName s = false) : ρ s = s := by
  rw [apply, h, if_neg Bool.false_ne_true]

/-- A reading that makes no difference between names does not see a renaming. -/
theorem reading_apply {α : Type} {read : String → α} {x : α}
    (h : ∀ s, Operand.isName s = true → read s = x) (s : String) : read (ρ s) = read s := by
  unfold apply
  split
  · next hs => rw [h _ (ρ.isName_newName s hs), h s hs]
  · rfl

@[simp] theorem isName_apply (s : String) : Operand.isName (ρ s) = Operand.isName s :=
  ρ.reading_apply (fun _ hs => hs) s

@[simp] theorem number?_apply (s : String) : Operand.number? (ρ s) = Operand.number? s :=
  ρ.reading_apply (fun _ => Operand.number?_of_isName) s

@[simp] theorem overlong?_apply (s : String) : Operand.overlong? (ρ s) = Operand.overlong? s :=
  ρ.reading_apply (fun _ => Operand.overlong?_of_isName) s

@[simp] theorem register?_apply (s : String) : Operand.register? (ρ s) = Operand.register? s :=
  ρ.reading_apply (fun _ => Operand.register?_of_isName) s

@[simp] theorem isRegisterLike_apply (s : String) :
    Operand.isRegisterLike (ρ s) = Operand.isRegisterLike s :=
  ρ.reading_apply (fun _ => Operand.isRegisterLike_of_isName) s

@[simp] theorem startsWith_equals_apply (s : String) :
    Operand.startsWith (ρ s) '=' = Operand.startsWith s '=' :=
  ρ.reading_apply (fun _ => Operand.startsWith_equals_of_isName) s

@[simp] theorem startsWith_quote_apply (s : String) :
    Operand.startsWith (ρ s) '\'' = Operand.startsWith s '\'' :=
  ρ.reading_apply (fun _ => Operand.startsWith_quote_of_isName) s

@[simp] theorem constant?_apply (s : String) : Operand.constant? (ρ s) = Operand.constant? s :=
  ρ.reading_apply (fun _ => Operand.constant?_of_isName) s

@[simp] theorem apply_eq_empty_iff (s : String) : ρ s = "" ↔ s = "" := by
  have h := ρ.reading_apply (fun _ hs => decide_eq_false (Operand.ne_empty_of_isName hs)) s
  simpa using h

/-- A literal keeps its spelling. -/
theorem apply_of_startsWith {s : String} (h : Operand.startsWith s '=' = true) : ρ s = s := by
  refine ρ.apply_of_not_isName (Bool.eq_false_iff.mpr fun hs => ?_)
  cases (Operand.startsWith_equals_of_isName hs).symm.trans h

/-- Different operands stay different. -/
theorem apply_injective : Function.Injective ρ := by
  intro s t h
  have hname : Operand.isName s = Operand.isName t := by
    rw [← ρ.isName_apply s, h, ρ.isName_apply]
  cases ht : Operand.isName t with
  | true =>
    rw [ht] at hname
    simp only [apply, hname, ht, if_true] at h
    exact ρ.newName_inj s t hname ht h
  | false =>
    rwa [ρ.apply_of_not_isName (hname.trans ht), ρ.apply_of_not_isName ht] at h

@[simp] theorem apply_inj {s t : String} : ρ s = ρ t ↔ s = t :=
  ρ.apply_injective.eq_iff

end Renaming

/-- A cell with the new names. -/
def Cell.rename (ρ : Renaming) : Cell → Cell
  | word value => word value
  | label name => label (ρ name)
  | literal token value => literal (ρ token) value

/-- A complaint with the new names of the labels and operands that it shows. -/
def Complaint.rename (ρ : Renaming) : Complaint → Complaint
  | undefinedLabel label address => undefinedLabel (ρ label) address
  | duplicateLabel label => duplicateLabel (ρ label)
  | invalidLabelName label => invalidLabelName (ρ label)
  | unexpectedOperands name operands => unexpectedOperands name (operands.map ρ)
  | registerAsAddress name operand => registerAsAddress name (ρ operand)
  | badIndexRegister name operand => badIndexRegister name (ρ operand)
  | badString operand => badString (ρ operand)
  | badSubtype operand => badSubtype (ρ operand)
  | badLiteral operand => badLiteral (ρ operand)
  | notAnAddress operand => notAnAddress (ρ operand)
  | c => c

@[simp] theorem Complaint.kind_rename (ρ : Renaming) (c : Complaint) :
    (c.rename ρ).kind = c.kind := by
  cases c <;> rfl

/-- A row with the new names of its label and of its operands. -/
def Row.rename (ρ : Renaming) (r : Row) : Row :=
  { r with label := ρ r.label, operands := r.operands.map ρ }

namespace Renaming

variable (ρ : Renaming) {α β γ δ : Type}

/-- The outcome of a computation with the new names: a result in which they are put by `f`, or a
complaint with them. -/
def outcome (f : α → β) : Except Complaint α → Except Complaint β
  | .ok a => .ok (f a)
  | .error c => .error (c.rename ρ)

/-- Computations in sequence have the outcome with the new names if both have. -/
theorem outcome_bind {f : α → β} {g : γ → δ} {x : Except Complaint α} {y : Except Complaint β}
    {k : α → Except Complaint γ} {k' : β → Except Complaint δ} (hx : y = ρ.outcome f x)
    (hk : ∀ a, k' (f a) = ρ.outcome g (k a)) : (y >>= k') = ρ.outcome g (x >>= k) := by
  subst hx
  cases x with
  | ok a => exact hk a
  | error c => rfl

/-- What cannot be read is complained about without a name. -/
theorem outcome_readable (f : α → β) (s : String) (x : Except Complaint α) :
    ρ.outcome f (Operand.readable s x) = Operand.readable s (ρ.outcome f x) := by
  unfold Operand.readable
  split <;> rfl

theorem readable_apply (s : String) (x : Except Complaint α) :
    Operand.readable (ρ s) x = Operand.readable s x := by
  rw [Operand.readable, ρ.overlong?_apply, Operand.readable]

end Renaming

/-! ## Encoding -/

namespace Mnemonic

variable (ρ : Renaming) (m : Mnemonic)

theorem registerPair?_rename (operands : List String) :
    m.registerPair? (operands.map ρ) = m.registerPair? operands := by
  match operands with
  | [] => rfl
  | [_] => rfl
  | [first, second] => simp [registerPair?]
  | _ :: _ :: _ :: _ => rfl

theorem leadingRegister_rename (operands : List String) :
    m.leadingRegister (operands.map ρ) =
      ρ.outcome (fun p => (p.1, p.2.map ρ)) (m.leadingRegister operands) := by
  unfold leadingRegister
  split
  · rfl
  · cases operands with
    | nil => rfl
    | cons first rest =>
      simp only [List.map_cons, List.head?_cons, Option.bind_some, List.tail_cons,
        ρ.register?_apply]
      cases Operand.register? first <;> rfl

theorem indexRegister_rename (operand : String) :
    m.indexRegister (ρ operand) = ρ.outcome id (m.indexRegister operand) := by
  unfold indexRegister
  rw [ρ.register?_apply]
  split
  · split <;> rfl
  · rfl

theorem addressOperand_rename (operand : String) :
    m.addressOperand (ρ operand) = ρ.outcome ρ (m.addressOperand operand) := by
  unfold addressOperand
  rw [ρ.isRegisterLike_apply]
  split <;> rfl

theorem addressAndIndex_rename (operands : List String) :
    m.addressAndIndex (operands.map ρ) =
      ρ.outcome (fun p => (ρ p.1, p.2)) (m.addressAndIndex operands) := by
  match operands with
  | [] => rfl
  | [operand] => exact ρ.outcome_bind (m.addressOperand_rename ρ operand) fun _ => rfl
  | [operand, index] =>
    refine ρ.outcome_bind (m.addressOperand_rename ρ operand) fun _ => ?_
    exact ρ.outcome_bind (m.indexRegister_rename ρ index) fun _ => rfl
  | _ :: _ :: _ :: _ => rfl

theorem encodeRegisterForm_rename (first second : Fin 8) {otherwise : Complaint}
    (h : otherwise.rename ρ = otherwise) :
    m.encodeRegisterForm first second otherwise =
      ρ.outcome (fun e => { e with address := e.address.map ρ })
        (m.encodeRegisterForm first second otherwise) := by
  unfold encodeRegisterForm
  split
  · rfl
  · rw [Renaming.outcome, h]

/-- An instruction with other names is encoded in the same way. -/
theorem encode_rename (operands : List String) :
    m.encode (operands.map ρ) =
      ρ.outcome (fun e => { e with address := e.address.map ρ }) (m.encode operands) := by
  unfold encode
  rw [List.isEmpty_map, m.registerPair?_rename ρ]
  split
  · exact m.encodeRegisterForm_rename ρ 0 0 rfl
  · split
    · exact m.encodeRegisterForm_rename ρ _ _ rfl
    · unfold encodeAddressForm
      split
      · rfl
      · refine ρ.outcome_bind (m.leadingRegister_rename ρ operands) fun _ => ?_
        exact ρ.outcome_bind (m.addressAndIndex_rename ρ _) fun _ => rfl

end Mnemonic

/-! ## Rows -/

/-- An item with the new names. -/
def Renaming.item (ρ : Renaming) : Item → Item :=
  ρ.outcome (Cell.rename ρ)

theorem Cell.ofAddress_rename (ρ : Renaming) (operand : String) :
    ofAddress (ρ operand) = ρ.item (ofAddress operand) := by
  unfold ofAddress
  rw [ρ.startsWith_equals_apply, ρ.number?_apply, ρ.startsWith_quote_apply, ρ.isRegisterLike_apply,
    ρ.readable_apply]
  split
  · next hs =>
    -- a literal, which is no name
    have hsame := ρ.apply_of_startsWith hs
    rw [hsame, Renaming.item, ρ.outcome_readable]
    cases hc : Operand.constant? (String.ofList operand.toList.tail) with
    | some value => simp only [hc, Renaming.outcome, rename, hsame]
    | none => simp only [hc, Renaming.outcome, Complaint.rename, hsame]
  · rw [Renaming.item, ρ.outcome_readable]
    split
    · rfl
    · split <;> rfl

theorem constantItem_rename (ρ : Renaming) (operand : String) :
    constantItem (ρ operand) = ρ.item (constantItem operand) := by
  unfold constantItem
  rw [ρ.constant?_apply, ρ.startsWith_quote_apply, ρ.readable_apply, Renaming.item,
    ρ.outcome_readable]
  split
  · rfl
  · split
    · rfl
    · rw [Cell.ofAddress_rename]
      rfl

theorem subtypeOf_rename (ρ : Renaming) (operand : String) :
    subtypeOf (ρ operand) = ρ.outcome id (subtypeOf operand) := by
  unfold subtypeOf
  rw [ρ.number?_apply, ρ.readable_apply, ρ.outcome_readable]
  split
  · split <;> rfl
  · rfl

theorem callItems_rename (ρ : Renaming) (subtype : Int) (buffer length : String) :
    callItems subtype (ρ buffer) (ρ length) = (callItems subtype buffer length).map ρ.item := by
  simp only [callItems, Cell.ofAddress_rename, List.map_cons, List.map_nil]
  rfl

theorem Directive.items_rename (ρ : Renaming) (d : Directive) (operands : List String) :
    d.items (operands.map ρ) = (d.items operands).map ρ.item := by
  cases d with
  | start | finish | reserve | push | pop => rfl
  | constant =>
    match operands with
    | [] => rfl
    | [operand] => exact congrArg (fun item => [item]) (constantItem_rename ρ operand)
    | _ :: _ :: _ => rfl
  | input | output =>
    match operands with
    | [] => rfl
    | [_] => rfl
    | [buffer, length] => exact callItems_rename ρ _ buffer length
    | _ :: _ :: _ :: _ => rfl

theorem supervisorItems_rename (ρ : Renaming) (operands : List String) :
    supervisorItems (operands.map ρ) = (supervisorItems operands).map ρ.item := by
  match operands with
  | [] => rfl
  | [_] => rfl
  | [_, _] => rfl
  | [operand, buffer, length] =>
    simp only [supervisorItems, List.map_cons, List.map_nil, subtypeOf_rename]
    cases subtypeOf operand with
    | ok subtype => exact callItems_rename ρ _ buffer length
    | error c => rfl
  | _ :: _ :: _ :: _ :: _ => rfl

theorem Mnemonic.items_rename (ρ : Renaming) (m : Mnemonic) (operands : List String) :
    m.items (operands.map ρ) = (m.items operands).map ρ.item := by
  unfold items
  split
  · exact supervisorItems_rename ρ operands
  · rw [m.encode_rename ρ]
    cases m.encode operands with
    | error c => rfl
    | ok e =>
      -- the instruction word is the same, so only the address operand is left
      have haddress : (e.address.map ρ).toList.map Cell.ofAddress =
          (e.address.toList.map Cell.ofAddress).map ρ.item := by
        cases e.address with
        | none => rfl
        | some operand => exact congrArg (fun item => [item]) (Cell.ofAddress_rename ρ operand)
      exact congrArg (List.cons _) haddress

namespace Row

variable (ρ : Renaming) (r : Row)

@[simp] theorem name_rename : (r.rename ρ).name = r.name := rfl

@[simp] theorem directive?_rename : (r.rename ρ).directive? = r.directive? := rfl

/-- The operands that are given stay given, since no name is empty. -/
@[simp] theorem given_rename : (r.rename ρ).given = r.given.map ρ := by
  have hempty : ((fun s => decide (s ≠ "")) ∘ ρ) = fun s => decide (s ≠ "") := by
    funext s
    simp
  rw [given, given, rename, ← List.map_take, List.filter_map, hempty]

/-- A row with other names makes the same items, with other names. -/
theorem items_rename : (r.rename ρ).items = r.items.map ρ.item := by
  unfold items
  rw [name_rename, directive?_rename, given_rename]
  split
  · rfl
  · split
    · exact Directive.items_rename ρ _ _
    · split
      · exact Mnemonic.items_rename ρ _ _
      · rfl

end Row

end WordMachine
