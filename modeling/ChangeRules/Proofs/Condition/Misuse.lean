import ChangeRules.Condition.Evaluation

/-!
# What can go wrong with conditions of the right shape

Once conditions are read, evaluating them can only come upon a value that does not support what is
asked of it, or that cannot be written. Column types are read the same way. So an error of matching is
always one of shape.

* `OnlyMisuse`: nothing but the misuse of a value can go wrong.
* **`onlyMisuse_fieldTypesOf`**, **`onlyMisuse_evaluateGroups`**: reading column types and
  evaluating groups.
-/

namespace ChangeRules

/-- Nothing but the misuse of a value can go wrong. -/
def OnlyMisuse {α : Type} (outcome : Except Fault α) : Prop :=
  ∀ f, outcome = .error f → ∃ m, f = .misuse m

namespace OnlyMisuse

variable {α β : Type} {outcome : Except Fault α}

theorem ok (a : α) : OnlyMisuse (.ok a : Except Fault α) := by
  intro f h
  exact absurd h (by simp)

theorem error (m : Misuse) : OnlyMisuse (.error (.misuse m) : Except Fault α) := by
  intro f h
  exact ⟨m, (Except.error.inj h).symm⟩

theorem bind {next : α → Except Fault β} (h : OnlyMisuse outcome) (hnext : ∀ a, OnlyMisuse (next a)) :
    OnlyMisuse (outcome >>= next) := by
  cases outcome with
  | ok a => exact hnext a
  | error f =>
    obtain ⟨m, rfl⟩ := h f rfl
    exact error m

theorem map {g : α → β} (h : OnlyMisuse outcome) : OnlyMisuse (outcome.map g) := by
  cases outcome with
  | ok a => exact ok (g a)
  | error f =>
    obtain ⟨m, rfl⟩ := h f rfl
    exact error m

end OnlyMisuse

/-! ## Column types -/

theorem onlyMisuse_pairOf (index : Nat) (v : Value) : OnlyMisuse (pairOf index v) := by
  unfold pairOf
  dsimp only
  split
  · exact .error _
  · exact .ok _
  · exact .error _

theorem onlyMisuse_fieldsOfPairs (fields : Fields) (index : Nat) (vs : List Value) :
    OnlyMisuse (fieldsOfPairs fields index vs) := by
  induction vs generalizing fields index with
  | nil => exact .ok fields
  | cons v vs ih =>
    refine (onlyMisuse_pairOf index v).bind fun pair => ?_
    dsimp only
    split
    · exact ih _ _
    · exact .error _
    · exact .error _
    · exact ih _ _

theorem onlyMisuse_fieldTypesOf (v : Value) : OnlyMisuse (fieldTypesOf v) := by
  unfold fieldTypesOf
  split
  · exact .ok []
  · split
    · exact .ok _
    · exact onlyMisuse_fieldsOfPairs _ _ _
    · exact onlyMisuse_fieldsOfPairs _ _ _
    · exact .error _

/-! ## Comparisons -/

theorem onlyMisuse_toNumber (v : Value) : OnlyMisuse v.toNumber := by
  unfold Value.toNumber
  split
  · next n =>
    refine OnlyMisuse.map ?_
    cases (Number.int n).toDouble with
    | ok x => exact .ok x
    | error flaw => exact .error _
  · exact .ok _
  · exact .ok _
  · exact .ok _

theorem onlyMisuse_numbers? (v w : Value) : OnlyMisuse (v.numbers? w) :=
  (onlyMisuse_toNumber v).bind fun _ => (onlyMisuse_toNumber w).bind fun _ => .ok _

theorem onlyMisuse_written (v : Value) : OnlyMisuse v.written := by
  unfold Value.written
  split
  · exact .ok _
  · exact .error _

theorem onlyMisuse_asTexts {α : Type} (relation : String → String → α) (v w : Value) :
    OnlyMisuse (Value.asTexts relation v w) :=
  (onlyMisuse_written v).bind fun _ => (onlyMisuse_written w).bind fun _ => .ok _

theorem onlyMisuse_equalsPlainly (v w : Value) : OnlyMisuse (v.equalsPlainly w) := by
  unfold Value.equalsPlainly
  split
  · exact onlyMisuse_asTexts _ v w
  · exact .ok _

theorem onlyMisuse_equals (v w : Value) (temporal : Bool) : OnlyMisuse (v.equals w temporal) := by
  unfold Value.equals
  split
  · exact .ok _
  · split
    · exact .ok _
    · split
      · exact onlyMisuse_asTexts _ v w
      · split
        · refine (onlyMisuse_numbers? v w).bind fun numbers => ?_
          cases numbers with
          | some _ => exact .ok _
          | none => exact onlyMisuse_equalsPlainly v w
        · exact onlyMisuse_equalsPlainly v w

theorem onlyMisuse_order (v w : Value) (temporal : Bool) : OnlyMisuse (v.order w temporal) := by
  unfold Value.order
  split
  · exact .ok _
  · split
    · exact .ok _
    · refine (onlyMisuse_numbers? v w).bind fun numbers => ?_
      cases numbers with
      | some _ => exact .ok _
      | none => exact onlyMisuse_asTexts _ v w

theorem onlyMisuse_isItem (w : Value) (text : String) (item : Value) :
    OnlyMisuse (Value.isItem w text item) := by
  unfold Value.isItem
  split
  · exact .ok _
  · split
    · exact .ok _
    · exact (onlyMisuse_written item).map

theorem onlyMisuse_hasItem (w : Value) (text : String) (items : List Value) :
    OnlyMisuse (Value.hasItem w text items) := by
  induction items with
  | nil => exact .ok false
  | cons item items ih =>
    refine (onlyMisuse_isItem w text item).bind fun found => ?_
    cases found with
    | true => exact .ok true
    | false => exact ih

theorem onlyMisuse_contains (v w : Value) : OnlyMisuse (v.contains w) := by
  unfold Value.contains
  split
  · exact .ok _
  · split
    · exact (onlyMisuse_written w).map
    · exact (onlyMisuse_written w).map
    · exact (onlyMisuse_written w).bind fun text => onlyMisuse_hasItem w text _
    · exact onlyMisuse_asTexts _ v w

theorem onlyMisuse_textually (relation : String → String → Bool) (v w : Value) :
    OnlyMisuse (v.textually relation w) := by
  unfold Value.textually
  split
  · exact .ok _
  · exact onlyMisuse_asTexts _ v w

theorem onlyMisuse_accepts (o : Operator) (v w : Value) (temporal : Bool) :
    OnlyMisuse (o.accepts v w temporal) := by
  cases o with
  | equals => exact onlyMisuse_equals v w temporal
  | notEquals => exact (onlyMisuse_equals v w temporal).map
  | greaterThan => exact (onlyMisuse_order v w temporal).map
  | lessThan => exact (onlyMisuse_order v w temporal).map
  | contains => exact onlyMisuse_contains v w
  | startsWith => exact onlyMisuse_textually _ v w
  | endsWith => exact onlyMisuse_textually _ v w
  | isNull => exact .ok _
  | isNotNull => exact .ok _

/-! ## Conditions and groups -/

variable (types : Fields) (record : Value)

theorem onlyMisuse_holds (c : Condition) : OnlyMisuse (c.holds types record) := by
  refine OnlyMisuse.bind ?_ fun actual => onlyMisuse_accepts _ _ _ _
  cases record with
  | object fields => exact .ok _
  | _ => exact .error _

theorem onlyMisuse_allHold (cs : List Condition) : OnlyMisuse (allHold types record cs) := by
  induction cs with
  | nil => exact .ok true
  | cons c cs ih =>
    refine (onlyMisuse_holds types record c).bind fun held => ?_
    cases held with
    | true => exact ih
    | false => exact .ok false

theorem onlyMisuse_anyHolds (groups : List (List Condition)) :
    OnlyMisuse (anyHolds types record groups) := by
  induction groups with
  | nil => exact .ok false
  | cons g groups ih =>
    refine (onlyMisuse_allHold types record g).bind fun held => ?_
    cases held with
    | true => exact .ok true
    | false => exact ih

theorem onlyMisuse_evaluateGroups (groups : List (List Condition)) :
    OnlyMisuse (evaluateGroups types groups record) := by
  unfold evaluateGroups
  split
  · exact .ok true
  · exact onlyMisuse_anyHolds types _ groups

end ChangeRules
