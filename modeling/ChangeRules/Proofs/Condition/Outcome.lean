import ChangeRules.Proofs.Condition.Failure
import ChangeRules.Proofs.Condition.Misuse
import ChangeRules.Proofs.Condition.NormalForm

/-!
# What evaluation comes to

Once conditions are read, two things can go wrong with them, and both come from integers: numbers are
compared as doubles, which some integers do not have, and texts are written, which integers of too many
digits are not. Groups and conditions are evaluated in order, and only as far as they are needed. So
evaluation fails exactly if it comes to a condition with such an integer. The only other failure is to
tell what is wrong with a stored value that cannot be written.

* `allHold_eq_error_iff`, `anyHolds_eq_error_iff`: the failures of groups, by their first one.
* `Condition.Reached`: evaluation comes to a condition; `Condition.Untold`: what is wrong is not told.
* **`outcome_of_evaluate`**: what evaluation comes to, for all stored values and records.

Out of scope: how deep the values may be nested that are written or read; nothing limits it here.
-/

namespace ChangeRules

/-! ## Conditions and groups -/

/-- A search through a row goes on as long as its members come to one truth value. It fails with the
first member that does not, if this one fails. -/
theorem search_eq_error_iff {α : Type} {search : List α → Except Fault Bool}
    {judge : α → Except Fault Bool} (goOn : Bool) (hnil : ∃ b, search [] = .ok b)
    (hcons : ∀ a as, search (a :: as) = judge a >>= fun b => if b = goOn then search as else .ok b)
    {as : List α} {f : Fault} : search as = .error f ↔ ∃ before a behind,
      as = before ++ a :: behind ∧ (∀ b ∈ before, judge b = .ok goOn) ∧ judge a = .error f := by
  induction as with
  | nil =>
    obtain ⟨b, hb⟩ := hnil
    simp [hb]
  | cons a as ih =>
    rw [hcons]
    constructor
    · intro h
      cases ha : judge a with
      | error f' =>
        rw [ha] at h
        exact ⟨[], a, as, rfl, by simp, ha.trans h⟩
      | ok b =>
        by_cases hb : b = goOn
        · have htail : search as = .error f := by
            simpa [ha, hb, bind, Except.bind] using h
          obtain ⟨before, d, behind, rfl, hbefore, hd⟩ := ih.mp htail
          exact ⟨a :: before, d, behind, rfl, List.forall_mem_cons.mpr ⟨hb ▸ ha, hbefore⟩, hd⟩
        · exact absurd h (by simp [ha, hb, bind, Except.bind])
    · rintro ⟨before, d, behind, heq, hbefore, hd⟩
      cases before with
      | nil =>
        obtain ⟨rfl, rfl⟩ := List.cons.inj heq
        rw [hd]
        rfl
      | cons b before =>
        obtain ⟨rfl, rfl⟩ := List.cons.inj heq
        obtain ⟨hb, hbefore⟩ := List.forall_mem_cons.mp hbefore
        simpa [hb, bind, Except.bind] using ih.mpr ⟨before, d, behind, rfl, hbefore, hd⟩

section

variable {types : Fields} {record : Value} {f : Fault}

theorem allHold_eq_error_iff {cs : List Condition} :
    allHold types record cs = .error f ↔ ∃ before c behind, cs = before ++ c :: behind ∧
      (∀ b ∈ before, b.holds types record = .ok true) ∧ c.holds types record = .error f := by
  refine search_eq_error_iff true ⟨true, rfl⟩ fun c cs => bind_congr fun held => ?_
  cases held <;> rfl

theorem anyHolds_eq_error_iff {groups : List (List Condition)} :
    anyHolds types record groups = .error f ↔ ∃ before g behind, groups = before ++ g :: behind ∧
      (∀ b ∈ before, allHold types record b = .ok false) ∧ allHold types record g = .error f := by
  refine search_eq_error_iff false ⟨false, rfl⟩ fun g groups => bind_congr fun held => ?_
  cases held <;> rfl

end

namespace Condition

variable {types fields : Fields} {stored : Value}

/-- Evaluation comes to a condition: the groups before its own one are false, and the conditions
before it in its group are true. -/
def Reached (types fields : Fields) (stored : Value) (c : Condition) : Prop :=
  ∃ groups g groups', groupsOf stored = .ok (groups ++ g :: groups') ∧
    (∀ b ∈ groups, allHold types (.object fields) b = .ok false) ∧
    ∃ before behind, g = before ++ c :: behind ∧ ∀ b ∈ before, b.holds types (.object fields) = .ok true

/-- A condition compares a field of a record with a value as numbers, and one of the two is too
large. -/
def Overflows (fields : Fields) (c : Condition) : Prop :=
  c.operator.Overflows (Value.get fields c.field) c.value

/-- A condition compares texts of the two, and something of them cannot be written. -/
def Overwrites (fields : Fields) (c : Condition) : Prop :=
  c.operator.Overwrites (Value.get fields c.field) c.value

/-- What is wrong with a stored value cannot be told. -/
def Untold (stored : Value) : Prop := ∃ flaw, groupsOf stored = .error flaw ∧ flaw.isTellable = false

theorem evaluateGroups_object (groups : List (List Condition)) :
    evaluateGroups types groups (.object fields) =
      if groups.isEmpty then .ok true else anyHolds types (.object fields) groups := by
  cases fields <;> rfl

/-- Groups that are read fail with the first condition that evaluation comes to and that fails. -/
theorem evaluateGroups_eq_error_iff {groups : List (List Condition)} {f : Fault}
    (h : groupsOf stored = .ok groups) : evaluateGroups types groups (.object fields) = .error f ↔
      ∃ c, Reached types fields stored c ∧ c.holds types (.object fields) = .error f := by
  have hanswer : evaluateGroups types groups (.object fields) = .error f ↔
      anyHolds types (.object fields) groups = .error f := by
    rw [evaluateGroups_object]
    cases groups <;> simp [anyHolds]
  rw [hanswer, anyHolds_eq_error_iff]
  simp only [allHold_eq_error_iff, Reached, h, Except.ok.injEq]
  constructor
  · rintro ⟨before, g, behind, heq, hfalse, first, c, rest, hg, htrue, hc⟩
    exact ⟨c, ⟨before, g, behind, heq, hfalse, first, rest, hg, htrue⟩, hc⟩
  · rintro ⟨c, ⟨before, g, behind, heq, hfalse, first, rest, hg, htrue⟩, hc⟩
    exact ⟨before, g, behind, heq, hfalse, first, c, rest, hg, htrue, hc⟩

/-- **Evaluation fails in one of two ways**, unless it tells what is wrong with the stored value. -/
theorem evaluate_eq_misuse_iff {m : Misuse} :
    evaluate types stored (.object fields) = .error (.misuse m) ↔
      m = .arithmetic .integerTooLarge ∧ (∃ c, Reached types fields stored c ∧ c.Overflows fields) ∨
      m = .unwritableInteger ∧
        (Untold stored ∨ ∃ c, Reached types fields stored c ∧ c.Overwrites fields) := by
  unfold evaluate
  cases hgroups : groupsOf stored with
  | error flaw =>
    have hreached : ∀ c, ¬ Reached types fields stored c := by
      rintro c ⟨groups, g, groups', hread, -⟩
      exact absurd (hgroups.symm.trans hread) (by simp)
    have huntold : Untold stored ↔ flaw.isTellable = false := by simp [Untold, hgroups]
    simp only [hreached, huntold, Flaw.fault]
    cases flaw.isTellable with
    | true => simp
    | false => simp [eq_comm]
  | ok groups =>
    have huntold : ¬ Untold stored := by simp [Untold, hgroups]
    dsimp only
    rw [evaluateGroups_eq_error_iff hgroups]
    simp only [huntold, false_or]
    constructor
    · rintro ⟨c, hreached, hc⟩
      rcases Operator.accepts_eq_error_iff.mp hc with ⟨hm, hlarge⟩ | ⟨hm, hlarge⟩
      · exact .inl ⟨Fault.misuse.inj hm, c, hreached, hlarge⟩
      · exact .inr ⟨Fault.misuse.inj hm, c, hreached, hlarge⟩
    · rintro (⟨rfl, c, hreached, hlarge⟩ | ⟨rfl, c, hreached, hlarge⟩)
      · exact ⟨c, hreached, Operator.accepts_eq_error_iff.mpr (.inl ⟨rfl, hlarge⟩)⟩
      · exact ⟨c, hreached, Operator.accepts_eq_error_iff.mpr (.inr ⟨rfl, hlarge⟩)⟩

theorem untold_not_wellShaped (h : Untold stored) : ¬ WellShaped stored := by
  obtain ⟨flaw, hflaw, -⟩ := h
  intro hshape
  obtain ⟨groups, hgroups⟩ := exists_groupsOf_iff.mpr hshape
  exact absurd (hflaw.symm.trans hgroups) (by simp)

/-- A value of the wrong shape is refused exactly if what is wrong with it can be told. -/
theorem refused_iff_of_not_wellShaped (h : ¬ WellShaped stored) :
    (∃ e, evaluate types stored (.object fields) = .error (.error e) ∧ e.kind = .matching) ↔
      ¬ Untold stored := by
  obtain ⟨flaw, hflaw, heval⟩ : ∃ flaw, groupsOf stored = .error flaw ∧
      evaluate types stored (.object fields) = .error flaw.fault := evaluate_of_not_wellShaped h
  obtain ⟨message, key, v, -, herror⟩ := flaw.shapeError
  have huntold : Untold stored ↔ flaw.isTellable = false := by simp [Untold, hflaw]
  rw [heval, huntold, Flaw.fault, herror]
  cases flaw.isTellable with
  | true => exact iff_of_true ⟨_, rfl, rfl⟩ (by simp)
  | false =>
    refine iff_of_false ?_ (by simp)
    rintro ⟨e, he, -⟩
    exact absurd he (by simp)

/-! ## The outcome -/

/-- What evaluation comes to: values of the wrong shape are refused if what is wrong with them can be
told, which it can of values that can be written; comparisons with integers that are too large fail, as
numbers or as texts; and everything else is true or false. -/
structure Outcome (types fields : Fields) (stored : Value) : Prop where
  refused_iff : (∃ e, evaluate types stored (.object fields) = .error (.error e) ∧
    e.kind = .matching) ↔ ¬ WellShaped stored ∧ ¬ Untold stored
  told : stored.isWritable = true → ¬ Untold stored
  oversized_iff : evaluate types stored (.object fields) = .error .oversized ↔
    ∃ c, Reached types fields stored c ∧ c.Overflows fields
  unwritable_iff : evaluate types stored (.object fields) = .error .unwritable ↔
    Untold stored ∨ ∃ c, Reached types fields stored c ∧ c.Overwrites fields
  judged_iff : (∃ b, evaluate types stored (.object fields) = .ok b) ↔
    WellShaped stored ∧ ∀ c, Reached types fields stored c → ¬ c.Overflows fields ∧ ¬ c.Overwrites fields

/-- A value of the right shape is not refused. -/
theorem judged_or_misuse_of_wellShaped (h : WellShaped stored) :
    (∃ b, evaluate types stored (.object fields) = .ok b) ∨
      ∃ m, evaluate types stored (.object fields) = .error (.misuse m) := by
  obtain ⟨groups, hgroups⟩ := exists_groupsOf_iff.mpr h
  have hmisuse := onlyMisuse_evaluateGroups types (.object fields) groups
  simp only [evaluate, hgroups]
  cases heval : evaluateGroups types groups (.object fields) with
  | ok b => exact .inl ⟨b, rfl⟩
  | error f =>
    obtain ⟨m, rfl⟩ := hmisuse f heval
    exact .inr ⟨m, rfl⟩

/-- **Evaluation fails for integers that are too large and for nothing else**, and so does the reading
of a number, which otherwise is finite or missing. -/
theorem outcome_of_evaluate (types fields : Fields) (stored : Value) : Outcome types fields stored ∧
    ∀ v : Value, (∃ x, v.toNumber = .ok x ∧ ∀ y ∈ x, y.isFinite = true) ↔ ¬ v.IsOversized := by
  have hoversized : evaluate types stored (.object fields) = .error .oversized ↔
      ∃ c, Reached types fields stored c ∧ c.Overflows fields :=
    evaluate_eq_misuse_iff.trans (by simp)
  have hunwritable : evaluate types stored (.object fields) = .error .unwritable ↔
      Untold stored ∨ ∃ c, Reached types fields stored c ∧ c.Overwrites fields :=
    evaluate_eq_misuse_iff.trans (by simp)
  have hcame : WellShaped stored → (∃ b, evaluate types stored (.object fields) = .ok b) ∨
      ∃ m, evaluate types stored (.object fields) = .error (.misuse m) :=
    judged_or_misuse_of_wellShaped
  refine ⟨⟨?_, ?_, hoversized, hunwritable, ?_, ?_⟩, fun _ => Value.toNumber_eq_ok_iff⟩
  · constructor
    · rintro ⟨e, he, hkind⟩
      have hshape : ¬ WellShaped stored := by
        intro hshape
        rcases hcame hshape with ⟨b, hb⟩ | ⟨m, hm⟩
        · exact absurd (he.symm.trans hb) (by simp)
        · exact absurd (he.symm.trans hm) (by simp)
      exact ⟨hshape, (refused_iff_of_not_wellShaped hshape).mp ⟨e, he, hkind⟩⟩
    · rintro ⟨hshape, htold⟩
      exact (refused_iff_of_not_wellShaped hshape).mpr htold
  · rintro hwritable ⟨flaw, hflaw, hnot⟩
    rw [(legible_of_isWritable hwritable).isTellable hflaw] at hnot
    exact absurd hnot (by simp)
  · rintro ⟨b, hb⟩
    constructor
    · by_contra hshape
      obtain ⟨flaw, -, heval⟩ := evaluate_of_not_wellShaped hshape
      exact absurd (hb.symm.trans heval) (by simp)
    · intro c hreached
      constructor
      · intro hlarge
        exact absurd ((hoversized.mpr ⟨c, hreached, hlarge⟩).symm.trans hb) (by simp)
      · intro hlarge
        exact absurd ((hunwritable.mpr (.inr ⟨c, hreached, hlarge⟩)).symm.trans hb) (by simp)
  · rintro ⟨hshape, hnone⟩
    rcases hcame hshape with hb | ⟨m, hm⟩
    · exact hb
    · rcases evaluate_eq_misuse_iff.mp hm with ⟨-, c, hreached, hlarge⟩ | ⟨-, huntold | ⟨c, hreached, hlarge⟩⟩
      · exact absurd hlarge (hnone c hreached).1
      · exact absurd hshape (untold_not_wellShaped huntold)
      · exact absurd hlarge (hnone c hreached).2

/-- The number of a record is one. -/
def isOne : Value := .list [.list [.object
  [("field", .text "number"), ("operator", .text "equals"), ("value", .int 1)]]]

/-- An integer of 401 digits. -/
def wide : Value := .int (Int.pow 10 400)

theorem isOversized_wide : wide.IsOversized := ⟨Int.pow 10 400, rfl, by decide +kernel⟩

/-- **A number that cannot be compared**: an integer of 401 digits, with one. -/
theorem not_judged_wide : WellShaped isOne ∧ ¬ (∃ x, wide.toNumber = .ok x) ∧
    ¬ ((∃ b, evaluate [] isOne (.object [("number", wide)]) = .ok b) ∨
      ∃ e, evaluate [] isOne (.object [("number", wide)]) = .error (.error e) ∧
        e.kind = .matching) := by
  have hread : groupsOf isOne = .ok [[⟨"number", .equals, .int 1⟩]] := rfl
  have hfailed : evaluate [] isOne (.object [("number", wide)]) = .error .oversized := by
    refine evaluate_eq_misuse_iff.mpr (.inl ⟨rfl, ⟨"number", .equals, .int 1⟩, ?_, ?_⟩)
    · exact ⟨[], _, [], hread, by simp, [], [], rfl, by simp⟩
    · exact ⟨rfl, rfl, .inl isOversized_wide, rfl, rfl⟩
  refine ⟨exists_groupsOf_iff.mp ⟨_, hread⟩, ?_, ?_⟩
  · rintro ⟨x, hx⟩
    rcases wide.toNumber_cases with ⟨-, herr⟩ | ⟨hnot, -⟩
    · exact absurd (hx.symm.trans herr) (by simp)
    · exact hnot isOversized_wide
  · rw [hfailed]
    rintro (⟨b, hb⟩ | ⟨e, he, -⟩)
    · exact absurd hb (by simp)
    · exact absurd (Except.error.inj he) (by simp [Fault.oversized])

end Condition

end ChangeRules
