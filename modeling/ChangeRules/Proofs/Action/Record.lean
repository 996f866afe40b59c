import ChangeRules.Action.Context
import ChangeRules.Event.Notice

/-!
# The record that actions see

The record behind a change is worked out twice. Conditions look at the new row, and for a deletion at
the old one. Actions look at the new row wherever there is one, whatever the event tells. So they see
another record than the conditions saw when a deletion comes with a new row of its own, be it an empty
one, and only then.

* `EventNotice.conditionFields`, `EventNotice.actionFields`: the two records of a notice.
* `EventNotice.IsTorn`: a deletion with a new row other than the old one.
* **`ActionContext.record_of_not_isDeletion`**: for all that is no deletion it is one record.
* **`ActionContext.record_ofNotice`**: the two records of a notice, and when they are one.
-/

namespace ChangeRules

/-! ## Any event -/

namespace ActionContext

/-- **Unless a row was deleted, actions see the record that the conditions saw.** -/
theorem record_of_not_isDeletion {e : Event} (h : e.isDeletion = false) (r : Rule)
    (recordId : Option String) : (ofFiring r e recordId).record = e.conditionRecord := by
  unfold record ofFiring Event.conditionRecord
  rw [h]
  cases e.newRow.isNull <;> rfl

end ActionContext

/-! ## Notices -/

namespace EventNotice

/-- The row that conditions look at. -/
def conditionFields (n : EventNotice) : Fields :=
  if n.operation = .deleted then n.oldRow.getD [] else n.newRow.getD (n.oldRow.getD [])

/-- The row that actions look at. -/
def actionFields (n : EventNotice) : Fields := n.newRow.getD (n.oldRow.getD [])

/-- A deletion with a new row other than the old one; a row that is left out is empty. -/
def IsTorn (n : EventNotice) : Prop :=
  n.operation = .deleted ∧ ∃ row, n.newRow = some row ∧ row ≠ n.oldRow.getD []

variable (n : EventNotice) (now : DateTime) (newId : String)

@[simp] theorem isNull_rowValue (row : Option Fields) : (rowValue row).isNull = row.isNone := by
  cases row <;> rfl

/-- A row that is not there counts as an empty one. -/
theorem orElse_rowValue (row : Option Fields) :
    (rowValue row).orElse (.object []) = .object (row.getD []) := by
  rcases row with _ | _ | _ <;> rfl

theorem isDeletion_toEvent : (n.toEvent now newId).isDeletion = decide (n.operation = .deleted) := by
  show (n.operation.name == EventOperation.deleted.name) = decide (n.operation = .deleted)
  cases n.operation <;> rfl

theorem conditionRecord_toEvent : (n.toEvent now newId).conditionRecord = .object n.conditionFields := by
  have hold : (n.toEvent now newId).oldRow.orElse (.object []) = .object (n.oldRow.getD []) :=
    orElse_rowValue n.oldRow
  have hnull : (n.toEvent now newId).newRow.isNull = n.newRow.isNone := isNull_rowValue n.newRow
  unfold Event.conditionRecord conditionFields
  rw [isDeletion_toEvent, hold, hnull]
  by_cases hdeleted : n.operation = .deleted
  · rw [if_pos hdeleted, decide_eq_true hdeleted]
    rfl
  · rw [if_neg hdeleted, decide_eq_false hdeleted]
    cases hnew : n.newRow with
    | none => rfl
    | some row =>
      show rowValue n.newRow = .object row
      rw [hnew]
      rfl

theorem record_toEvent (r : Rule) (recordId : Option String) :
    (ActionContext.ofFiring r (n.toEvent now newId) recordId).record = .object n.actionFields := by
  show (if (rowValue n.newRow).isNull then (rowValue n.oldRow).orElse (.object [])
    else rowValue n.newRow) = .object n.actionFields
  rw [orElse_rowValue, isNull_rowValue, actionFields]
  cases n.newRow <;> rfl

theorem actionFields_eq_iff : n.actionFields = n.conditionFields ↔ ¬ n.IsTorn := by
  unfold actionFields conditionFields IsTorn
  by_cases hdeleted : n.operation = .deleted
  · rw [if_pos hdeleted]
    cases hnew : n.newRow with
    | none => simp
    | some row => simp [hdeleted]
  · simp [hdeleted]

end EventNotice

namespace ActionContext

/-- **What actions and conditions see of a notice**, whatever rule fires for it: the one looks at the
new row first, the other at the old row of a deletion. It is the same record exactly if the notice is
no deletion with a new row other than the old one. -/
theorem record_ofNotice (n : EventNotice) (now : DateTime) (newId : String) (r : Rule)
    (recordId : Option String) :
    (ofFiring r (n.toEvent now newId) recordId).record = .object n.actionFields ∧
      (n.toEvent now newId).conditionRecord = .object n.conditionFields ∧
      ((ofFiring r (n.toEvent now newId) recordId).record = (n.toEvent now newId).conditionRecord ↔
        ¬ n.IsTorn) := by
  refine ⟨n.record_toEvent now newId r recordId, n.conditionRecord_toEvent now newId, ?_⟩
  rw [n.record_toEvent, n.conditionRecord_toEvent, Value.object.injEq]
  exact n.actionFields_eq_iff

/-- The conditions see who owned the record that is gone; the actions see nobody. -/
theorem record_ne_conditionRecord_emptied :
    let payload : Value := .object [("tenantId", .text "t1"), ("table", .text "tasks"),
      ("operation", .text "deleted"), ("oldRow", .object [("id", .text "7"), ("owner", .text "ann")]),
      ("newRow", .object [])]
    ∃ n, EventNotice.ofValue payload = .ok n ∧ ∀ now newId r recordId,
      (ofFiring r (n.toEvent now newId) recordId).record = .object [] ∧
      (n.toEvent now newId).conditionRecord = .object [("id", .text "7"), ("owner", .text "ann")] ∧
      (ofFiring r (n.toEvent now newId) recordId).record ≠ (n.toEvent now newId).conditionRecord := by
  refine ⟨_, rfl, fun now newId r recordId => ⟨rfl, rfl, fun h => ?_⟩⟩
  exact absurd (Value.object.inj h) (List.cons_ne_nil _ _).symm

end ActionContext

end ChangeRules
