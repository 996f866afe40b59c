import ChangeRules.Engine.World

/-!
# Toggling a rule

A rule is made active when it was not, and inactive when it was. The rule is read first and set
afterwards, each in one call of the store; between the two, others may change it.

* `Toggle.turn`: one call.
* `Toggle.run`: both calls, one right after the other.
* **`Toggle.turn_of_outcome`**: a toggle that has an outcome makes no more calls.
-/

namespace ChangeRules

/-- How far a toggle is. -/
inductive ToggleProgress where
  | reading
  /-- The rule was read and is about to be set. -/
  | setting (active : Bool)
  | ended (outcome : Except Fault (Option Rule))

/-- A toggle of a tenant's rule under way. -/
structure Toggle where
  tenant : Value
  id : Value
  progress : ToggleProgress := .reading

namespace Toggle

/-- The same toggle at another point. -/
def moved (t : Toggle) (p : ToggleProgress) : Toggle := { t with progress := p }

/-- What a toggle came to, once it is over: the rule as it is now, if there is one. -/
def outcome? (t : Toggle) : Option (Except Fault (Option Rule)) :=
  match t.progress with
  | .ended outcome => some outcome
  | _ => none

/-- What follows when the rule was read. -/
def afterReading : Except Fault (Option Rule) → ToggleProgress
  | .ok (some r) => .setting (!r.isActive.truthy)
  | .ok none => .ended (.ok none)
  | .error f => .ended (.error f)

/-- One call of the store. -/
def turn (t : Toggle) (w : World) : Toggle × World :=
  match t.progress with
  | .reading =>
    let (outcome, w) := w.getRule t.tenant t.id
    (t.moved (afterReading outcome), w)
  | .setting active =>
    let (outcome, w) := w.setActive t.tenant t.id (.bool active)
    (t.moved (.ended outcome), w)
  | .ended _ => (t, w)

/-- A toggle from beginning to end. -/
def run (t : Toggle) (w : World) : Except Fault (Option Rule) × World :=
  let (t, w) := t.turn w
  let (t, w) := t.turn w
  (t.outcome?.getD (.error .stuck), w)

theorem turn_of_outcome {t : Toggle} {w : World} {outcome : Except Fault (Option Rule)}
    (h : t.outcome? = some outcome) : t.turn w = (t, w) := by
  unfold outcome? at h
  unfold turn
  split at h <;> simp_all

end Toggle

end ChangeRules
