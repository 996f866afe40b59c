import ChangeRules.Fault
import ChangeRules.Value.JsonForm

/-!
# Replies and refusals

The service replies with a status and a body. A request that it cannot serve is refused, for a reason
that decides the status.

* `Api.Reply.isWritable`: whether a reply can be written at all.
* `Api.Refusal.reply?`: how a refusal is told to the client.
* **`Api.Refusal.reply?_eq_none_iff`**: only faults that are not the engine's own cannot be told.
-/

namespace ChangeRules.Api

/-! ## Replies -/

/-- The body of a reply. -/
inductive Body where
  | json (v : Value)
  | text (s : String)

structure Reply where
  status : Nat
  body : Body

/-- Whether a reply can be written: JSON holds finite numbers only. -/
def Reply.isWritable (r : Reply) : Bool :=
  match r.body with
  | .json v => v.isFinite
  | .text _ => true

/-- A reply that tells a detail. -/
def Reply.telling (status : Nat) (detail : Value) : Reply :=
  ⟨status, .json (.object [("detail", detail)])⟩

/-! ## Refusals -/

/-- An issue and the value that it was found with. -/
structure Complaint where
  issue : Issue
  input : Value

/-- A complaint as a value. -/
def Complaint.toValue (c : Complaint) : Value :=
  .object [("type", .text c.issue.flaw.code), ("loc", .list (c.issue.path.map Step.toValue)),
    ("msg", .text c.issue.flaw.message), ("input", c.input)]

/-- Why a request is not served. -/
inductive Refusal where
  | unknownPath
  /-- The resource is where the path leads without the slashes at its end. -/
  | otherPath
  | unknownMethod
  | unknownRule
  | unreadableBody
  | invalid (complaints : List Complaint)
  | failed (f : Fault)

namespace Refusal

/-- The status for an error of the engine: one of a store may be over soon. -/
def statusOf (e : RuleError) : Nat := if e.kind = .store then 503 else 400

/-- What the client is told. Faults that are not the engine's own are not told. -/
def reply? (requestId : String) : Refusal → Option Reply
  | .unknownPath => some (.telling 404 (.text "Not Found"))
  | .otherPath => some ⟨307, .text ""⟩
  | .unknownMethod => some (.telling 405 (.text "Method Not Allowed"))
  | .unknownRule => some (.telling 404 (.text "Rule not found"))
  | .unreadableBody => some (.telling 400 (.text "There was an error parsing the body"))
  | .invalid complaints => some (.telling 422 (.list (complaints.map Complaint.toValue)))
  | .failed (.error e) => some ⟨statusOf e, .json (e.toResponse (.text requestId))⟩
  | .failed _ => none

theorem reply?_eq_none_iff {requestId : String} {r : Refusal} :
    r.reply? requestId = none ↔ ∃ f, r = .failed f ∧ ∀ e, f ≠ .error e := by
  cases r with
  | failed f => cases f <;> simp [reply?]
  | _ => simp [reply?]

end Refusal

end ChangeRules.Api
