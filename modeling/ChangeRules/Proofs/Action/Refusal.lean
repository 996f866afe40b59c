import ChangeRules.Proofs.Action.Errand
import ChangeRules.Proofs.Action.FailFast
import ChangeRules.Proofs.Action.Requests
import ChangeRules.Proofs.Engine.Dispatching
import ChangeRules.Proofs.Sink.Contract
import ChangeRules.Sink.Script

/-!
# Refused actions

An action is refused when it cannot be read, when it is an email that would go to nobody, or when it is
an update without a target. Its result tells so by a code of its own, which nothing that happens at a
service can lead to. So whoever sees this code knows that nothing happened outside: no request, no
delay, and not even a look at a breaker.

* `Network.Foreign`: what goes wrong at the sinks is nothing of the engine's own.
* `Outward`: outcomes that are no error of an action.
* `Action.Targetless`, `Refused`: what is refused.
* **`Action.perform_cases`**: an action without a target is refused at once, and any other one ends in
  another way.
* **`isRefusal_runAction_iff`**: the code tells exactly the refused actions.
* **`untouched_of_refusal`**: a row of actions that ends with a refusal leaves the services as the
  actions before it left them.
-/

namespace ChangeRules

/-! ## Faults of sinks -/

/-- What goes wrong comes from outside, and is no error of the engine's own. -/
def Delivery.Foreign : Delivery → Prop
  | .failed f => ∃ kind message, f = .outside kind message
  | _ => True

/-- Whatever goes wrong at a sink comes from outside. -/
def Network.Foreign (n : Network) : Prop := ∀ past r, (n.sinks past r).delivery.Foreign

theorem Network.Foreign.of_sinks {n n' : Network} (h : n.Foreign) (hsinks : n'.sinks = n.sinks) :
    n'.Foreign := by
  unfold Network.Foreign
  rw [hsinks]
  exact h

namespace Script

variable {r : Request} {s : Script}

/-- A request takes a reply out of the script, or the one that needs no script. -/
theorem take_cases (r : Request) (s : Script) :
    ((s.take r).1 = unscripted ∨ ∃ e ∈ s, (s.take r).1 = e.reply) ∧ (s.take r).2 ⊆ s := by
  induction s with
  | nil => exact ⟨Or.inl rfl, List.Subset.refl _⟩
  | cons e es ih =>
    obtain ⟨hreply, hrest⟩ := ih
    unfold take
    split
    · exact ⟨Or.inr ⟨e, List.mem_cons_self, rfl⟩, List.subset_cons_self e es⟩
    · refine ⟨hreply.imp_right fun h => h.imp fun k hk => hk.imp_left (List.mem_cons_of_mem e), ?_⟩
      exact List.cons_subset_cons e hrest

theorem after_subset (s : Script) (sent : List Request) : s.after sent ⊆ s := by
  unfold after
  induction sent generalizing s with
  | nil => exact List.Subset.refl _
  | cons r sent ih => exact List.Subset.trans (ih (s.take r).2) (take_cases r s).2

/-- Sinks that follow a script have no other faults than those in the script. -/
theorem foreign_of_script {n : Network} (hsinks : n.sinks = s.sinks)
    (h : ∀ e ∈ s, e.reply.delivery.Foreign) : n.Foreign := by
  intro past r
  rw [hsinks]
  change ((s.after past).take r).1.delivery.Foreign
  rcases (take_cases r (s.after past)).1 with heq | ⟨e, he, heq⟩
  · rw [heq]
    trivial
  · rw [heq]
    exact h e (after_subset s past he)

end Script

/-! ## Outcomes of services -/

/-- An outcome that is no error of an action. -/
def Outward {α : Type} (outcome : Except Fault α) : Prop :=
  ∀ e, outcome = .error (.error e) → e.kind.isAction = false

namespace Outward

variable {α β : Type} {f : Fault}

theorem ok (a : α) : Outward (.ok a : Except Fault α) := fun _ h => by cases h

theorem of_ne (h : ∀ e, f ≠ .error e) : Outward (.error f : Except Fault α) :=
  fun e heq => absurd (Except.error.inj heq) (h e)

theorem of_kind {e : RuleError} (h : e.kind.isAction = false) :
    Outward (.error (.error e) : Except Fault α) := by
  intro e' heq
  obtain rfl := Fault.error.inj (Except.error.inj heq)
  exact h

/-- A fault that is passed on. -/
theorem error {x : Except Fault α} (hx : Outward x) (hf : x = .error f) :
    Outward (.error f : Except Fault β) := by
  intro e heq
  obtain rfl := Except.error.inj heq
  exact hx e hf

theorem bind {x : Except Fault α} {g : α → Except Fault β} (hx : Outward x)
    (hg : ∀ a, Outward (g a)) : Outward (x >>= g) := by
  cases x with
  | ok a => exact hg a
  | error f => exact hx.error rfl

theorem map {x : Except Fault α} (hx : Outward x) (g : α → β) : Outward (x.map g) := by
  cases x with
  | ok a => exact ok (g a)
  | error f => exact hx.error rfl

end Outward

namespace Client

variable {c : Client} {r : Request} {line : Line}

theorem outward_judge (c : Client) (r : Request) (response : Response) :
    Outward (c.judge r response) := by
  rw [judge_eq]
  split
  · exact .ok _
  · split <;> exact .of_kind rfl

theorem outward_sendOnce {n : Network} (h : n.Foreign) : Outward (c.sendOnce r n).1 := by
  rw [sendOnce_outcome]
  have hforeign := h n.sent r
  cases hdelivery : (n.sinks n.sent r).delivery with
  | answered response => exact outward_judge c r response
  | failed f =>
    rw [hdelivery] at hforeign
    obtain ⟨kind, message, rfl⟩ := hforeign
    exact .of_ne fun _ => Fault.noConfusion
  | unanswered => exact .of_ne fun _ => Fault.noConfusion

theorem outward_attempt (h : line.network.Foreign) : Outward (c.attempt r line).1 := by
  cases hadmits : line.breaker.admits line.network.clock with
  | true =>
    rw [attempt_of_admits hadmits]
    exact outward_sendOnce h
  | false =>
    rw [attempt_of_not_admits hadmits]
    exact .of_ne fun _ => Fault.noConfusion

/-- A job that was tried ends with what came of one of its tries, or because it cannot go on. -/
theorem outward_retry (h : line.network.Foreign) :
    Outward (retry c.retrying (c.attempt r) line).1 := by
  unfold retry
  cases hleft : c.retrying.attempts.toNat with
  | zero => exact .ok none
  | succ left =>
    obtain ⟨failed, last, htried, -, -, hends⟩ := c.retrying.exists_last (c.attempt r) 1 left line
    have hmem : (⟨r, last⟩ : Try) ∈ c.triesOf r line := by
      rw [triesOf, hleft, htried]
      exact List.mem_map_of_mem (List.mem_append_right _ List.mem_cons_self)
    have hlast : last.network.Foreign :=
      h.of_sinks ((Traffic.traffic_request c r line).sinks_of_mem hmem)
    have hattempt := outward_attempt (c := c) (r := r) hlast
    unfold Retrying.Ends at hends
    split at hends
    · rw [hends]
      exact .ok _
    · next f hf =>
      split at hends
      · rcases hends with ⟨-, hends⟩ | ⟨-, flaw, hends⟩ <;> rw [hends] <;>
          exact .of_ne fun _ => Fault.noConfusion
      · rw [hends]
        exact hattempt.error hf

theorem outward_report {f : Fault} (h : Outward (.error f : Except Fault Unit)) :
    Outward (.error (c.report r f) : Except Fault (Option Response)) := by
  unfold report
  dsimp only
  split
  · exact .of_kind rfl
  · exact .of_kind rfl
  · split
    · exact .of_kind rfl
    · exact h.error rfl

/-- **A request ends in no error of an action.** -/
theorem outward_request (line : Line) (h : line.network.Foreign) :
    Outward (c.request r line).1 := by
  have hretry := outward_retry (c := c) (r := r) h
  unfold request
  dsimp only
  cases houtcome : (retry c.retrying (c.attempt r) line).1 with
  | ok response => exact .ok response
  | error f => exact outward_report (hretry.error houtcome)

theorem outward_fields (c : Client) (response : Option Response) : Outward (c.fields response) := by
  unfold fields
  split
  · exact .of_ne fun _ => Fault.noConfusion
  · split
    · exact .ok _
    · split
      · exact .ok _
      · exact .ok _
      · exact .of_kind rfl

end Client

namespace Outlet

variable {r : Request} {o : Outlets}

theorem outward_request (h : o.network.Foreign) (r : Request) (outlet : Outlet) :
    Outward (outlet.request r o).1 := by
  cases outlet with
  | email => exact Client.outward_request ⟨o.network, o.email⟩ h
  | records => exact Client.outward_request ⟨o.network, o.records⟩ h
  | host name =>
    unfold request Outlets.requestHost
    dsimp only
    split
    · exact .of_ne fun _ => Fault.noConfusion
    · exact Client.outward_request (c := Outlets.hookClient) (r := r)
        ⟨o.network, o.hosts.breaker name⟩ h

theorem sinks_request (r : Request) (outlet : Outlet) (o : Outlets) :
    (outlet.request r o).2.network.sinks = o.network.sinks := by
  cases outlet with
  | email => exact (Traffic.traffic_request o.emailClient r ⟨o.network, o.email⟩).sinks
  | records => exact (Traffic.traffic_request o.recordsClient r ⟨o.network, o.records⟩).sinks
  | host name =>
    unfold request Outlets.requestHost
    dsimp only
    split
    · rfl
    · exact (Traffic.traffic_request Outlets.hookClient r ⟨o.network, o.hosts.breaker name⟩).sinks

end Outlet

namespace Outlets

variable {o : Outlets} {answer : Except Fault (Option Response)}

theorem outward_queueId (h : Outward answer) : Outward (o.queueId answer) := by
  refine h.bind fun response => (Client.outward_fields _ response).bind fun fields => ?_
  split
  · exact .of_kind rfl
  · exact .ok _

theorem outward_integerOf (v : Value) : Outward (integerOf v) := by
  unfold integerOf
  split
  · exact .ok _
  · exact .ok _
  · next x =>
    cases x.toInteger with
    | ok n => exact .ok n
    | error flaw => exact .of_ne fun _ => Fault.noConfusion
  · split
    · exact .ok _
    · exact .of_ne fun _ => Fault.noConfusion
    · exact .of_ne fun _ => Fault.noConfusion
  · exact .of_ne fun _ => Fault.noConfusion

theorem outward_affected (h : Outward answer) (table recordId : Value) :
    Outward (o.affected table recordId answer) := by
  refine h.bind fun response => (Client.outward_fields _ response).bind fun fields => ?_
  split
  · exact .of_kind rfl
  · exact outward_integerOf _

theorem outward_newId (h : Outward answer) (table : Value) : Outward (o.newId table answer) := by
  refine h.bind fun response => (Client.outward_fields _ response).bind fun fields => ?_
  split
  · exact .of_kind rfl
  · exact .ok _

theorem outward_statusOf (h : Outward answer) : Outward (statusOf answer) := by
  refine h.bind fun response => ?_
  split
  · exact .ok _
  · exact .of_ne fun _ => Fault.noConfusion

theorem outward_segment (v : Value) : Outward (segment v) := by
  unfold segment
  split
  · exact .ok _
  · exact .of_ne fun _ => Fault.noConfusion

theorem outward_recordsAddress (o : Outlets) (tenant table : Value) :
    Outward (o.recordsAddress tenant table) :=
  (outward_segment tenant).bind fun _ => (outward_segment table).bind fun _ => .ok _

end Outlets

/-! ## Actions without a target -/

namespace Action

variable {c : ActionContext} {o : Outlets}

/-- An email that would go to nobody, or an update of no table or no record. -/
inductive Targetless (c : ActionContext) : Action → Prop
  | nobody {p : EmailParameters} (hnone : p.recipient = none) (hfield : p.recipientField = none) :
      Targetless c (.sendEmail p)
  | email {p : EmailParameters} {field : String} {v : Value} (hnone : p.recipient = none)
      (hfield : p.recipientField = some field) (hv : recordField c.record field = .ok v)
      (hempty : v.isNull = true ∨ Text.trim v.display = "") : Targetless c (.sendEmail p)
  | update {p : UpdateParameters} (h : (nameOr p.table c.table).truthy = false ∨
      (nameOr p.recordId c.recordId).truthy = false) : Targetless c (.updateRecord p)

/-- An errand ends in no error of an action. -/
theorem outward_of_errand (h : o.network.Foreign) {a : Action} {x : Errand}
    (hplan : a.plan c o = .errand x) : Outward (a.perform c o).1 := by
  have hanswer := Outlet.outward_request h x.request x.outlet
  rw [perform_eq_plan, hplan]
  change Outward (x.read (x.outlet.request x.request o).1)
  generalize (x.outlet.request x.request o).1 = answer at hanswer
  have hcreate : ∀ {tenant table fields : Value} {result : String → Value},
      createPlan o tenant table fields result = .errand x → Outward (x.read answer) := by
    intro tenant table fields result hx
    unfold createPlan at hx
    split at hx
    · exact absurd hx (by simp)
    · obtain rfl := Plan.errand.inj hx
      exact (Outlets.outward_newId hanswer table).map result
  cases a with
  | sendEmail p =>
    simp only [plan] at hplan
    split at hplan
    · exact absurd hplan (by simp)
    · obtain rfl := Plan.errand.inj hplan
      exact (Outlets.outward_queueId hanswer).map _
  | updateRecord p =>
    simp only [plan] at hplan
    split at hplan
    · exact absurd hplan (by simp)
    · split at hplan
      · exact absurd hplan (by simp)
      · obtain rfl := Plan.errand.inj hplan
        exact (Outlets.outward_affected hanswer _ _).map _
  | createRecord p => exact hcreate hplan
  | createTask p =>
    simp only [plan] at hplan
    split at hplan
    · exact absurd hplan (by simp)
    · exact hcreate hplan
  | logEvent parameters => exact absurd hplan (by simp [plan])
  | webhook p =>
    simp only [plan] at hplan
    split at hplan
    · exact absurd hplan (by simp)
    · obtain rfl := Plan.errand.inj hplan
      exact (Outlets.outward_statusOf hanswer).map _

theorem outward_recordField (record : Value) (name : String) : Outward (recordField record name) := by
  unfold recordField
  split
  · exact .ok _
  · exact .of_ne fun _ => Fault.noConfusion

theorem outward_resolve_email {p : EmailParameters} (h : ¬ Targetless c (.sendEmail p)) :
    Outward (p.resolve c.record) := by
  unfold EmailParameters.resolve
  split
  · exact .ok _
  · next hnone hfield => exact absurd (.nobody hnone hfield) h
  · next field hnone hfield =>
    cases hv : recordField c.record field with
    | error f => exact (outward_recordField c.record field).error hv
    | ok v =>
      have hsome : ¬ (v.isNull || (Text.trim v.display).isEmpty) = true := by
        intro hempty
        refine h (.email hnone hfield hv ?_)
        simpa using hempty
      change Outward (if _ then _ else _)
      rw [if_neg hsome]
      exact .ok _

theorem outward_updateTarget {p : UpdateParameters} (h : ¬ Targetless c (.updateRecord p)) :
    Outward (updateTarget p c) := by
  have hnamed : ¬ (!(nameOr p.table c.table).truthy || !(nameOr p.recordId c.recordId).truthy) = true := by
    intro hmissing
    refine h (.update ?_)
    simpa using hmissing
  unfold updateTarget
  dsimp only
  rw [if_neg hnamed]
  refine Outward.bind ?_ fun _ => .ok _
  unfold UpdateParameters.resolve
  split
  · exact .ok _
  · dsimp only
    split
    · exact .ok _
    · exact (outward_recordField _ _).bind fun _ => .ok _

theorem outward_resolve_task (p : TaskParameters) (record : Value) : Outward (p.resolve record) := by
  unfold TaskParameters.resolve
  split
  · exact .ok _
  · exact (outward_recordField _ _).bind fun _ => .ok _

/-- An action that has a target, and still is settled at once, ends in no error of an action. -/
theorem outward_of_settled {a : Action} (h : ¬ a.Targetless c) {outcome : Except Fault Value}
    (hplan : a.plan c o = .settled outcome) : Outward outcome := by
  have hcreate : ∀ {tenant table fields : Value} {result : String → Value},
      createPlan o tenant table fields result = .settled outcome → Outward outcome := by
    intro tenant table fields result hsettled
    have haddress := Outlets.outward_recordsAddress o tenant table
    unfold createPlan at hsettled
    split at hsettled
    · next f hf =>
      obtain rfl := Plan.settled.inj hsettled
      exact haddress.error hf
    · exact absurd hsettled (by simp)
  cases a with
  | sendEmail p =>
    have hresolve := outward_resolve_email h
    simp only [plan] at hplan
    split at hplan
    · next f hf =>
      obtain rfl := Plan.settled.inj hplan
      exact hresolve.error hf
    · exact absurd hplan (by simp)
  | updateRecord p =>
    have htarget := outward_updateTarget h
    simp only [plan] at hplan
    split at hplan
    · next f hf =>
      obtain rfl := Plan.settled.inj hplan
      exact htarget.error hf
    · next table recordId fields _ =>
      have haddress := Outlets.outward_recordsAddress o c.tenant table
      split at hplan
      · next f hf =>
        obtain rfl := Plan.settled.inj hplan
        exact haddress.error hf
      · exact absurd hplan (by simp)
  | createRecord p => exact hcreate hplan
  | createTask p =>
    have hresolve := outward_resolve_task p c.record
    simp only [plan] at hplan
    split at hplan
    · next f hf =>
      obtain rfl := Plan.settled.inj hplan
      exact hresolve.error hf
    · exact hcreate hplan
  | logEvent parameters =>
    obtain rfl := Plan.settled.inj hplan
    exact .ok _
  | webhook p =>
    simp only [plan] at hplan
    split at hplan
    · obtain rfl := Plan.settled.inj hplan
      exact .of_ne fun _ => Fault.noConfusion
    · exact absurd hplan (by simp)

theorem perform_of_targetless {a : Action} (h : a.Targetless c) (o : Outlets) :
    ∃ message details, a.perform c o = (invalidAction message details, o) := by
  rw [perform_eq_plan]
  cases h with
  | @nobody p hnone hfield =>
    have hresolve : p.resolve c.record =
        invalidAction "Recipient field None is empty on the record" [("send_to_field", .null)] := by
      unfold EmailParameters.resolve
      rw [hnone, hfield]
    exact ⟨_, _, by simp only [plan, hresolve, invalidAction]; rfl⟩
  | @email p field v hnone hfield hv hempty =>
    have hvoid : (v.isNull || (Text.trim v.display).isEmpty) = true := by simpa using hempty
    have hresolve : p.resolve c.record = invalidAction ("Recipient field " ++ Text.quoted field ++
        " is empty on the record") [("send_to_field", .text field)] := by
      unfold EmailParameters.resolve
      rw [hnone, hfield]
      change (recordField c.record field >>= _) = _
      rw [hv]
      exact if_pos hvoid
    exact ⟨_, _, by simp only [plan, hresolve, invalidAction]; rfl⟩
  | @update p h =>
    have hvoid : (!(nameOr p.table c.table).truthy || !(nameOr p.recordId c.recordId).truthy) = true := by
      simpa using h
    have htarget : updateTarget p c =
        invalidAction "update_record needs a table and record id and the event has none"
          [("table", nameOr p.table c.table), ("record_id", nameOr p.recordId c.recordId)] :=
      if_pos hvoid
    exact ⟨_, _, by simp only [plan, htarget, invalidAction]; rfl⟩

/-- **An action without a target is refused at once**, and any other one ends in no error of an
action. -/
theorem perform_cases (h : o.network.Foreign) (c : ActionContext) (a : Action) :
    (a.Targetless c ∧ ∃ message details, a.perform c o = (invalidAction message details, o)) ∨
      (¬ a.Targetless c ∧ Outward (a.perform c o).1) := by
  by_cases htarget : a.Targetless c
  · exact Or.inl ⟨htarget, perform_of_targetless htarget o⟩
  · refine Or.inr ⟨htarget, ?_⟩
    cases hplan : a.plan c o with
    | settled outcome =>
      rw [perform_eq_plan, hplan]
      exact outward_of_settled htarget hplan
    | errand x => exact outward_of_errand h hplan

end Action

/-! ## Results -/

/-- The code of a refusal. -/
def ActionResult.IsRefusal (r : ActionResult) : Prop :=
  r.error?.map (·.code) = some "ACTION_VALIDATION_ERROR"

instance (r : ActionResult) : Decidable r.IsRefusal := inferInstanceAs (Decidable (_ = _))

/-- An action at a place of a row, with its placeholders filled in. -/
def ActionContext.action (c : ActionContext) (index : Nat) (stored : Value) :
    Except RuleError Action :=
  (Attempt.prepare c .zero index stored).action

/-- An action that is refused: it cannot be read, or it has no target. -/
inductive Refused (c : ActionContext) (index : Nat) (stored : Value) : Prop
  | unreadable {e : RuleError} (h : c.action index stored = .error e)
  | targetless {a : Action} (h : c.action index stored = .ok a) (htarget : a.Targetless c)

section

variable {limit : Number} {c : ActionContext} {index : Nat} {stored : Value} {o : Outlets}

theorem Action.code_of_ofValue {place : Int} {parameters : Fields} {e : RuleError}
    (h : Action.ofValue stored place parameters = .error e) : e.code = "ACTION_VALIDATION_ERROR" := by
  unfold Action.ofValue at h
  dsimp only at h
  split at h
  · split at h
    · exact absurd h (by simp)
    · rw [← Except.error.inj h]
      rfl
  · rw [← Except.error.inj h]
    rfl

/-- The code of a refusal stands for nothing else that an action can come to. -/
theorem Attempt.code_errorOf_ne (limit : Number) (a : Attempt) {f : Fault}
    (h : Outward (.error f : Except Fault Value)) :
    (a.errorOf limit f).code ≠ "ACTION_VALIDATION_ERROR" := by
  have hother : ∀ kind message details, RuleError.actionCode kind ≠ "ACTION_VALIDATION_ERROR" →
      (RuleError.action kind message (some a.index) (some a.type) details).code ≠
        "ACTION_VALIDATION_ERROR" := fun _ _ _ hne => hne
  unfold errorOf
  dsimp only
  split
  · exact hother _ _ _ (by decide)
  · split
    · next e _ =>
      rw [if_neg (by simp [h e rfl])]
      split <;> exact hother _ _ _ (by decide)
    · exact hother _ _ _ (by decide)

theorem outward_withinLimit {outcome : Except Fault Value} (h : Outward outcome) :
    Outward (Fault.withinLimit outcome) := by
  unfold Fault.withinLimit
  split
  · exact .of_ne fun _ => Fault.noConfusion
  · exact h

/-- **The code tells exactly the refused actions.** -/
theorem isRefusal_runAction_iff (limit : Number) (h : o.network.Foreign) :
    (runAction limit c index stored o).1.IsRefusal ↔ Refused c index stored := by
  cases haction : c.action index stored with
  | error e =>
    have hread : (Attempt.prepare c o.network.clock index stored).action = .error e := haction
    have hcode := Action.code_of_ofValue haction
    rw [runAction_of_unread hread]
    exact ⟨fun _ => .unreadable haction, fun _ => congrArg some hcode⟩
  | ok a =>
    have hread : (Attempt.prepare c o.network.clock index stored).action = .ok a := haction
    rw [runAction_of_read hread]
    unfold Attempt.perform
    dsimp only
    rcases a.perform_cases h c with ⟨htarget, message, details, hperform⟩ | ⟨htarget, houtward⟩
    · rw [hperform]
      exact ⟨fun _ => .targetless haction htarget, fun _ => rfl⟩
    · have hlimited := outward_withinLimit houtward
      constructor
      · intro hrefusal
        exfalso
        cases houtcome : Fault.withinLimit (a.perform c o).1 with
        | ok v =>
          rw [houtcome] at hrefusal
          exact absurd hrefusal (by simp [ActionResult.IsRefusal, ActionResult.error?, Attempt.conclude,
            Except.mapError])
        | error f =>
          rw [houtcome] at hrefusal hlimited
          exact Attempt.code_errorOf_ne limit _ hlimited (Option.some.inj hrefusal)
      · rintro (⟨herror⟩ | ⟨hok, hnone⟩)
        · exact absurd (haction.symm.trans herror) (by simp)
        · obtain rfl := Except.ok.inj (haction.symm.trans hok)
          exact absurd hnone htarget

/-- A refused action leaves the services as they are. -/
theorem outlets_of_refused (limit : Number) (h : Refused c index stored) (o : Outlets) :
    (runAction limit c index stored o).2 = o := by
  cases h with
  | unreadable herror =>
    have hread : (Attempt.prepare c o.network.clock index stored).action = .error _ := herror
    rw [runAction_of_unread hread]
  | targetless hok htarget =>
    have hread : (Attempt.prepare c o.network.clock index stored).action = .ok _ := hok
    obtain ⟨message, details, hperform⟩ := Action.perform_of_targetless htarget o
    rw [runAction_of_read hread]
    unfold Attempt.perform
    rw [hperform]

/-- What actions do does not change the sinks. -/
theorem sinks_runAction (limit : Number) (c : ActionContext) (index : Nat) (stored : Value)
    (o : Outlets) : (runAction limit c index stored o).2.network.sinks = o.network.sinks := by
  unfold runAction Attempt.perform
  dsimp only
  split
  · rfl
  · next a _ =>
    dsimp only
    rw [Action.perform_eq_plan]
    cases a.plan c o with
    | settled outcome => rfl
    | errand x => exact Outlet.sinks_request x.request x.outlet o

theorem sinks_dispatchFrom (limit : Number) (c : ActionContext) (index : Nat) (actions : List Value)
    (o : Outlets) : (dispatchFrom limit c index actions o).2.network.sinks = o.network.sinks := by
  induction actions generalizing index o with
  | nil => rfl
  | cons stored rest ih =>
    have hfirst := sinks_runAction limit c index stored o
    cases hsuccess : (runAction limit c index stored o).1.isSuccess with
    | false => rw [dispatchFrom_cons_of_failed hsuccess, hfirst]
    | true => rw [dispatchFrom_cons_of_success hsuccess, ih, hfirst]

/-- **The last result of a row** is that of an action behind others that succeeded. -/
theorem exists_last_dispatchFrom {actions : List Value} {r : ActionResult}
    (h : (dispatchFrom limit c index actions o).1.getLast? = some r) :
    ∃ done stored rest, actions = done ++ stored :: rest ∧
      (dispatchFrom limit c index done o).1 = (dispatchFrom limit c index actions o).1.dropLast ∧
      failure? (dispatchFrom limit c index done o).1 = none ∧
      runAction limit c (index + done.length) stored (dispatchFrom limit c index done o).2 =
        (r, (dispatchFrom limit c index actions o).2) := by
  induction actions generalizing index o with
  | nil => exact absurd h (by simp [dispatchFrom])
  | cons stored rest ih =>
    cases hsuccess : (runAction limit c index stored o).1.isSuccess with
    | false =>
      rw [dispatchFrom_cons_of_failed hsuccess] at h ⊢
      obtain rfl := Option.some.inj h
      exact ⟨[], stored, rest, rfl, rfl, rfl, rfl⟩
    | true =>
      rw [dispatchFrom_cons_of_success hsuccess] at h ⊢
      dsimp only at h ⊢
      cases rest with
      | nil =>
        obtain rfl := Option.some.inj h
        exact ⟨[], stored, [], rfl, rfl, rfl, rfl⟩
      | cons next rest =>
        have hmore : (dispatchFrom limit c (index + 1) (next :: rest)
            (runAction limit c index stored o).2).1 ≠ [] := by
          unfold dispatchFrom
          dsimp only
          split <;> simp
        rw [List.getLast?_cons_of_ne_nil hmore] at h
        obtain ⟨done, stored', rest', hactions, hdone, hnone, hlast⟩ := ih h
        refine ⟨stored :: done, stored', rest', by rw [hactions, List.cons_append], ?_, ?_, ?_⟩
        · rw [dispatchFrom_cons_of_success hsuccess, List.dropLast_cons_of_ne_nil hmore, ← hdone]
        · rw [dispatchFrom_cons_of_success hsuccess]
          simpa [failure?, hsuccess] using hnone
        · rw [dispatchFrom_cons_of_success hsuccess, List.length_cons, ← hlast, Nat.add_right_comm,
            Nat.add_assoc]

end

/-- **A row of actions that ends with a refusal leaves the services as the actions before it left
them.** These all succeeded, and they come to the same without the one that is refused. That one finds
the services in a state and leaves them in it: nothing more was sent or waited for, no time passed, the
breakers are the same, and so is the order of the hosts. It is refused because it cannot be read or has
no target. -/
theorem untouched_of_refusal {limit : Number} {c : ActionContext} {actions : Value} {o o' : Outlets}
    {results : List ActionResult} {r : ActionResult} (hforeign : o.network.Foreign)
    (hrun : dispatch limit c actions o = (.ok results, o')) (hlast : results.getLast? = some r)
    (hrefusal : r.IsRefusal) :
    ∃ done stored rest, storedActions actions = .ok (done ++ stored :: rest) ∧
      dispatch limit c (.list done) o = (.ok results.dropLast, o') ∧
      (∀ s ∈ results.dropLast, s.isSuccess = true) ∧
      r.index = done.length ∧ runAction limit c done.length stored o' = (r, o') ∧
      Refused c done.length stored := by
  unfold dispatch at hrun
  cases hstored : storedActions actions with
  | error f =>
    rw [hstored] at hrun
    exact absurd (congrArg Prod.fst hrun) (by simp)
  | ok stored =>
    rw [hstored] at hrun
    obtain ⟨hresults, rfl⟩ := Prod.mk.inj hrun
    obtain rfl := Except.ok.inj hresults
    obtain ⟨done, action, rest, rfl, hdone, hnone, hact⟩ := exists_last_dispatchFrom hlast
    rw [Nat.zero_add] at hact
    have hbefore : (dispatchFrom limit c 0 done o).2.network.Foreign :=
      hforeign.of_sinks (sinks_dispatchFrom limit c 0 done o)
    have hrefused : Refused c done.length action := by
      refine (isRefusal_runAction_iff limit hbefore).mp ?_
      rw [hact]
      exact hrefusal
    have hsame : (dispatchFrom limit c 0 (done ++ action :: rest) o).2 =
        (dispatchFrom limit c 0 done o).2 := by
      rw [← outlets_of_refused limit hrefused (dispatchFrom limit c 0 done o).2, hact]
    have hplace := (of_runAction limit c done.length action (dispatchFrom limit c 0 done o).2).index
    have hsucceeded :=
      ((dispatched_dispatchFrom limit c 0 done o).failure?_eq_none_iff.mp hnone).2
    rw [hact] at hplace
    rw [hsame] at hact ⊢
    rw [hdone] at hsucceeded
    exact ⟨done, action, rest, rfl, by rw [dispatch_list, hdone], hsucceeded, hplace, hact, hrefused⟩

/-- A request to a host, an email to somebody whom the record does not name, and a request that is
never sent. The first one makes its host the one that was used last; the email changes nothing. -/
theorem untouched_of_refusal_unnamed :
    let hook (address : String) : Value :=
      .object [("type", .text "webhook"), ("parameters", .object [("url", .text address)])]
    let email : Value := .object [("type", .text "send_email"),
      ("parameters", .object [("template_id", .int 5), ("send_to_field", .text "owner")])]
    let actions := [hook "http://a/x", email, hook "http://b/x"]
    let script : Script := [⟨"a/x", ⟨.ofInt 2, .answered ⟨204, ""⟩⟩⟩, ⟨"", ⟨.zero, .unanswered⟩⟩]
    let start := Outlets.start {} { sinks := script.sinks }
    let o : Outlets := { start with
      email := { start.email with state := .opened, failures := 5 }
      hosts := ⟨[("a", { Hosts.fresh "a" with failures := 4 }), ("b", Hosts.fresh "b")]⟩ }
    let run := dispatchFrom (.int 10) .untidy 0 actions o
    run.1.map (·.isSuccess) = [true, false] ∧ run.2.network.sent.map (·.address) = ["http://a/x"] ∧
    run.2.hosts.breakers.map (fun h => (h.1, h.2.failures)) = [("b", 0), ("a", 0)] ∧
    o.network.Foreign ∧ dispatch (.int 10) .untidy (.list actions) o = (.ok run.1, run.2) ∧
    ∃ r, run.1.getLast? = some r ∧ r.IsRefusal ∧
    ∃ done stored rest, storedActions (.list actions) = .ok (done ++ stored :: rest) ∧
      dispatch (.int 10) .untidy (.list done) o = (.ok run.1.dropLast, run.2) ∧
      (∀ s ∈ run.1.dropLast, s.isSuccess = true) ∧ r.index = done.length ∧
      runAction (.int 10) .untidy done.length stored run.2 = (r, run.2) ∧
      Refused .untidy done.length stored := by
  intro hook email actions script start o run
  have hforeign : o.network.Foreign := by
    refine Script.foreign_of_script (s := script) rfl fun e he => ?_
    rcases List.mem_pair.mp he with rfl | rfl <;> trivial
  have hrun := dispatch_list (.int 10) .untidy actions o
  have hcode : run.1.getLast?.map (fun r => decide r.IsRefusal) = some true := by decide +kernel
  obtain ⟨r, hlast, hdecided⟩ := Option.map_eq_some_iff.mp hcode
  have hrefusal : r.IsRefusal := of_decide_eq_true hdecided
  exact ⟨by decide +kernel, by decide +kernel, by decide +kernel, hforeign, hrun, r, hlast, hrefusal,
    untouched_of_refusal hforeign hrun hlast hrefusal⟩

end ChangeRules
