import ChangeRules.Proofs.Action.Errand
import ChangeRules.Proofs.Action.FailFast
import ChangeRules.Proofs.Action.Parameters
import ChangeRules.Sink.Script

/-!
# Requests of actions

Whatever a rule holds as its actions, and whatever the record and the services do, only four kinds of
request go out: an email is queued for the tenant, a record of the tenant is changed or inserted, and
a request goes to an address of the web. Names in them are tidy, and there is always something to
set.

* `Request.WellFormed`: the four kinds.
* **`wellFormed_of_plan`**: an action that is checked has a request of one of them.
* **`wellFormed_of_dispatch`**: so have all requests of a row of actions.
-/

namespace ChangeRules

namespace OutletSettings

/-- The address of a tenant's records of a table. -/
def recordsOf (s : OutletSettings) (tenant table : String) : String :=
  Address.withoutSlashes s.recordsAddress ++ "/tenants/" ++ Address.segment tenant ++ "/tables/" ++
    Address.segment table ++ "/records"

end OutletSettings

/-- A request that an action of a tenant may send. -/
inductive Request.WellFormed (s : OutletSettings) (tenant : String) : Request → Prop
  /-- An email for the tenant is queued. -/
  | email {template recipient : String} (table recordId ruleId : Value)
      (htemplate : Text.IsTidy template) (hrecipient : Text.IsTidy recipient) :
      WellFormed s tenant
        { method := "POST"
          address := Address.withoutSlashes s.emailAddress ++ "/email-queue"
          body := .object [("school_id", .text tenant), ("template_id", .text template),
            ("recipient_email", .text recipient), ("source_table", table),
            ("record_id", recordId), ("rule_id", ruleId)] }
  /-- A record of the tenant is changed. -/
  | update {table recordId : String} {fields : Fields} (htable : table ≠ "")
      (hrecord : recordId ≠ "") (hfields : fields ≠ []) :
      WellFormed s tenant
        { method := "PATCH"
          address := s.recordsOf tenant table ++ "/" ++ Address.segment recordId
          body := .object [("fields", .object fields)] }
  /-- A record of the tenant is inserted. -/
  | insert {table : String} {fields : Fields} (htable : table ≠ "") (hfields : fields ≠ []) :
      WellFormed s tenant
        { method := "POST"
          address := s.recordsOf tenant table
          body := .object [("fields", .object fields)] }
  /-- A request to any address; one that only asks carries no body. -/
  | hook {address : String} (method : Method) (body headers : Value)
      (haddress : Address.IsWeb address) (hbody : method = .get → body = .null) :
      WellFormed s tenant { method := method.name, address, body, headers }

/-! ## What requests are made of -/

theorem exists_of_bind {α β : Type} {x : Except Fault α} {f : α → Except Fault β} {b : β}
    (h : x.bind f = .ok b) : ∃ a, x = .ok a ∧ f a = .ok b := by
  cases x with
  | error fault => exact absurd h (by simp [Except.bind])
  | ok a => exact ⟨a, rfl, h⟩

theorem Fields.set_ne_nil (fields : Fields) (key : String) (v : Value) : fields.set key v ≠ [] := by
  unfold Fields.set
  split
  · next hhas =>
    intro hnil
    rw [List.map_eq_nil_iff.mp hnil] at hhas
    exact Bool.noConfusion hhas
  · exact List.append_ne_nil_of_right_ne_nil _ (List.cons_ne_nil _ _)

/-- A recipient is tidy, wherever it comes from. -/
theorem EmailParameters.Checked.isTidy_resolve {p : EmailParameters} (h : p.Checked) {record : Value}
    {recipient : String} (hr : p.resolve record = .ok recipient) : Text.IsTidy recipient := by
  unfold EmailParameters.resolve at hr
  split at hr
  · next s _ hs =>
    obtain rfl := Except.ok.inj hr
    exact h.recipient _ hs
  · exact absurd hr (by simp [invalidAction])
  · next field _ _ =>
    obtain ⟨v, -, hv⟩ := exists_of_bind hr
    dsimp only at hv
    split at hv
    · exact absurd hv (by simp [invalidAction])
    · next hsome =>
      obtain rfl := Except.ok.inj hv
      refine Text.isTidy_trim fun hempty => hsome ?_
      rw [hempty]
      exact Bool.or_true _

/-- There is something to set. -/
theorem UpdateParameters.Checked.resolve_ne_nil {p : UpdateParameters} (h : p.Checked) {record : Value}
    {fields : Fields} (hr : p.resolve record = .ok fields) : fields ≠ [] := by
  unfold UpdateParameters.resolve at hr
  split at hr
  · next hnone =>
    obtain rfl := Except.ok.inj hr
    rcases h with hfields | hset
    · exact hfields
    · rw [hnone] at hset
      exact absurd hset (by decide)
  · next field _ =>
    dsimp only at hr
    cases hsource : p.source with
    | given =>
      rw [hsource] at hr
      obtain rfl := Except.ok.inj hr
      exact p.fields.set_ne_nil field _
    | sameAs =>
      rw [hsource] at hr
      obtain ⟨v, -, hv⟩ := exists_of_bind hr
      obtain rfl := Except.ok.inj hv
      exact p.fields.set_ne_nil field v

theorem TaskParameters.resolve_ne_nil {p : TaskParameters} {record : Value} {fields : Fields}
    (hr : p.resolve record = .ok fields) : fields ≠ [] := by
  unfold TaskParameters.resolve at hr
  split at hr
  · obtain rfl := Except.ok.inj hr
    exact List.cons_ne_nil _ _
  · obtain ⟨v, -, hv⟩ := exists_of_bind hr
    obtain rfl := Except.ok.inj hv
    exact List.cons_ne_nil _ _

/-- An update has a table, a record and fields to set. -/
theorem updateTarget_eq_ok {p : UpdateParameters} {c : ActionContext} {table recordId : Value}
    {fields : Fields} (h : Action.updateTarget p c = .ok (table, recordId, fields)) :
    table.truthy = true ∧ recordId.truthy = true ∧ p.resolve c.record = .ok fields := by
  unfold Action.updateTarget at h
  dsimp only at h
  split at h
  · exact absurd h (by simp [invalidAction])
  · next hboth =>
    obtain ⟨fields', hfields, heq⟩ := exists_of_bind h
    obtain ⟨rfl, rfl, rfl⟩ : _ ∧ _ ∧ _ := by simpa using heq
    simp only [Bool.or_eq_true, Bool.not_eq_true', not_or, Bool.not_eq_false] at hboth
    exact ⟨hboth.1, hboth.2, hfields⟩

/-- Only texts can name a table. -/
theorem recordsAddress_eq_ok {o : Outlets} {tenant records : String} {table : Value}
    (h : o.recordsAddress (.text tenant) table = .ok records) :
    ∃ name, table = .text name ∧ records = o.settings.recordsOf tenant name := by
  obtain ⟨segment, hsegment, h⟩ := exists_of_bind h
  unfold Outlets.segment at hsegment
  split at hsegment
  · next name =>
    obtain rfl := Except.ok.inj hsegment
    exact ⟨name, rfl, (Except.ok.inj h).symm⟩
  · exact absurd hsegment (by simp)

theorem ne_empty_of_truthy {s : String} (h : (Value.text s).truthy = true) : s ≠ "" :=
  Value.display_ne_empty h

/-! ## Plans -/

variable {c : ActionContext} {o : Outlets} {tenant : String}

theorem wellFormed_of_createPlan {table : String} {fields : Fields} {result : String → Value}
    {x : Errand} (htable : table ≠ "") (hfields : fields ≠ [])
    (h : Action.createPlan o (.text tenant) (.text table) (.object fields) result = .errand x) :
    x.request.WellFormed o.settings tenant := by
  unfold Action.createPlan at h
  split at h
  · exact absurd h (by simp)
  · next records hrecords =>
    obtain ⟨name, hname, rfl⟩ := recordsAddress_eq_ok hrecords
    obtain rfl := Value.text.inj hname
    obtain rfl := Plan.errand.inj h
    exact .insert htable hfields

/-- **An action that is checked has a well-formed request.** -/
theorem wellFormed_of_plan {a : Action} {x : Errand} (ha : a.Checked)
    (ht : c.tenant = .text tenant) (h : a.plan c o = .errand x) :
    x.request.WellFormed o.settings tenant := by
  cases a with
  | sendEmail p =>
    simp only [Action.plan] at h
    split at h
    · exact absurd h (by simp)
    · next recipient hr =>
      obtain rfl := Plan.errand.inj h
      have hform : Request.WellFormed o.settings tenant (o.emailRequest
          ⟨.text tenant, .text p.template, .text recipient, c.table, c.recordId, c.ruleId⟩) :=
        .email _ _ _ ha.template (ha.isTidy_resolve hr)
      rw [← ht] at hform
      exact hform
  | updateRecord p =>
    simp only [Action.plan] at h
    split at h
    · exact absurd h (by simp)
    · next table recordId fields htarget =>
      obtain ⟨htable, hrecord, hfields⟩ := updateTarget_eq_ok htarget
      rw [ht] at h
      split at h
      · exact absurd h (by simp)
      · next records hrecords =>
        obtain ⟨name, rfl, rfl⟩ := recordsAddress_eq_ok hrecords
        obtain rfl := Plan.errand.inj h
        exact .update (ne_empty_of_truthy htable) (Value.display_ne_empty hrecord)
          (UpdateParameters.Checked.resolve_ne_nil ha hfields)
  | createRecord p =>
    simp only [Action.plan, ht] at h
    exact wellFormed_of_createPlan ha.table ha.fields h
  | createTask p =>
    simp only [Action.plan, ht] at h
    split at h
    · exact absurd h (by simp)
    · next fields hr =>
      exact wellFormed_of_createPlan (by decide) (TaskParameters.resolve_ne_nil hr) h
  | logEvent parameters => exact absurd h (by simp [Action.plan])
  | webhook p =>
    simp only [Action.plan] at h
    split at h
    · exact absurd h (by simp)
    · obtain rfl := Plan.errand.inj h
      refine .hook p.method _ _ ha fun hget => ?_
      rw [hget]
      rfl

/-! ## Rows of actions -/

theorem sendsOnly_runAction (limit : Number) (ht : c.tenant = .text tenant) (index : Nat)
    (stored : Value) (o : Outlets) :
    Outlets.SendsOnly (Request.WellFormed o.settings tenant) o
      (runAction limit c index stored o).2 := by
  unfold runAction
  dsimp only
  split
  · exact .refl _ o
  · next action haction =>
    exact .perform fun x hx => wellFormed_of_plan (Action.checked_of_ofValue haction) ht hx

theorem sendsOnly_dispatchFrom (limit : Number) (ht : c.tenant = .text tenant) (index : Nat)
    (actions : List Value) (o : Outlets) :
    Outlets.SendsOnly (Request.WellFormed o.settings tenant) o
      (dispatchFrom limit c index actions o).2 := by
  induction actions generalizing index o with
  | nil => exact .refl _ o
  | cons stored rest ih =>
    have hfirst := sendsOnly_runAction limit ht index stored o
    cases hsuccess : (runAction limit c index stored o).1.isSuccess with
    | false =>
      rw [dispatchFrom_cons_of_failed hsuccess]
      exact hfirst
    | true =>
      rw [dispatchFrom_cons_of_success hsuccess]
      have hrest := ih (index + 1) (runAction limit c index stored o).2
      rw [hfirst.settings] at hrest
      exact hfirst.trans hrest

/-- **All requests of a row of actions are well-formed and for the tenant**, whatever the actions
are, whatever the record holds, and whatever the services and their breakers do. -/
theorem wellFormed_of_dispatch (limit : Number) {c : ActionContext} {tenant : String}
    (ht : c.tenant = .text tenant) (actions : List Value) (o : Outlets) :
    ∃ rs, (dispatch limit c (.list actions) o).2.network.sent = o.network.sent ++ rs ∧
      ∀ r ∈ rs, r.WellFormed o.settings tenant := by
  obtain ⟨rs, hrs, hsent⟩ := (sendsOnly_dispatchFrom limit ht 0 actions o).sent
  rw [dispatch_list]
  exact ⟨rs, hsent, hrs⟩

/-- A record of a tenant with an address that is not tidy. -/
def ActionContext.untidy : ActionContext where
  tenant := .text "t/1"
  table := .text "tasks"
  recordId := .text "7"
  before := .null
  after := .object [("mail", .text " a@b ")]
  ruleId := .text "r1"
  eventId := .text "e1"

/-- An email to that address, and a change of the record. -/
def untidyActions : List Value :=
  [.object [("type", .text "send_email"), ("parameters", .object
      [("template_id", .int 5), ("send_to_field", .text "mail")])],
    .object [("type", .text "update_record"), ("parameters", .object
      [("set_field", .text "seen"), ("value", .bool true)])]]

theorem wellFormed_of_dispatch_untidy :
    let o := Outlets.start {} { sinks := Script.sinks [] }
    let sent := (dispatch (.int 10) .untidy (.list untidyActions) o).2.network.sent
    ActionContext.untidy.tenant = .text "t/1" ∧
    sent.map (·.address) =
      ["http://email/email-queue", "http://data/tenants/t%2F1/tables/tasks/records/7"] ∧
    ∃ rs, sent = [] ++ rs ∧ ∀ r ∈ rs, r.WellFormed {} "t/1" :=
  ⟨rfl, by decide +kernel, wellFormed_of_dispatch (.int 10) rfl untidyActions _⟩

end ChangeRules
