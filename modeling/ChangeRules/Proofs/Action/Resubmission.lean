import ChangeRules.Proofs.Action.Parameters

/-!
# Actions that are read again

The parameters of an action that passed its checks can be shown and stored again, with all that was
left out filled in. What is read off them is the same action: names are tidy already, numbers are
texts, fields go by their first names and methods are in capitals, and nothing that the checks filled
in fails them.

* `Check.SettledBy`: a check lets through again what it let through, in the form that is shown.
* `Action.restored`: an action as a stored value.
* **`Action.parameters_settled`**: the parameters that are shown pass the checks of their kind.
* **`Action.settled_of_ofValue`**: an action that was read is read again off what is shown of it.
-/

namespace ChangeRules

namespace Check

variable {α : Type} {a : α} {fields : Fields} {name : String} {names : List String} {v : Value}
  {check : Value → Check α} {form : α → Value}

/-- What a check lets through, it lets through again in the form that is shown. -/
def SettledBy (check : Value → Check α) (form : α → Value) : Prop :=
  ∀ v a, check v = .ok a → check (form a) = .ok a

/-! ## Fields under their first names -/

theorem required_of_get? (hfield : Fields.get? fields name = some v) (h : check v = .ok a) :
    required fields (name :: names) check = .ok a := by
  unfold required findField
  rw [hfield]
  exact under_eq_ok.mpr h

theorem optional_of_get? {default : α} (hfield : Fields.get? fields name = some v)
    (h : check v = .ok a) : optional fields (name :: names) default check = .ok a := by
  unfold optional findField
  rw [hfield]
  exact under_eq_ok.mpr h

/-- A field that had to be there is there under its first name. -/
theorem SettledBy.required (hcheck : SettledBy check form) {shown : Fields}
    (hshown : Fields.get? shown name = some (form a))
    (h : Check.required fields (name :: names) check = .ok a) :
    Check.required shown (name :: names) check = .ok a := by
  obtain ⟨v, hv⟩ := exists_of_required h
  exact required_of_get? hshown (hcheck v a hv)

/-- A field that could be left out is there under its first name. -/
theorem SettledBy.optional {default : α} (hcheck : SettledBy check form)
    (hdefault : check (form default) = .ok default) {shown : Fields}
    (hshown : Fields.get? shown name = some (form a))
    (h : Check.optional fields (name :: names) default check = .ok a) :
    Check.optional shown (name :: names) default check = .ok a := by
  rcases exists_of_optional h with rfl | ⟨v, hv⟩
  · exact optional_of_get? hshown hdefault
  · exact optional_of_get? hshown (hcheck v a hv)

/-! ## Plain values -/

/-- What is null or checked is shown as null or in the form of the check. -/
theorem SettledBy.nullable (hcheck : SettledBy check form) (hform : ∀ a, form a ≠ .null) :
    SettledBy (Check.nullable check) fun b => (b.map form).getD .null := by
  intro v b h
  cases b with
  | none => rfl
  | some a =>
    have ha := hcheck v a (exists_of_nullable h a rfl)
    show Check.nullable check (form a) = .ok (some a)
    cases hv : form a with
    | null => exact absurd hv (hform a)
    | _ =>
      rw [hv] at ha
      rw [Check.nullable, ha]
      · rfl
      · simp

theorem settledBy_nonemptyText : SettledBy nonemptyText .text := by
  intro v s h
  obtain ⟨rfl, -⟩ := nonemptyText_eq_ok h
  exact h

theorem settledBy_object : SettledBy object .object := fun _ _ _ => rfl

/-- Any value passes as it is. -/
theorem settledBy_ok : SettledBy .ok (id : Value → Value) := fun _ _ _ => rfl

/-! ## Checks of several parts -/

/-- What passed a further check is put together with what had passed. -/
theorem also_ok {β : Type} {c : Check α} {f : Check (α → β)} {g : α → β} (hf : f = .ok g)
    (hc : c = .ok a) : also c f = .ok (g a) :=
  also_eq_ok.mpr ⟨g, a, hf, hc, rfl⟩

end Check

namespace Action

open Check Text

/-! ## Values in parameters -/

/-- Tidying leaves a tidy text as it is. -/
theorem tidy_text {s : String} (h : IsTidy s) : tidy (.text s) = .text s := by
  have hempty : (trim s).isEmpty = false := by
    rw [h.trim_eq]
    exact Bool.eq_false_iff.mpr fun hs => h.ne_empty (String.isEmpty_iff.mp hs)
  unfold tidy
  dsimp only
  rw [hempty, h.trim_eq]
  rfl

theorem settledBy_tidyText : SettledBy tidyText .text := by
  intro v s h
  have hv : tidy v = .text s := (nonemptyText_eq_ok h).1
  unfold tidyText at h ⊢
  rw [tidy_text (isTidy_of_tidy hv), ← hv]
  exact h

theorem settledBy_tidyOption : SettledBy tidyOption Value.ofText? := by
  intro v b h
  cases b with
  | none => rfl
  | some s =>
    show nullable text (tidy (.text s)) = .ok (some s)
    rw [tidy_text (isTidy_of_tidyOption h s rfl)]
    rfl

theorem settledBy_nonemptyObject : SettledBy nonemptyObject .object := by
  intro v fields h
  have hne : fields.isEmpty = false :=
    Bool.eq_false_iff.mpr fun hnil => nonemptyObject_eq_ok h (List.isEmpty_iff.mp hnil)
  show (if fields.isEmpty then Check.fail .emptyObject else Except.ok fields) = .ok fields
  rw [hne]
  rfl

theorem textFields_headerFields (headers : List (String × String)) :
    textFields (headerFields headers) = .ok headers := by
  induction headers with
  | nil => rfl
  | cons header headers ih =>
    show textFields ((header.1, .text header.2) :: headerFields headers) = .ok (header :: headers)
    rw [textFields, ih]
    rfl

theorem settledBy_textObject : SettledBy textObject fun headers => .object (headerFields headers) :=
  fun _ headers _ => textFields_headerFields headers

theorem source_name (s : ValueSource) : source (.text s.name) = .ok s := by
  cases s <;> rfl

theorem method_name (m : Method) : method (.text m.name) = .ok m := by
  cases m <;> rfl

theorem settledBy_address : SettledBy address .text := by
  intro v s h
  have hv : v = .text s := by
    unfold address at h
    cases hs : nonemptyText v with
    | error issues =>
      rw [hs] at h
      exact absurd h (by simp [bind, Except.bind])
    | ok t =>
      rw [hs] at h
      simp only [bind, Except.bind] at h
      split at h
      · obtain rfl := Except.ok.inj h
        exact (nonemptyText_eq_ok hs).1
      · exact absurd h (by simp [Check.fail])
  rw [← hv]
  exact h

/-! ## Parameters of each kind -/

theorem refuseUnless_ok {α : Type} {c : Check α} {refusal : α → Option String} {a : α}
    (hc : c = .ok a) (hrefusal : refusal a = none) : refuseUnless c refusal = .ok a := by
  rw [hc, refuseUnless, hrefusal]

theorem email_settled {fields : Fields} {p : EmailParameters} (h : email fields = .ok p) :
    email (sendEmail p).parameters = .ok p := by
  obtain ⟨hmodel, hsource⟩ := refuseUnless_eq_ok h
  obtain ⟨g₂, field, h₂, hfield, hp⟩ := also_eq_ok.mp hmodel
  obtain ⟨g₁, recipient, h₁, hrecipient, hg₂⟩ := also_eq_ok.mp h₂
  obtain ⟨g₀, template, h₀, htemplate, hg₁⟩ := also_eq_ok.mp h₁
  obtain rfl := Except.ok.inj h₀
  subst hg₁ hg₂ hp
  refine refuseUnless_ok (also_ok (also_ok (also_ok rfl ?_) ?_) ?_) hsource
  · exact settledBy_tidyText.required rfl htemplate
  · exact settledBy_tidyOption.optional rfl rfl hrecipient
  · exact settledBy_tidyOption.optional rfl rfl hfield

theorem update_settled {fields : Fields} {p : UpdateParameters} (h : update fields = .ok p) :
    update (updateRecord p).parameters = .ok p := by
  obtain ⟨hmodel, hchanges⟩ := refuseUnless_eq_ok h
  obtain ⟨g₅, value, h₅, hvalue, hp⟩ := also_eq_ok.mp hmodel
  obtain ⟨g₄, kind, h₄, hkind, hg₅⟩ := also_eq_ok.mp h₅
  obtain ⟨g₃, field, h₃, hfield, hg₄⟩ := also_eq_ok.mp h₄
  obtain ⟨g₂, values, h₂, hvalues, hg₃⟩ := also_eq_ok.mp h₃
  obtain ⟨g₁, recordId, h₁, hrecordId, hg₂⟩ := also_eq_ok.mp h₂
  obtain ⟨g₀, table, h₀, htable, hg₁⟩ := also_eq_ok.mp h₁
  obtain rfl := Except.ok.inj h₀
  subst hg₁ hg₂ hg₃ hg₄ hg₅ hp
  refine refuseUnless_ok
    (also_ok (also_ok (also_ok (also_ok (also_ok (also_ok rfl ?_) ?_) ?_) ?_) ?_) ?_) hchanges
  · exact settledBy_tidyOption.optional rfl rfl htable
  · exact settledBy_tidyOption.optional rfl rfl hrecordId
  · exact settledBy_object.optional rfl rfl hvalues
  · exact settledBy_tidyOption.optional rfl rfl hfield
  · exact optional_of_get? rfl (source_name kind)
  · exact settledBy_ok.optional rfl rfl hvalue

theorem create_settled {fields : Fields} {p : CreateParameters} (h : create fields = .ok p) :
    create (createRecord p).parameters = .ok p := by
  obtain ⟨g₁, values, h₁, hvalues, hp⟩ := also_eq_ok.mp h
  obtain ⟨g₀, table, h₀, htable, hg₁⟩ := also_eq_ok.mp h₁
  obtain rfl := Except.ok.inj h₀
  subst hg₁ hp
  refine also_ok (also_ok rfl ?_) ?_
  · exact settledBy_nonemptyText.required rfl htable
  · exact settledBy_nonemptyObject.required rfl hvalues

theorem task_settled {fields : Fields} {p : TaskParameters} (h : task fields = .ok p) :
    task (createTask p).parameters = .ok p := by
  obtain ⟨g₁, field, h₁, hfield, hp⟩ := also_eq_ok.mp h
  obtain ⟨g₀, title, h₀, htitle, hg₁⟩ := also_eq_ok.mp h₁
  obtain rfl := Except.ok.inj h₀
  subst hg₁ hp
  refine also_ok (also_ok rfl ?_) ?_
  · exact settledBy_tidyText.required rfl htitle
  · exact settledBy_tidyOption.optional rfl rfl hfield

theorem webhook_settled {fields : Fields} {p : WebhookParameters}
    (h : webhookParameters fields = .ok p) :
    webhookParameters (webhook p).parameters = .ok p := by
  obtain ⟨g₃, payload, h₃, hpayload, hp⟩ := also_eq_ok.mp h
  obtain ⟨g₂, headers, h₂, hheaders, hg₃⟩ := also_eq_ok.mp h₃
  obtain ⟨g₁, verb, h₁, -, hg₂⟩ := also_eq_ok.mp h₂
  obtain ⟨g₀, target, h₀, htarget, hg₁⟩ := also_eq_ok.mp h₁
  obtain rfl := Except.ok.inj h₀
  subst hg₁ hg₂ hg₃ hp
  have hobject : SettledBy (nullable object) fun b => (b.map Value.object).getD .null :=
    settledBy_object.nullable fun _ => by simp
  refine also_ok (also_ok (also_ok (also_ok rfl ?_) ?_) ?_) ?_
  · exact settledBy_address.required rfl htarget
  · exact optional_of_get? rfl (method_name verb)
  · exact settledBy_textObject.optional rfl rfl hheaders
  · exact hobject.optional rfl rfl hpayload

/-! ## Actions -/

/-- An action as a stored value: its type, and its parameters with those left out filled in. -/
def restored (a : Action) : Value :=
  .object [("type", .text a.kind.name), ("parameters", .object a.parameters)]

@[simp] theorem storedParameters_restored (a : Action) :
    storedParameters a.restored = a.parameters := rfl

/-- **The parameters that are shown pass the checks of their kind**, and the action is the same. -/
theorem parameters_settled {kind : ActionType} {fields : Fields} {a : Action}
    (h : ofParameters kind fields = .ok a) :
    a.kind = kind ∧ ofParameters kind a.parameters = .ok a := by
  cases kind with
  | sendEmail =>
    obtain ⟨p, hp, rfl⟩ := exists_of_map h
    refine ⟨rfl, ?_⟩
    rw [ofParameters, email_settled hp]
    rfl
  | updateRecord =>
    obtain ⟨p, hp, rfl⟩ := exists_of_map h
    refine ⟨rfl, ?_⟩
    rw [ofParameters, update_settled hp]
    rfl
  | createRecord =>
    obtain ⟨p, hp, rfl⟩ := exists_of_map h
    refine ⟨rfl, ?_⟩
    rw [ofParameters, create_settled hp]
    rfl
  | createTask =>
    obtain ⟨p, hp, rfl⟩ := exists_of_map h
    refine ⟨rfl, ?_⟩
    rw [ofParameters, task_settled hp]
    rfl
  | logEvent =>
    obtain rfl := Except.ok.inj h
    exact ⟨rfl, rfl⟩
  | webhook =>
    obtain ⟨p, hp, rfl⟩ := exists_of_map h
    refine ⟨rfl, ?_⟩
    rw [ofParameters, webhook_settled hp]
    rfl

/-- An action is read off a stored value that names its kind. -/
theorem ofValue_of_ofParameters {kind : ActionType} {parameters : Value} {fields : Fields}
    {a : Action} (h : ofParameters kind fields = .ok a) (index : Int) :
    ofValue (.object [("type", .text kind.name), ("parameters", parameters)]) index fields =
      .ok a := by
  have htype : Value.get [("type", .text kind.name), ("parameters", parameters)] "type" =
      .text kind.name := rfl
  have hkind : (Value.text kind.name).text?.bind ActionType.ofName? = some kind :=
    ActionType.ofName?_name kind
  have htyped : ofTyped (.text kind.name) fields = .ok a := by
    rw [ofTyped, hkind]
    exact under_eq_ok.mpr (under_eq_ok.mpr h)
  unfold ofValue
  dsimp only
  rw [htype, htyped]

/-- **An action that was read, off its own parameters or off others in their place, is read again
off what is shown of it**, at any place in a rule. -/
theorem settled_of_ofValue {stored : Value} {index : Int} {override : Option Fields} {a : Action}
    (h : ofValue stored index (override.getD (storedParameters stored)) = .ok a) (place : Int) :
    ofValue a.restored place (storedParameters a.restored) = .ok a := by
  obtain ⟨kind, hkind⟩ := exists_ofParameters_of_ofValue h
  obtain ⟨rfl, hsettled⟩ := parameters_settled hkind
  rw [storedParameters_restored]
  exact ofValue_of_ofParameters hsettled place

/-- A number for a template, blanks around an address and a field of blanks only: what is shown of
the action has none of them, and is read as the same action. -/
theorem settled_of_ofValue_oddEmail :
    let stored : Value := .object [("type", .text "send_email"),
      ("parameters", .object [("templateId", .int 7), ("to", .text " ann@example.org "),
        ("sendToField", .text " ")])]
    let action : Action := .sendEmail ⟨"7", some "ann@example.org", none⟩
    ofValue stored 0 (storedParameters stored) = .ok action ∧
      ofValue action.restored 4 (storedParameters action.restored) = .ok action := by
  intro stored action
  have h : ofValue stored 0 ((none : Option Fields).getD (storedParameters stored)) = .ok action := rfl
  exact ⟨h, settled_of_ofValue h 4⟩

end Action

end ChangeRules
