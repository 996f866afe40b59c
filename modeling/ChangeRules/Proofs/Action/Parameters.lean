import ChangeRules.Action.Spec
import ChangeRules.Proofs.Text.Tidy

/-!
# What checked parameters hold

An action that passed its checks has parameters that requests can be made of: names without blanks
around them, fields to set, an address of the web. Whatever the parameters were before, and however
they were written, nothing else gets through.

* `Action.Checked`: what the checks of an action ensure.
* **`checked_of_ofValue`**: an action that was read off a stored value is checked.
-/

namespace ChangeRules

/-! ## Checks that succeed -/

namespace Check

variable {α : Type} {a : α} {fields : Fields} {names : List String} {check : Value → Check α}

theorem under_eq_ok {s : Step} {c : Check α} : under s c = .ok a ↔ c = .ok a := by
  cases c <;> simp [under]

theorem exists_of_required (h : required fields names check = .ok a) : ∃ v, check v = .ok a := by
  unfold required at h
  split at h
  · next name v _ => exact ⟨v, under_eq_ok.mp h⟩
  · exact absurd (under_eq_ok.mp h) (by simp [fail])

theorem exists_of_optional {default : α} (h : optional fields names default check = .ok a) :
    a = default ∨ ∃ v, check v = .ok a := by
  unfold optional at h
  split at h
  · next name v _ => exact Or.inr ⟨v, under_eq_ok.mp h⟩
  · exact Or.inl (Except.ok.inj h).symm

theorem text_eq_ok {v : Value} {s : String} (h : text v = .ok s) : v = .text s := by
  unfold text at h
  split at h
  · rw [Except.ok.inj h]
  · exact absurd h (by simp [fail])

theorem nonemptyText_eq_ok {v : Value} {s : String} (h : nonemptyText v = .ok s) :
    v = .text s ∧ s ≠ "" := by
  unfold nonemptyText at h
  cases hv : text v with
  | error issues =>
    rw [hv] at h
    exact absurd h (by simp [bind, Except.bind])
  | ok t =>
    rw [hv] at h
    simp only [bind, Except.bind] at h
    split at h
    · exact absurd h (by simp [fail])
    · next hne =>
      obtain rfl := Except.ok.inj h
      exact ⟨text_eq_ok hv, fun hempty => hne (by rw [hempty]; rfl)⟩

theorem exists_of_nullable {v : Value} {b : Option α} (h : nullable check v = .ok b) :
    ∀ a, b = some a → check v = .ok a := by
  rintro a rfl
  unfold nullable at h
  split at h
  · exact absurd (Except.ok.inj h) (by simp)
  · cases hc : check v with
    | error issues =>
      rw [hc] at h
      exact absurd h (by simp [Except.map])
    | ok a' =>
      rw [hc] at h
      rw [Option.some.inj (Except.ok.inj h)]

end Check

namespace Action

open Text

theorem refuseUnless_eq_ok {α : Type} {c : Check α} {refusal : α → Option String} {a : α}
    (h : refuseUnless c refusal = .ok a) : c = .ok a ∧ refusal a = none := by
  unfold refuseUnless at h
  split at h
  · next b =>
    split at h
    · exact absurd h (by simp [Check.fail])
    · next hnone =>
      obtain rfl := Except.ok.inj h
      exact ⟨rfl, hnone⟩
  · exact absurd h (by simp)

/-! ## Tidy texts -/

theorem isTidy_of_tidy {v : Value} {s : String} (h : tidy v = .text s) : IsTidy s := by
  unfold tidy at h
  split at h
  · obtain rfl := Value.text.inj h
    exact isTidy_int _
  · obtain rfl := Value.text.inj h
    exact Double.isTidy_double _
  · next t =>
    dsimp only at h
    split at h
    · exact absurd h (by simp)
    · next hne =>
      obtain rfl := Value.text.inj h
      exact isTidy_trim fun hempty => hne (by rw [hempty]; rfl)
  · next hother => exact absurd h (hother s)

theorem isTidy_of_tidyText {v : Value} {s : String} (h : tidyText v = .ok s) : IsTidy s :=
  isTidy_of_tidy (Check.nonemptyText_eq_ok h).1

theorem isTidy_of_tidyOption {v : Value} {b : Option String} (h : tidyOption v = .ok b) :
    ∀ s, b = some s → IsTidy s := fun s hs =>
  isTidy_of_tidy (Check.text_eq_ok (Check.exists_of_nullable h s hs))

theorem nonemptyObject_eq_ok {v : Value} {fields : Fields} (h : nonemptyObject v = .ok fields) :
    fields ≠ [] := by
  unfold nonemptyObject at h
  cases hv : Check.object v with
  | error issues =>
    rw [hv] at h
    exact absurd h (by simp [bind, Except.bind])
  | ok values =>
    rw [hv] at h
    simp only [bind, Except.bind] at h
    split at h
    · exact absurd h (by simp [Check.fail])
    · next hne =>
      obtain rfl := Except.ok.inj h
      exact fun hnil => hne (by rw [hnil]; rfl)

end Action

/-- An address of the web. -/
def Address.IsWeb (address : String) : Prop :=
  Text.startsWith address "http://" = true ∨ Text.startsWith address "https://" = true

theorem isWeb_of_address {v : Value} {s : String} (h : Action.address v = .ok s) :
    Address.IsWeb s := by
  unfold Action.address at h
  cases hv : Check.nonemptyText v with
  | error issues =>
    rw [hv] at h
    exact absurd h (by simp [bind, Except.bind])
  | ok t =>
    rw [hv] at h
    simp only [bind, Except.bind] at h
    split at h
    · next hweb =>
      obtain rfl := Except.ok.inj h
      exact Bool.or_eq_true_iff.mp hweb
    · exact absurd h (by simp [Check.fail])

/-! ## Actions -/

/-- A template, and an address or a field that holds one. -/
structure EmailParameters.Checked (p : EmailParameters) : Prop where
  template : Text.IsTidy p.template
  recipient : ∀ s, p.recipient = some s → Text.IsTidy s
  source : p.recipient.isSome = true ∨ p.recipientField.isSome = true

/-- Something to set. -/
def UpdateParameters.Checked (p : UpdateParameters) : Prop :=
  p.fields ≠ [] ∨ p.setField.isSome = true

/-- A table, and something to set. -/
structure CreateParameters.Checked (p : CreateParameters) : Prop where
  table : p.table ≠ ""
  fields : p.fields ≠ []

namespace Action

/-- What the checks of an action ensure. -/
def Checked : Action → Prop
  | .sendEmail p => p.Checked
  | .updateRecord p => p.Checked
  | .createRecord p => p.Checked
  | .createTask _ => True
  | .logEvent _ => True
  | .webhook p => Address.IsWeb p.address

theorem checked_email {fields : Fields} {p : EmailParameters} (h : email fields = .ok p) :
    p.Checked := by
  obtain ⟨hmodel, hsource⟩ := refuseUnless_eq_ok h
  obtain ⟨g₂, field, h₂, -, hp⟩ := Check.also_eq_ok.mp hmodel
  obtain ⟨g₁, recipient, h₁, hrecipient, hg₂⟩ := Check.also_eq_ok.mp h₂
  obtain ⟨g₀, template, h₀, htemplate, hg₁⟩ := Check.also_eq_ok.mp h₁
  obtain rfl := Except.ok.inj h₀
  subst hg₁ hg₂ hp
  refine ⟨?_, fun s hs => ?_, ?_⟩
  · obtain ⟨v, hv⟩ := Check.exists_of_required htemplate
    exact isTidy_of_tidyText hv
  · rcases Check.exists_of_optional hrecipient with hnone | ⟨v, hv⟩
    · rw [hnone] at hs
      exact absurd hs (by simp)
    · exact isTidy_of_tidyOption hv s hs
  · cases recipient with
    | some s => exact Or.inl rfl
    | none =>
      cases field with
      | some s => exact Or.inr rfl
      | none => exact absurd hsource (by simp)

theorem checked_update {fields : Fields} {p : UpdateParameters} (h : update fields = .ok p) :
    p.Checked := by
  obtain ⟨-, hchanges⟩ := refuseUnless_eq_ok h
  unfold updateRefusal at hchanges
  split at hchanges
  · exact absurd hchanges (by simp)
  · next hsome =>
    cases hset : p.setField with
    | some field => exact Or.inr (by rw [hset]; rfl)
    | none =>
      refine Or.inl fun hnil => hsome ?_
      rw [hnil, hset]
      rfl

theorem checked_create {fields : Fields} {p : CreateParameters} (h : create fields = .ok p) :
    p.Checked := by
  obtain ⟨g₁, values, h₁, hvalues, hp⟩ := Check.also_eq_ok.mp h
  obtain ⟨g₀, table, h₀, htable, hg₁⟩ := Check.also_eq_ok.mp h₁
  obtain rfl := Except.ok.inj h₀
  subst hg₁ hp
  constructor
  · obtain ⟨v, hv⟩ := Check.exists_of_required htable
    exact (Check.nonemptyText_eq_ok hv).2
  · obtain ⟨v, hv⟩ := Check.exists_of_required hvalues
    exact nonemptyObject_eq_ok hv

theorem checked_webhook {fields : Fields} {p : WebhookParameters}
    (h : webhookParameters fields = .ok p) : Address.IsWeb p.address := by
  obtain ⟨g₃, payload, h₃, -, hp⟩ := Check.also_eq_ok.mp h
  obtain ⟨g₂, headers, h₂, -, hg₃⟩ := Check.also_eq_ok.mp h₃
  obtain ⟨g₁, method, h₁, -, hg₂⟩ := Check.also_eq_ok.mp h₂
  obtain ⟨g₀, address, h₀, haddress, hg₁⟩ := Check.also_eq_ok.mp h₁
  obtain rfl := Except.ok.inj h₀
  subst hg₁ hg₂ hg₃ hp
  obtain ⟨v, hv⟩ := Check.exists_of_required haddress
  exact isWeb_of_address hv

theorem exists_of_map {α β : Type} {c : Check α} {f : α → β} {b : β} (h : c.map f = .ok b) :
    ∃ a, c = .ok a ∧ f a = b := by
  cases c with
  | error issues => exact absurd h (by simp [Except.map])
  | ok a => exact ⟨a, rfl, Except.ok.inj h⟩

theorem checked_ofParameters {kind : ActionType} {fields : Fields} {a : Action}
    (h : ofParameters kind fields = .ok a) : a.Checked := by
  cases kind with
  | sendEmail =>
    obtain ⟨p, hp, rfl⟩ := exists_of_map h
    exact checked_email hp
  | updateRecord =>
    obtain ⟨p, hp, rfl⟩ := exists_of_map h
    exact checked_update hp
  | createRecord =>
    obtain ⟨p, hp, rfl⟩ := exists_of_map h
    exact checked_create hp
  | createTask =>
    obtain ⟨p, -, rfl⟩ := exists_of_map h
    trivial
  | logEvent =>
    obtain rfl := Except.ok.inj h
    trivial
  | webhook =>
    obtain ⟨p, hp, rfl⟩ := exists_of_map h
    exact checked_webhook hp

/-- Whatever an action is read off, its parameters are those of some kind. -/
theorem exists_ofParameters_of_ofValue {stored : Value} {index : Int} {parameters : Fields}
    {a : Action} (h : ofValue stored index parameters = .ok a) :
    ∃ kind, ofParameters kind parameters = .ok a := by
  unfold ofValue at h
  dsimp only at h
  split at h
  · split at h
    · next action haction =>
      obtain rfl := Except.ok.inj h
      unfold ofTyped at haction
      split at haction
      · next kind _ => exact ⟨kind, Check.under_eq_ok.mp (Check.under_eq_ok.mp haction)⟩
      · exact absurd haction (by simp [Check.fail])
    · exact absurd h (by simp)
  · exact absurd h (by simp)

/-- **An action that was read off a stored value is checked.** -/
theorem checked_of_ofValue {stored : Value} {index : Int} {parameters : Fields} {a : Action}
    (h : ofValue stored index parameters = .ok a) : a.Checked := by
  obtain ⟨kind, hkind⟩ := exists_ofParameters_of_ofValue h
  exact checked_ofParameters hkind

end Action

end ChangeRules
