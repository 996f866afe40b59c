import ChangeRules.Condition.Basic
import Mathlib.Data.List.Forall2

/-!
# The shape of stored conditions

What a stored value has to look like to denote conditions, said without the reader: a value without
groups or a list of groups, each group a list of conditions, bare or under `conditions`, and each
condition an object with a field name and an operator. The reader accepts exactly these values. What
it refuses comes to an error of matching, unless the value that this error shows cannot be written; of
a stored value that can be written as a whole, it always can.

* `Condition.Denotes`, `Condition.Items`: what a stored condition and a stored group denote.
* `Condition.WellShaped`: the stored values that denote groups.
* **`groupsOf_eq_ok_iff`**, **`exists_groupsOf_iff`**: what the reader makes of them.
* **`Flaw.shapeError`**: the errors of all others; `Condition.Legible`: the values whose errors are told.
-/

namespace ChangeRules

namespace Operator

theorem ofName?_eq_some_iff {s : String} {o : Operator} : ofName? s = some o ↔ s = o.name := by
  constructor
  · intro h
    have hname := List.find?_some h
    exact (beq_iff_eq.mp hname).symm
  · rintro rfl
    exact ofName?_name o

theorem ofValue?_eq_some_iff {v : Value} {o : Operator} :
    ofValue? v = some o ↔ v = .text o.name := by
  cases v with
  | text s => simp [ofValue?, ofName?_eq_some_iff]
  | _ => simp [ofValue?]

end Operator

/-- What is wrong with the shape of conditions. The details tell one thing, and never name a rule. -/
def ShapeError (e : RuleError) : Prop :=
  ∃ message key v, key ≠ "rule_id" ∧ e = .matching message [(key, v)]

namespace Condition

/-- Whatever is wrong with stored conditions is told as such an error. -/
theorem Flaw.shapeError (f : Flaw) : ShapeError f.error := by
  cases f <;> exact ⟨_, _, _, by decide, rfl⟩

/-! ## Conditions -/

/-- A stored value denotes a condition: it is an object with the name of a field and of an operator. -/
def Denotes (v : Value) (c : Condition) : Prop :=
  ∃ fields, v = .object fields ∧ Value.get fields "field" = .text c.field ∧ c.field ≠ "" ∧
    Value.get fields "operator" = .text c.operator.name ∧ Value.get fields "value" = c.value

theorem denotes_iff {v : Value} {c : Condition} : Denotes v c ↔ ofValue v = .ok c := by
  constructor
  · rintro ⟨fields, rfl, hfield, hname, hoperator, hvalue⟩
    simp only [ofValue, hfield, hoperator, Operator.ofValue?_eq_some_iff.mpr rfl]
    rw [if_neg (by simpa using hname), hvalue]
  · intro h
    unfold ofValue at h
    split at h
    · next fields =>
      split at h
      · next name hfield =>
        split at h
        · exact absurd h (by simp)
        · next hname =>
          split at h
          · next operator hoperator =>
            rw [Except.ok.injEq] at h
            subst h
            exact ⟨fields, rfl, hfield, by simpa using hname,
              Operator.ofValue?_eq_some_iff.mp hoperator, rfl⟩
          · exact absurd h (by simp)
      · exact absurd h (by simp)
    · exact absurd h (by simp)

theorem listOf_eq_ok_iff {items : List Value} {cs : List Condition} :
    listOf items = .ok cs ↔ List.Forall₂ Denotes items cs := by
  induction items generalizing cs with
  | nil => simp [listOf, eq_comm]
  | cons v vs ih =>
    rw [List.forall₂_cons_left_iff]
    simp only [listOf, bind, Except.bind, denotes_iff, ← ih]
    cases ofValue v with
    | error e => simp
    | ok c => cases listOf vs <;> simp [eq_comm]

/-! ## Groups -/

/-- The stored conditions of a stored group: a list of them or null, bare or under `conditions`. -/
inductive Items : Value → List Value → Prop
  | none : Items .null []
  | bare (items : List Value) : Items (.list items) items
  | noneUnder {fields : Fields} (h : Fields.get? fields "conditions" = some .null) :
      Items (.object fields) []
  | under {fields : Fields} {items : List Value}
      (h : Fields.get? fields "conditions" = some (.list items)) : Items (.object fields) items

theorem items_iff {v : Value} {items : List Value} (index : Nat) :
    Items v items ↔ groupItems index v = .ok items := by
  constructor
  · intro h
    cases h with
    | none => rfl
    | bare => rfl
    | noneUnder h => simp only [groupItems, h]
    | under h => simp only [groupItems, h]
  · intro h
    cases v with
    | null =>
      obtain rfl : [] = items := Except.ok.inj h
      exact .none
    | list vs =>
      obtain rfl : vs = items := Except.ok.inj h
      exact .bare vs
    | object fields =>
      unfold groupItems at h
      dsimp only at h
      cases hc : Fields.get? fields "conditions" with
      | none =>
        rw [hc] at h
        exact absurd h (by simp)
      | some w =>
        rw [hc] at h
        cases w with
        | null =>
          obtain rfl : [] = items := Except.ok.inj h
          exact .noneUnder hc
        | list vs =>
          obtain rfl : vs = items := Except.ok.inj h
          exact .under hc
        | _ => exact absurd h (by simp)
    | _ => exact absurd h (by simp [groupItems])

/-- A group has one list of conditions. -/
theorem Items.unique {v : Value} {items items' : List Value} (h : Items v items)
    (h' : Items v items') : items = items' := by
  rw [items_iff 0] at h h'
  rw [h, Except.ok.injEq] at h'
  exact h'

/-- A stored group denotes conditions. -/
def DenotesGroup (v : Value) (cs : List Condition) : Prop :=
  ∃ items, Items v items ∧ List.Forall₂ Denotes items cs

theorem groupsFrom_eq_ok_iff {vs : List Value} {index : Nat} {groups : List (List Condition)} :
    groupsFrom index vs = .ok groups ↔
      ∃ all, List.Forall₂ DenotesGroup vs all ∧ groups = all.filter (!·.isEmpty) := by
  induction vs generalizing index groups with
  | nil => simp [groupsFrom, eq_comm]
  | cons v vs ih =>
    constructor
    · intro h
      simp only [groupsFrom, bind, Except.bind] at h
      split at h
      · exact absurd h (by simp)
      · next items hitems =>
        split at h
        · exact absurd h (by simp)
        · next group hgroup =>
          split at h
          · exact absurd h (by simp)
          · next rest hrest =>
            obtain ⟨all, hall, rfl⟩ := ih.mp hrest
            rw [Except.ok.injEq] at h
            have hfirst : DenotesGroup v group :=
              ⟨items, (items_iff index).mpr hitems, listOf_eq_ok_iff.mp hgroup⟩
            refine ⟨group :: all, .cons hfirst hall, ?_⟩
            rw [← h, List.filter_cons]
            cases group.isEmpty <;> simp
    · rintro ⟨all, hall, rfl⟩
      cases hall with
      | @cons _ group _ all hfirst hall =>
        obtain ⟨items, hitems, hgroup⟩ := hfirst
        have hrest : groupsFrom (index + 1) vs = .ok (all.filter (!·.isEmpty)) :=
          ih.mpr ⟨all, hall, rfl⟩
        simp only [groupsFrom, bind, Except.bind, (items_iff index).mp hitems,
          listOf_eq_ok_iff.mpr hgroup, hrest, List.filter_cons]
        cases group.isEmpty <;> simp

/-! ## Stored values -/

/-- The stored groups of a stored value. -/
def groupsIn : Value → List Value
  | .list groups => groups
  | _ => []

/-- A stored group has a list of conditions, and each of them denotes one. -/
def WellShapedGroup (g : Value) : Prop :=
  ∃ items, Items g items ∧ ∀ v ∈ items, ∃ c, Denotes v c

/-- A stored value is null or a list of groups, each with conditions. -/
def WellShaped (stored : Value) : Prop :=
  (stored = .null ∨ ∃ groups, stored = .list groups) ∧
    ∀ g ∈ groupsIn stored, WellShapedGroup g

/-- Each value of a row is related to something: so there is a row of what they are related to. -/
theorem exists_forall₂ {α β : Type} {R : α → β → Prop} {as : List α} (h : ∀ a ∈ as, ∃ b, R a b) :
    ∃ bs, List.Forall₂ R as bs := by
  induction as with
  | nil => exact ⟨[], .nil⟩
  | cons a as ih =>
    obtain ⟨b, hb⟩ := h a List.mem_cons_self
    obtain ⟨bs, hbs⟩ := ih fun a' ha' => h a' (List.mem_cons_of_mem a ha')
    exact ⟨b :: bs, .cons hb hbs⟩

theorem exists_mem_of_forall₂ {α β : Type} {R : α → β → Prop} {as : List α} {bs : List β}
    (h : List.Forall₂ R as bs) {a : α} (ha : a ∈ as) : ∃ b ∈ bs, R a b := by
  induction h with
  | nil => exact absurd ha List.not_mem_nil
  | @cons a' b' as bs hab _ ih =>
    rcases List.mem_cons.mp ha with rfl | ha
    · exact ⟨b', List.mem_cons_self, hab⟩
    · obtain ⟨b, hb, hab⟩ := ih ha
      exact ⟨b, List.mem_cons_of_mem b' hb, hab⟩

theorem wellShapedGroup_iff {g : Value} : WellShapedGroup g ↔ ∃ cs, DenotesGroup g cs := by
  constructor
  · rintro ⟨items, hitems, hall⟩
    obtain ⟨cs, hcs⟩ := exists_forall₂ hall
    exact ⟨cs, items, hitems, hcs⟩
  · rintro ⟨cs, items, hitems, hcs⟩
    refine ⟨items, hitems, fun v hv => ?_⟩
    obtain ⟨c, -, hc⟩ := exists_mem_of_forall₂ hcs hv
    exact ⟨c, hc⟩

/-- The reader makes groups of null and of lists of groups, and keeps those with conditions. -/
theorem groupsOf_eq_ok_iff {stored : Value} {groups : List (List Condition)} :
    groupsOf stored = .ok groups ↔
      (stored = .null ∨ ∃ vs, stored = .list vs) ∧ ∃ all,
        List.Forall₂ DenotesGroup (groupsIn stored) all ∧ groups = all.filter (!·.isEmpty) := by
  cases stored with
  | null => simp [groupsOf, groupsIn, eq_comm]
  | list vs => simp [groupsOf, groupsIn, groupsFrom_eq_ok_iff]
  | _ => simp [groupsOf]

theorem exists_groupsOf_iff {stored : Value} :
    (∃ groups, groupsOf stored = .ok groups) ↔ WellShaped stored := by
  constructor
  · rintro ⟨groups, h⟩
    obtain ⟨hstored, all, hall, -⟩ := groupsOf_eq_ok_iff.mp h
    refine ⟨hstored, fun g hg => wellShapedGroup_iff.mpr ?_⟩
    obtain ⟨cs, -, hcs⟩ := exists_mem_of_forall₂ hall hg
    exact ⟨cs, hcs⟩
  · rintro ⟨hstored, hgroups⟩
    obtain ⟨all, hall⟩ := exists_forall₂ fun g hg => wellShapedGroup_iff.mp (hgroups g hg)
    exact ⟨_, groupsOf_eq_ok_iff.mpr ⟨hstored, all, hall, rfl⟩⟩

/-! ## Errors that can be told -/

/-- A flaw is told if it is one of a condition that can be written. -/
theorem isTellable_of_ofValue {v : Value} {f : Flaw} (h : ofValue v = .error f)
    (hv : v.isWritable = true) : f.isTellable = true := by
  unfold ofValue at h
  split at h
  · next fields =>
    split at h
    · split at h
      · obtain rfl := Except.error.inj h
        rfl
      · split at h
        · exact absurd h (by simp)
        · obtain rfl := Except.error.inj h
          exact Value.isWritable_get hv "operator"
    · obtain rfl := Except.error.inj h
      rfl
  · obtain rfl := Except.error.inj h
    exact hv

theorem isTellable_of_listOf {items : List Value} {f : Flaw} (h : listOf items = .error f)
    (hitems : ∀ v ∈ items, v.isWritable = true) : f.isTellable = true := by
  induction items with
  | nil => exact absurd h (by simp [listOf])
  | cons v vs ih =>
    obtain ⟨hv, hvs⟩ := List.forall_mem_cons.mp hitems
    simp only [listOf, bind, Except.bind] at h
    split at h
    · next f' hread =>
      obtain rfl := Except.error.inj h
      exact isTellable_of_ofValue hread hv
    · split at h
      · next f' hrest =>
        obtain rfl := Except.error.inj h
        exact ih hrest hvs
      · exact absurd h (by simp)

/-- What is wrong with the shape of a group is told by its place. -/
theorem isTellable_of_groupItems {v : Value} {index : Nat} {f : Flaw}
    (h : groupItems index v = .error f) : f.isTellable = true := by
  have hplace : f = .noConditions index ∨ f = .noList index := by
    unfold groupItems at h
    grind
  rcases hplace with rfl | rfl <;> rfl

theorem isTellable_of_groupsFrom {vs : List Value} {index : Nat} {f : Flaw}
    (h : groupsFrom index vs = .error f)
    (hvs : ∀ g ∈ vs, ∀ items, Items g items → ∀ v ∈ items, v.isWritable = true) :
    f.isTellable = true := by
  induction vs generalizing index with
  | nil => exact absurd h (by simp [groupsFrom])
  | cons g vs ih =>
    obtain ⟨hg, hvs⟩ := List.forall_mem_cons.mp hvs
    simp only [groupsFrom, bind, Except.bind] at h
    split at h
    · next f' hitems =>
      obtain rfl := Except.error.inj h
      exact isTellable_of_groupItems hitems
    · next items hitems =>
      split at h
      · next f' hgroup =>
        obtain rfl := Except.error.inj h
        exact isTellable_of_listOf hgroup (hg items ((items_iff index).mpr hitems))
      · split at h
        · next f' hrest =>
          obtain rfl := Except.error.inj h
          exact ih hrest hvs
        · exact absurd h (by simp)

/-- What an error could have to show of a stored value can be written: its stored conditions, or all of
it if it is no list. -/
def Legible : Value → Prop
  | .list groups => ∀ g ∈ groups, ∀ items, Items g items → ∀ v ∈ items, v.isWritable = true
  | v => v.isWritable = true

/-- **What is wrong with a legible value is always told.** -/
theorem Legible.isTellable {stored : Value} {f : Flaw} (hstored : Legible stored)
    (h : groupsOf stored = .error f) : f.isTellable = true := by
  cases stored with
  | null => exact absurd h (by simp [groupsOf])
  | list vs => exact isTellable_of_groupsFrom h hstored
  | _ =>
    obtain rfl := Except.error.inj h
    exact hstored

/-- The stored conditions of a group can be written if the group can. -/
theorem Items.isWritable {g : Value} {items : List Value} (h : Items g items)
    (hg : g.isWritable = true) : ∀ v ∈ items, v.isWritable = true := by
  cases h with
  | none => simp
  | bare => rwa [Value.isWritable, Value.areWritable_iff] at hg
  | noneUnder => simp
  | under h =>
    have hlist := Value.isWritable_get hg "conditions"
    rwa [Value.get, h, Option.getD_some, Value.isWritable, Value.areWritable_iff] at hlist

theorem legible_of_isWritable {stored : Value} (h : stored.isWritable = true) : Legible stored := by
  cases stored with
  | list vs =>
    rw [Value.isWritable, Value.areWritable_iff] at h
    exact fun g hg items hitems => hitems.isWritable (h g hg)
  | _ => exact h

end Condition

end ChangeRules
