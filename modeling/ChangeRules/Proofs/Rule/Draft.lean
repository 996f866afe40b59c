import ChangeRules.Proofs.Action.Parameters
import ChangeRules.Proofs.Selection
import ChangeRules.Rule.Draft

/-!
# Rules that were accepted

Two readers look at the conditions of a rule: the draft is checked when an editor sends it, and what
was stored of it is read whenever the rule is matched. The first one lets through only what the second
one understands, and the second one finds the conditions that were sent.

* `Value.isJson`: the values that a payload can hold.
* `RuleDraft.SentGroup`: the conditions that a group of a payload holds, said without a reader.
* **`RuleDraft.groupList_eq_ok_iff`**: what the first reader lets through.
* **`RuleDraft.groupsOf_storedGroups`**: what the second one finds in the stored groups.
* **`Rule.IsReadable.onlyMisuse_accepts`**: a rule of the right shape can be judged.
* **`RuleDraft.readable_of_accepted`**: an accepted rule has it, and the conditions that were sent.
-/

namespace ChangeRules

/-! ## JSON -/

namespace Value

mutual

/-- Whether there are neither days nor times inside. -/
def isJson : Value → Bool
  | .date _ => false
  | .time _ => false
  | .list items => areJson items
  | .object fields => fieldsAreJson fields
  | _ => true

def areJson : List Value → Bool
  | [] => true
  | v :: vs => isJson v && areJson vs

def fieldsAreJson : List (String × Value) → Bool
  | [] => true
  | (_, v) :: fs => isJson v && fieldsAreJson fs

end

mutual

/-- JSON without infinities and undefined numbers is stored as it is. -/
theorem jsonForm_of_isJson {v : Value} (h : v.isJson = true) (hfinite : v.isFinite = true) :
    v.jsonForm = v := by
  cases v with
  | double x =>
    rw [isFinite] at hfinite
    rw [jsonForm, if_pos hfinite]
  | date d => simp [isJson] at h
  | time t => simp [isJson] at h
  | list items =>
    rw [isJson] at h
    rw [isFinite] at hfinite
    rw [jsonForm, jsonItems_of_areJson h hfinite]
  | object fields =>
    rw [isJson] at h
    rw [isFinite] at hfinite
    rw [jsonForm, jsonFields_of_fieldsAreJson h hfinite]
  | _ => rw [jsonForm] <;> simp

theorem jsonItems_of_areJson {items : List Value} (h : areJson items = true)
    (hfinite : areFinite items = true) : jsonItems items = items := by
  cases items with
  | nil => rw [jsonItems]
  | cons v vs =>
    rw [areJson, Bool.and_eq_true] at h
    rw [areFinite, Bool.and_eq_true] at hfinite
    rw [jsonItems, jsonForm_of_isJson h.1 hfinite.1, jsonItems_of_areJson h.2 hfinite.2]

theorem jsonFields_of_fieldsAreJson {fields : List (String × Value)}
    (h : fieldsAreJson fields = true) (hfinite : fieldsAreFinite fields = true) :
    jsonFields fields = fields := by
  cases fields with
  | nil => rw [jsonFields]
  | cons f fs =>
    rw [fieldsAreJson, Bool.and_eq_true] at h
    rw [fieldsAreFinite, Bool.and_eq_true] at hfinite
    rw [jsonFields, jsonForm_of_isJson h.1 hfinite.1, jsonFields_of_fieldsAreJson h.2 hfinite.2]

end

theorem isJson_of_mem {items : List Value} {v : Value} (h : (list items).isJson = true)
    (hv : v ∈ items) : v.isJson = true := by
  rw [isJson] at h
  induction items with
  | nil => exact absurd hv List.not_mem_nil
  | cons w ws ih =>
    rw [areJson, Bool.and_eq_true] at h
    rcases List.mem_cons.mp hv with rfl | hv
    · exact h.1
    · exact ih h.2 hv

theorem isJson_of_get? {fields : Fields} {key : String} {v : Value}
    (h : (object fields).isJson = true) (hv : Fields.get? fields key = some v) :
    v.isJson = true := by
  rw [isJson] at h
  unfold Fields.get? at hv
  induction fields with
  | nil => exact absurd hv (by simp)
  | cons f fs ih =>
    rw [fieldsAreJson, Bool.and_eq_true] at h
    rw [List.lookup_cons] at hv
    split at hv
    · rw [← Option.some.inj hv]
      exact h.1
    · exact ih h.2 hv

theorem isJson_get {fields : Fields} (h : (object fields).isJson = true) (key : String) :
    (Value.get fields key).isJson = true := by
  unfold Value.get
  cases hv : Fields.get? fields key with
  | none => rfl
  | some v => exact isJson_of_get? h hv

theorem get_eq_text_iff {fields : Fields} {key s : String} :
    Value.get fields key = .text s ↔ Fields.get? fields key = some (.text s) := by
  unfold Value.get
  cases Fields.get? fields key <;> simp

end Value

/-! ## Fields and lists -/

namespace Check

variable {α : Type} {a : α} {fields : Fields} {name : String} {check : Value → Check α}

theorem required_eq_ok_iff : required fields [name] check = .ok a ↔
    ∃ v, Fields.get? fields name = some v ∧ check v = .ok a := by
  unfold required findField
  cases Fields.get? fields name with
  | none => simp [findField, under, fail]
  | some v => simp [under_eq_ok]

theorem optional_eq_ok_iff {default : α} : optional fields [name] default check = .ok a ↔
    Fields.get? fields name = none ∧ a = default ∨
      ∃ v, Fields.get? fields name = some v ∧ check v = .ok a := by
  unfold optional findField
  cases Fields.get? fields name with
  | none => simp [findField, eq_comm]
  | some v => simp [under_eq_ok]

theorem nonemptyText_eq_ok_iff {v : Value} {s : String} :
    nonemptyText v = .ok s ↔ v = .text s ∧ s ≠ "" := by
  constructor
  · exact nonemptyText_eq_ok
  · rintro ⟨rfl, hs⟩
    simp [nonemptyText, text, bind, Except.bind, hs]

/-- A list passes when all of its items do. -/
theorem items_eq_ok_iff {index : Nat} {vs : List Value} {as : List α} :
    items check index vs = .ok as ↔ List.Forall₂ (fun v a => check v = .ok a) vs as := by
  induction vs generalizing index as with
  | nil => simp [items, eq_comm]
  | cons v vs ih =>
    rw [List.forall₂_cons_left_iff, items]
    constructor
    · intro h
      split at h
      · next a rest hpair =>
        rw [pair_eq_ok, under_eq_ok] at hpair
        exact ⟨a, rest, hpair.1, ih.mp hpair.2, (Except.ok.inj h).symm⟩
      · exact absurd h (by simp)
    · rintro ⟨a, rest, ha, hrest, rfl⟩
      have hpair : pair (under (.item index) (check v)) (items check (index + 1) vs) = .ok (a, rest) :=
        pair_eq_ok.mpr ⟨under_eq_ok.mpr ha, ih.mpr hrest⟩
      rw [hpair]

end Check

/-! ## What is sent -/

namespace RuleDraft

/-- The conditions that are sent of a group: a list of them, bare or under `conditions`, where they may
be left out. -/
inductive SentItems : Value → List Value → Prop
  | bare (items : List Value) : SentItems (.list items) items
  | under {fields : Fields} {items : List Value}
      (h : Fields.get? fields "conditions" = some (.list items)) : SentItems (.object fields) items
  | leftOut {fields : Fields} (h : Fields.get? fields "conditions" = none) :
      SentItems (.object fields) []

/-- A group that is sent holds conditions. -/
def SentGroup (v : Value) (cs : List Condition) : Prop :=
  ∃ items, SentItems v items ∧ List.Forall₂ Condition.Denotes items cs

/-- The groups that a payload holds. -/
def sentGroups : Value → List Value
  | .object fields => Condition.groupsIn (Value.get fields "trigger_conditions")
  | _ => []

theorem optional_value_eq_ok_iff {fields : Fields} {name : String} {v : Value} :
    Check.optional fields [name] .null Except.ok = .ok v ↔ Value.get fields name = v := by
  rw [Check.optional_eq_ok_iff, Value.get]
  cases Fields.get? fields name with
  | none => simp [eq_comm]
  | some w => simp

theorem named_operator_eq_ok_iff {v : Value} {o : Operator} :
    Check.named false (Operator.all.map Operator.name) Operator.ofName? v = .ok o ↔
      v = .text o.name := by
  rw [← Operator.ofValue?_eq_some_iff]
  unfold Check.named
  cases v with
  | text s =>
    simp only [Value.text?, Option.bind_some, Operator.ofValue?]
    cases Operator.ofName? s <;> simp [Check.fail]
  | _ => simp [Value.text?, Operator.ofValue?, Check.fail]

/-- A condition is let through exactly if it denotes one. -/
theorem condition_eq_ok_iff {v : Value} {c : Condition} :
    condition v = .ok c ↔ Condition.Denotes v c := by
  unfold condition Check.model Condition.Denotes
  cases v with
  | object fields =>
    simp only [Check.also_eq_ok, Check.required_eq_ok_iff, optional_value_eq_ok_iff,
      Check.nonemptyText_eq_ok_iff, named_operator_eq_ok_iff, Value.get_eq_text_iff]
    constructor
    · rintro ⟨_, _, ⟨_, _, ⟨_, _, hmk, ⟨_, hfield, rfl, hname⟩, rfl⟩, ⟨_, hoperator, rfl⟩, rfl⟩,
        hvalue, rfl⟩
      obtain rfl := Except.ok.inj hmk
      exact ⟨fields, rfl, hfield, hname, hoperator, hvalue⟩
    · rintro ⟨_, hfields, hfield, hname, hoperator, hvalue⟩
      obtain rfl := Value.object.inj hfields
      exact ⟨_, _, ⟨_, _, ⟨_, _, rfl, ⟨_, hfield, rfl, hname⟩, rfl⟩, ⟨_, hoperator, rfl⟩, rfl⟩,
        hvalue, rfl⟩
  | _ => simp [Check.fail]

/-- A group is let through exactly if it holds conditions, be they bare or not. -/
theorem group_wrapGroup_eq_ok_iff {v : Value} {cs : List Condition} :
    group (wrapGroup v) = .ok cs ↔ SentGroup v cs := by
  have hitems : ∀ w, Check.list condition w = .ok cs ↔
      ∃ items, w = .list items ∧ List.Forall₂ Condition.Denotes items cs := by
    intro w
    cases w with
    | list items =>
      simp only [Check.list, Check.items_eq_ok_iff, condition_eq_ok_iff, Value.list.injEq,
        exists_eq_left']
    | _ => simp [Check.list, Check.fail]
  unfold SentGroup group
  constructor
  · intro h
    cases v with
    | list items =>
      simp only [wrapGroup, Check.model, Check.optional_eq_ok_iff, hitems] at h
      obtain ⟨hnone, -⟩ | ⟨w, hw, items', rfl, hcs⟩ := h
      · exact absurd hnone (by simp [Fields.get?])
      · have hsame : Value.list items = .list items' := by simpa [Fields.get?] using hw
        obtain rfl := Value.list.inj hsame
        exact ⟨items, .bare items, hcs⟩
    | object fields =>
      simp only [wrapGroup, Check.model, Check.optional_eq_ok_iff, hitems] at h
      obtain ⟨hnone, rfl⟩ | ⟨w, hw, items, rfl, hcs⟩ := h
      · exact ⟨[], .leftOut hnone, .nil⟩
      · exact ⟨items, .under hw, hcs⟩
    | _ => exact absurd h (by simp [wrapGroup, Check.model, Check.fail])
  · rintro ⟨items, hsent, hcs⟩
    cases hsent with
    | bare items =>
      simp only [wrapGroup, Check.model, Check.optional_eq_ok_iff, hitems]
      exact .inr ⟨_, by simp [Fields.get?], items, rfl, hcs⟩
    | under h =>
      simp only [wrapGroup, Check.model, Check.optional_eq_ok_iff, hitems]
      exact .inr ⟨_, h, items, rfl, hcs⟩
    | leftOut h =>
      obtain rfl := List.forall₂_nil_left_iff.mp hcs
      simp only [wrapGroup, Check.model, Check.optional_eq_ok_iff]
      exact .inl ⟨h, trivial⟩

/-- Groups are let through exactly if each of them holds conditions. -/
theorem groupList_eq_ok_iff {v : Value} {groups : List (List Condition)} :
    groupList v = .ok groups ↔ ∃ vs, v = .list vs ∧ List.Forall₂ SentGroup vs groups := by
  cases v with
  | list vs =>
    simp only [groupList, Check.list, Check.items_eq_ok_iff, List.forall₂_map_left_iff,
      group_wrapGroup_eq_ok_iff, Value.list.injEq, exists_eq_left']
  | _ => simp [groupList, Check.list, Check.fail]

/-- A table that is named has a name. -/
theorem ne_of_tableName {v : Value} {table : Option String} (h : tableName v = .ok table) :
    table ≠ some "" := by
  unfold tableName at h
  cases hv : Check.nullable Check.text v with
  | error issues =>
    rw [hv] at h
    exact absurd h (by simp [Except.map])
  | ok s =>
    rw [hv] at h
    rintro rfl
    have hkept := Option.filter_eq_some_iff.mp (Except.ok.inj h)
    exact absurd hkept.2 (by simp)

/-- What a draft takes from the payload that it was read from. -/
theorem of_ofValue {payload : Value} {d : RuleDraft} (h : ofValue payload = .ok d) :
    List.Forall₂ SentGroup (sentGroups payload) d.groups ∧ d.triggerTable ≠ some "" := by
  unfold ofValue Check.model ofFields at h
  cases payload with
  | object fields =>
    simp only [Check.also_eq_ok] at h
    -- The fields in their order, from the inside: only the groups and the table matter here.
    obtain ⟨_, _, ⟨_, _, ⟨_, _, ⟨_, groups, ⟨_, table, ⟨_, _, ⟨_, _, ⟨_, _, hmk, -, rfl⟩, -, rfl⟩, -,
      rfl⟩, htable, rfl⟩, hgroups, rfl⟩, -, rfl⟩, -, rfl⟩, -, rfl⟩ := h
    obtain rfl := Except.ok.inj hmk
    constructor
    · rw [Check.optional_eq_ok_iff] at hgroups
      rw [sentGroups, Value.get]
      obtain ⟨hnone, rfl⟩ | ⟨v, hv, hgroups⟩ := hgroups
      · rw [hnone]
        exact .nil
      · obtain ⟨vs, rfl, hsent⟩ := groupList_eq_ok_iff.mp hgroups
        rw [hv]
        exact hsent
    · rw [Check.optional_eq_ok_iff] at htable
      obtain ⟨-, rfl⟩ | ⟨v, -, htable⟩ := htable
      · simp
      · exact ne_of_tableName htable
  | _ => exact absurd h (by simp [Check.fail])

/-! ## What is stored -/

/-- A condition that was stored. -/
def stored (c : Condition) : Condition := { c with value := c.value.jsonForm }

theorem denotes_storedCondition {c : Condition} (h : c.field ≠ "") :
    Condition.Denotes (storedCondition c) (stored c) :=
  ⟨_, rfl, rfl, h, rfl, rfl⟩

theorem denotesGroup_storedGroup {cs : List Condition} (h : ∀ c ∈ cs, c.field ≠ "") :
    Condition.DenotesGroup (storedGroup cs) (cs.map stored) := by
  refine ⟨cs.map storedCondition, .under rfl, ?_⟩
  rw [List.forall₂_map_left_iff, List.forall₂_map_right_iff]
  exact List.forall₂_same.mpr fun c hc => denotes_storedCondition (h c hc)

/-- **Stored groups are found again**, those with conditions. -/
theorem groupsOf_storedGroups {groups : List (List Condition)}
    (h : ∀ cs ∈ groups, ∀ c ∈ cs, c.field ≠ "") :
    Condition.groupsOf (.list (groups.map storedGroup)) =
      .ok ((groups.filter (!·.isEmpty)).map (List.map stored)) := by
  refine Condition.groupsOf_eq_ok_iff.mpr ⟨.inr ⟨_, rfl⟩, groups.map (List.map stored), ?_, ?_⟩
  · rw [Condition.groupsIn, List.forall₂_map_left_iff, List.forall₂_map_right_iff]
    exact List.forall₂_same.mpr fun cs hcs => denotesGroup_storedGroup (h cs hcs)
  · rw [List.filter_map]
    refine congrArg _ (List.filter_congr fun cs _ => ?_)
    simp

/-- A condition is stored as it was sent, but for numbers that JSON does not hold. -/
structure StoredAs (c s : Condition) : Prop where
  field : s.field = c.field
  operator : s.operator = c.operator
  value : c.value.isFinite = true → s.value = c.value

theorem storedAs_stored {c : Condition} (h : c.value.isJson = true) : StoredAs c (stored c) :=
  ⟨rfl, rfl, fun hfinite => Value.jsonForm_of_isJson h hfinite⟩

/-- What is sent in JSON is JSON. -/
theorem isJson_of_sentGroup {v : Value} {cs : List Condition} (hv : v.isJson = true)
    (h : SentGroup v cs) : ∀ c ∈ cs, c.value.isJson = true := by
  obtain ⟨items, hsent, hcs⟩ := h
  have hitems : ∀ w ∈ items, w.isJson = true := by
    intro w hw
    cases hsent with
    | bare => exact Value.isJson_of_mem hv hw
    | under hget => exact Value.isJson_of_mem (Value.isJson_of_get? hv hget) hw
    | leftOut => exact absurd hw List.not_mem_nil
  intro c hc
  obtain ⟨w, hw, hdenotes⟩ := Condition.exists_mem_of_forall₂ hcs.flip hc
  obtain ⟨fields, rfl, -, -, -, hvalue⟩ := hdenotes
  rw [← hvalue]
  exact Value.isJson_get (hitems _ hw) "value"

theorem isJson_of_sentGroups {payload v : Value} (h : payload.isJson = true)
    (hv : v ∈ sentGroups payload) : v.isJson = true := by
  cases payload with
  | object fields =>
    have hgroups := Value.isJson_get h "trigger_conditions"
    rw [sentGroups] at hv
    cases hget : Value.get fields "trigger_conditions" with
    | list groups =>
      rw [hget] at hv hgroups
      exact Value.isJson_of_mem hgroups hv
    | _ =>
      rw [hget] at hv
      exact absurd hv List.not_mem_nil
  | _ => exact absurd hv List.not_mem_nil

end RuleDraft

/-! ## Judging -/

/-- Nothing about the shape of a rule keeps it from being judged: it watches a kind of change, names
a table unless it is for points in time, and has conditions that can be read. -/
structure Rule.IsReadable (r : Rule) : Prop where
  trigger : ∃ t, TriggerType.ofValue? r.triggerType = some t ∧
    (t ≠ .timeBased → r.triggerTable.truthy = true)
  groups : ∃ groups, Condition.groupsOf r.conditions = .ok groups

namespace Rule.IsReadable

variable {r : Rule}

theorem onlyMisuse_conditionsHold (h : r.IsReadable) (event : Event) :
    OnlyMisuse (r.conditionsHold event) := by
  obtain ⟨groups, hgroups⟩ := h.groups
  refine (onlyMisuse_fieldTypesOf r.fieldTypes).bind fun types => ?_
  have hevaluate : OnlyMisuse (evaluate types r.conditions event.conditionRecord) := by
    rw [evaluate, hgroups]
    exact onlyMisuse_evaluateGroups types _ groups
  cases heval : evaluate types r.conditions event.conditionRecord with
  | ok held => exact .ok held
  | error f =>
    obtain ⟨m, rfl⟩ := hevaluate f heval
    exact .error m

theorem onlyMisuse_ofValue (v : Value) : OnlyMisuse (EventOperation.ofValue v) := by
  unfold EventOperation.ofValue
  split
  · split
    · exact .ok _
    · exact .error _
  · exact .error _

/-- **A readable rule can be judged**, but for values that do not support what is asked of them. -/
theorem onlyMisuse_accepts (h : r.IsReadable) (event : Event) : OnlyMisuse (r.accepts event) := by
  obtain ⟨t, ht, htable⟩ := h.trigger
  have htrigger : r.trigger = .ok t := by rw [Rule.trigger, ht]
  have hwatches : ∃ watched, r.watches t event = .ok watched := by
    unfold Rule.watches
    split
    · exact ⟨_, rfl⟩
    · next hrecord =>
      rw [htable hrecord]
      exact ⟨_, rfl⟩
  obtain ⟨watched, hwatched⟩ := hwatches
  unfold Rule.accepts
  split
  · exact .ok false
  · split
    · exact .ok false
    · rw [htrigger]
      refine (onlyMisuse_ofValue event.operation).bind fun operation => ?_
      split
      · exact .ok false
      · rw [hwatched]
        cases watched with
        | true => exact h.onlyMisuse_conditionsHold event
        | false => exact .ok false

end Rule.IsReadable

namespace RuleDraft

variable {payload : Value} {d : RuleDraft} {tenant id : String} {now : DateTime} {r : Rule}

/-- What a rule takes from its draft. -/
theorem of_toRule (h : d.toRule tenant id now = .ok r) :
    (d.triggerType ≠ .timeBased → d.triggerTable ≠ none) ∧
      r.triggerType = .text d.triggerType.name ∧ r.triggerTable = Value.ofText? d.triggerTable ∧
      r.conditions = .list (d.groups.map storedGroup) := by
  unfold toRule at h
  split at h
  · exact absurd h (by simp)
  · next hnamed =>
    rw [← Except.ok.inj h]
    exact ⟨fun hrecord hnone => hnamed ⟨hrecord, hnone⟩, rfl, rfl, rfl⟩

/-- What is sent has the name of a field. -/
theorem field_ne_of_sentGroup {v : Value} {cs : List Condition} (h : SentGroup v cs) :
    ∀ c ∈ cs, c.field ≠ "" := by
  obtain ⟨items, -, hcs⟩ := h
  intro c hc
  obtain ⟨w, -, -, -, -, hfield, -⟩ := Condition.exists_mem_of_forall₂ hcs.flip hc
  exact hfield

theorem groupsOf_of_accepted (hd : ofValue payload = .ok d) (hr : d.toRule tenant id now = .ok r) :
    Condition.groupsOf r.conditions =
      .ok ((d.groups.filter (!·.isEmpty)).map (List.map stored)) := by
  rw [(of_toRule hr).2.2.2]
  refine groupsOf_storedGroups fun cs hcs => ?_
  obtain ⟨v, -, hsent⟩ := Condition.exists_mem_of_forall₂ (of_ofValue hd).1.flip hcs
  exact field_ne_of_sentGroup hsent

theorem isReadable_of_accepted (hd : ofValue payload = .ok d)
    (hr : d.toRule tenant id now = .ok r) : r.IsReadable where
  trigger := by
    obtain ⟨hnamed, htype, htable, -⟩ := of_toRule hr
    refine ⟨d.triggerType, ?_, fun hrecord => ?_⟩
    · rw [htype]
      exact TriggerType.ofName?_name _
    · rw [htable]
      cases hname : d.triggerTable with
      | none => exact absurd hname (hnamed hrecord)
      | some name =>
        have hne : name ≠ "" := fun hempty => (of_ofValue hd).2 (by rw [hname, hempty])
        simpa [Value.ofText?, Value.truthy] using hne
  groups := ⟨_, groupsOf_of_accepted hd hr⟩

/-- **An accepted rule is never malformed.** Whatever JSON an editor sends, once it was accepted and
made a rule, no event meets an error of matching at this rule; and the groups that are read when it is
matched are those that were sent, in their order and without the empty ones, each condition with the
same field and operator, and with the same value unless it holds numbers that JSON does not. -/
theorem readable_of_accepted (hjson : payload.isJson = true) (hd : ofValue payload = .ok d)
    (hr : d.toRule tenant id now = .ok r) :
    (∀ event f, r.accepts event = .error f → ¬ f.IsMatching) ∧
    ∃ sent kept, List.Forall₂ SentGroup (sentGroups payload) sent ∧
      Condition.groupsOf r.conditions = .ok kept ∧
      List.Forall₂ (List.Forall₂ StoredAs) (sent.filter (!·.isEmpty)) kept := by
  have hreadable := isReadable_of_accepted hd hr
  have hsent := (of_ofValue hd).1
  refine ⟨fun event f hf => ?_, d.groups, _, hsent, groupsOf_of_accepted hd hr, ?_⟩
  · obtain ⟨m, rfl⟩ := hreadable.onlyMisuse_accepts event f hf
    rintro ⟨e, he, -⟩
    exact absurd he (by simp)
  · rw [List.forall₂_map_right_iff]
    refine List.forall₂_same.mpr fun cs hcs => ?_
    rw [List.forall₂_map_right_iff]
    refine List.forall₂_same.mpr fun c hc => storedAs_stored ?_
    obtain ⟨v, hv, hgroup⟩ := Condition.exists_mem_of_forall₂ hsent.flip (List.mem_filter.mp hcs).1
    exact isJson_of_sentGroup (isJson_of_sentGroups hjson hv) hgroup c hc

/-- A payload with a bare group, one under its name and an empty one. -/
def mixedPayload : Value :=
  .object [("name", .text "r"), ("trigger_type", .text "record_created"),
    ("trigger_table", .text " tasks "),
    ("trigger_conditions", .list [
      .list [.object [("field", .text "open"), ("operator", .text "equals"), ("value", .bool true)]],
      .object [],
      .object [("conditions", .list [.object [("field", .text "owner"),
        ("operator", .text "is_null")]])]])]

/-- What is read of it. -/
def mixed : RuleDraft where
  name := "r"
  description := none
  triggerType := .recordCreated
  triggerTable := some "tasks"
  groups := [[⟨"open", .equals, .bool true⟩], [], [⟨"owner", .isNull, .null⟩]]
  actions := []
  isActive := true
  fieldTypes := []

theorem readable_of_accepted_mixed :
    mixedPayload.isJson = true ∧ ofValue mixedPayload = .ok mixed ∧
    ∃ r, mixed.toRule "t1" "r1" default = .ok r ∧
      (∀ event f, r.accepts event = .error f → ¬ f.IsMatching) ∧
      ∃ sent kept, List.Forall₂ SentGroup (sentGroups mixedPayload) sent ∧
        Condition.groupsOf r.conditions = .ok kept ∧
        List.Forall₂ (List.Forall₂ StoredAs) (sent.filter (!·.isEmpty)) kept := by
  have hjson : mixedPayload.isJson = true := by decide +kernel
  have hd : ofValue mixedPayload = .ok mixed := by rfl
  exact ⟨hjson, hd, _, rfl, readable_of_accepted hjson hd rfl⟩

end RuleDraft

end ChangeRules
