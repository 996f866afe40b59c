import ChangeRules.Proofs.Matching

/-!
# The boundary between tenants in the store of rules

The rules of all tenants share one store, and an id stands for one rule whoever it belongs to. A call
names its tenant, and what another tenant gets from the store stays the same, with one exception: a
rule that is saved takes the place of the one with its id, also when that one belongs to another
tenant, who has lost it from then on.

* `RuleCall`: the calls of the store, each with the tenant that it is made for.
* `World.AnswersAlike`: a tenant gets the same from two stores.
* `Rule.IsForeign`: nothing happens to a rule that its tenant could see.
* **`apart_of_call`**: a call changes what another tenant gets exactly if it takes a rule over.
* **`not_apart_taken`**: a rule that is lost so.
-/

namespace ChangeRules

/-! ## Calls -/

/-- What a change makes of the rules, given an id that can be looked up. -/
def Rules.given (id : Value) (change : Rules → Rules) (rules : Rules) : Rules :=
  match checkId id with
  | .ok () => change rules
  | .error _ => rules

/-- A call of the store of rules. -/
inductive RuleCall where
  | listActive (tenant table : Value)
  | list (tenant : Value)
  | get (tenant id : Value)
  | setActive (tenant id active : Value)
  | touch (tenant id : Value) (time : DateTime)
  | save (r : Rule)

namespace RuleCall

/-- The tenant that a call is made for. -/
def tenant : RuleCall → Value
  | .listActive tenant _ | .list tenant | .get tenant _ | .setActive tenant _ _
  | .touch tenant _ _ => tenant
  | .save r => r.tenant

/-- The world behind a call. -/
def run : RuleCall → World → World
  | .listActive tenant table, w => (w.listActive tenant table).2
  | .list tenant, w => (w.listRules tenant).2
  | .get tenant id, w => (w.getRule tenant id).2
  | .setActive tenant id active, w => (w.setActive tenant id active).2
  | .touch tenant id time, w => (w.touchRule tenant id time).2
  | .save r, w => (w.saveRule r).2

/-- What a call makes of the rules. -/
def change : RuleCall → Rules → Rules
  | .listActive _ _ | .list _ | .get _ _ => id
  | .setActive tenant id active => Rules.given id (Rules.setActive tenant id active)
  | .touch tenant id time => Rules.given id (Rules.touch tenant id time)
  | .save r => Rules.given r.id (Rules.save r)

/-- A call saves a rule under an id that a rule of a tenant has. -/
def TakesOver (tenant : String) (rules : Rules) : RuleCall → Prop
  | .save r => Rules.checkId r.id = .ok () ∧
      ∃ s ∈ rules, s.tenant = .text tenant ∧ Rules.hasId r.id s = true
  | _ => False

end RuleCall

/-- A tenant gets the same from the stores of two worlds. -/
structure World.AnswersAlike (tenant : String) (w w' : World) : Prop where
  list : (w'.listRules (.text tenant)).1 = (w.listRules (.text tenant)).1
  active : ∀ table, (w'.listActive (.text tenant) table).1 = (w.listActive (.text tenant) table).1
  get : ∀ id : String,
    (w'.getRule (.text tenant) (.text id)).1 = (w.getRule (.text tenant) (.text id)).1

/-! ## Rules of others -/

/-- A rule became another one, and neither is of a tenant; they have the same id. -/
structure Rule.IsForeign (tenant : String) (r r' : Rule) : Prop where
  before : r.tenant ≠ .text tenant
  behind : r'.tenant ≠ .text tenant
  id : ∀ id : String, r'.id = .text id ↔ r.id = .text id

namespace Rules

variable {tenant : String} {rules rules' : Rules} {r : Rule} {f : Rule → Rule}

/-- A tenant has the same rules in two stores. -/
structure Alike (tenant : String) (rules rules' : Rules) : Prop where
  filter : ∀ p : Rule → Bool, (∀ r, p r = true → r.tenant = .text tenant) →
    rules'.filter p = rules.filter p
  get : ∀ id : String, rules'.get? (.text tenant) (.text id) = rules.get? (.text tenant) (.text id)

theorem Alike.refl (tenant : String) (rules : Rules) : Alike tenant rules rules :=
  ⟨fun _ _ => rfl, fun _ => rfl⟩

theorem hasId_text {id : String} : hasId (.text id) r = true ↔ r.id = .text id := Value.same_text

/-- Nothing but rules of others is changed. -/
theorem alike_map (h : ∀ r ∈ rules, f r = r ∨ r.IsForeign tenant (f r)) :
    Alike tenant rules (rules.map f) where
  filter p hp := by
    induction rules with
    | nil => rfl
    | cons r rules ih =>
      have ih := ih fun s hs => h s (List.mem_cons_of_mem r hs)
      rw [List.map_cons, List.filter_cons, List.filter_cons, ih]
      rcases h r List.mem_cons_self with hsame | hforeign
      · rw [hsame]
      · rw [if_neg fun hr => hforeign.behind (hp _ hr), if_neg fun hr => hforeign.before (hp _ hr)]
  get id := by
    unfold get?
    induction rules with
    | nil => rfl
    | cons r rules ih =>
      have ih := ih fun s hs => h s (List.mem_cons_of_mem r hs)
      rw [List.map_cons, List.find?_cons, List.find?_cons]
      rcases h r List.mem_cons_self with hsame | hforeign
      · rw [hsame]
        cases hasId (.text id) r with
        | true => rfl
        | false => exact ih
      · -- The place of the id is the same, and the tenant has neither of the two rules there.
        have hid : hasId (.text id) (f r) = hasId (.text id) r :=
          Bool.eq_iff_iff.mpr (by rw [hasId_text, hasId_text, hforeign.id])
        rw [hid]
        cases hasId (.text id) r with
        | true => simp [Option.filter, hforeign.before, hforeign.behind]
        | false => exact ih

/-- A new rule of somebody else is not seen. -/
theorem alike_append (h : r.tenant ≠ .text tenant) : Alike tenant rules (rules ++ [r]) where
  filter p hp := by
    rw [List.filter_append, List.filter_cons_of_neg fun hr => h (hp r hr), List.filter_nil,
      List.append_nil]
  get id := by
    unfold get?
    rw [List.find?_append]
    cases rules.find? (hasId (.text id)) with
    | some s => rfl
    | none => cases hr : hasId (.text id) r <;> simp [hr, h]

theorem alike_change {owner id : Value} (howner : owner ≠ .text tenant)
    (hid : ∀ r, (f r).id = r.id) (htenant : ∀ r, (f r).tenant = r.tenant) :
    Alike tenant rules (rules.change owner id f) := by
  refine alike_map fun r _ => ?_
  by_cases hr : isOf owner id r = true
  · rw [if_pos hr]
    have hother : r.tenant ≠ .text tenant := fun heq => howner <| by
      rw [isOf, Bool.and_eq_true, heq, Value.text_same] at hr
      exact hr.2
    exact .inr ⟨hother, by rwa [htenant], by simp [hid]⟩
  · rw [if_neg hr]
    exact .inl rfl

/-- A change that is refused leaves the rules of a tenant alone as well. -/
theorem alike_given {id : Value} {change : Rules → Rules}
    (h : checkId id = .ok () → Alike tenant rules (change rules)) :
    Alike tenant rules (given id change rules) := by
  unfold given
  cases hid : checkId id with
  | ok => exact h hid
  | error f => exact .refl tenant rules

/-- A rule that is saved takes the place of no rule of another tenant. -/
theorem alike_save (htenant : r.tenant ≠ .text tenant)
    (hfree : ∀ s ∈ rules, s.tenant = .text tenant → hasId r.id s = false) :
    Alike tenant rules (rules.save r) := by
  unfold save
  split
  · refine alike_map fun s hs => ?_
    by_cases hid : hasId r.id s = true
    · rw [if_pos hid]
      refine .inr ⟨fun heq => ?_, htenant, fun id => ?_⟩
      · rw [hfree s hs heq] at hid
        exact absurd hid (by simp)
      · constructor
        · intro hr
          rwa [hr, hasId_text] at hid
        · intro hs
          rwa [hasId, hs, Value.text_same] at hid
    · rw [if_neg hid]
      exact .inl rfl
  · exact alike_append htenant

/-- A rule that is saved takes the place of a rule of another tenant, who has it no more. -/
theorem not_mem_ofTenant_save {s : Rule} (htenant : r.tenant ≠ .text tenant)
    (hs : s ∈ rules) (hid : hasId r.id s = true) : s ∉ (rules.save r).ofTenant (.text tenant) := by
  intro hmem
  rw [mem_ofTenant, Value.same_text] at hmem
  obtain ⟨hmem, hown⟩ := hmem
  rw [save, if_pos (List.any_eq_true.mpr ⟨s, hs, hid⟩)] at hmem
  obtain ⟨s', -, hs'⟩ := List.mem_map.mp hmem
  split at hs'
  · rw [hs'] at htenant
    exact htenant hown
  · next hother =>
    rw [hs'] at hother
    exact hother hid

end Rules

/-! ## Calls of others -/

namespace World

variable {w w' : World} {tenant : String}

theorem listRules_of_reliable (h : w.Reliable) (tenant : Value) :
    w.listRules tenant = (.ok (w.rules.ofTenant tenant), w) := call_of_working h.outages h.backend

theorem listActive_of_reliable (h : w.Reliable) (tenant table : Value) :
    w.listActive tenant table = (.ok (w.rules.active tenant table), w) :=
  call_of_working h.outages h.backend

theorem getRule_of_reliable (h : w.Reliable) (tenant id : Value) :
    w.getRule tenant id = ((Rules.checkId id).map fun _ => w.rules.get? tenant id, w) :=
  call_of_working h.outages h.backend

theorem changeRules_of_reliable {α : Type} (h : w.Reliable) (id : Value) (c : StoreCall)
    (change : Rules → Rules) (result : Rules → α) :
    (w.changeRules id c change result).2 = { w with rules := w.rules.given id change } := by
  unfold changeRules Rules.given
  rw [call_of_working h.outages h.backend]
  cases Rules.checkId id <;> rfl

/-- Who has the same rules gets the same. -/
theorem answersAlike_of_alike (h : w.Reliable) (h' : w'.Reliable)
    (halike : w.rules.Alike tenant w'.rules) : w.AnswersAlike tenant w' where
  list := by
    rw [listRules_of_reliable h, listRules_of_reliable h', Rules.ofTenant, Rules.ofTenant,
      halike.filter _ fun r hr => Value.same_text.mp hr]
  active table := by
    rw [listActive_of_reliable h, listActive_of_reliable h', Rules.active, Rules.active,
      halike.filter _ fun r hr => ?_]
    simp only [Bool.and_eq_true, Value.same_text] at hr
    exact hr.1.1
  get id := by
    rw [getRule_of_reliable h, getRule_of_reliable h', halike.get]

end World

namespace RuleCall

variable {call : RuleCall} {w : World} {other : String}

/-- A call changes nothing but the rules. -/
theorem run_eq (h : w.Reliable) (call : RuleCall) :
    call.run w = { w with rules := call.change w.rules } := by
  cases call with
  | listActive tenant table =>
    rw [run, World.listActive_of_reliable h]
    rfl
  | list tenant =>
    rw [run, World.listRules_of_reliable h]
    rfl
  | get tenant id =>
    rw [run, World.getRule_of_reliable h]
    rfl
  | setActive tenant id active => exact World.changeRules_of_reliable h ..
  | touch tenant id time => exact World.changeRules_of_reliable h ..
  | save r => exact World.changeRules_of_reliable h ..

theorem reliable_run (h : w.Reliable) (call : RuleCall) : (call.run w).Reliable := by
  rw [run_eq h]
  exact ⟨h.outages, h.backend⟩

/-- A call that takes nothing over leaves the rules of other tenants alone. -/
theorem alike_change {rules : Rules} (hother : call.tenant ≠ .text other)
    (hfree : ¬ call.TakesOver other rules) : rules.Alike other (call.change rules) := by
  cases call with
  | setActive tenant id active =>
    exact Rules.alike_given fun _ => Rules.alike_change hother (fun _ => rfl) fun _ => rfl
  | touch tenant id time =>
    exact Rules.alike_given fun _ => Rules.alike_change hother (fun _ => rfl) fun _ => rfl
  | save r =>
    refine Rules.alike_given fun hid => Rules.alike_save hother fun s hs hown => ?_
    exact Bool.eq_false_iff.mpr fun hsame => hfree ⟨hid, s, hs, hown, hsame⟩
  | _ => exact .refl other rules

/-- **A call and other tenants.** Whatever the store holds, a call that is made for one tenant leaves
what any other tenant gets from it as it was, unless it saves a rule under the id of one that the
other tenant has; then this one is gone. -/
theorem apart_of_call (h : w.Reliable) (hother : call.tenant ≠ .text other) :
    w.AnswersAlike other (call.run w) ↔ ¬ call.TakesOver other w.rules := by
  constructor
  · intro halike htaken
    cases call with
    | save r =>
      obtain ⟨hid, s, hs, hown, hsame⟩ := htaken
      have hlist := halike.list
      rw [World.listRules_of_reliable h, World.listRules_of_reliable (reliable_run h _), run_eq h,
        change, Rules.given, hid, Except.ok.injEq] at hlist
      refine Rules.not_mem_ofTenant_save hother hs hsame ?_
      rw [hlist, Rules.mem_ofTenant, Value.same_text]
      exact ⟨hs, hown⟩
    | _ => exact htaken
  · intro hfree
    refine World.answersAlike_of_alike h (reliable_run h call) ?_
    rw [run_eq h]
    exact alike_change hother hfree

end RuleCall

/-- A rule of the tenant `t2`. -/
def Rule.elsewhere (id : String) : Rule :=
  { Rule.plain id (.list []) with tenant := .text "t2" }

namespace RuleCall

/-- The rules of another tenant under other ids are none of a call's business. -/
theorem apart_of_call_elsewhere :
    let w := World.plain [.plain "r1" (.list [])]
    let call := save (.elsewhere "r2")
    w.Reliable ∧ call.tenant ≠ .text "t1" ∧ w.AnswersAlike "t1" (call.run w) := by
  have h := World.reliable_plain [.plain "r1" (.list [])]
  have hother : (save (.elsewhere "r2")).tenant ≠ .text "t1" := by
    simp [tenant, Rule.elsewhere, Rule.plain]
  refine ⟨h, hother, (apart_of_call h hother).mpr ?_⟩
  rintro ⟨-, s, hs, -, hsame⟩
  rw [List.mem_singleton.mp hs] at hsame
  exact absurd hsame (by decide)

/-- **A rule that is lost**: a tenant saves a rule, and another tenant one with the same id. -/
theorem not_apart_taken :
    let w := (save (.plain "r1" (.list []))).run (.plain [])
    let call := save (.elsewhere "r1")
    w.Reliable ∧ call.tenant = .text "t2" ∧
      (w.getRule (.text "t1") (.text "r1")).1 = .ok (some (.plain "r1" (.list []))) ∧
      ((call.run w).getRule (.text "t1") (.text "r1")).1 = .ok none ∧
      ¬ w.AnswersAlike "t1" (call.run w) := by
  refine ⟨reliable_run (World.reliable_plain []) _, rfl, rfl, rfl, fun h => ?_⟩
  have hget : (.ok none : Except Fault (Option Rule)) = .ok (some _) := h.get "r1"
  exact absurd (Except.ok.inj hget) (by simp)

end RuleCall

end ChangeRules
