import ChangeRules.Proofs.Engine.Aftermath

/-!
# Rules among others

A rule that cannot be judged, and one whose actions fail, time out or make no sense, keeps no other
rule from firing: each match has its log, its note and its report. One thing is not contained: the
actions of a rule are counted before they are run, and where they cannot be counted the whole event
fails, although everything that could fire did (side by side) or could have (in turn).

* `Engine.FiresAll`: every match fires, however the firings interleave.
* **`firesAll_iff`**: this is so exactly where the actions of every match can be counted.
* **`isolation_of_countable`**, **`firesAll_of_lists`**: what an event comes to in general, and where
  the actions of all rules are lists.
-/

namespace ChangeRules

/-- Whether actions can be counted: they are a list, an object or a text, or count as false. -/
def Value.isCountable (v : Value) : Bool :=
  match v with
  | .list _ | .object _ | .text _ => true
  | v => !v.truthy

theorem toBool_storedActions (v : Value) : (storedActions v).toBool = v.isCountable := by
  unfold storedActions Value.isCountable
  cases h : v.truthy <;> cases v <;> simp_all [Except.toBool, Value.truthy]

/-- A match cannot fire exactly if its rule was judged and has actions that cannot be counted. -/
theorem RuleMatch.isFireable_eq (m : RuleMatch) :
    m.isFireable = (m.error.isSome || m.rule.actions.isCountable) := by
  unfold isFireable
  rw [toBool_storedActions]

/-- However the firings of an event interleave, every match fires, and the event comes to their
reports. -/
def Engine.FiresAll (e : Engine) (event : Event) (start : World) : Prop :=
  e.Guarantees event start fun outcome w =>
    ∃ fired, fired.map Fired.found = start.found event ∧ Aftermath e start event fired w ∧
      outcome = .ok ⟨event.id, event.tenant,
        (start.rules.active event.tenant event.table).length, fired.map Fired.report⟩

section

variable {e : Engine} {event : Event} {start : World}

/-- **Every match fires exactly where every match can.** -/
theorem firesAll_iff (hv : event.Valid) (hw : start.AtRest) :
    e.FiresAll event start ↔ ∀ m ∈ start.found event, m.isFireable = true := by
  constructor
  · intro h m hm
    obtain ⟨r, hrun, ho⟩ := Engine.over_process (e := e) hv hw.keyed hw.idle
    obtain ⟨_, -, -, houtcome⟩ := aftermath_of_run hv hw hrun ho
    obtain ⟨_, -, -, hok⟩ := h.process
    cases hnone : (start.found event).find? (!·.isFireable) with
    | none => simpa using List.find?_eq_none.mp hnone m hm
    | some k =>
      rw [hnone, hok] at houtcome
      exact absurd houtcome (by simp)
  · intro hall
    refine Engine.guarantees_of_runs hv hw fun r w outcome hrun ho => ?_
    obtain ⟨fired, hfound, hafter, houtcome⟩ := aftermath_of_run hv hw hrun ho
    have hnone : (start.found event).find? (!·.isFireable) = none :=
      List.find?_eq_none.mpr fun m hm => by simp [hall m hm]
    rw [Engine.fired_of_fireable hall] at hfound
    rw [hnone] at houtcome
    exact ⟨fired, hfound, hafter, houtcome⟩

/-! ## Malformed rules -/

/-- **What becomes of an event whose rules may be malformed.** Every match fires exactly where the
actions of every rule that was judged can be counted. Otherwise the event fails for the first match
whose actions cannot; side by side all the others fired, and in turn those before it did. -/
theorem isolation_of_countable (hv : event.Valid) (hw : start.AtRest) :
    (e.FiresAll event start ↔
      ∀ m ∈ start.found event, m.error = none → m.rule.actions.isCountable = true) ∧
    e.Guarantees event start fun outcome w =>
      ∃ fired, fired.map Fired.found = e.fired (start.found event) ∧
        Aftermath e start event fired w ∧
        outcome = match (start.found event).find? (!·.isFireable) with
          | none => .ok ⟨event.id, event.tenant,
              (start.rules.active event.tenant event.table).length, fired.map Fired.report⟩
          | some m => .error m.refusal := by
  refine ⟨(firesAll_iff hv hw).trans (forall₂_congr fun m _ => ?_),
    Engine.guarantees_of_runs hv hw fun r w outcome hrun ho => aftermath_of_run hv hw hrun ho⟩
  rw [m.isFireable_eq, Bool.or_eq_true]
  cases m.error <;> simp

/-- A store with a rule whose actions are a number beside a rule that has no actions. -/
def malformedRules : Rules := [.plain "bad" (.int 5), .plain "good" (.list [])]

theorem atRest_malformedRules : (World.plain malformedRules).AtRest where
  reliable := World.reliable_plain _
  keyed := Rules.Keyed.of_texts (by simp [World.plain, malformedRules, Rule.plain])
    (by simp [World.plain, malformedRules, Rule.plain])
  idle := rfl

theorem isolation_of_countable_malformedRules :
    Event.plain.Valid ∧ (World.plain malformedRules).AtRest ∧
      (({} : Engine).FiresAll .plain (World.plain malformedRules) ↔
        ∀ m ∈ (World.plain malformedRules).found .plain,
          m.error = none → m.rule.actions.isCountable = true) :=
  ⟨Event.valid_plain, atRest_malformedRules,
    (isolation_of_countable Event.valid_plain atRest_malformedRules).1⟩

/-- A rule whose actions are a number makes the whole event fail. -/
theorem not_firesAll_malformedRules :
    Event.plain.Valid ∧ (World.plain malformedRules).AtRest ∧
      (World.plain malformedRules).rules.length = 2 ∧
      ¬ ({} : Engine).FiresAll .plain (World.plain malformedRules) ∧
      (({} : Engine).process .plain (World.plain malformedRules)).1 =
        .error (.misuse (.noLength "int")) := by
  have hbad : ⟨.plain "bad" (.int 5), none⟩ ∈ (World.plain malformedRules).found .plain :=
    mem_found_plain List.mem_cons_self
  refine ⟨Event.valid_plain, atRest_malformedRules, rfl, fun h => ?_, ?_⟩
  · exact absurd ((firesAll_iff Event.valid_plain atRest_malformedRules).mp h _ hbad) (by decide)
  · obtain ⟨r, hrun, ho⟩ := Engine.over_process (e := {}) Event.valid_plain
      atRest_malformedRules.keyed atRest_malformedRules.idle
    obtain ⟨_, -, -, houtcome⟩ := aftermath_of_run Event.valid_plain atRest_malformedRules hrun ho
    rw [houtcome]
    cases hfind : ((World.plain malformedRules).found .plain).find? (!·.isFireable) with
    | none => exact absurd (List.find?_eq_none.mp hfind _ hbad) (by decide)
    | some m =>
      -- Of the two rules, only the one with the number cannot fire.
      have hm := World.mem_rules_of_mem_found (List.mem_of_find?_eq_some hfind)
      have hrefused := List.find?_some hfind
      rw [m.isFireable_eq] at hrefused
      rcases List.mem_pair.mp hm with hm | hm
      · simp only [RuleMatch.refusal, hm]
        rfl
      · rw [hm] at hrefused
        exact absurd hrefused (by simp [Rule.plain, Value.isCountable])

/-! ## Rules whose actions are lists -/

/-- **One log a firing**: where the actions of every rule are a list, every match fires. -/
theorem firesAll_of_lists (hv : event.Valid) (hw : start.AtRest)
    (hlists : ∀ r ∈ start.rules, ∃ vs, r.actions = .list vs) : e.FiresAll event start := by
  refine (firesAll_iff hv hw).mpr fun m hm => ?_
  obtain ⟨vs, hvs⟩ := hlists m.rule (World.mem_rules_of_mem_found hm)
  rw [m.isFireable_eq, hvs]
  exact Bool.or_true _

/-- A store with a rule that cannot be judged beside one that fires. -/
def unjudgedRules : Rules :=
  [{ Rule.plain "odd" (.list []) with conditions := .int 1 }, .plain "good" (.list [])]

theorem firesAll_of_lists_unjudgedRules :
    Event.plain.Valid ∧ (World.plain unjudgedRules).AtRest ∧
      (∀ r ∈ unjudgedRules, ∃ vs, r.actions = .list vs) ∧
      (∀ r ∈ unjudgedRules, (judge .plain r).isSome = true) ∧
      ({} : Engine).FiresAll .plain (World.plain unjudgedRules) := by
  have hrest : (World.plain unjudgedRules).AtRest :=
    ⟨World.reliable_plain _, Rules.Keyed.of_texts
      (by simp [World.plain, unjudgedRules, Rule.plain])
      (by simp [World.plain, unjudgedRules, Rule.plain]), rfl⟩
  have hlists : ∀ r ∈ unjudgedRules, ∃ vs, r.actions = .list vs := by
    simp [unjudgedRules, Rule.plain]
  exact ⟨Event.valid_plain, hrest, hlists, by decide,
    firesAll_of_lists Event.valid_plain hrest hlists⟩

end

end ChangeRules
