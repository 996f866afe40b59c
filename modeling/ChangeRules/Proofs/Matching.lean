import ChangeRules.Proofs.Engine.Stage
import ChangeRules.Proofs.Store.Keyed

/-!
# What is found for an event

The store lists a tenant's active rules that may concern the table of an event, and the listed ones
are matched with the event. Listing and matching look at the table independently of one another:
matching lets a rule for a point in time watch any table, listing does not.

* `World.found`: what is found for an event.
* **`found_of_run`**: in every run of an event the firings are those of what is found for it.
* `Rule.isHidden`: the rules that listing keeps from an event although they watch it.
* **`candidates_perm`**: the rules that match are those of the whole store that accept the event,
  without the hidden ones.
-/

namespace ChangeRules

/-! ## Rules that are found -/

/-- The rules that match an event or cannot be judged, in firing order. -/
def World.found (w : World) (event : Event) : List RuleMatch :=
  matchRules event (w.rules.active event.tenant event.table)

/-- What is found belongs to the rules that `judge` keeps. -/
theorem map_rule_matchRules (event : Event) (rules : List Rule) :
    (matchRules event rules).map (·.rule) =
      (Rule.inOrder rules).filter fun r => (judge event r).isSome := by
  unfold matchRules
  rw [List.map_filterMap, ← List.filterMap_eq_filter]
  refine List.filterMap_congr fun r _ => ?_
  unfold judge
  cases h : r.accepts event with
  | error f => simp [Option.guard, h]
  | ok accepted => cases accepted <;> simp [Option.guard, h]

/-- What is found is of the rule that was judged. -/
theorem rule_of_judge {event : Event} {r : Rule} {m : RuleMatch} (h : judge event r = some m) :
    m.rule = r := by
  unfold judge at h
  split at h
  · exact (Option.some.inj h) ▸ rfl
  · exact absurd h (by simp)
  · exact (Option.some.inj h) ▸ rfl

theorem judge_of_mem_matchRules {event : Event} {rules : List Rule} {m : RuleMatch}
    (h : m ∈ matchRules event rules) : judge event m.rule = some m := by
  obtain ⟨r, -, hr⟩ := mem_matchRules.mp h
  rwa [rule_of_judge hr]

namespace World

variable {w : World} {event : Event} {m : RuleMatch}

/-- Each rule of the store is found at most once. -/
theorem found_subperm (w : World) (event : Event) :
    ((w.found event).map (·.rule)).Subperm w.rules := by
  unfold found
  rw [map_rule_matchRules]
  refine List.filter_sublist.subperm.trans ?_
  refine (List.mergeSort_perm _ _).subperm.trans ?_
  exact (List.mergeSort_perm _ _).subperm.trans List.filter_sublist.subperm

theorem mem_rules_of_mem_found (h : m ∈ w.found event) : m.rule ∈ w.rules :=
  (found_subperm w event).subset (List.mem_map_of_mem h)

/-- What is found belongs to the tenant that the event names. -/
theorem tenant_of_mem_found_text {s : String} (hs : event.tenant = .text s)
    (h : m ∈ w.found event) : m.rule.tenant = .text s := by
  have hmem : m.rule ∈ w.rules.active event.tenant event.table := by
    have := List.mem_map_of_mem (f := fun m : RuleMatch => m.rule) h
    rw [found, map_rule_matchRules, List.mem_filter, Rule.inOrder, List.mem_mergeSort] at this
    exact this.1
  have htenant := (Rules.mem_active.mp hmem).2.1
  rwa [hs, Value.same_text] at htenant

/-- What is found belongs to the tenant of the event. -/
theorem tenant_of_mem_found (hv : event.Valid) (h : m ∈ w.found event) :
    m.rule.tenant = event.tenant := by
  obtain ⟨s, hs⟩ := hv.tenant
  rw [tenant_of_mem_found_text hs h, hs]

/-- No two rules that are found have the same id. -/
theorem apart_found (hk : w.rules.Keyed) (event : Event) :
    (w.found event).Pairwise fun m k => Rules.Apart m.rule k.rule := by
  obtain ⟨rules, hperm, hsub⟩ := found_subperm w event
  have := (hperm.pairwise_iff fun h => symm h).mp (hk.apart.sublist hsub)
  rwa [List.pairwise_map] at this

theorem rule_ne_found (hk : w.rules.Keyed) (event : Event) :
    (w.found event).Pairwise fun m k => m.rule ≠ k.rule := by
  refine (apart_found hk event).imp_of_mem fun {m k} hm _ hapart heq => ?_
  have := hk.found m.rule (mem_rules_of_mem_found hm)
  rw [← heq, Rules.Apart, this] at hapart
  exact absurd hapart.1 (by simp)

/-- What is found is known by the id of its rule. -/
theorem eq_of_mem_found {k : RuleMatch} (hkeyed : w.rules.Keyed) (hm : m ∈ w.found event)
    (hk : k ∈ w.found event) (hid : m.rule.id = k.rule.id) : m = k := by
  have : Std.Symm fun m k : RuleMatch => m.rule ≠ k.rule := ⟨fun _ _ h => h.symm⟩
  by_contra hne
  refine (rule_ne_found hkeyed event).forall hm hk hne ?_
  have hself := hkeyed.found m.rule (mem_rules_of_mem_found hm)
  refine hkeyed.eq_of_same (mem_rules_of_mem_found hm) (mem_rules_of_mem_found hk) ?_
  rwa [← hid]

/-- **Notes at rules that are found**: each of these rules heeds its own one, and the others stay as they
are. -/
theorem heed_of_found {α : Type} {xs : List α} {found : α → RuleMatch} {time : α → DateTime}
    {notes : List Note} (hv : event.Valid) (hk : w.rules.Keyed)
    (hsub : (xs.map found).Sublist (w.found event))
    (hperm : notes.Perm (xs.map fun x => ⟨(found x).rule, time x⟩)) :
    List.Forall₂ (fun r r' => (∃ x ∈ xs, (found x).rule = r ∧ r' = r.noted (time x)) ∨
      (∀ x ∈ xs, (found x).rule ≠ r) ∧ r' = r) w.rules (w.rules.heed notes) := by
  have hmem : ∀ n ∈ notes, ∃ x ∈ xs, ⟨(found x).rule, time x⟩ = n ∧ found x ∈ w.found event := by
    intro n hn
    obtain ⟨x, hx, rfl⟩ := List.mem_map.mp (hperm.mem_iff.mp hn)
    exact ⟨x, hx, rfl, hsub.subset (List.mem_map_of_mem hx)⟩
  have hone : notes.Pairwise fun m n => m.rule ≠ n.rule := by
    rw [hperm.pairwise_iff fun h => Ne.symm h, List.pairwise_map]
    have := (rule_ne_found hk event).sublist hsub
    rwa [List.pairwise_map] at this
  refine (hk.heed_noted ?_ ?_ hone).imp fun r r' h => h.imp ?_ ?_
  · intro n hn
    obtain ⟨x, -, rfl, hx⟩ := hmem n hn
    exact mem_rules_of_mem_found hx
  · intro n hn
    obtain ⟨x, -, rfl, hx⟩ := hmem n hn
    obtain ⟨s, hs⟩ := hv.tenant
    change (found x).rule.tenant.same (found x).rule.tenant = true
    rw [tenant_of_mem_found hv hx, hs, Value.same_text]
  · rintro ⟨n, hn, hr, heq⟩
    obtain ⟨x, hx, rfl, -⟩ := hmem n hn
    exact ⟨x, hx, hr, heq⟩
  · rintro ⟨hnone, heq⟩
    exact ⟨fun x hx => hnone _ (hperm.mem_iff.mpr (List.mem_map_of_mem hx)), heq⟩

end World

theorem map_found_firings (o : Occasion) (w : World) :
    (EventRun.firings o (w.listed o)).map (·.found) = w.found o.event := by
  simp [EventRun.firings, World.listed, World.found, Function.comp_def]

/-- **In every run the firings are those of what is found**, in firing order. -/
theorem found_of_run {e : Engine} {event : Event} {start w : World} {r : EventRun} {n : Nat}
    {fs : List Firing} (hv : event.Valid) (h : Run e ({ event }, start) (r, w))
    (hr : r.progress = .firing n fs) : fs.map (·.found) = start.found event := by
  obtain ⟨o, ho⟩ := hv.occasion
  have hstage := stage_of_run (P := fun fs _ => fs.map (·.found) = start.found o.event) ho
    (fun w _ => map_found_firings o start)
    (fun before f behind f' w w' hP _ _ _ hstep => by
      rw [← hP]
      simp [hstep.stepped.found])
    (fun fs w w' hP _ => hP) h
  rw [ho.event] at hstage
  cases hstage with
  | firing hP hopen =>
    simp only [EventProgress.firing.injEq] at hr
    rw [← hr.2]
    exact hP
  | _ => exact absurd hr (by simp)

/-! ## Listing and matching -/

namespace Rule

/-- Whether a rule matches an event, with no error. -/
def isAccepted (event : Event) (r : Rule) : Bool :=
  match r.accepts event with
  | .ok accepted => accepted
  | .error _ => false

/-- Whether listing keeps a rule from an event although the rule watches any table: it is for a point
in time and names a table, and the event names another one. -/
def isHidden (event : Event) (r : Rule) : Bool :=
  TriggerType.ofValue? r.triggerType == some .timeBased && !Rules.concerns event.table r

variable {event : Event} {r : Rule}

/-- What it takes to match an event. -/
theorem isAccepted_iff : r.isAccepted event = true ↔
    r.isActive.truthy = true ∧ r.tenant.same event.tenant = true ∧
      ∃ trigger operation, TriggerType.ofValue? r.triggerType = some trigger ∧
        EventOperation.ofValue event.operation = .ok operation ∧ operation.trigger = trigger ∧
        r.watches trigger event = .ok true ∧ r.conditionsHold event = .ok true := by
  unfold isAccepted accepts trigger
  by_cases hactive : r.isActive.truthy = true
  · by_cases htenant : r.tenant.same event.tenant = true
    · cases ht : TriggerType.ofValue? r.triggerType with
      | none => simp [hactive, htenant, bind, Except.bind]
      | some trigger =>
        cases ho : EventOperation.ofValue event.operation with
        | error f => simp [hactive, htenant, bind, Except.bind]
        | ok operation =>
          by_cases heq : operation.trigger = trigger
          · cases hw : r.watches trigger event with
            | error f => simp [hactive, htenant, bind, Except.bind, heq, hw]
            | ok watched =>
              cases watched with
              | false => simp [hactive, htenant, bind, Except.bind, heq, hw]
              | true =>
                cases hc : r.conditionsHold event with
                | error f => simp [hactive, htenant, bind, Except.bind, heq, hw]
                | ok b => simp [hactive, htenant, bind, Except.bind, heq, hw]
          · simp [hactive, htenant, bind, Except.bind, heq, Ne.symm heq]
    · simp [hactive, htenant]
  · simp [hactive]

/-- A rule that matches an event is listed for it unless it is hidden. -/
theorem concerns_of_isAccepted (h : r.isAccepted event = true) :
    Rules.concerns event.table r = !r.isHidden event := by
  obtain ⟨-, -, trigger, operation, ht, -, -, hwatches, -⟩ := isAccepted_iff.mp h
  unfold isHidden
  rw [ht]
  by_cases htime : trigger = .timeBased
  · simp [htime]
  · -- A rule for changes of rows watches the very table of the event.
    have hsame : r.triggerTable.same event.table = true := by
      unfold watches at hwatches
      rw [if_neg htime] at hwatches
      split at hwatches
      · exact absurd hwatches (by simp)
      · simpa using hwatches
    simp [Rules.concerns, hsame]

end Rule

theorem candidates_matchRules (event : Event) (rules : List Rule) :
    candidates (matchRules event rules) = (Rule.inOrder rules).filter (Rule.isAccepted event) := by
  unfold candidates matchRules
  rw [List.filter_filterMap, List.map_filterMap, ← List.filterMap_eq_filter]
  refine List.filterMap_congr fun r _ => ?_
  unfold judge Rule.isAccepted
  split
  · next h => simp [h, Option.guard]
  · next h => simp [h, Option.guard]
  · next h => simp [h, Option.guard]

/-- **The rules that match** are those of the whole store that accept the event, without the hidden
ones. -/
theorem candidates_perm (event : Event) (rules : Rules) :
    (candidates (matchRules event (rules.active event.tenant event.table))).Perm
      (rules.filter fun r => r.isAccepted event && !r.isHidden event) := by
  rw [candidates_matchRules]
  have hperm : (Rule.inOrder (rules.active event.tenant event.table)).Perm
      (rules.filter fun r => r.tenant.same event.tenant && r.isActive.truthy &&
        Rules.concerns event.table r) :=
    (List.mergeSort_perm _ _).trans (List.mergeSort_perm _ _)
  refine (hperm.filter _).trans ?_
  rw [List.filter_filter]
  refine List.Perm.of_eq (List.filter_congr fun r _ => ?_)
  cases h : r.isAccepted event with
  | false => rfl
  | true =>
    have haccepted := Rule.isAccepted_iff.mp h
    simp [haccepted.1, haccepted.2.1, Rule.concerns_of_isAccepted h]

/-! ## Plain rules -/

/-- A rule of the tenant `t1` that accepts every new row of the table `tasks`, with any actions. -/
def Rule.plain (id : String) (actions : Value) : Rule where
  id := .text id
  tenant := .text "t1"
  name := .text "r"
  triggerType := .text "record_created"
  triggerTable := .text "tasks"
  conditions := .list []
  actions := actions
  description := .null
  isActive := .bool true
  lastExecuted := none
  createdAt := default
  fieldTypes := .object []

/-- A new row of the table `tasks` of the tenant `t1`. -/
def Event.plain : Event where
  table := .text "tasks"
  operation := .text "created"
  tenant := .text "t1"
  oldRow := .null
  newRow := .object []
  id := .text "e1"
  occurredAt := default

/-- A world with rules in which nothing happened yet. -/
def World.plain (rules : Rules) : World where
  outlets := .start {} { sinks := fun _ _ => ⟨.zero, .unanswered⟩ }
  now := default
  rules := rules

theorem Event.valid_plain : Event.plain.Valid :=
  ⟨⟨.created, rfl⟩, ⟨_, rfl⟩, Or.inr ⟨_, rfl⟩, Or.inl rfl, Or.inr ⟨_, rfl⟩⟩

/-- A rule for points in time that names a table. -/
def Rule.timed : Rule :=
  { Rule.plain "timed" (.list []) with triggerType := .text "time_based" }

/-- A rule for points in time that names none. -/
def Rule.tableless : Rule :=
  { Rule.plain "tableless" (.list []) with triggerType := .text "time_based", triggerTable := .null }

/-- A point in time that names another table. -/
def Event.timed : Event :=
  { Event.plain with operation := .text "time_based", table := .text "cadets" }

theorem Event.valid_timed : Event.timed.Valid :=
  ⟨⟨.timeBased, rfl⟩, ⟨_, rfl⟩, Or.inr ⟨_, rfl⟩, Or.inl rfl, Or.inr ⟨_, rfl⟩⟩

theorem World.reliable_plain (rules : Rules) : (World.plain rules).Reliable := ⟨rfl, rfl⟩

/-- A plain rule accepts a plain event. -/
theorem judge_plain (id : String) (actions : Value) :
    judge .plain (.plain id actions) = some ⟨.plain id actions, none⟩ := rfl

theorem mem_found_plain {rules : Rules} {id : String} {actions : Value}
    (h : Rule.plain id actions ∈ rules) :
    ⟨.plain id actions, none⟩ ∈ (World.plain rules).found .plain :=
  mem_matchRules.mpr ⟨_, Rules.mem_active.mpr ⟨h, by simp [Rule.plain, Event.plain], rfl,
    by simp [Rules.concerns, Rule.plain, Event.plain]⟩, judge_plain id actions⟩

/-! ## Rules that are dispatched -/

/-- **Which rules an event dispatches.** In every run those of its firings that were judged are of the
matching rules; these are the rules of the whole store that accept the event, without the hidden ones;
so they are all that accept it exactly where none of those is hidden. -/
theorem dispatched_of_run {e : Engine} {event : Event} {start : World} (hv : event.Valid) :
    (∀ r w n fs, Run e ({ event }, start) (r, w) → r.progress = .firing n fs →
      (fs.filter (·.found.error.isNone)).map Firing.rule = candidates (start.found event)) ∧
    (candidates (start.found event)).Perm
      (start.rules.filter fun r => r.isAccepted event && !r.isHidden event) ∧
    ((candidates (start.found event)).Perm (start.rules.filter (Rule.isAccepted event)) ↔
      ∀ r ∈ start.rules, r.isAccepted event = true → r.isHidden event = false) := by
  have hperm := candidates_perm event start.rules
  refine ⟨fun r w n fs hrun hr => ?_, hperm, fun h => ?_, fun h => ?_⟩
  · rw [← found_of_run hv hrun hr, candidates, List.filter_map, List.map_map]
    rfl
  · -- Both sides are as long as one another, so the hidden rules are none.
    have hsplit : start.rules.filter (fun r => r.isAccepted event && !r.isHidden event) =
        (start.rules.filter (Rule.isAccepted event)).filter fun r => !r.isHidden event := by
      rw [List.filter_filter]
      exact List.filter_congr fun r _ => Bool.and_comm _ _
    have hlen := (hperm.symm.trans h).length_eq
    rw [hsplit, List.length_filter_eq_length_iff] at hlen
    intro r hr haccepted
    simpa using hlen r (List.mem_filter.mpr ⟨hr, haccepted⟩)
  · refine hperm.trans (List.Perm.of_eq (List.filter_congr fun r hr => ?_))
    cases haccepted : r.isAccepted event with
    | false => rfl
    | true => simp [h r hr haccepted]

/-- Of two rules that accept a point in time, the one with a table of its own is hidden: the other one
is dispatched, and it is not all that accept the event. -/
theorem dispatched_of_run_timed : Event.timed.Valid ∧
    (∀ r w n fs, Run {} ({ event := .timed }, World.plain [.timed, .tableless]) (r, w) →
      r.progress = .firing n fs → (fs.filter (·.found.error.isNone)).map Firing.rule =
        candidates ((World.plain [.timed, .tableless]).found .timed)) ∧
    (candidates ((World.plain [.timed, .tableless]).found .timed)).Perm [.tableless] ∧
    ¬ (candidates ((World.plain [.timed, .tableless]).found .timed)).Perm [.timed, .tableless] := by
  obtain ⟨hrun, hperm, hall⟩ :=
    @dispatched_of_run {} .timed (World.plain [.timed, .tableless]) Event.valid_timed
  refine ⟨Event.valid_timed, hrun, hperm, fun hevery => ?_⟩
  have hshown := hall.mp hevery .timed List.mem_cons_self rfl
  exact absurd hshown (by decide)

/-- A rule that accepts an event is not dispatched for it. -/
theorem hidden_timed : Event.timed.Valid ∧ Rule.timed.isAccepted .timed = true ∧
    candidates ((World.plain [.timed]).found .timed) = [] := by
  refine ⟨Event.valid_timed, rfl, ?_⟩
  have hperm := candidates_perm .timed [.timed]
  have hnone : [Rule.timed].filter (fun r => r.isAccepted .timed && !r.isHidden .timed) = [] := by
    decide
  rw [hnone] at hperm
  exact hperm.eq_nil

end ChangeRules
