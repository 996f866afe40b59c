import ChangeRules.Proofs.Condition.Misuse
import ChangeRules.Proofs.Condition.Shape
import ChangeRules.Proofs.Matching
import Mathlib.Data.List.Nodup

/-!
# Selecting rules one by one

Matching looks at each rule on its own and puts what it finds in firing order. So a rule is found or
not whatever the other rules are, and the others only move it up or down. A rule that is found either
accepts the event or could not be judged; then the error names the rule and, where it is not an error
of matching itself, what went wrong.

* `Rule.sortKey`: what rules are ordered by.
* `inOrder_sublist`, `inOrder_eq_of_perm`: firing order with rules left out, or in another order.
* `Rule.Suits`: what the rules that accept an event have in common.
* `RuleError.Blames`: what is told of a rule that could not be judged.
* **`selection_of_operation`**: what matching makes of the rules of an event.
-/

namespace ChangeRules

/-! ## Firing order -/

namespace Rule

/-- What rules are ordered by: the instant of their creation, then the text of their id. -/
def sortKey (r : Rule) : Int × String := (r.createdAt.instant, r.id.display)

variable {r s t : Rule} {rules more : List Rule}

theorem comesBefore_iff : r.comesBefore s = true ↔ r.createdAt.instant < s.createdAt.instant ∨
    r.createdAt.instant = s.createdAt.instant ∧ r.id.display ≤ s.id.display := by
  unfold comesBefore
  by_cases h : r.createdAt.instant = s.createdAt.instant
  · simp [h]
  · simp [h]

theorem comesBefore_trans (h : r.comesBefore s = true) (h' : s.comesBefore t = true) :
    r.comesBefore t = true := by
  rw [comesBefore_iff] at h h' ⊢
  rcases h with hlt | ⟨heq, hle⟩
  · exact .inl (by omega)
  · rcases h' with hlt' | ⟨heq', hle'⟩
    · exact .inl (by omega)
    · exact .inr ⟨heq.trans heq', String.le_trans hle hle'⟩

/-- Rules tie exactly if they are ordered by the same. -/
theorem sortKey_eq_of_comesBefore (h : r.comesBefore s = true) (h' : s.comesBefore r = true) :
    r.sortKey = s.sortKey := by
  rw [comesBefore_iff] at h h'
  have hinstant : r.createdAt.instant = s.createdAt.instant := by omega
  have hle : r.id.display ≤ s.id.display := by simpa [hinstant] using h
  have hge : s.id.display ≤ r.id.display := by simpa [hinstant] using h'
  exact Prod.ext hinstant (String.le_antisymm hle hge)

theorem comesBefore_or (r s : Rule) : (r.comesBefore s || s.comesBefore r) = true := by
  rw [Bool.or_eq_true]
  exact comesBefore_total r s

/-- Where firing order puts a further rule: none of the rules ahead of it comes after it. -/
theorem exists_inOrder_cons (r : Rule) (rules : List Rule) :
    ∃ ahead behind, inOrder (r :: rules) = ahead ++ r :: behind ∧
      inOrder rules = ahead ++ behind ∧ ∀ s ∈ ahead, (!r.comesBefore s) = true := by
  refine List.mergeSort_cons ?_ comesBefore_or r rules
  intro r s t h h'
  exact comesBefore_trans h h'

theorem inOrder_perm (rules : List Rule) : (inOrder rules).Perm rules :=
  List.mergeSort_perm rules comesBefore

theorem pairwise_inOrder (rules : List Rule) :
    (inOrder rules).Pairwise fun r s => r.comesBefore s = true := by
  refine List.pairwise_mergeSort ?_ comesBefore_or rules
  intro r s t h h'
  exact comesBefore_trans h h'

/-- Where a further rule is put: behind all that it does not come before, ahead of all others. -/
theorem inOrder_cons (r : Rule) (rules : List Rule) :
    inOrder (r :: rules) = (inOrder rules).filter (fun s => !r.comesBefore s) ++
      r :: (inOrder rules).filter r.comesBefore := by
  obtain ⟨ahead, behind, hcons, hrest, hahead⟩ := exists_inOrder_cons r rules
  have hbehind : ∀ s ∈ behind, r.comesBefore s = true := by
    have hpairwise := pairwise_inOrder (r :: rules)
    rw [hcons, List.pairwise_append, List.pairwise_cons] at hpairwise
    exact hpairwise.2.1.1
  have hnone : behind.filter (fun s => !r.comesBefore s) = [] :=
    List.filter_eq_nil_iff.mpr fun s hs => by simp [hbehind s hs]
  have hnone' : ahead.filter r.comesBefore = [] :=
    List.filter_eq_nil_iff.mpr fun s hs => by simpa using hahead s hs
  rw [hcons, hrest, List.filter_append, List.filter_append, hnone, hnone',
    List.filter_eq_self.mpr hahead, List.filter_eq_self.mpr hbehind, List.append_nil,
    List.nil_append]

/-- **Rules that are left out** leave the order of the others. -/
theorem inOrder_sublist (h : rules.Sublist more) : (inOrder rules).Sublist (inOrder more) := by
  -- A rule that is kept splits both orders at the same place, so the parts ahead of it and behind it
  -- can be compared one by one.
  induction h with
  | slnil => exact List.Sublist.refl _
  | @cons rules more r _ ih =>
    obtain ⟨ahead, behind, hcons, hrest, -⟩ := exists_inOrder_cons r more
    refine ih.trans ?_
    rw [hcons, hrest]
    exact (List.sublist_cons_self r behind).append_left ahead
  | cons_cons r _ ih =>
    rw [inOrder_cons, inOrder_cons]
    exact (ih.filter _).append ((ih.filter _).cons_cons r)

/-- **Rules in another order** fire in the same order, if no two of them tie. -/
theorem inOrder_eq_of_perm (h : rules.Perm more) (hkeys : (rules.map sortKey).Nodup) :
    inOrder more = inOrder rules := by
  have hperm : (inOrder more).Perm (inOrder rules) :=
    (inOrder_perm more).trans (h.symm.trans (inOrder_perm rules).symm)
  refine List.Perm.eq_of_pairwise ?_ (pairwise_inOrder more) (pairwise_inOrder rules) hperm
  intro r s hr hs hrs hsr
  have hr' : r ∈ rules := h.mem_iff.mpr ((inOrder_perm more).mem_iff.mp hr)
  have hs' : s ∈ rules := (inOrder_perm rules).mem_iff.mp hs
  exact List.inj_on_of_nodup_map hkeys hr' hs' (sortKey_eq_of_comesBefore hrs hsr)

end Rule

/-! ## Rules that accept an event -/

namespace Rule

/-- What it takes to accept an event of an operation. -/
structure Suits (r : Rule) (event : Event) (o : EventOperation) : Prop where
  active : r.isActive.truthy = true
  tenant : r.tenant.same event.tenant = true
  trigger : r.triggerType = .text o.trigger.name
  table : o = .timeBased ∨ r.triggerTable.same event.table = true
  conditions : ∃ types, fieldTypesOf r.fieldTypes = .ok types ∧
    evaluate types r.conditions event.conditionRecord = .ok true

variable {r : Rule} {event : Event} {o : EventOperation}

theorem triggerType_eq {v : Value} {t : TriggerType} (h : TriggerType.ofValue? v = some t) :
    v = .text t.name := by
  cases v with
  | text s =>
    have hname := List.find?_some h
    rw [beq_iff_eq.mp hname]
  | _ => exact absurd h (by simp [TriggerType.ofValue?])

theorem conditionsHold_cases {b : Bool} (h : r.conditionsHold event = .ok b) :
    ∃ types, fieldTypesOf r.fieldTypes = .ok types ∧
      evaluate types r.conditions event.conditionRecord = .ok b := by
  unfold conditionsHold at h
  cases htypes : fieldTypesOf r.fieldTypes with
  | error f =>
    rw [htypes] at h
    exact absurd h (by simp [bind, Except.bind])
  | ok types =>
    rw [htypes] at h
    refine ⟨types, rfl, ?_⟩
    cases hheld : evaluate types r.conditions event.conditionRecord with
    | error f => exact absurd h (by simp [bind, Except.bind, hheld, Except.mapError])
    | ok held => simpa [bind, Except.bind, hheld, Except.mapError] using h

theorem suits_of_accepts (ho : EventOperation.ofValue event.operation = .ok o)
    (h : r.accepts event = .ok true) : r.Suits event o := by
  have haccepted : r.isAccepted event = true := by simp [isAccepted, h]
  obtain ⟨hactive, htenant, trigger, o', htrigger, ho', rfl, hwatches, hconditions⟩ :=
    isAccepted_iff.mp haccepted
  obtain rfl : o = o' := Except.ok.inj (ho.symm.trans ho')
  refine ⟨hactive, htenant, triggerType_eq htrigger, ?_, conditionsHold_cases hconditions⟩
  unfold watches at hwatches
  split at hwatches
  · next htime => exact .inl (EventOperation.trigger_injective (p := .timeBased) htime)
  · split at hwatches
    · exact absurd hwatches (by simp)
    · exact .inr (by simpa using hwatches)

end Rule

/-! ## Rules that cannot be judged -/

/-- A fault is an error of matching. -/
def Fault.IsMatching (f : Fault) : Prop := ∃ e, f = .error e ∧ e.kind.isMatching = true

/-- What is told of a rule that a fault kept from being judged: an error of matching with the id of
the rule, which is the fault itself or has the name of its kind. -/
structure RuleError.Blames (err : RuleError) (r : Rule) (f : Fault) : Prop where
  kind : err.kind.isMatching = true
  rule : Fields.get? err.details "rule_id" = some r.id
  cause : f = .error err ∨
    ¬ f.IsMatching ∧ err.kind = .matching ∧ Fields.get? err.details "cause" = some (.text f.kind)

/-- A fault is no error of matching, or one that has the id of the rule. -/
def Fault.Names (f : Fault) (r : Rule) : Prop :=
  ∀ e, f = .error e → e.kind.isMatching = true → Fields.get? e.details "rule_id" = some r.id

namespace Rule

variable {r : Rule} {event : Event} {f : Fault}

theorem names_misuse (r : Rule) (m : Misuse) : (Fault.misuse m).Names r := by
  intro e he
  exact absurd he (by simp)

/-- What stored conditions with a flaw come to is an error of shape, or a value that is misused. -/
theorem shapeError_or_misuse_of_fault (flaw : Condition.Flaw) :
    (∃ e, flaw.fault = .error e ∧ ShapeError e) ∨ ∃ m, flaw.fault = .misuse m := by
  unfold Condition.Flaw.fault
  split
  · exact .inl ⟨flaw.error, rfl, flaw.shapeError⟩
  · exact .inr ⟨_, rfl⟩

/-- Evaluation fails for the shape of the conditions, or for a value that is misused. -/
theorem shapeError_or_misuse_of_evaluate {types : Fields} {stored record : Value}
    (h : evaluate types stored record = .error f) :
    (∃ e, f = .error e ∧ ShapeError e) ∨ ∃ m, f = .misuse m := by
  unfold evaluate at h
  split at h
  · next flaw _ =>
    rw [← Except.error.inj h]
    exact shapeError_or_misuse_of_fault flaw
  · next groups _ => exact .inr (onlyMisuse_evaluateGroups types record groups f h)

/-- An error of shape has no rule in its details, so the rule is told there. -/
theorem names_noteRule_of_shapeError {e : RuleError} (h : ShapeError e) :
    (noteRule r (.error e)).Names r := by
  obtain ⟨message, key, v, hkey, rfl⟩ := h
  have hmissing : ("rule_id" == key) = false := by simpa using Ne.symm hkey
  intro e he _
  rw [← Fault.error.inj he]
  simp [RuleError.matching, ErrorClass.isMatching, Fields.setDefault, Fields.has, Fields.get?,
    List.lookup_cons, List.lookup_nil, hmissing]

theorem names_of_conditionsHold (h : r.conditionsHold event = .error f) : f.Names r := by
  unfold conditionsHold at h
  cases htypes : fieldTypesOf r.fieldTypes with
  | error f' =>
    rw [htypes] at h
    obtain ⟨m, rfl⟩ := onlyMisuse_fieldTypesOf _ f' htypes
    rw [← Except.error.inj h]
    exact names_misuse r m
  | ok types =>
    simp only [htypes, bind, Except.bind] at h
    cases hheld : evaluate types r.conditions event.conditionRecord with
    | ok held => exact absurd h (by simp [hheld, Except.mapError])
    | error f' =>
      rw [hheld] at h
      rw [← Except.error.inj h]
      rcases shapeError_or_misuse_of_evaluate hheld with ⟨e, rfl, hshape⟩ | ⟨m, rfl⟩
      · exact names_noteRule_of_shapeError hshape
      · exact names_misuse r m

theorem names_of_trigger (h : r.trigger = .error f) : f.Names r := by
  unfold trigger at h
  split at h
  · exact absurd h (by simp)
  · rintro e rfl -
    rw [← Fault.error.inj (Except.error.inj h)]
    rfl

theorem names_of_watches {t : TriggerType} (h : r.watches t event = .error f) : f.Names r := by
  unfold watches at h
  split at h
  · exact absurd h (by simp)
  · split at h
    · rintro e rfl -
      rw [← Fault.error.inj (Except.error.inj h)]
      rfl
    · exact absurd h (by simp)

/-- **Whatever keeps a rule from being judged** names the rule if it is an error of matching. -/
theorem names_of_accepts {o : EventOperation} (ho : EventOperation.ofValue event.operation = .ok o)
    (h : r.accepts event = .error f) : f.Names r := by
  unfold accepts at h
  split at h
  · exact absurd h (by simp)
  · split at h
    · exact absurd h (by simp)
    · cases htrigger : r.trigger with
      | error f' =>
        rw [htrigger] at h
        rw [← Except.error.inj h]
        exact names_of_trigger htrigger
      | ok t =>
        simp only [htrigger, ho, bind, Except.bind] at h
        split at h
        · exact absurd h (by simp)
        · cases hwatches : r.watches t event with
          | error f' =>
            rw [hwatches] at h
            rw [← Except.error.inj h]
            exact names_of_watches hwatches
          | ok watched =>
            rw [hwatches] at h
            cases watched with
            | false => exact absurd h (by simp)
            | true => exact names_of_conditionsHold h

end Rule

theorem blames_wrap {r : Rule} {f : Fault} (h : ¬ f.IsMatching) :
    (matchingError.wrap r f).Blames r f :=
  ⟨rfl, rfl, .inr ⟨h, rfl, rfl⟩⟩

theorem blames_matchingError {r : Rule} {f : Fault} (h : f.Names r) :
    (matchingError r f).Blames r f := by
  cases f with
  | error e =>
    by_cases hkind : e.kind.isMatching = true
    · rw [matchingError, if_pos hkind]
      exact ⟨hkind, h e rfl hkind, .inl rfl⟩
    · rw [matchingError, if_neg hkind]
      refine blames_wrap ?_
      rintro ⟨e', he', hkind'⟩
      rw [Fault.error.inj he'] at hkind
      exact hkind hkind'
  | _ =>
    refine blames_wrap ?_
    rintro ⟨e, he, -⟩
    exact absurd he (by simp)

/-! ## The selection -/

/-- Matching tells something of a rule: it accepts the event, or cannot be judged. -/
def Rule.isTold (event : Event) (r : Rule) : Bool :=
  match r.accepts event with
  | .ok accepted => accepted
  | .error _ => true

/-- What matching makes of rules for an event: an entry for each rule that accepts the event and for
each that cannot be judged, in firing order, whatever the other rules are. -/
structure Selection (event : Event) (o : EventOperation) (rules : List Rule) : Prop where
  sorted : (matchRules event rules).Pairwise fun m k => m.rule.comesBefore k.rule = true
  once : ((matchRules event rules).map (·.rule)).Perm (rules.filter (Rule.isTold event))
  alone : ∀ m ∈ matchRules event rules, judge event m.rule = some m
  grown : ∀ more, rules.Sublist more → (matchRules event rules).Sublist (matchRules event more)
  permuted : ∀ other, rules.Perm other → (rules.map Rule.sortKey).Nodup →
    matchRules event other = matchRules event rules
  candidate : ∀ m ∈ matchRules event rules, m.error = none →
    m.rule.accepts event = .ok true ∧ m.rule.Suits event o
  failure : ∀ m ∈ matchRules event rules, ∀ err, m.error = some err →
    ∃ f, m.rule.accepts event = .error f ∧ err.Blames m.rule f

/-- What is found accepts the event, or was not judged for what went wrong. -/
theorem accepts_of_mem_matchRules {event : Event} {rules : List Rule} {m : RuleMatch}
    (h : m ∈ matchRules event rules) : m.error = none ∧ m.rule.accepts event = .ok true ∨
      ∃ f, m.error = some (matchingError m.rule f) ∧ m.rule.accepts event = .error f := by
  have hjudge := judge_of_mem_matchRules h
  unfold judge at hjudge
  split at hjudge
  · next haccepts =>
    rw [← Option.some.inj hjudge]
    exact .inl ⟨rfl, haccepts⟩
  · exact absurd hjudge (by simp)
  · next f hfailed =>
    rw [← Option.some.inj hjudge]
    exact .inr ⟨f, rfl, hfailed⟩

theorem isSome_judge (event : Event) (r : Rule) :
    (judge event r).isSome = r.isTold event := by
  unfold judge Rule.isTold
  cases r.accepts event with
  | error f => rfl
  | ok accepted => cases accepted <;> rfl

/-- **Rules are selected one by one**, for every event with an operation. -/
theorem selection_of_operation {event : Event} {o : EventOperation} {rules : List Rule}
    (ho : EventOperation.ofValue event.operation = .ok o) : Selection event o rules where
  sorted := by
    have hrules := (Rule.pairwise_inOrder rules).filter fun r => (judge event r).isSome
    rwa [← map_rule_matchRules, List.pairwise_map] at hrules
  once := by
    rw [map_rule_matchRules, List.filter_congr fun r _ => isSome_judge event r]
    exact (Rule.inOrder_perm rules).filter _
  alone := fun m hm => judge_of_mem_matchRules hm
  grown := fun more h => (Rule.inOrder_sublist h).filterMap (judge event)
  permuted := fun other h hkeys => by
    unfold matchRules
    rw [Rule.inOrder_eq_of_perm h hkeys]
  candidate := by
    intro m hm hnone
    rcases accepts_of_mem_matchRules hm with ⟨-, haccepts⟩ | ⟨f, herr, -⟩
    · exact ⟨haccepts, Rule.suits_of_accepts ho haccepts⟩
    · exact absurd (hnone.symm.trans herr) (by simp)
  failure := by
    intro m hm err herr
    rcases accepts_of_mem_matchRules hm with ⟨hnone, -⟩ | ⟨f, herr', hfailed⟩
    · exact absurd (hnone.symm.trans herr) (by simp)
    · obtain rfl : matchingError m.rule f = err := Option.some.inj (herr'.symm.trans herr)
      exact ⟨f, hfailed, blames_matchingError (Rule.names_of_accepts ho hfailed)⟩

/-- A rule of the tenant `t1` that watches no kind of change there is. -/
def Rule.aimless : Rule :=
  { Rule.plain "aimless" (.list []) with triggerType := .text "sometimes" }

/-- A rule that accepts the event beside one that cannot be judged. -/
theorem selection_of_operation_aimless : EventOperation.ofValue Event.plain.operation = .ok .created ∧
    Selection .plain .created [.aimless, .plain "plain" (.list [])] :=
  ⟨rfl, selection_of_operation rfl⟩

end ChangeRules
