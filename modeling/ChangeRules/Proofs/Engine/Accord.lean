import ChangeRules.Proofs.Engine.Overlap
import ChangeRules.Proofs.Engine.Recording

/-!
# Logs that agree with themselves

A log is written in two ways: of a rule that could not be judged, and of actions that were run or
could not be. In each of them several fields tell of one ending, some in words, some in numbers. They
all agree, whatever the actions of the rule came to and whichever calls of the stores fail.

* `ExecutionLog.Accords`: the fields of a log agree with each other and with the actions of its rule.
* `Firing.Recorded`: a firing on its way to such a log.
* **`accords_log`**: every ending has such a log.
* **`accord_of_overlap`**: every log that is appended in a run is one of them.
-/

namespace ChangeRules

/-! ## No time at all -/

namespace Double

theorem overflowUnits_pos : 0 < overflowUnits := by
  have hpos : ∀ n, 0 < Nat.pow 2 n := fun n => Nat.pow_pos Nat.two_pos
  unfold overflowUnits
  exact hpos 2098

theorem ofUnits_zero (den : Nat) : ofUnits false 0 den = .zero := by
  have hunits : roundUnits 0 den = 0 := by simp [roundUnits, roundHalfEven]
  unfold ofUnits
  rw [hunits, if_neg (Nat.not_le.mpr overflowUnits_pos), if_pos rfl]
  rfl

theorem roundPlaces_zero (places : Nat) : zero.roundPlaces places = .zero := by
  have hmagnitude : zero.magnitude = 0 := rfl
  have hrounded : ∀ den, roundHalfEven 0 den = 0 := fun den => by simp [roundHalfEven]
  change ofRatio false (roundHalfEven (zero.magnitude * _) _) _ = _
  rw [hmagnitude, Nat.zero_mul, hrounded, ofRatio, Nat.zero_mul, ofUnits_zero]

end Double

/-! ## Results up to the first failure -/

namespace Dispatched

variable {index : Nat} {actions : List Value} {results : List ActionResult}

/-- If an action failed, it is the last one. -/
theorem failure?_eq (h : Dispatched index actions results) :
    failure? results = results.getLast?.filter (!·.isSuccess) := by
  unfold failure?
  induction h with
  | done => rfl
  | failed _ hfailed => simp [Option.filter, hfailed]
  | @next _ _ _ r results _ hok _ ih =>
    rw [List.find?_cons_of_neg (by simp [hok]), ih]
    cases results with
    | nil => simp [Option.filter, hok]
    | cons r' results => rw [List.getLast?_cons_cons]

theorem index_of_getLast? {r : ActionResult} (h : Dispatched 0 actions results)
    (hr : results.getLast? = some r) : (r.index : Int) = results.length - 1 := by
  obtain ⟨before, rfl⟩ := List.getLast?_eq_some_iff.mp hr
  have hindices := h.indices
  rw [List.map_append, List.length_append, List.length_singleton, List.range'_concat] at hindices
  have hlast := (List.append_inj hindices (by simp)).2
  simp only [List.map_cons, List.map_nil, List.cons.injEq, and_true] at hlast
  simp only [List.length_append, List.length_singleton]
  omega

end Dispatched

/-! ## Logs -/

/-- A log of a rule with some actions, for an event of some operation, agrees with itself: it has
details `told`, and these tell of the results of actions. -/
structure ExecutionLog.Accords (l : ExecutionLog) (o : EventOperation) (actions : List Value)
    (told : Fields) (results : List ActionResult) : Prop where
  details : l.details = .object told
  verdict : l.success = .bool true ∨ l.success = .bool false
  error_iff : l.error = .null ↔ l.success = .bool true
  state_iff : Fields.get? told "state" = some (.text FiringState.completed.name) ↔
    l.success = .bool true
  stage_iff : Fields.get? told "failed_stage" = some .null ↔ l.success = .bool true
  /-- A failed log tells its error in the details as well. -/
  failure : l.success = .bool false → Fields.get? told "error" = some l.error
  recorded : Fields.get? told "actions" = some (.list (results.map ActionResult.toValue))
  indices : results.map (·.index) = List.range results.length
  succeeded : ∀ r ∈ results.dropLast, r.isSuccess = true
  failedIndex : Fields.get? told "failed_action_index" =
    some (if results.getLast?.any (!·.isSuccess) then .int (results.length - 1) else .null)
  /-- A rule that could not be judged did nothing, and took no time. -/
  unjudged : Fields.get? told "failed_stage" = some (.text FiringStage.conditions.name) →
    results = [] ∧ l.milliseconds = .double .zero
  complete : l.success = .bool true → results.length = actions.length
  trigger : l.trigger = .text o.trigger.name

namespace Ending

variable {e : Engine} {m : RuleMatch} {ending : Ending} {actions : List Value} {id : Value}

/-! ## Details -/

theorem get?_state (id : Value) (ending : Ending) :
    Fields.get? (ending.details id) "state" = some (.text ending.state.name) := rfl

theorem get?_failed_stage (id : Value) (ending : Ending) :
    Fields.get? (ending.details id) "failed_stage" =
      some (Value.ofText? (ending.failedStage?.map FiringStage.name)) := rfl

theorem get?_failed_action_index (id : Value) (ending : Ending) :
    Fields.get? (ending.details id) "failed_action_index" =
      some ((ending.failure?.map fun r => Value.int r.index).getD .null) := rfl

theorem get?_actions (id : Value) (ending : Ending) :
    Fields.get? (ending.details id) "actions" =
      some (.list (ending.results.map ActionResult.toValue)) := rfl

/-- What else is told of a failure does not hide the error. -/
theorem get?_error {error : String} (id : Value) (h : ending.error? = some error) :
    Fields.get? (ending.details id) "error" = some (.text error) := by
  have hfields : Fields.get? (ending.errorFields ++ [("error", .text error)]) "error" =
      some (.text error) := by
    unfold errorFields
    split
    · rfl
    · split <;> rfl
    · rfl
  rw [← hfields]
  unfold details
  rw [h]
  rfl

/-! ## Success -/

theorem isSuccess_iff : ending.isSuccess = true ↔ ending.error? = none :=
  Option.isNone_iff_eq_none

theorem completed_iff : Value.text ending.state.name = .text FiringState.completed.name ↔
    ending.isSuccess = true := by
  unfold state
  cases ending.isSuccess <;> simp [FiringState.name]

theorem failedStage?_eq_none_iff : ending.failedStage? = none ↔ ending.isSuccess = true := by
  cases ending with
  | unjudged err => simp [failedStage?, isSuccess, error?]
  | ran results => cases h : (ran results).isSuccess <;> simp [failedStage?, h]
  | broke fault => simp [failedStage?, isSuccess, error?]

theorem eq_unjudged_of_failedStage (h : Fields.get? (ending.details id) "failed_stage" =
    some (.text FiringStage.conditions.name)) : ∃ err, ending = .unjudged err := by
  rw [get?_failed_stage, Option.some.injEq] at h
  cases ending with
  | unjudged err => exact ⟨err, rfl⟩
  | ran results =>
    cases hok : (ran results).isSuccess <;>
      simp [failedStage?, hok, Value.ofText?, FiringStage.name] at h
  | broke fault => simp [failedStage?, isSuccess, error?, Value.ofText?, FiringStage.name] at h

/-- The results of a match are those of actions one after another: of all that its rule has, where
they succeeded. -/
theorem dispatched_of_endsAs (h : m.EndsAs e ending)
    (hactions : storedActions m.rule.actions = .ok actions) :
    ∃ run, Dispatched 0 run ending.results ∧ (ending.isSuccess = true → run = actions) := by
  cases ending with
  | unjudged err => exact ⟨[], .done 0, fun hok => absurd hok (by simp [isSuccess, error?])⟩
  | broke fault => exact ⟨[], .done 0, fun hok => absurd hok (by simp [isSuccess, error?])⟩
  | ran results =>
    obtain ⟨-, -, actions', hactions', hdispatched⟩ := h
    obtain rfl : actions = actions' := Except.ok.inj (hactions.symm.trans hactions')
    exact ⟨actions, hdispatched, fun _ => rfl⟩

/-- The index that is told of a failed action is that of the last result. -/
theorem failedIndex_eq (h : Dispatched 0 actions ending.results) :
    Fields.get? (ending.details id) "failed_action_index" =
      some (if ending.results.getLast?.any (!·.isSuccess) then .int (ending.results.length - 1)
        else .null) := by
  rw [get?_failed_action_index, failure?, h.failure?_eq]
  cases hlast : ending.results.getLast? with
  | none => simp
  | some r =>
    have hindex := h.index_of_getLast? hlast
    cases hok : r.isSuccess <;> simp [Option.filter, hok, hindex]

theorem failure?_eq_none_of_isSuccess (h : ending.isSuccess = true) : ending.failure? = none := by
  cases ending with
  | unjudged err => exact absurd h (by simp [isSuccess, error?])
  | broke fault => exact absurd h (by simp [isSuccess, error?])
  | ran results =>
    have hnone := isSuccess_iff.mp h
    exact Option.map_eq_none_iff.mp hnone

end Ending

section

variable {e : Engine} {f : Firing} {ending : Ending} {actions : List Value}

/-- **Every ending has a log that agrees with itself.** -/
theorem accords_log (hends : f.found.EndsAs e ending)
    (hactions : storedActions f.rule.actions = .ok actions) {milliseconds : Double}
    (htime : ∀ err, ending = .unjudged err → milliseconds.roundPlaces 3 = .zero) (id : String)
    (now : DateTime) :
    (f.log ending milliseconds id now).Accords f.occasion.operation actions
      (ending.details f.occasion.event.id) ending.results := by
  obtain ⟨run, hdispatched, hall⟩ := Ending.dispatched_of_endsAs hends hactions
  have hsuccess : (f.log ending milliseconds id now).success = .bool true ↔
      ending.isSuccess = true := by simp [Firing.log]
  exact {
    details := rfl
    verdict := by cases h : ending.isSuccess <;> simp [Firing.log, h]
    error_iff := by
      rw [hsuccess, Ending.isSuccess_iff]
      cases h : ending.error? <;> simp [Firing.log, h, Value.ofText?]
    state_iff := by
      rw [hsuccess, Ending.get?_state, Option.some.injEq]
      exact Ending.completed_iff
    stage_iff := by
      rw [hsuccess, Ending.get?_failed_stage, Option.some.injEq, ← Ending.failedStage?_eq_none_iff]
      cases ending.failedStage? <;> simp [Value.ofText?]
    failure := by
      intro hfailed
      have hnot : ending.isSuccess = false := by simpa [Firing.log] using hfailed
      cases herror : ending.error? with
      | none => exact absurd (Ending.isSuccess_iff.mpr herror) (by simp [hnot])
      | some error =>
        rw [Ending.get?_error _ herror]
        simp [Firing.log, herror, Value.ofText?]
    recorded := Ending.get?_actions _ _
    indices := by rw [hdispatched.indices, List.range_eq_range']
    succeeded := hdispatched.isSuccess_of_mem_dropLast
    failedIndex := Ending.failedIndex_eq hdispatched
    unjudged := by
      intro hstage
      obtain ⟨err, rfl⟩ := Ending.eq_unjudged_of_failedStage hstage
      refine ⟨rfl, ?_⟩
      rw [Firing.log, htime err rfl]
    complete := by
      intro hok
      rw [hsuccess] at hok
      have hnone := Ending.failure?_eq_none_of_isSuccess hok
      rw [← hall hok]
      exact (hdispatched.failure?_eq_none_iff.mp hnone).1
    trigger := rfl }

end

/-! ## Firings on their way -/

namespace FiringProgress

/-- The log is appended, or could not be. -/
def IsLate : FiringProgress → Prop
  | .logged _ _ _ | .touching _ _ | .touched _ _ _ | .ended _ => True
  | _ => False

theorem not_early {p : FiringProgress} (h : p.IsLate ∨ ∃ state log, p = .logging state log) :
    ¬ p.IsWaiting ∧ ¬ p.IsWorking := by
  rcases h with h | ⟨state, log, rfl⟩
  · cases p with
    | logged | touching | touched | ended => exact ⟨id, id⟩
    | _ => exact h.elim
  · exact ⟨id, id⟩

end FiringProgress

namespace Firing

/-- A firing is on its way to a log that tells how it ended, and that it took no time if its rule could
not be judged; or it is past its log. -/
def Recorded (e : Engine) (f : Firing) : Prop :=
  f.progress.IsLate ∨ f.Preparing e ∧ ∀ state log, f.progress = .logging state log →
    f.found.error.isSome = true → log.milliseconds = .double .zero

variable {e : Engine} {f f' : Firing} {w w' : World} {state : FiringState} {log : ExecutionLog}

/-- Past its log a firing stays past it. -/
theorem Move.isLate {p : FiringProgress} (h : f.Move w p w')
    (hf : f.progress.IsLate ∨ ∃ state log, f.progress = .logging state log) : p.IsLate := by
  obtain ⟨hwait, hwork⟩ := FiringProgress.not_early hf
  cases h with
  | wait hf _ => exact absurd hf hwait
  | work hf _ _ _ => exact (hf.elim hwait hwork).elim
  | conclude hf _ _ _ => exact (hf.elim hwait hwork).elim
  | refuse hf _ _ _ => exact absurd hf hwait
  | _ => trivial

/-- The log of a rule that could not be judged tells of no time. -/
theorem milliseconds_of_await {err : RuleError} (herr : f.found.error = some err)
    (h : (f.await e w).1.progress = .logging state log) : log.milliseconds = .double .zero := by
  unfold await at h
  split at h
  · unfold begin at h
    rw [herr] at h
    obtain ⟨-, rfl⟩ := FiringProgress.logging.inj h
    exact congrArg Value.double (Double.roundPlaces_zero 3)
  · exact absurd h (by simp [moved])

theorem Step.milliseconds {err : RuleError} (h : f.Step e w f' w') (hf : f.Preparing e)
    (hno : ∀ state log, f.progress ≠ .logging state log) (herr : f.found.error = some err)
    (hp' : f'.progress = .logging state log) : log.milliseconds = .double .zero := by
  unfold Preparing at hf
  cases h with
  | turn =>
    unfold Firing.turn at hp'
    cases hp : f.progress with
    | ready =>
      rw [hp] at hp'
      exact milliseconds_of_await (f := { f with ticket := (w.locks.enter f.rule.id).1 }) herr hp'
    | queued =>
      rw [hp] at hp'
      exact milliseconds_of_await herr hp'
    | acting c a action =>
      rw [hp] at hp'
      exact absurd hp' (by simp [moved])
    | acted c a outcome =>
      -- Actions are under way only of rules that were judged.
      rw [hp] at hf
      obtain ⟨done, stored, hsofar, -, -⟩ := hf
      rw [hsofar.judged] at herr
      exact absurd herr (by simp)
    | logging state log => exact absurd hp (hno state log)
    | _ =>
      rw [hp] at hf
      exact hf.elim
  | act hp outcome outlets => exact absurd hp' (by simp [moved])

theorem storedActions_list {v : Value} {vs : List Value} (h : v = .list vs) :
    storedActions v = .ok vs := by
  rw [h]
  cases vs <;> rfl

/-- **Firings of rules whose actions are lists** get to such logs, whatever happens. -/
theorem steady_recorded {rules : Rules} (hlists : ∀ r ∈ rules, ∃ vs, r.actions = .list vs) :
    Firing.Steady rules Recorded where
  begin e f hf := by
    refine Or.inr ⟨?_, fun state log hp => ?_⟩
    · unfold Preparing
      rw [hf]
      trivial
    · rw [hf] at hp
      exact absurd hp (by simp)
  step e event f f' w w' hfrom hf hstep := by
    have hmove := hstep.stepped.move
    rcases hf with hlate | ⟨hpreparing, -⟩
    · exact Or.inl (hmove.isLate (Or.inl hlate))
    · -- The append is the last step on the way to a log; all others prepare it.
      by_cases hlogging : ∃ state log, f.progress = .logging state log
      · exact Or.inl (hmove.isLate (Or.inr hlogging))
      · have hno : ∀ state log, f.progress ≠ .logging state log :=
          fun state log hp => hlogging ⟨state, log, hp⟩
        obtain ⟨r, hr, hcore⟩ := hfrom.known
        obtain ⟨vs, hvs⟩ := hlists r hr
        rw [Rule.actions_eq_of_core hcore] at hvs
        refine Or.inr ⟨(hstep.prepares (storedActions_list hvs) hpreparing hno).preparing, ?_⟩
        intro state log hp' hunjudged
        rw [hstep.stepped.found] at hunjudged
        obtain ⟨err, herr⟩ := Option.isSome_iff_exists.mp hunjudged
        exact hstep.milliseconds hpreparing hno herr hp'

end Firing

/-! ## Runs -/

/-- A log was written for an event that came in and for a rule of the store, and agrees with them. -/
def ExecutionLog.Attests (l : ExecutionLog) (rules : Rules) (ps : List Processing) : Prop :=
  ∃ p ∈ ps, ∃ r ∈ rules, ∃ o vs told results,
    EventOperation.ofValue p.run.event.operation = .ok o ∧ r.actions = .list vs ∧
      l.ruleId = r.id ∧ l.Accords o vs told results

theorem ExecutionLog.Attests.mono {l : ExecutionLog} {rules : Rules} {ps ps' : List Processing}
    (h : l.Attests rules ps) (hps : ∀ p ∈ ps, ∃ p' ∈ ps', p'.run.event = p.run.event) :
    l.Attests rules ps' := by
  obtain ⟨p, hp, hrest⟩ := h
  obtain ⟨p', hp', hevent⟩ := hps p hp
  rw [← hevent] at hrest
  exact ⟨p', hp', hrest⟩

/-- A log that is about to be appended attests to its event and its rule. -/
theorem Firing.Recorded.attests {rules : Rules} {ps : List Processing} {p : Processing} {f : Firing}
    {state : FiringState} {log : ExecutionLog}
    (hlists : ∀ r ∈ rules, ∃ vs, r.actions = .list vs) (hmem : p ∈ ps)
    (hfrom : f.From rules p.run.event) (h : f.Recorded p.engine)
    (hp : f.progress = .logging state log) : log.Attests rules ps := by
  obtain ⟨hpreparing, htime⟩ := h.resolve_left (by rw [hp]; exact id)
  have htells : f.Tells p.engine state log := by
    unfold Preparing at hpreparing
    rw [hp] at hpreparing
    exact hpreparing
  obtain ⟨ending, milliseconds, id, now, hends, -, rfl⟩ := htells
  obtain ⟨r, hr, hcore⟩ := hfrom.known
  obtain ⟨vs, hvs⟩ := hlists r hr
  have hactions : f.rule.actions = .list vs := by rw [← Rule.actions_eq_of_core hcore, hvs]
  refine ⟨p, hmem, r, hr, f.occasion.operation, vs, _, _, hfrom.occasion.operation, hvs,
    (Rule.id_eq_of_core hcore).symm, accords_log hends (storedActions_list hactions) ?_ id now⟩
  rintro err rfl
  have hunjudged : f.found.error = some err := hends
  exact Value.double.inj (htime state _ hp (by rw [hunjudged]; rfl))

namespace Overlap

variable {start : World} {s s' : List Processing × World}

/-- What was appended in a run attests to the events so far. -/
def Attested (start : World) (s : List Processing × World) : Prop :=
  ∃ rows, s.2.logs = start.logs ++ rows ∧ ∀ l ∈ rows, l.Attests start.rules s.1

/-- **No step appends a log that does not agree with itself.** -/
theorem Attested.step (hlists : ∀ r ∈ start.rules, ∃ vs, r.actions = .list vs)
    (h : Attested start s) (hleads : Leads start Firing.Recorded s s') : Attested start s' := by
  obtain ⟨rows, hlogs, hrows⟩ := h
  have hlater : ∀ l ∈ rows, l.Attests start.rules s'.1 := fun l hl => (hrows l hl).mono hleads.events
  cases hleads.change with
  | keep hs _ | lose _ hs _ _ => exact ⟨rows, hs.logs.trans hlogs, hlater⟩
  | touch _ _ hsame _ | setActive _ hsame _ => exact ⟨rows, hsame.trans hlogs, hlater⟩
  | @append f state log hf hp _ happend _ =>
    refine ⟨rows ++ [log], by rw [happend, hlogs, List.append_assoc], fun l hl => ?_⟩
    rcases List.mem_append.mp hl with hl | hl
    · exact hlater l hl
    · obtain ⟨p, hmem, hfrom, hrecorded⟩ := hf
      rw [List.mem_singleton.mp hl]
      exact (hrecorded.attests hlists hmem hfrom hp).mono hleads.events

end Overlap

/-- **Every log agrees with itself**, with its event and with its rule: whatever comes in, whatever the
actions come to and whichever calls of the stores fail. -/
theorem accord_of_overlap {start w : World} {ps : List Processing}
    (hlists : ∀ r ∈ start.rules, ∃ vs, r.actions = .list vs) (h : Overlap.Run start (ps, w)) :
    ∃ rows, w.logs = start.logs ++ rows ∧ ∀ l ∈ rows, l.Attests start.rules ps := by
  have hstart : Overlap.Attested start ([], start) := ⟨[], by simp, by simp⟩
  exact (Overlap.Run.induct (Firing.steady_recorded hlists) hstart
    (fun s s' _ hs hleads => hs.step hlists hleads) h).2

/-- One of these rules cannot be judged, and the other one has no actions. -/
theorem accord_of_overlap_unjudgedRules :
    (∀ r ∈ (World.plain unjudgedRules).rules, ∃ vs, r.actions = .list vs) ∧
      ∃ ps w, Overlap.Run (World.plain unjudgedRules) (ps, w) ∧ w.logs ≠ [] ∧
        ∃ rows, w.logs = (World.plain unjudgedRules).logs ++ rows ∧
          ∀ l ∈ rows, l.Attests unjudgedRules ps := by
  have hlists : ∀ r ∈ (World.plain unjudgedRules).rules, ∃ vs, r.actions = .list vs := by
    simp [World.plain, unjudgedRules, Rule.plain]
  obtain ⟨ps, w, hrun, -, -, hlogs⟩ := Overlap.exists_run_unjudgedRules
  exact ⟨hlists, ps, w, hrun, hlogs, accord_of_overlap hlists hrun⟩

end ChangeRules
