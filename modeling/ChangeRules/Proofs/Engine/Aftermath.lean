import ChangeRules.Proofs.Engine.Ledger
import ChangeRules.Proofs.Engine.Progress
import Mathlib.Data.List.TakeWhile

/-!
# What an event leaves behind

Where the stores work, each firing of an event that is over has its log, its note and its report, or
was refused because its actions cannot be counted. A refused firing leaves nothing behind. Side by
side it affects no other firing; where rules fire one after the other, it ends the event.

* `Fired`, `Fired.Agrees`: what came of one match, and that it fits together.
* `Aftermath`: the two stores behind an event.
* **`aftermath_of_run`**: every run that is over leaves the stores so, and comes to the reports of
  the matches that fired, or to the refusal of the first match that did not.
* `Engine.Guarantees`: what holds of an event however its firings interleave.
-/

namespace ChangeRules

/-! ## Matches that can fire -/

namespace RuleMatch

/-- Whether a match can fire: its rule could not be judged, or has actions that can be counted. -/
def isFireable (m : RuleMatch) : Bool := m.error.isSome || (storedActions m.rule.actions).toBool

/-- The fault of a firing whose actions cannot be counted. -/
def refusal (m : RuleMatch) : Fault := .misuse (.noLength m.rule.actions.typeName)

end RuleMatch

namespace Firing

variable {f : Firing}

theorem actions_cases (f : Firing) :
    (∃ actions, f.actions = .ok actions ∧ (storedActions f.rule.actions).toBool = true) ∨
      f.actions = .error f.found.refusal ∧ (storedActions f.rule.actions).toBool = false := by
  unfold actions
  cases storedActions f.rule.actions with
  | ok actions => exact Or.inl ⟨actions, rfl, rfl⟩
  | error fault => exact Or.inr ⟨rfl, rfl⟩

theorem fireable_iff : f.Fireable ↔ f.found.isFireable = true := by
  unfold Fireable RuleMatch.isFireable
  rw [Bool.or_eq_true]
  refine or_congr_right ?_
  change _ ↔ (storedActions f.rule.actions).toBool = true
  rcases actions_cases f with ⟨actions, hactions, hcount⟩ | ⟨hactions, hcount⟩
  · exact ⟨fun _ => hcount, fun _ => ⟨actions, hactions⟩⟩
  · rw [hactions, hcount]
    simp

theorem refused {fault : Fault} (hjudged : f.found.error = none) (h : f.actions = .error fault) :
    f.found.isFireable = false ∧ fault = f.found.refusal := by
  rcases actions_cases f with ⟨actions, hactions, -⟩ | ⟨hactions, hcount⟩
  · rw [hactions] at h
    exact absurd h (by simp)
  · rw [hactions, Except.error.injEq] at h
    refine ⟨?_, h.symm⟩
    unfold RuleMatch.isFireable
    rw [hjudged]
    exact hcount

end Firing

/-! ## What came of a match -/

/-- A match that fired, with its report and its log. -/
structure Fired where
  found : RuleMatch
  report : FiringReport
  log : ExecutionLog

namespace Fired

/-- The report and the log of a match tell the same, of its rule and of the event. -/
structure Agrees (event : Event) (x : Fired) : Prop where
  ruleId : x.report.ruleId = x.found.rule.id ∧ x.log.ruleId = x.found.rule.id
  logId : x.report.logId = x.log.id
  error : x.report.error = x.log.error
  state : ∃ fields, x.log.details = .object fields ∧
    Value.get fields "state" = .text x.report.state.name
  success : x.log.success = .bool (x.report.state == .completed)
  tenant : x.log.tenant = event.tenant
  table : x.log.table = event.table
  before : x.log.before = event.oldRow
  after : x.log.after = event.newRow

/-- The execution that is noted at the rule. -/
def note (x : Fired) : Note := ⟨x.found.rule, x.log.executedAt⟩

end Fired

theorem Ending.isSuccess_eq (ending : Ending) :
    ending.isSuccess = (ending.state == FiringState.completed) := by
  unfold state
  cases ending.isSuccess <;> rfl

/-- A log that a firing writes agrees with its report. -/
theorem Firing.Writes.agrees {f : Firing} {state : FiringState} {log : ExecutionLog}
    (h : f.Writes state log) :
    Fired.Agrees f.occasion.event ⟨f.found, f.report state log, log⟩ := by
  obtain ⟨ending, milliseconds, id, now, rfl, rfl⟩ := h
  exact {
    ruleId := ⟨rfl, rfl⟩
    logId := rfl
    error := rfl
    state := ⟨_, rfl, rfl⟩
    success := congrArg Value.bool ending.isSuccess_eq
    tenant := rfl
    table := rfl
    before := rfl
    after := rfl }

/-! ## Firings that are over -/

/-- The stores work, rules are known by their ids, and no rule fires. -/
structure World.AtRest (w : World) : Prop where
  reliable : w.Reliable
  keyed : w.rules.Keyed
  idle : w.locks.queues = []

namespace Account

/-- What an entry comes to where the stores work: a report with a log and a note, or a refusal that
leaves nothing. -/
inductive Settled (event : Event) (a : Account) : Prop
  | fired (x : Fired) (hx : x.Agrees event) (hfound : x.found = a.firing.found)
      (hfireable : a.firing.found.isFireable = true)
      (hreport : a.firing.outcome? = some (.ok x.report)) (hwritten : a.written = some x.log)
      (hnote : a.note? = some x.note)
  | refused (hrefused : a.firing.found.isFireable = false)
      (houtcome : a.firing.outcome? = some (.error a.firing.found.refusal))
      (hwritten : a.written = none) (hnote : a.note? = none)

/-- Where the stores work, an entry of a firing that is over is settled. -/
theorem Sound.settled {a : Account} {reliable : Prop} {o : Occasion} (h : a.Sound reliable)
    (hreliable : reliable) (hid : Rules.checkId a.firing.rule.id = .ok ())
    (ho : a.firing.occasion = o) (hover : a.firing.outcome?.isSome = true) : a.Settled o.event := by
  subst ho
  have hfails : ∀ {p : Prop}, ¬ (reliable ∧ Rules.checkId a.firing.rule.id = .ok ()) → p :=
    fun hno => absurd ⟨hreliable, hid⟩ hno
  unfold Sound at h
  cases hp : a.firing.progress with
  | ended outcome =>
    have houtcome : a.firing.outcome? = some outcome := by unfold Firing.outcome?; rw [hp]
    rw [hp] at h
    cases outcome with
    | ok report =>
      obtain ⟨hc, state, log, hlog, hwritten, hnoted, rfl⟩ := h
      refine .fired ⟨a.firing.found, a.firing.report state log, log⟩ hlog.agrees rfl
        (Firing.fireable_iff.mp hc) houtcome hwritten ?_
      unfold note?
      rw [hnoted]
      rfl
    | error fault =>
      rcases h with ⟨hjudged, hactions, hblank⟩ | ⟨-, -, hfail, -⟩
      · obtain ⟨hrefused, rfl⟩ := Firing.refused hjudged hactions
        refine .refused hrefused houtcome hblank.1 ?_
        unfold note?
        rw [hblank.2]
        rfl
      · exact hfails hfail
  | _ => simp [Firing.outcome?, hp] at hover

end Account

/-! ## Firings of an event that are over -/

/-- What the entries of an event come to: these matches fired, with reports, logs and notes. -/
structure Balance (event : Event) (as : List Account) (fired : List Fired) : Prop where
  agrees : ∀ x ∈ fired, x.Agrees event
  written : as.filterMap (·.written) = fired.map (·.log)
  noted : as.filterMap Account.note? = fired.map Fired.note

namespace Balance

variable {event : Event} {a : Account} {as : List Account} {fired : List Fired} {x : Fired}

theorem nil (event : Event) : Balance event [] [] := ⟨by simp, rfl, rfl⟩

theorem cons (h : Balance event as fired) (hx : x.Agrees event) (hwritten : a.written = some x.log)
    (hnote : a.note? = some x.note) : Balance event (a :: as) (x :: fired) where
  agrees y hy := by
    rcases List.mem_cons.mp hy with rfl | hy
    · exact hx
    · exact h.agrees y hy
  written := by rw [List.filterMap_cons, hwritten, h.written, List.map_cons]
  noted := by rw [List.filterMap_cons, hnote, h.noted, List.map_cons]

theorem skip (h : Balance event as fired) (hwritten : a.written = none) (hnote : a.note? = none) :
    Balance event (a :: as) fired where
  agrees := h.agrees
  written := by rw [List.filterMap_cons, hwritten]; exact h.written
  noted := by rw [List.filterMap_cons, hnote]; exact h.noted

/-- Entries that are all settled: those that can fire did, and all outcomes together are their
reports or the first refusal. -/
theorem of_settled (h : ∀ a ∈ as, a.Settled event) :
    ∃ fired, fired.map (·.found) = (as.map (·.firing.found)).filter RuleMatch.isFireable ∧
      Balance event as fired ∧
      EventRun.gather (as.filterMap (·.firing.outcome?)) =
        match (as.map (·.firing.found)).find? (!·.isFireable) with
        | none => .ok (fired.map (·.report))
        | some m => .error m.refusal := by
  induction as with
  | nil => exact ⟨[], rfl, Balance.nil event, rfl⟩
  | cons a as ih =>
    obtain ⟨fired, hfound, hbalance, hgather⟩ := ih fun b hb => h b (List.mem_cons_of_mem a hb)
    rcases h a List.mem_cons_self with
      ⟨x, hx, hxa, hfireable, hreport, hwritten, hnote⟩ | ⟨hrefused, houtcome, hwritten, hnote⟩
    · refine ⟨x :: fired, ?_, hbalance.cons hx hwritten hnote, ?_⟩
      · rw [List.map_cons, List.map_cons, List.filter_cons_of_pos hfireable, hfound, hxa]
      · rw [List.map_cons, List.find?_cons_of_neg (by simp [hfireable]), List.filterMap_cons, hreport]
        simp only [EventRun.gather, hgather]
        split <;> rfl
    · refine ⟨fired, ?_, hbalance.skip hwritten hnote, ?_⟩
      · rw [List.map_cons, List.filter_cons_of_neg (by simp [hrefused]), hfound]
      · rw [List.map_cons, List.find?_cons_of_pos (by simp [hrefused]), List.filterMap_cons, houtcome]
        rfl

/-- Where no outcome is fatal, every match could fire. -/
theorem fireable_of_settled (h : ∀ a ∈ as, a.Settled event)
    (hno : ∀ x ∈ as.filterMap (·.firing.outcome?), EventRun.isFatal x = false) :
    ∀ m ∈ as.map (·.firing.found), m.isFireable = true := by
  intro m hm
  obtain ⟨a, ha, rfl⟩ := List.mem_map.mp hm
  rcases h a ha with ⟨_, _, _, hfireable, _, _, _⟩ | ⟨_, houtcome, _, _⟩
  · exact hfireable
  · have := hno _ (List.mem_filterMap.mpr ⟨a, ha, houtcome⟩)
    exact absurd this (by simp [EventRun.isFatal, RuleMatch.refusal])

/-- Nothing was begun behind the first entry that is not done. -/
theorem of_ready {reliable : Prop} (hsound : ∀ a ∈ as, a.Sound reliable)
    (hready : ∀ a ∈ as, a.firing.progress = .ready) :
    Balance event as [] ∧ as.filterMap (·.firing.outcome?) = [] := by
  have hblank : ∀ a ∈ as, a.Blank := fun a ha =>
    ((hsound a ha).early (Or.inl (by rw [hready a ha]; trivial))).1
  refine ⟨⟨by simp, ?_, ?_⟩, ?_⟩
  · exact List.filterMap_eq_nil_iff.mpr fun a ha => (hblank a ha).1
  · exact List.filterMap_eq_nil_iff.mpr fun a ha => by simp [Account.note?, (hblank a ha).2]
  · exact List.filterMap_eq_nil_iff.mpr fun a ha => by simp [Firing.outcome?, hready a ha]

/-- Entries in turn, of which one is fatal: those before the first that cannot fire did. -/
theorem of_fatal {reliable : Prop} (hsound : ∀ a ∈ as, a.Sound reliable)
    (hsettled : ∀ a ∈ as, a.firing.outcome?.isSome = true → a.Settled event)
    (hturn : as.Pairwise fun a b => a.Done ∨ b.firing.progress = .ready) {fault : Fault}
    (hfatal : (as.filterMap (·.firing.outcome?)).find? EventRun.isFatal = some (.error fault)) :
    ∃ fired, fired.map (·.found) = (as.map (·.firing.found)).takeWhile RuleMatch.isFireable ∧
      Balance event as fired ∧
      ∃ m, (as.map (·.firing.found)).find? (!·.isFireable) = some m ∧ fault = m.refusal := by
  induction as with
  | nil => exact absurd hfatal (by simp)
  | cons a as ih =>
    obtain ⟨hfirst, hrest⟩ := List.pairwise_cons.mp hturn
    have hlater := ih (fun b hb => hsound b (List.mem_cons_of_mem a hb))
      (fun b hb => hsettled b (List.mem_cons_of_mem a hb)) hrest
    -- What is behind an entry that is not done was not begun.
    have hbehind : ¬ a.Done → Balance event as [] ∧ as.filterMap (·.firing.outcome?) = [] :=
      fun hno => of_ready (fun b hb => hsound b (List.mem_cons_of_mem a hb))
        fun b hb => (hfirst b hb).resolve_left hno
    rw [List.filterMap_cons] at hfatal
    cases ho : a.firing.outcome? with
    | none =>
      rw [ho, (hbehind (by rintro ⟨outcome, h, -⟩; rw [ho] at h; exact absurd h (by simp))).2]
        at hfatal
      exact absurd hfatal (by simp)
    | some outcome =>
      rw [ho] at hfatal
      rcases hsettled a List.mem_cons_self (by rw [ho]; rfl) with
        ⟨x, hx, hxa, hfireable, hreport, hwritten, hnote⟩ | ⟨hrefused, houtcome, hwritten, hnote⟩
      · rw [hreport, Option.some.injEq] at ho
        rw [← ho, List.find?_cons_of_neg (by simp [EventRun.isFatal])] at hfatal
        obtain ⟨fired, hfound, hbalance, m, hm, hfault⟩ := hlater hfatal
        refine ⟨x :: fired, ?_, hbalance.cons hx hwritten hnote, m, ?_, hfault⟩
        · rw [List.map_cons, List.map_cons, List.takeWhile_cons_of_pos hfireable, hfound, hxa]
        · rw [List.map_cons, List.find?_cons_of_neg (by simp [hfireable])]
          exact hm
      · have hnot : ¬ a.Done := by
          rintro ⟨outcome', h, hno⟩
          rw [houtcome, Option.some.injEq] at h
          rw [← h] at hno
          exact absurd hno (by simp [EventRun.isFatal, RuleMatch.refusal])
        rw [houtcome, Option.some.injEq] at ho
        rw [← ho, List.find?_cons_of_pos (by simp [EventRun.isFatal, RuleMatch.refusal]),
          Option.some.injEq, Except.error.injEq] at hfatal
        refine ⟨[], ?_, (hbehind hnot).1.skip hwritten hnote, a.firing.found, ?_, hfatal.symm⟩
        · rw [List.map_cons, List.takeWhile_cons_of_neg (by simp [hrefused]), List.map_nil]
        · rw [List.map_cons, List.find?_cons_of_pos (by simp [hrefused])]

end Balance

/-! ## The stores behind an event -/

/-- The matches that fire: side by side all that can, in turn those before the first that cannot. -/
def Engine.fired (e : Engine) (found : List RuleMatch) : List RuleMatch :=
  if e.parallel then found.filter RuleMatch.isFireable else found.takeWhile RuleMatch.isFireable

theorem Engine.fired_sublist (e : Engine) (found : List RuleMatch) :
    (e.fired found).Sublist found := by
  unfold fired
  split
  · exact List.filter_sublist
  · exact List.takeWhile_sublist _

theorem Engine.fired_of_fireable {e : Engine} {found : List RuleMatch}
    (h : ∀ m ∈ found, m.isFireable = true) : e.fired found = found := by
  unfold fired
  split
  · exact List.filter_eq_self.mpr h
  · exact List.takeWhile_eq_self_iff.mpr h

/-- The two stores behind an event: a log and a note for each match that fired, and nothing else. The
logs stand in firing order where rules fire in turn. -/
structure Aftermath (e : Engine) (start : World) (event : Event) (fired : List Fired) (w : World) :
    Prop where
  agrees : ∀ x ∈ fired, x.Agrees event
  logs : ∃ rows, w.logs = start.logs ++ rows ∧ rows.Perm (fired.map (·.log)) ∧
    (e.parallel = false → rows = fired.map (·.log))
  rules : List.Forall₂ (fun r r' =>
    (∃ x ∈ fired, x.found.rule = r ∧ r' = r.noted x.log.executedAt) ∨
      (∀ x ∈ fired, x.found.rule ≠ r) ∧ r' = r) start.rules w.rules

section

variable {e : Engine} {event : Event} {start w : World} {fired : List Fired}

/-- Where the stores work, the entry of every firing that is over is settled. -/
theorem Books.settled {o : Occasion} {inTurn : Prop} {as : List Account}
    (hb : Books start o inTurn as w) (hw : start.AtRest) :
    ∀ a ∈ as, a.firing.outcome?.isSome = true → a.Settled o.event := by
  intro a ha hend
  have hmem : a.firing.found ∈ start.found o.event := by
    rw [← hb.found]
    exact List.mem_map_of_mem ha
  exact (hb.sound a ha).settled hw.reliable
    (hw.keyed.checked _ (World.mem_rules_of_mem_found hmem)) (hb.occasion a ha) hend

/-- Books that balance are an aftermath. -/
theorem Books.aftermath {o : Occasion} {as : List Account} (hv : o.event.Valid)
    (hw : start.AtRest) (hb : Books start o (e.parallel = false) as w)
    (hbalance : Balance o.event as fired)
    (hfound : (fired.map (·.found)).Sublist (start.found o.event)) :
    Aftermath e start o.event fired w where
  agrees := hbalance.agrees
  logs := by
    rw [← hbalance.written]
    exact hb.logs
  rules := by
    obtain ⟨notes, hrules, hperm⟩ := hb.rules
    rw [hbalance.noted] at hperm
    rw [hrules]
    exact World.heed_of_found hv hw.keyed hfound hperm

/-- **What an event that is over comes to and leaves behind**, however its firings interleaved. -/
theorem aftermath_of_run {r : EventRun} {outcome : Except Fault EventReport} (hv : event.Valid)
    (hw : start.AtRest) (h : Run e ({ event }, start) (r, w)) (ho : r.outcome? = some outcome) :
    ∃ fired, fired.map Fired.found = e.fired (start.found event) ∧
      Aftermath e start event fired w ∧
      outcome = match (start.found event).find? (!·.isFireable) with
        | none => .ok ⟨event.id, event.tenant,
            (start.rules.active event.tenant event.table).length, fired.map Fired.report⟩
        | some m => .error m.refusal := by
  obtain ⟨o, hof⟩ := hv.occasion
  have hstage := books_of_run hof h
  obtain rfl := hof.event
  cases hstage with
  | ended hP hover =>
    obtain ⟨as, rfl, hb⟩ := hP
    unfold EventRun.outcome? at ho
    rw [Option.some.injEq] at ho
    subst ho
    have hsettled := hb.settled hw
    have houtcomes : (as.map (·.firing)).filterMap Firing.outcome? =
        as.filterMap (·.firing.outcome?) := List.filterMap_map
    rcases Occasion.outcome?_cases hover with ⟨hseq, fault, rfl, hfatal⟩ | ⟨hall, hmode, heq⟩
    · rw [houtcomes] at hfatal
      obtain ⟨fired, hfound, hbalance, m, hm, rfl⟩ :=
        Balance.of_fatal hb.sound hsettled (hb.turns hseq) hfatal
      rw [hb.found] at hfound hm
      have hfired : fired.map Fired.found = e.fired (start.found o.event) := by
        rw [hfound, Engine.fired, hseq, if_neg (by simp)]
      refine ⟨fired, hfired, hb.aftermath hv hw hbalance ?_, by rw [hm]⟩
      rw [hfired]
      exact e.fired_sublist _
    · have hover' : ∀ a ∈ as, a.Settled o.event := fun a ha =>
        hsettled a ha (hall a.firing (List.mem_map_of_mem ha))
      rw [houtcomes] at hmode
      obtain ⟨fired, hfound, hbalance, hgather⟩ := Balance.of_settled hover'
      rw [hb.found] at hfound hgather
      have hfired : fired.map Fired.found = e.fired (start.found o.event) := by
        rcases hmode with hpar | hno
        · rw [hfound, Engine.fired, hpar, if_pos rfl]
        · -- No outcome is fatal, so every match fired.
          have hfireable := Balance.fireable_of_settled hover' hno
          rw [hb.found] at hfireable
          rw [hfound, Engine.fired_of_fireable hfireable, List.filter_eq_self.mpr hfireable]
      refine ⟨fired, hfired, hb.aftermath hv hw hbalance ?_, ?_⟩
      · rw [hfired]
        exact e.fired_sublist _
      · rw [heq, houtcomes, hgather]
        split <;> rfl
  | failed _ hfail _ => exact absurd hw.reliable hfail
  | _ => exact absurd ho (by simp [EventRun.outcome?])

end

/-! ## Guarantees -/

/-- What holds of an event however its firings interleave: it ends in the end, and when it does, its
outcome and the world then are as `post` says. -/
structure Engine.Guarantees (e : Engine) (event : Event) (start : World)
    (post : Except Fault EventReport → World → Prop) : Prop where
  process : post (e.process event start).1 (e.process event start).2
  ends : ∀ p, Run e ({ event }, start) p → ∃ q, Run e p q ∧ q.1.outcome?.isSome = true
  runs : ∀ r w outcome, Run e ({ event }, start) (r, w) → r.outcome? = some outcome → post outcome w

/-- What holds of all runs that are over is guaranteed. -/
theorem Engine.guarantees_of_runs {e : Engine} {event : Event} {start : World}
    {post : Except Fault EventReport → World → Prop} (hv : event.Valid) (hw : start.AtRest)
    (h : ∀ r w outcome, Run e ({ event }, start) (r, w) → r.outcome? = some outcome →
      post outcome w) : e.Guarantees event start post where
  process := by
    obtain ⟨r, hrun, ho⟩ := Engine.over_process (e := e) hv hw.keyed hw.idle
    exact h r _ _ hrun ho
  ends p hp := over_of_run hv hw.keyed hw.idle hp
  runs := h

end ChangeRules
