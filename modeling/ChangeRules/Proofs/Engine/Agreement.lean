import ChangeRules.Proofs.Engine.Interleaving
import ChangeRules.Proofs.Engine.Likeness

/-!
# Worlds that are the same to a tenant

An event reads the rules of its tenant and nothing else that is stored. In two worlds that differ in
the rules of other tenants, in the logs, in what is counted and in the identifiers that come next, the
same can happen to it, and the worlds behind it differ no more than that.

* `World.AgreeOn`: worlds that are the same to a tenant.
* **`Firing.agree_turn`**, **`EventRun.agree_turn`**: a turn does the same in such worlds.
* **`EventRun.Step.agree`**: whatever can happen in one of them can happen in the other one.
* **`agree_of_run`**, **`agree_process`**: so can every run, and the engine does the same.
-/

namespace ChangeRules

/-! ## Worlds that are the same to a tenant -/

namespace World

/-- Two worlds that are the same but for the rules of other tenants, the logs, what is counted, and
the identifiers that come next. -/
structure AgreeOn (tenant : Value) (w w' : World) : Prop where
  /-- The calls that were sent to sinks, the breakers and the clock. -/
  outlets : w'.outlets = w.outlets
  now : w'.now = w.now
  backend : w'.backend = w.backend
  outages : w'.outages = w.outages
  locks : w'.locks = w.locks
  /-- The tenant's rules, in their order. -/
  rules : w'.rules.filter (·.tenant.same tenant) = w.rules.filter (·.tenant.same tenant)

/-- Two worlds that are the same to a tenant and got the same logs since `start` and `start'`. -/
structure AgreeSince (tenant : Value) (start start' w w' : World) : Prop extends
    AgreeOn tenant w w' where
  logs : ∃ rows rows', w.logs = start.logs ++ rows ∧ w'.logs = start'.logs ++ rows' ∧
    List.Forall₂ ExecutionLog.Like rows rows'

/-- Related results, in worlds that are the same to a tenant. -/
def AgreeAfter {α β : Type} (tenant : Value) (start start' : World) (R : α → β → Prop)
    (p : α × World) (p' : β × World) : Prop :=
  R p.1 p'.1 ∧ AgreeSince tenant start start' p.2 p'.2

variable {tenant : Value} {start start' w w' : World}

theorem AgreeOn.since (h : AgreeOn tenant w w') : AgreeSince tenant w w' w w' :=
  { h with logs := ⟨[], [], by simp, by simp, .nil⟩ }

theorem AgreeOn.clock (h : AgreeOn tenant w w') : w'.clock = w.clock := by
  unfold World.clock
  rw [h.outlets]

theorem AgreeOn.elapsed (h : AgreeOn tenant w w') (started : Double) :
    Firing.elapsed started w' = Firing.elapsed started w := by
  unfold Firing.elapsed
  rw [h.clock]

end World

/-! ## Calls of stores -/

namespace Engine

open World

variable {α : Type} {tenant : Value} {start start' w w' : World}

/-- A call of a store comes to a related outcome if its job does. -/
theorem agree_guarded (e : Engine) (s : Store) (c : StoreCall) {R : α → α → Prop}
    {job job' : World → Except Fault α × World}
    (h : ∀ w w', AgreeSince tenant start start' w w' →
      AgreeAfter tenant start start' (OutcomeLike R) (job w) (job' w'))
    (hw : AgreeSince tenant start start' w w') :
    AgreeAfter tenant start start' (OutcomeLike R)
      (e.guarded s (World.call c job) w) (e.guarded s (World.call c job') w') := by
  have hlater : AgreeSince tenant start start' { w with outages := w.outages.advance c }
      { w' with outages := w'.outages.advance c } :=
    { hw with outages := congrArg (Outages.advance c) hw.outages }
  have hcall : AgreeAfter tenant start start' (OutcomeLike R)
      (World.call c job w) (World.call c job' w') := by
    unfold World.call
    rw [hw.backend, hw.outages] at *
    dsimp only
    split
    · exact ⟨.error _, hlater⟩
    · exact h _ _ hlater
    · exact ⟨.error _, hlater⟩
  refine ⟨?_, hcall.2⟩
  unfold guarded
  dsimp only
  have houtcome := hcall.1
  generalize (World.call c job w).1 = x at houtcome
  generalize (World.call c job' w').1 = x' at houtcome
  cases houtcome with
  | ok hR => exact .ok hR
  | error fault => cases fault <;> exact .error _

/-- The rules that are listed for a tenant are its own. -/
theorem agree_listActive (e : Engine) (table : Value)
    (hw : AgreeSince tenant start start' w w') :
    AgreeAfter tenant start start' (OutcomeLike Eq)
      (e.guarded .rules (World.listActive tenant table) w)
      (e.guarded .rules (World.listActive tenant table) w') := by
  have hactive : ∀ rules : Rules, rules.active tenant table = Rule.inOrder
      ((rules.filter (·.tenant.same tenant)).filter fun r =>
        r.isActive.truthy && Rules.concerns table r) := by
    intro rules
    rw [Rules.active, List.filter_filter]
    exact congrArg Rule.inOrder (List.filter_congr fun r _ => by
      rw [Bool.and_assoc, Bool.and_comm])
  refine e.agree_guarded .rules .listActive (fun w w' hw => ⟨.ok ?_, hw⟩) hw
  rw [hactive, hactive, hw.rules]

/-- A log is appended under whatever identifier. -/
theorem agree_appendLog (e : Engine) (l : ExecutionLog) (id : Value)
    (hw : AgreeSince tenant start start' w w') :
    AgreeAfter tenant start start' (OutcomeLike fun _ v => v = id)
      (e.guarded .logs (World.appendLog l) w)
      (e.guarded .logs (World.appendLog (l.identified id)) w') := by
  refine e.agree_guarded .logs .append (fun w w' hw => ⟨.ok rfl, ?_⟩) hw
  obtain ⟨rows, rows', hrows, hrows', hlike⟩ := hw.logs
  refine { hw with logs := ⟨rows ++ [l], rows' ++ [l.identified id], ?_, ?_, ?_⟩ }
  · simp [Logs.append, hrows]
  · simp [Logs.append, hrows']
  · exact List.rel_append hlike (.cons ⟨id, rfl⟩ .nil)

/-- A change of a rule of whatever tenant changes the rules of each tenant by themselves. -/
theorem agree_touchRule (e : Engine) (owner id : Value) (time : DateTime)
    (hw : AgreeSince tenant start start' w w') :
    AgreeAfter tenant start start' (OutcomeLike Eq)
      (e.guarded .rules (World.touchRule owner id time) w)
      (e.guarded .rules (World.touchRule owner id time) w') := by
  have htouch : ∀ rules : Rules, (rules.touch owner id time).filter (·.tenant.same tenant) =
      Rules.touch owner id time (rules.filter (·.tenant.same tenant)) := by
    intro rules
    rw [Rules.touch, Rules.change, List.filter_map]
    refine congrArg (List.map _) (List.filter_congr fun r _ => ?_)
    dsimp only [Function.comp]
    split <;> rfl
  unfold World.touchRule World.changeRules
  refine e.agree_guarded .rules .touch (fun w w' hw => ?_) hw
  split
  · refine ⟨.ok rfl, { hw with rules := ?_ }⟩
    dsimp only
    rw [htouch, htouch, hw.rules]
  · exact ⟨.error _, hw⟩

end Engine

/-! ## Turns of firings -/

namespace Firing

open World

variable {e : Engine} {tenant : Value} {start start' w w' : World} {f f' : Firing}

theorem agree_conclude (f : Firing) (ending : Ending) (milliseconds : Double)
    (hw : AgreeSince tenant start start' w w') :
    AgreeAfter tenant start start' Like (f.conclude ending milliseconds w)
      (f.conclude ending milliseconds w') := by
  refine ⟨⟨.text (Identifier.text w'.ids), ?_⟩, { hw with }⟩
  unfold conclude freshId
  dsimp only
  rw [hw.now]
  rfl

theorem agree_endActions (f : Firing) (c : Course) (hw : AgreeSince tenant start start' w w') :
    AgreeAfter tenant start start' Like (f.endActions c w) (f.endActions c w') := by
  unfold endActions
  rw [hw.elapsed]
  exact agree_conclude f _ _ hw

theorem agree_note (c : Course) (r : ActionResult) (hw : AgreeSince tenant start start' w w') :
    AgreeSince tenant start start' (note c r w).2 (note c r w').2 := { hw with }

theorem agree_next (f : Firing) (c : Course) (hw : AgreeSince tenant start start' w w') :
    AgreeAfter tenant start start' Like (f.next c w) (f.next c w') := by
  unfold next
  split
  · exact agree_endActions f c hw
  · dsimp only
    rw [hw.clock]
    split
    · exact ⟨⟨.null, rfl⟩, hw⟩
    · exact agree_endActions f _ (agree_note _ _ hw)

theorem agree_proceed (limit : Number) (f : Firing) (c : Course) (a : Attempt)
    (outcome : Except Fault Value) (hw : AgreeSince tenant start start' w w') :
    AgreeAfter tenant start start' Like (f.proceed limit c a outcome w)
      (f.proceed limit c a outcome w') := by
  unfold proceed
  dsimp only
  rw [hw.clock]
  split
  · exact agree_next f _ (agree_note _ _ hw)
  · exact agree_endActions f _ (agree_note _ _ hw)

/-- The rule is given back in both worlds. -/
theorem agree_finish {outcome outcome' : Except Fault FiringReport}
    (h : (f.moved (.ended outcome)).Like (f'.moved (.ended outcome')))
    (hrule : f'.rule.id = f.rule.id) (hticket : f'.ticket = f.ticket)
    (hw : AgreeSince tenant start start' w w') :
    AgreeAfter tenant start start' Like (f.finish outcome w) (f'.finish outcome' w') := by
  refine ⟨h, { hw with locks := ?_ }⟩
  dsimp only [finish]
  rw [hw.locks, hrule, hticket]

theorem agree_begin (f : Firing) (hw : AgreeSince tenant start start' w w') :
    AgreeAfter tenant start start' Like (f.begin e w) (f.begin e w') := by
  unfold begin
  split
  · exact agree_conclude f _ _ hw
  · split
    · exact agree_finish ⟨.null, rfl⟩ rfl rfl hw
    · split
      · rw [hw.clock, hw.elapsed]
        exact agree_conclude f _ _ hw
      · rw [hw.clock]
        exact agree_next f _ hw

theorem agree_await (f : Firing) (hw : AgreeSince tenant start start' w w') :
    AgreeAfter tenant start start' Like (f.await e w) (f.await e w') := by
  unfold await
  rw [hw.locks]
  split
  · exact agree_begin f hw
  · exact ⟨⟨.null, rfl⟩, hw⟩

/-- **A turn of a firing does the same in worlds that are the same to a tenant.** -/
theorem agree_turn (hf : f.Like f') (hw : AgreeSince tenant start start' w w') :
    AgreeAfter tenant start start' Like (f.turn e w) (f'.turn e w') := by
  obtain ⟨id, rfl⟩ := hf
  obtain ⟨found, occasion, ticket, progress⟩ := f
  unfold turn
  cases progress with
  | ready =>
    dsimp only [moved, FiringProgress.identified, rule]
    rw [hw.locks]
    exact agree_await _ { hw with locks := rfl }
  | queued => exact agree_await _ hw
  | acting c a action =>
    dsimp only [moved, FiringProgress.identified]
    rw [hw.outlets]
    exact ⟨⟨.null, rfl⟩, { hw with outlets := rfl }⟩
  | acted c a outcome => exact agree_proceed e.actionLimit _ c a outcome hw
  | logging state log =>
    have h := e.agree_appendLog log id hw
    exact ⟨⟨id, congrArg (fun x => Firing.mk found occasion ticket
      (.logged state (log.identified id) x)) h.1.eq_map⟩, h.2⟩
  | logged state log outcome =>
    cases outcome with
    | ok v => exact ⟨⟨id, rfl⟩, hw⟩
    | error fault => exact agree_finish ⟨id, rfl⟩ rfl rfl hw
  | touching state log =>
    have h := e.agree_touchRule found.rule.tenant found.rule.id log.executedAt hw
    exact ⟨⟨id, congrArg (fun x => Firing.mk found occasion ticket
      (.touched state (log.identified id) x)) h.1.eq⟩, h.2⟩
  | touched state log outcome =>
    cases outcome with
    | ok u =>
      exact ⟨⟨id, rfl⟩,
        { hw with locks := congrArg (RuleLocks.leave found.rule.id ticket) hw.locks }⟩
    | error fault => exact agree_finish ⟨id, rfl⟩ rfl rfl hw
  | ended outcome => exact ⟨⟨id, rfl⟩, hw⟩

/-- What can happen to a firing can happen in each world that is the same to the tenant. -/
theorem Step.agree {g : Firing} {v : World} (h : f.Step e w g v) (hf : f.Like f')
    (hw : AgreeSince tenant start start' w w') :
    ∃ g' v', f'.Step e w' g' v' ∧ AgreeAfter tenant start start' Like (g, v) (g', v') := by
  cases h with
  | turn => exact ⟨_, _, .turn f' w', agree_turn hf hw⟩
  | @act c a action hp outcome outlets =>
    obtain ⟨id, rfl⟩ := hf
    have hp' : (f.moved (f.progress.identified id)).progress = .acting c a action := by
      rw [hp]
      rfl
    exact ⟨_, _, .act hp' outcome outlets, ⟨.null, rfl⟩, { hw with outlets := rfl }⟩

end Firing

/-! ## Turns of events -/

namespace EventRun

open World

variable {e : Engine} {tenant : Value} {start start' w w' : World} {r r' : EventRun}
  {fs fs' : List Firing}

/-- An event of a tenant, which lists the rules of this tenant. -/
def IsOf (tenant : Value) (r : EventRun) : Prop :=
  r.event.tenant = tenant ∧ ∀ o, r.progress = .listing o → o.event.tenant = tenant

theorem isOf_settle (h : r.IsOf tenant) (n : Nat) (fs : List Firing) :
    (r.settle e n fs).IsOf tenant := by
  unfold settle
  split <;> exact ⟨h.1, fun o ho => by simp [moved] at ho⟩

theorem isOf_turn (h : r.IsOf tenant) (w : World) : (r.turn e w).1.IsOf tenant := by
  unfold turn
  split
  · unfold arrive
    split
    · exact ⟨h.1, fun o ho => by simp [moved] at ho⟩
    · dsimp only
      split
      · exact ⟨h.1, fun o ho => by simp [moved] at ho⟩
      · refine ⟨h.1, fun o ho => ?_⟩
        simp only [moved, EventProgress.listing.injEq] at ho
        rw [← ho]
        exact h.1
  · exact ⟨h.1, fun o ho => by simp [moved] at ho⟩
  · exact ⟨h.1, fun o ho => by simp [moved] at ho⟩
  · exact isOf_settle h _ _
  · exact isOf_settle h _ _
  · exact h

theorem agree_takeTurns (h : List.Forall₂ Firing.Like fs fs')
    (hw : AgreeSince tenant start start' w w') :
    AgreeAfter tenant start start' (List.Forall₂ Firing.Like)
      (takeTurns (Firing.turn e) fs w) (takeTurns (Firing.turn e) fs' w') := by
  induction h generalizing w w' with
  | nil => exact ⟨.nil, hw⟩
  | cons hf _ ih =>
    obtain ⟨hturn, hw⟩ := Firing.agree_turn (e := e) hf hw
    obtain ⟨hturns, hw⟩ := ih hw
    exact ⟨.cons hturn hturns, hw⟩

theorem agree_firstTurn (h : List.Forall₂ Firing.Like fs fs')
    (hw : AgreeSince tenant start start' w w') :
    AgreeAfter tenant start start' (List.Forall₂ Firing.Like) (firstTurn e fs w)
      (firstTurn e fs' w') := by
  induction h with
  | nil => exact ⟨.nil, hw⟩
  | cons hf hfs ih =>
    unfold firstTurn
    rw [Firing.isSome_outcome?_of_like hf]
    split
    · exact ⟨.cons hf ih.1, ih.2⟩
    · obtain ⟨hturn, hw⟩ := Firing.agree_turn (e := e) hf hw
      exact ⟨.cons hturn hfs, hw⟩

theorem agree_arrive (r : EventRun) (hw : AgreeSince tenant start start' w w') :
    AgreeAfter tenant start start' Like (r.arrive w) (r.arrive w') := by
  unfold arrive
  split
  · exact ⟨.same (by simp [moved]), hw⟩
  · dsimp only
    split
    · exact ⟨.same (by simp [moved]), { hw with }⟩
    · exact ⟨.same (by simp [moved]), { hw with }⟩

/-- **A turn of an event does the same in worlds that are the same to its tenant.** -/
theorem agree_turn (hr : r.Like r') (hof : r.IsOf tenant)
    (hw : AgreeSince tenant start start' w w') :
    AgreeAfter tenant start start' Like (r.turn e w) (r'.turn e w') := by
  cases hr with
  | same hno =>
    unfold turn
    split
    · exact agree_arrive r hw
    · next o ho =>
      rw [hof.2 o ho]
      obtain ⟨hlisted, hw⟩ := e.agree_listActive o.event.table hw
      dsimp only
      rw [hlisted.eq]
      exact ⟨.same (by simp [moved]), hw⟩
    · exact ⟨.same (by simp [moved]), hw⟩
    · exact ⟨like_settle rfl (like_firings _ _), hw⟩
    · next n fs hp => exact absurd hp (hno n fs)
    · exact ⟨.same hno, hw⟩
  | @firing event n fs fs' hfs =>
    unfold turn
    dsimp only
    split
    · obtain ⟨hturns, hw⟩ := agree_takeTurns (e := e) hfs hw
      exact ⟨like_settle rfl hturns, hw⟩
    · obtain ⟨hturns, hw⟩ := agree_firstTurn (e := e) hfs hw
      exact ⟨like_settle rfl hturns, hw⟩
  | ended houtcome => exact ⟨.ended houtcome, hw⟩

theorem isOf_turns (k : Nat) (h : r.IsOf tenant) (w : World) :
    (turns e k r w).1.IsOf tenant := by
  induction k generalizing r w with
  | zero => exact h
  | succ k ih => exact ih (isOf_turn h w) _

/-- **So many turns do the same in worlds that are the same to the tenant.** -/
theorem agree_turns (k : Nat) (hr : r.Like r') (hof : r.IsOf tenant)
    (hw : AgreeSince tenant start start' w w') :
    AgreeAfter tenant start start' Like (turns e k r w) (turns e k r' w') := by
  induction k generalizing r r' w w' with
  | zero => exact ⟨hr, hw⟩
  | succ k ih =>
    obtain ⟨hturn, hw'⟩ := agree_turn (e := e) hr hof hw
    exact ih hturn (isOf_turn hof w) hw'

/-! ## Steps -/

theorem over_of_like (h : List.Forall₂ Firing.Like fs fs')
    (hover : ∀ f ∈ fs, f.outcome?.isSome = true) : ∀ f ∈ fs', f.outcome?.isSome = true := by
  induction h with
  | nil => exact hover
  | cons hf _ ih =>
    obtain ⟨hfirst, hrest⟩ := List.forall_mem_cons.mp hover
    exact List.forall_mem_cons.mpr
      ⟨(Firing.isSome_outcome?_of_like hf).trans hfirst, ih hrest⟩

/-- Where a firing stands in a row, there is one like it in a row of like firings. -/
theorem exists_like {before behind : List Firing} {f : Firing}
    (h : List.Forall₂ Firing.Like (before ++ f :: behind) fs') :
    ∃ before' f' behind', fs' = before' ++ f' :: behind' ∧ f.Like f' ∧
      List.Forall₂ Firing.Like before before' ∧ List.Forall₂ Firing.Like behind behind' := by
  induction before generalizing fs' with
  | nil =>
    obtain ⟨f', behind', hf, hbehind, rfl⟩ := List.forall₂_cons_left_iff.mp h
    exact ⟨[], f', behind', rfl, hf, .nil, hbehind⟩
  | cons g before ih =>
    obtain ⟨g', rest, hg, hrest, rfl⟩ := List.forall₂_cons_left_iff.mp h
    obtain ⟨before', f', behind', rfl, hf, hbefore, hbehind⟩ := ih hrest
    exact ⟨g' :: before', f', behind', rfl, hf, .cons hg hbefore, hbehind⟩

/-- **Whatever happens to an event can happen in each world that is the same to its tenant.** -/
theorem Step.agree {p q p' : EventRun × World} (h : Step e p q) (hof : p.1.IsOf tenant)
    (hp : AgreeAfter tenant start start' Like p p') :
    ∃ q', Step e p' q' ∧ q.1.IsOf tenant ∧ AgreeAfter tenant start start' Like q q' := by
  obtain ⟨r', w'⟩ := p'
  obtain ⟨hr, hw⟩ := hp
  cases h with
  | @turn r w hno =>
    refine ⟨_, .turn ?_, isOf_turn hof w, agree_turn hr hof hw⟩
    cases hr with
    | same _ => exact hno
    | firing _ => exact absurd rfl (hno _ _)
    | ended _ => simp
  | @fire r w v n before behind f g hprog hopen hturn hstep =>
    cases hr with
    | same hno => exact absurd hprog (hno _ _)
    | ended _ => exact absurd hprog (by simp)
    | firing hfs =>
      simp only [EventProgress.firing.injEq] at hprog
      obtain ⟨rfl, rfl⟩ := hprog
      obtain ⟨before', f', behind', rfl, hf, hbefore, hbehind⟩ := exists_like hfs
      obtain ⟨g', v', hstep', hg, hv⟩ := hstep.agree hf hw
      refine ⟨_, .fire rfl ?_ (hturn.imp_right (over_of_like hbefore)) hstep',
        isOf_settle hof _ _, like_settle rfl (List.rel_append hbefore (.cons hg hbehind)), hv⟩
      have hsome := Firing.isSome_outcome?_of_like hf
      rw [hopen] at hsome
      exact Option.isNone_iff_eq_none.mp (by simpa using hsome)
  | drift r w now outlets =>
    exact ⟨_, .drift r' w' now outlets, hof, hr, { hw with now := rfl, outlets := rfl }⟩

end EventRun

/-- **Every run of an event is matched in each world that is the same to its tenant.** -/
theorem agree_of_run {e : Engine} {tenant : Value} {event : Event} {start start' : World}
    (ht : event.tenant = tenant) (hw : World.AgreeOn tenant start start') {p : EventRun × World}
    (h : Run e ({ event }, start) p) :
    ∃ p', Run e ({ event }, start') p' ∧ World.AgreeAfter tenant start start' EventRun.Like p p' := by
  suffices hsim : p.1.IsOf tenant ∧ ∃ p', Run e ({ event }, start') p' ∧
      World.AgreeAfter tenant start start' EventRun.Like p p' from hsim.2
  induction h with
  | refl => exact ⟨⟨ht, by simp⟩, _, Relation.ReflTransGen.refl, .same (by simp), hw.since⟩
  | tail _ hstep ih =>
    obtain ⟨hof, p', hrun, hlike⟩ := ih
    obtain ⟨q', hstep', hof', hlike'⟩ := hstep.agree hof hlike
    exact ⟨hof', q', hrun.tail hstep', hlike'⟩

/-- **What the engine does with an event is the same in worlds that are the same to its tenant.** -/
theorem agree_process (e : Engine) {tenant : Value} {event : Event} {start start' : World}
    (ht : event.tenant = tenant) (hw : World.AgreeOn tenant start start') :
    World.AgreeAfter tenant start start' (OutcomeLike EventReport.Like) (e.process event start)
      (e.process event start') := by
  have hof : EventRun.IsOf tenant { event } := ⟨ht, by simp⟩
  obtain ⟨hbegun, hw⟩ := EventRun.agree_turns (e := e) Engine.roundsToFire
    (.same (r := { event }) (by simp)) hof hw.since
  have hof' : (e.begun event start).1.IsOf tenant :=
    EventRun.isOf_turns Engine.roundsToFire hof start
  rw [e.process_eq, e.process_eq]
  have hweight := hbegun.weight_eq
  dsimp only [Engine.begun] at hof' ⊢
  rw [hweight]
  obtain ⟨hended, hw⟩ := EventRun.agree_turns (e := e) _ hbegun hof' hw
  exact ⟨hended.outcome, hw⟩

end ChangeRules
