import ChangeRules.Proofs.Engine.Live
import ChangeRules.Proofs.Engine.Progress
import ChangeRules.Proofs.Engine.Timeless

/-!
# Logs that can be foretold

Where the outlets are calm, the ending of every firing is known before the event begins: it is what
comes of dispatching the actions of its rule alone. However the firings interleave, each one is always
on its way to this ending, its request to the answer that is due, and the outlets stay calm.

* `RuleMatch.dueEnding`, `RuleMatch.dueLog`: what the firing of a match comes to.
* `Firing.IsDue`: a firing is on its way there.
* **`Firing.LiveStep.isDue`**: whatever happens to a firing, it stays on its way, and the outlets stay
  calm.
* **`LiveEvent.sound_of_run`**: so it is in every run of a live event, and every log that is written
  is the one that is due for a match.
-/

namespace ChangeRules

/-! ## What is due for a match -/

namespace RuleMatch

/-- The ending of a firing whose actions are dispatched alone. -/
def dueEnding (e : Engine) (o : Occasion) (outlets : Outlets) (m : RuleMatch) : Ending :=
  match m.error, e.broken with
  | some err, _ => .unjudged err
  | none, some fault => .broke fault
  | none, none =>
    .ran ((dispatch e.actionLimit (.ofFiring m.rule o.event o.recordId) m.rule.actions
      outlets).1.toOption.getD [])

/-- The log of this ending, without an identifier and times. -/
def dueLog (e : Engine) (o : Occasion) (outlets : Outlets) (m : RuleMatch) : ExecutionLog :=
  (Firing.log { found := m, occasion := o } (m.dueEnding e o outlets) .zero "" default).timeless

end RuleMatch

/-! ## Calls of stores -/

namespace Engine

variable {α : Type}

/-- A call of a store leaves the outlets alone if its job does. -/
theorem outlets_guarded (e : Engine) (s : Store) (c : StoreCall)
    {job : World → Except Fault α × World} (hjob : ∀ w, (job w).2.outlets = w.outlets) (w : World) :
    (e.guarded s (World.call c job) w).2.outlets = w.outlets := by
  unfold guarded World.call
  dsimp only
  split
  · rfl
  · exact hjob _
  · rfl

theorem outlets_listActive (e : Engine) (tenant table : Value) (w : World) :
    (e.guarded .rules (World.listActive tenant table) w).2.outlets = w.outlets :=
  outlets_guarded e .rules .listActive (fun _ => rfl) w

theorem outlets_appendLog (e : Engine) (l : ExecutionLog) (w : World) :
    (e.guarded .logs (World.appendLog l) w).2.outlets = w.outlets :=
  outlets_guarded e .logs .append (fun _ => rfl) w

theorem outlets_touchRule (e : Engine) (tenant id : Value) (time : DateTime) (w : World) :
    (e.guarded .rules (World.touchRule tenant id time) w).2.outlets = w.outlets := by
  unfold World.touchRule World.changeRules
  exact outlets_guarded e .rules .touch (fun w => by dsimp only; split <;> rfl) w

end Engine

/-! ## Firings on their way -/

namespace Firing

/-- The ending that is due for a firing. -/
def dueEnding (e : Engine) (outlets : Outlets) (f : Firing) : Ending :=
  f.found.dueEnding e f.occasion outlets

/-- With the results so far and those of dispatching the rest alone, a firing ends as is due. -/
def OnTrack (e : Engine) (outlets : Outlets) (f : Firing) (results : List ActionResult)
    (rest : List Value) : Prop :=
  (Ending.ran (results ++
    (dispatchFrom e.actionLimit f.context results.length rest outlets).1)).timeless =
      (f.dueEnding e outlets).timeless

/-- An action of a firing is under way that keeps the firing on track. -/
def Performs (e : Engine) (outlets : Outlets) (f : Firing) (c : Course) (a : Attempt)
    (action : Action) : Prop :=
  ∃ stored started, a = Attempt.prepare f.context started c.results.length stored ∧
    a.action = .ok action ∧ f.OnTrack e outlets c.results (stored :: c.rest)

/-- A request is made for an action, and is on its way to the answer that is due. -/
def ServesDue (answer : Request → Response) (outlets : Outlets) (f : Firing) (action : Action)
    (t : Trip) : Prop :=
  action.plan f.context outlets = .errand t.errand ∧
    t.errand.outlet.IsDue outlets.settings answer t.errand.request t.call

/-- A firing is on its way to the ending that is due, and its request to the answer that is due. -/
def IsDue (e : Engine) (answer : Request → Response) (outlets : Outlets) (f : Firing)
    (trip : Option Trip) : Prop :=
  match f.progress with
  | .acting c a action =>
    f.Performs e outlets c a action ∧ ∀ t, trip = some t → f.ServesDue answer outlets action t
  | .acted c a outcome => trip = none ∧ ∃ action, f.Performs e outlets c a action ∧
      outcome = (Attempt.perform f.context action outlets).1
  | .logging _ log => trip = none ∧ log.timeless = f.found.dueLog e f.occasion outlets
  | _ => trip = none

variable {e : Engine} {answer : Request → Response} {outlets : Outlets} {f : Firing} {w : World}
  {c : Course} {ending : Ending} {results : List ActionResult} {stored : Value} {rest : List Value}

/-- A firing that gets on, waits for no answer, and leaves the outlets alone. -/
structure GetsOn (e : Engine) (answer : Request → Response) (outlets : Outlets) (w : World)
    (p : Firing × World) : Prop where
  due : p.1.IsDue e answer outlets none
  outlets : p.2.outlets = w.outlets

theorem getsOn_conclude (h : ending.timeless = (f.dueEnding e outlets).timeless)
    (milliseconds : Double) (w : World) :
    GetsOn e answer outlets w (f.conclude ending milliseconds w) where
  due := ⟨rfl, f.timeless_log h _ _ _ _ _ _⟩
  outlets := rfl

/-- The metrics are not part of the outlets. -/
theorem GetsOn.of_note {r : ActionResult} {p : Firing × World}
    (h : GetsOn e answer outlets (note c r w).2 p) : GetsOn e answer outlets w p :=
  ⟨h.due, h.outlets⟩

theorem OnTrack.ended (h : f.OnTrack e outlets results []) :
    (Ending.ran results).timeless = (f.dueEnding e outlets).timeless := by
  unfold OnTrack at h
  simpa only [dispatchFrom, List.append_nil] using h

/-- The results behind one more action, if it comes to `r` but for its time. -/
theorem OnTrack.failed {r : ActionResult} (h : f.OnTrack e outlets results (stored :: rest))
    (hr : r.timeless =
      (runAction e.actionLimit f.context results.length stored outlets).1.timeless)
    (hfailed : r.isSuccess = false) :
    (Ending.ran (results ++ [r])).timeless = (f.dueEnding e outlets).timeless := by
  have hsame : (runAction e.actionLimit f.context results.length stored outlets).1.isSuccess =
      false := by
    rw [← ActionResult.isSuccess_timeless, ← hr, ActionResult.isSuccess_timeless, hfailed]
  unfold OnTrack at h
  rw [dispatchFrom_cons_of_failed hsame] at h
  rw [← h]
  simp only [Ending.timeless, List.map_append, List.map_cons, List.map_nil, hr]

theorem OnTrack.next {s : OutletSettings} {r : ActionResult} (hcalm : outlets.Calm s answer)
    (h : f.OnTrack e outlets results (stored :: rest))
    (hr : r.timeless =
      (runAction e.actionLimit f.context results.length stored outlets).1.timeless)
    (hok : r.isSuccess = true) : f.OnTrack e outlets (results ++ [r]) rest := by
  have hsame : (runAction e.actionLimit f.context results.length stored outlets).1.isSuccess =
      true := by
    rw [← ActionResult.isSuccess_timeless, ← hr, ActionResult.isSuccess_timeless, hok]
  unfold OnTrack at h ⊢
  rw [dispatchFrom_cons_of_success hsame] at h
  rw [← h]
  simp only [Ending.timeless, List.map_append, List.map_cons, hr, List.append_assoc,
    List.singleton_append, List.length_append, List.length_singleton]
  rw [hcalm.calm_runAction.timeless_dispatchFrom hcalm]

theorem getsOn_next (h : f.OnTrack e outlets c.results c.rest) (w : World) :
    GetsOn e answer outlets w (f.next c w) := by
  unfold Firing.next
  split
  · next hrest =>
    rw [hrest] at h
    exact getsOn_conclude h.ended _ w
  · next stored later hrest =>
    rw [hrest] at h
    dsimp only
    split
    · next action haction =>
      exact ⟨⟨⟨stored, w.clock, rfl, haction, h⟩, by simp⟩, rfl⟩
    · next err herr =>
      -- An action that cannot be read fails wherever it is run.
      have hr : ((Attempt.prepare f.context w.clock c.results.length stored).refuse err
          w.clock).timeless =
            (runAction e.actionLimit f.context c.results.length stored outlets).1.timeless := by
        have herr' : (Attempt.prepare f.context outlets.network.clock c.results.length
            stored).action = .error err := herr
        rw [runAction_of_unread herr']
        rfl
      exact (getsOn_conclude (h.failed hr rfl) _ _).of_note

theorem getsOn_proceed {s : OutletSettings} {a : Attempt} {action : Action}
    (hcalm : outlets.Calm s answer) (h : f.Performs e outlets c a action) (w : World) :
    GetsOn e answer outlets w
      (f.proceed e.actionLimit c a (Attempt.perform f.context action outlets).1 w) := by
  obtain ⟨stored, started, rfl, haction, htrack⟩ := h
  have haction' : (Attempt.prepare f.context outlets.network.clock c.results.length
      stored).action = .ok action := haction
  generalize hr : (Attempt.prepare f.context started c.results.length stored).conclude
    ((Attempt.perform f.context action outlets).1.mapError
      ((Attempt.prepare f.context started c.results.length stored).errorOf e.actionLimit))
    w.clock = r
  have hsame : r.timeless =
      (runAction e.actionLimit f.context c.results.length stored outlets).1.timeless := by
    rw [runAction_of_read haction', ← hr]
    rfl
  unfold proceed
  dsimp only
  rw [hr]
  split
  · next hok =>
    exact (getsOn_next (c := { c with results := c.results ++ [r] })
      (htrack.next hcalm hsame hok) _).of_note
  · next hfailed =>
    exact (getsOn_conclude (htrack.failed hsame (by simpa using hfailed)) _ _).of_note

theorem stored_of_actions {actions : List Value} (h : f.actions = .ok actions) :
    storedActions f.rule.actions = .ok actions := by
  unfold Firing.actions at h
  cases hstored : storedActions f.rule.actions with
  | ok vs =>
    rw [hstored] at h
    exact h
  | error fault =>
    rw [hstored] at h
    cases h

theorem getsOn_begin (f : Firing) (w : World) : GetsOn e answer outlets w (f.begin e w) := by
  unfold Firing.begin
  split
  · next err herr =>
    refine getsOn_conclude ?_ _ w
    unfold dueEnding RuleMatch.dueEnding
    rw [herr]
  · next hjudged =>
    split
    · exact ⟨rfl, rfl⟩
    · next actions hactions =>
      split
      · next fault hbroken =>
        refine getsOn_conclude ?_ _ w
        unfold dueEnding RuleMatch.dueEnding
        rw [hjudged, hbroken]
      · next hworking =>
        refine getsOn_next (c := ⟨w.clock, [], actions⟩) ?_ w
        have hdispatch : (dispatch e.actionLimit f.context f.rule.actions outlets).1 =
            .ok (dispatchFrom e.actionLimit f.context 0 actions outlets).1 := by
          unfold dispatch
          rw [stored_of_actions hactions]
        unfold OnTrack dueEnding RuleMatch.dueEnding
        rw [hjudged, hworking]
        exact congrArg (fun outcome => (Ending.ran (outcome.toOption.getD [])).timeless)
          hdispatch.symm

theorem getsOn_await (f : Firing) (w : World) : GetsOn e answer outlets w (f.await e w) := by
  unfold await
  split
  · exact getsOn_begin f w
  · exact ⟨rfl, rfl⟩

/-- A firing that performs no action waits for no answer. -/
theorem IsDue.trip_eq {trip : Option Trip} (h : f.IsDue e answer outlets trip)
    (hno : ∀ c a action, f.progress ≠ .acting c a action) : trip = none := by
  unfold IsDue at h
  cases hp : f.progress with
  | acting c a action => exact absurd hp (hno c a action)
  | acted c a outcome => rw [hp] at h; exact h.1
  | logging state log => rw [hp] at h; exact h.1
  | _ => rw [hp] at h; exact h

/-- A firing that performs no action gets on in its turn. -/
theorem IsDue.getsOn_turn {s : OutletSettings} (hcalm : outlets.Calm s answer)
    (h : f.IsDue e answer outlets none) (hno : ∀ c a action, f.progress ≠ .acting c a action)
    (w : World) : GetsOn e answer outlets w (f.turn e w) := by
  unfold Firing.turn
  cases hp : f.progress with
  | ready =>
    have hawait (f : Firing) (w : World) : GetsOn e answer outlets w (f.await e w) :=
      getsOn_await f w
    exact ⟨(hawait _ _).due, (hawait _ _).outlets⟩
  | queued => exact getsOn_await f w
  | acting c a action => exact absurd hp (hno c a action)
  | acted c a outcome =>
    unfold IsDue at h
    rw [hp] at h
    obtain ⟨-, action, hperforms, rfl⟩ := h
    exact getsOn_proceed hcalm hperforms w
  | logging state log => exact ⟨rfl, Engine.outlets_appendLog e log w⟩
  | logged state log outcome => cases outcome <;> exact ⟨rfl, rfl⟩
  | touching state log => exact ⟨rfl, Engine.outlets_touchRule e _ _ _ w⟩
  | touched state log outcome => cases outcome <;> exact ⟨rfl, rfl⟩
  | ended outcome => exact ⟨h, rfl⟩

theorem isDue_acting_iff {a : Attempt} {action : Action} {trip : Option Trip}
    (hp : f.progress = .acting c a action) : f.IsDue e answer outlets trip ↔
      f.Performs e outlets c a action ∧ ∀ t, trip = some t → f.ServesDue answer outlets action t := by
  unfold IsDue
  rw [hp]

theorem isDue_acting {a : Attempt} {action : Action} {t : Trip} (hp : f.progress = .acting c a action)
    (hperforms : f.Performs e outlets c a action) (hserves : f.ServesDue answer outlets action t) :
    f.IsDue e answer outlets (some t) :=
  (isDue_acting_iff hp).mpr ⟨hperforms, fun _ heq => Option.some.inj heq ▸ hserves⟩

/-- An action that came to what is due is over as is due. -/
theorem isDue_acted {s : OutletSettings} {a : Attempt} {action : Action}
    {outcome : Except Fault Value} (hcalm : outlets.Calm s answer)
    (hperforms : f.Performs e outlets c a action)
    (hdue : outcome = (action.plan f.context outlets).due s answer) :
    (f.moved (.acted c a (Fault.withinLimit outcome))).IsDue e answer outlets none := by
  refine ⟨rfl, action, hperforms, ?_⟩
  change _ = (Attempt.perform f.context action outlets).1
  rw [(hcalm.perform f.context action).2, hdue]

/-- **Whatever happens to a firing, it stays on its way, and the outlets stay calm.** -/
theorem LiveStep.isDue {s : OutletSettings} {trip trip' : Option Trip} {f' : Firing} {w' : World}
    (hstep : f.LiveStep e trip w f' trip' w') (hcalm : outlets.Calm s answer)
    (hw : w.outlets.Calm s answer) (h : f.IsDue e answer outlets trip) :
    f'.IsDue e answer outlets trip' ∧ w'.outlets.Calm s answer := by
  have hplans : ∀ action : Action, action.plan f.context w.outlets = action.plan f.context outlets :=
    fun action => Action.plan_congr (hw.settings.trans hcalm.settings.symm) f.context action
  cases hstep with
  | turn trip hno =>
    obtain rfl := h.trip_eq hno
    have hturn := h.getsOn_turn hcalm hno w
    exact ⟨hturn.due, hturn.outlets ▸ hw⟩
  | settled trip hp hplan =>
    obtain ⟨hperforms, hserves⟩ := (isDue_acting_iff hp).mp h
    rw [hplans] at hplan
    -- An action that reaches no service waits for no answer.
    have hnone : trip = none := Option.eq_none_iff_forall_ne_some.mpr fun t ht =>
      absurd (hplan.symm.trans (hserves t ht).1) (by simp)
    exact ⟨hnone ▸ isDue_acted hcalm hperforms (by rw [hplan]; rfl), hw⟩
  | begin hp hplan =>
    obtain ⟨hbegun, hcall⟩ := hw.begin _ _
    refine ⟨isDue_acting hp ((isDue_acting_iff hp).mp h).1 ⟨hplans _ ▸ hplan, ?_⟩, hbegun⟩
    rw [hcalm.settings]
    exact hcall
  | goOn hp hnext =>
    obtain ⟨hperforms, hserves⟩ := (isDue_acting_iff hp).mp h
    obtain ⟨hplan, hcall⟩ := hserves _ rfl
    rw [hcalm.settings] at hcall
    obtain ⟨hgone, hcall'⟩ := hw.next hcall hnext
    refine ⟨isDue_acting hp hperforms ⟨hplan, ?_⟩, hgone⟩
    rw [hcalm.settings]
    exact hcall'
  | finish hp =>
    obtain ⟨hperforms, hserves⟩ := (isDue_acting_iff hp).mp h
    obtain ⟨hplan, hcall⟩ := hserves _ rfl
    rw [hcalm.settings] at hcall
    refine ⟨isDue_acted hcalm hperforms ?_, hw⟩
    rw [hplan, Outlet.eq_due hcall]
    rfl

/-- A move appends the log that is about to be appended, or no log. -/
theorem Move.logs_cases {p : FiringProgress} {w' : World} (h : f.Move w p w') : w'.logs = w.logs ∨
    ∃ state log, f.progress = .logging state log ∧ w'.logs = w.logs ++ [log] := by
  cases h with
  | append hf _ hlogs => exact Or.inr ⟨_, _, hf, hlogs⟩
  | touch _ _ hlogs => exact Or.inl hlogs
  | wait _ hs | work _ _ _ hs | conclude _ _ _ hs | refuse _ _ _ hs | appendFailed _ _ _ hs
  | goOn _ hs | touchFailed _ _ _ hs | giveUp _ hs | report _ hs | rest _ hs => exact Or.inl hs.logs

/-- What a step leaves of a firing, and the log that it may append. -/
theorem LiveStep.leaves {trip trip' : Option Trip} {f' : Firing} {w' : World}
    (h : f.LiveStep e trip w f' trip' w') : f'.found = f.found ∧ f'.occasion = f.occasion ∧
      (w'.logs = w.logs ∨
        ∃ state log, f.progress = .logging state log ∧ w'.logs = w.logs ++ [log]) := by
  cases h with
  | turn =>
    have hturn := stepped_turn (e := e) f w
    exact ⟨hturn.found, hturn.occasion, hturn.move.logs_cases⟩
  | _ => exact ⟨rfl, rfl, Or.inl rfl⟩

end Firing

/-! ## Live events -/

/-- All firings of an event are on their way, and every log beyond those of the start is the one that is
due for some match. -/
structure Foretold (e : Engine) (answer : Request → Response) (start : World) (o : Occasion)
    (trips : Nat → Option Trip) (fs : List Firing) (w : World) : Prop where
  due : ∀ (i : Nat) (f : Firing), fs[i]? = some f → f.IsDue e answer start.outlets (trips i)
  occasion : ∀ f ∈ fs, f.occasion = o
  found : fs.map (·.found) = start.found o.event
  logs : ∃ rows, w.logs = start.logs ++ rows ∧
    ∀ row ∈ rows, ∃ m ∈ start.found o.event, row.timeless = m.dueLog e o start.outlets

namespace Foretold

variable {e : Engine} {answer : Request → Response} {s : OutletSettings} {start w w' : World}
  {o : Occasion} {trips : Nat → Option Trip} {trip : Option Trip} {fs before behind : List Firing}
  {f f' : Firing}

theorem begin (h : start.Kept w) :
    Foretold e answer start o (fun _ => none) (EventRun.firings o (start.listed o)) w := by
  have hready : ∀ f ∈ EventRun.firings o (start.listed o), f.progress = .ready ∧ f.occasion = o := by
    intro f hf
    obtain ⟨m, -, rfl⟩ := List.mem_map.mp hf
    exact ⟨rfl, rfl⟩
  exact {
    due := fun i f hf => by
      unfold Firing.IsDue
      rw [(hready f (List.mem_of_getElem? hf)).1]
    occasion := fun f hf => (hready f hf).2
    found := map_found_firings o start
    logs := ⟨[], by rw [h.logs, List.append_nil], by simp⟩ }

theorem keep (h : Foretold e answer start o trips fs w) (hlogs : w'.logs = w.logs) :
    Foretold e answer start o trips fs w' :=
  { h with logs := by rw [hlogs]; exact h.logs }

/-- No step of a firing makes a log that is not due. -/
theorem fire (h : Foretold e answer start o trips (before ++ f :: behind) w)
    (hcalm : start.outlets.Calm s answer) (hw : w.outlets.Calm s answer)
    (hstep : f.LiveStep e (trips before.length) w f' trip w') :
    Foretold e answer start o (Function.update trips before.length trip) (before ++ f' :: behind) w' ∧
      w'.outlets.Calm s answer := by
  have hf := h.due before.length f getElem?_replace_self
  obtain ⟨hdue, hcalm'⟩ := hstep.isDue hcalm hw hf
  obtain ⟨hfound, hoccasion, hlogs⟩ := hstep.leaves
  refine ⟨⟨fun i g hg => ?_, ?_, ?_, ?_⟩, hcalm'⟩
  · by_cases hi : i = before.length
    · subst hi
      rw [getElem?_replace_self, Option.some.injEq] at hg
      rw [Function.update_self, ← hg]
      exact hdue
    · rw [getElem?_replace_of_ne hi] at hg
      rw [Function.update_of_ne hi]
      exact h.due i g hg
  · exact forall_mem_replace h.occasion (hoccasion.trans (h.occasion f (by simp)))
  · rw [← h.found]
    simp [hfound]
  · obtain ⟨rows, hrows, hall⟩ := h.logs
    rcases hlogs with hsame | ⟨state, log, hp, happend⟩
    · exact ⟨rows, hsame.trans hrows, hall⟩
    · refine ⟨rows ++ [log], by rw [happend, hrows, List.append_assoc], ?_⟩
      refine List.forall_mem_append.mpr ⟨hall, fun row hrow => ?_⟩
      obtain rfl := List.mem_singleton.mp hrow
      unfold Firing.IsDue at hf
      rw [hp, h.occasion f (by simp)] at hf
      refine ⟨f.found, ?_, hf.2⟩
      rw [← h.found]
      exact List.mem_map_of_mem (by simp)

end Foretold

/-- The turns of an event before its rules fire leave the outlets alone. -/
theorem EventRun.outlets_turn {e : Engine} {r : EventRun} (h : ∀ n fs, r.progress ≠ .firing n fs)
    (w : World) : (r.turn e w).2.outlets = w.outlets := by
  unfold turn
  split
  · unfold arrive
    split
    · rfl
    · dsimp only
      split <;> rfl
  · exact Engine.outlets_listActive e _ _ w
  · rfl
  · rfl
  · next hp => exact absurd hp (h _ _)
  · rfl

/-- The time is no weather. -/
theorem Outlets.Calm.at {s : OutletSettings} {answer : Request → Response} {o : Outlets}
    (h : o.Calm s answer) (clock : Double) : (o.at clock).Calm s answer :=
  { h with sinks := h.sinks }

namespace LiveEvent

/-- What is known of a live event: its outlets are calm, and its firings are on their way. -/
structure Sound (e : Engine) (s : OutletSettings) (answer : Request → Response) (start : World)
    (o : Occasion) (l : LiveEvent) : Prop where
  calm : l.world.outlets.Calm s answer
  /-- Before rules fire, no request is under way. -/
  idle : l.run.lead ≠ 0 → l.trips = fun _ => none
  stage : Stage e start o (Foretold e answer start o l.trips) (l.run, l.world)

variable {e : Engine} {s : OutletSettings} {answer : Request → Response} {start : World}
  {o : Occasion} {l l' : LiveEvent} {event : Event}

theorem Sound.turn (ho : o.Of event) {r : EventRun} {w : World} {trips : Nat → Option Trip}
    (hno : ∀ n fs, r.progress ≠ .firing n fs) (h : Sound e s answer start o ⟨r, w, trips⟩) :
    Sound e s answer start o ⟨(r.turn e w).1, (r.turn e w).2, trips⟩ := by
  by_cases hlead : r.lead = 0
  · have hover : ∃ outcome, r.outcome? = some outcome := by
      unfold EventRun.lead at hlead
      unfold EventRun.outcome?
      cases hp : r.progress with
      | ended outcome => exact ⟨outcome, rfl⟩
      | firing n fs => exact absurd hp (hno n fs)
      | _ => simp [hp] at hlead
    obtain ⟨outcome, houtcome⟩ := hover
    rw [EventRun.turn_of_outcome houtcome]
    exact h
  · obtain rfl := h.idle hlead
    exact {
      calm := by rw [EventRun.outlets_turn hno]; exact h.calm
      idle := fun _ => rfl
      stage := h.stage.turn ho (fun w hw => Foretold.begin hw) hno }

theorem Sound.step (ho : o.Of event) (hcalm : start.outlets.Calm s answer)
    (h : Sound e s answer start o l) (hstep : Step e l l') : Sound e s answer start o l' := by
  cases hstep with
  | turn hno => exact h.turn ho hno
  | @fire r w w' trips n before behind f f' trip hmay hlive =>
    obtain ⟨hw, -, hstage⟩ := h
    have hr := hmay.progress
    cases hstage with
    | firing hP hopen =>
      simp only [EventProgress.firing.injEq] at hr
      obtain ⟨rfl, rfl⟩ := hr
      obtain ⟨hP', hw'⟩ := hP.fire hcalm hw hlive
      exact ⟨hw', fun hlead => absurd (EventRun.lead_settle _ _ _) hlead, Stage.settle rfl hP'⟩
    | _ => exact absurd hr (by simp)
  | drift r w trips now clock =>
    exact {
      calm := h.calm.at clock
      idle := h.idle
      stage := h.stage.kept (World.kept_drift w now _) fun fs hP => hP.keep rfl }

/-- **In every run of a live event the firings are on their way, and the outlets stay calm.** -/
theorem sound_of_run (ho : o.Of event) (hcalm : start.outlets.Calm s answer)
    (h : Run e (.start event start) l) : Sound e s answer start o l := by
  induction h with
  | refl =>
    obtain rfl := ho.event
    exact ⟨hcalm, fun _ => rfl, Stage.arrived (World.Kept.refl start)⟩
  | tail _ hstep ih => exact ih.step ho hcalm hstep

end LiveEvent

end ChangeRules
