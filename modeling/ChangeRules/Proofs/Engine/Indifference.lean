import ChangeRules.Proofs.Engine.Foretelling
import ChangeRules.Proofs.Engine.Isolation
import ChangeRules.Proofs.Engine.Likeness

/-!
# Side by side or in turn

Rules that fire side by side share the breakers, the stores and the clock. Where the outlets are calm
none of this shows: whatever way the firings and their requests interleave, the event comes to the
report and leaves the logs that are due, and so does an event whose rules fire one after the other.

* `World.Yields`: an event came to a report and left logs, but for identifiers and times.
* **`LiveEvent.yields_of_over`**: every live event that is over came to what is due.
* **`LiveEvent.exists_over`**: every live event can come to its end.
* `Engine.Indifferent`: it makes no difference whether rules fire side by side or in turn.
* **`indifferent_of_calm`**: so it is where the outlets are calm.
-/

namespace ChangeRules

/-! ## What is due for an event -/

/-- The report that is due for a match, without the identifier of a log. -/
def RuleMatch.dueReport (e : Engine) (o : Occasion) (outlets : Outlets) (m : RuleMatch) :
    FiringReport :=
  Firing.report { found := m, occasion := o } (m.dueEnding e o outlets).state
    (m.dueLog e o outlets)

/-- The report that is due for an event, without the identifiers of logs. -/
def World.dueReport (e : Engine) (o : Occasion) (w : World) : EventReport where
  eventId := o.event.id
  tenant := o.event.tenant
  considered := (w.listed o).length
  firings := (w.found o.event).map (RuleMatch.dueReport e o w.outlets)

/-- The logs that are due for an event, without identifiers and times. -/
def World.dueLogs (e : Engine) (o : Occasion) (w : World) : List ExecutionLog :=
  (w.found o.event).map (RuleMatch.dueLog e o w.outlets)

/-- A match whose log is the one that is due is reported as is due. -/
theorem Fired.Agrees.due {e : Engine} {o : Occasion} {outlets : Outlets} {x : Fired}
    (h : x.Agrees o.event) (hlog : x.log.timeless = x.found.dueLog e o outlets) :
    (x.found.dueReport e o outlets).Like x.report := by
  have herror : x.log.error = (x.found.dueLog e o outlets).error := congrArg (·.error) hlog
  have hsuccess : x.log.success = (x.found.dueLog e o outlets).success := congrArg (·.success) hlog
  have hstate : x.report.state = (x.found.dueEnding e o outlets).state := by
    have hend : (x.found.dueLog e o outlets).success =
        .bool ((x.found.dueEnding e o outlets).state == .completed) :=
      congrArg Value.bool (Ending.isSuccess_eq _)
    rw [h.success, hend, Value.bool.injEq] at hsuccess
    generalize (x.found.dueEnding e o outlets).state = state at hsuccess
    cases hx : x.report.state <;> cases state <;> simp_all
  refine ⟨x.report.logId, ?_⟩
  unfold FiringReport.identified RuleMatch.dueReport Firing.report
  rw [FiringReport.mk.injEq]
  exact ⟨h.ruleId.1, hstate, rfl, h.error.trans herror⟩

/-- An event came to a report and left logs, but for identifiers and times. -/
structure World.Yields (start : World) (report : EventReport) (logs : List ExecutionLog)
    (p : Except Fault EventReport × World) : Prop where
  report : ∃ r, p.1 = .ok r ∧ report.Like r
  logs : ∃ rows, p.2.logs = start.logs ++ rows ∧ (rows.map ExecutionLog.timeless).Perm logs

section

variable {e : Engine} {s : OutletSettings} {answer : Request → Response} {start : World}
  {o : Occasion} {event : Event} {l : LiveEvent} {outcome : Except Fault EventReport}

/-- Actions that are lists can be counted. -/
theorem World.isFireable_of_lists (hlists : ∀ r ∈ start.rules, ∃ vs, r.actions = .list vs)
    (event : Event) : ∀ m ∈ start.found event, m.isFireable = true := by
  intro m hm
  obtain ⟨vs, hvs⟩ := hlists m.rule (World.mem_rules_of_mem_found hm)
  rw [m.isFireable_eq, hvs]
  exact Bool.or_true _

namespace LiveEvent

/-- Every log of a live event is the one that is due for a match. -/
theorem Sound.logs (h : Sound e s answer start o l) : ∃ rows, l.world.logs = start.logs ++ rows ∧
    ∀ row ∈ rows, ∃ m ∈ start.found o.event, row.timeless = m.dueLog e o start.outlets := by
  obtain ⟨-, -, hstage⟩ := h
  have hnone {w : World} (hw : start.Kept w) : ∃ rows, w.logs = start.logs ++ rows ∧
      ∀ row ∈ rows, ∃ m ∈ start.found o.event, row.timeless = m.dueLog e o start.outlets :=
    ⟨[], by rw [hw.logs, List.append_nil], by simp⟩
  obtain ⟨r, w, trips⟩ := l
  cases hstage with
  | arrived hw | listing hw | listed hw => exact hnone hw
  | unlisted hw | failed hw => exact hnone hw
  | firing hP => exact hP.logs
  | ended hP => exact hP.logs

/-- **Every live event that is over came to what is due**, however its firings interleaved. -/
theorem yields_of_over (hv : event.Valid) (hw : start.AtRest)
    (hlists : ∀ r ∈ start.rules, ∃ vs, r.actions = .list vs) (hcalm : start.outlets.Calm s answer)
    (ho : o.Of event) (h : Run e (.start event start) l) (hover : l.run.outcome? = some outcome) :
    start.Yields (start.dueReport e o) (start.dueLogs e o) (outcome, l.world) := by
  obtain ⟨hrun, -⟩ := h.run (isSettled_start event start)
  obtain ⟨fired, hfound, hafter, houtcome⟩ := aftermath_of_run hv hw hrun hover
  obtain ⟨rows', hrows', hforetold⟩ := (sound_of_run ho hcalm h).logs
  obtain ⟨rows, hrows, hperm, -⟩ := hafter.logs
  obtain rfl : rows' = rows := List.append_cancel_left (hrows'.symm.trans hrows)
  obtain rfl := ho.event
  have hall := World.isFireable_of_lists hlists o.event
  rw [Engine.fired_of_fireable hall] at hfound
  rw [List.find?_eq_none.mpr fun m hm => by simp [hall m hm]] at houtcome
  -- A log tells its rule, and so the match that it is due for.
  have hdue : ∀ x ∈ fired, x.log.timeless = x.found.dueLog e o start.outlets := by
    intro x hx
    have hrow : x.log ∈ rows' := hperm.mem_iff.mpr (List.mem_map_of_mem hx)
    obtain ⟨m, hm, hlog⟩ := hforetold x.log hrow
    have hid : m.rule.id = x.found.rule.id :=
      (congrArg (·.ruleId) hlog).symm.trans (hafter.agrees x hx).ruleId.2
    have hmem : x.found ∈ start.found o.event := by
      rw [← hfound]
      exact List.mem_map_of_mem hx
    rw [hlog, World.eq_of_mem_found hw.keyed hm hmem hid]
  refine ⟨⟨_, houtcome, rfl, rfl, rfl, ?_⟩, rows', hrows', ?_⟩
  · unfold World.dueReport
    dsimp only
    rw [← hfound, List.map_map, List.forall₂_map_left_iff, List.forall₂_map_right_iff]
    exact List.forall₂_same.mpr fun x hx => (hafter.agrees x hx).due (hdue x hx)
  · unfold World.dueLogs
    rw [← hfound, List.map_map]
    refine (hperm.map ExecutionLog.timeless).trans (List.Perm.of_eq ?_)
    rw [List.map_map]
    exact List.map_congr_left hdue

/-! ## Live events come to an end -/

theorem Sound.due {n : Nat} {fs : List Firing} (h : Sound e s answer start o l)
    (hr : l.run.progress = .firing n fs) {i : Nat} {f : Firing} (hf : fs[i]? = some f) :
    f.IsDue e answer start.outlets (l.trips i) := by
  obtain ⟨-, -, hstage⟩ := h
  obtain ⟨r, w, trips⟩ := l
  cases hstage with
  | firing hP hopen =>
    simp only [EventProgress.firing.injEq] at hr
    obtain ⟨rfl, rfl⟩ := hr
    exact hP.due i f hf
  | _ => exact absurd hr (by simp)

/-- Whatever else is going on, an event may take its turns up to the firings. -/
theorem run_lead (e : Engine) (l : LiveEvent) : ∃ l', Run e l l' ∧ l'.run.lead = 0 := by
  induction hlead : l.run.lead using Nat.strongRecOn generalizing l with
  | _ lead ih =>
    obtain ⟨r, w, trips⟩ := l
    by_cases hzero : r.lead = 0
    · exact ⟨_, Relation.ReflTransGen.refl, hzero⟩
    · have hno : ∀ n fs, r.progress ≠ .firing n fs := fun n fs hp => hzero (by
        unfold EventRun.lead
        rw [hp])
      have hless := EventRun.lead_turn (e := e) r w
      obtain ⟨l', hrun, hend⟩ := ih (r.turn e w).1.lead (by dsimp only at hlead; omega)
        ⟨(r.turn e w).1, (r.turn e w).2, trips⟩ rfl
      exact ⟨l', Relation.ReflTransGen.head (.turn hno) hrun, hend⟩

/-- Some firing of an event that is not over may get on, be it that its request is answered. -/
theorem exists_lighter {n : Nat} {fs : List Firing} (h : Sound e s answer start o l)
    (hset : l.run.IsSettled e) (hfree : EventRun.IsUnhindered (l.run, l.world))
    (hr : l.run.progress = .firing n fs) :
    ∃ l', Run e l l' ∧ l'.run.lead = 0 ∧ l'.run.weight < l.run.weight := by
  have hdue {i : Nat} {f : Firing} (hf : fs[i]? = some f) :
      f.IsDue e answer start.outlets (l.trips i) := h.due hr hf
  obtain ⟨r, w, trips⟩ := l
  dsimp only at hset hfree hr hdue ⊢
  rcases EventRun.firstTurn_cases e fs w with ⟨hover, -⟩ | ⟨before, f, behind, rfl, hbefore, hf, -⟩
  · exact absurd hover (EventRun.exists_open (hset n fs hr))
  have hmay : r.MayFire e n before f behind := ⟨hr, hf, Or.inr hbefore⟩
  have hfirst := hdue getElem?_replace_self
  cases htrip : trips before.length with
  | none =>
    exact ⟨_, run_fire hset hmay htrip, EventRun.lead_settle _ _ _,
      ((EventRun.Advance.mk hr hf hmay.turn).weight_lt hfree).2⟩
  | some t =>
    rw [htrip] at hfirst
    -- Only a firing that performs an action waits for an answer.
    have hacting : ∃ c a action, f.progress = .acting c a action := by
      by_contra hno
      push Not at hno
      exact absurd (hfirst.trip_eq hno) (by simp)
    obtain ⟨c, a, action, hp⟩ := hacting
    obtain ⟨reply, outlets', hgoes⟩ := t.errand.outlet.goes_ended t.errand.request t.call w.outlets
    have hgo := run_goes w trips hset hmay hp hgoes
    rw [Function.update_eq_self_iff.mpr htrip.symm] at hgo
    have hend := run_finish { w with outlets := outlets' } hmay hp
      (Function.update_self before.length (some ⟨t.errand, .ended reply⟩) trips)
    refine ⟨_, hgo.trans hend, EventRun.lead_settle _ _ _, ?_⟩
    refine Nat.lt_of_le_of_lt (EventRun.weight_settle r n _) ?_
    rw [EventRun.weight_of_firing hr]
    simp only [EventRun.weights_append, EventRun.weights, Firing.weight, Firing.moved, hp]
    omega

/-- **Every live event can come to its end**, whatever happened so far. -/
theorem exists_over (hv : event.Valid) (hw : start.AtRest) (hcalm : start.outlets.Calm s answer)
    (h : Run e (.start event start) l) : ∃ l', Run e l l' ∧ l'.run.outcome?.isSome = true := by
  obtain ⟨o, ho⟩ := hv.occasion
  obtain ⟨l₁, hbegin, hlead⟩ := run_lead e l
  have hrun := h.trans hbegin
  suffices hrest : ∃ l', Run e l₁ l' ∧ l'.run.outcome?.isSome = true by
    obtain ⟨l', hend, hover⟩ := hrest
    exact ⟨l', hbegin.trans hend, hover⟩
  induction hweight : l₁.run.weight using Nat.strongRecOn generalizing l₁ with
  | _ weight ih =>
    cases hp : l₁.run.progress with
    | firing n fs =>
      obtain ⟨hreached, hset⟩ := Run.run hrun (isSettled_start event start)
      obtain ⟨-, hfree⟩ := unhindered_of_run hv hw.keyed hw.idle hreached
      obtain ⟨l₂, hnext, hlead₂, hless⟩ :=
        exists_lighter (sound_of_run ho hcalm hrun) hset hfree hp
      obtain ⟨l', hend, hover⟩ := ih l₂.run.weight (by omega) l₂ (hbegin.trans hnext) hlead₂
        (hrun.trans hnext) rfl
      exact ⟨l', hnext.trans hend, hover⟩
    | ended outcome => exact ⟨l₁, Relation.ReflTransGen.refl, by simp [EventRun.outcome?, hp]⟩
    | _ => simp [EventRun.lead, hp] at hlead

end LiveEvent

end

/-! ## Side by side or in turn -/

/-- What holds of an event however its firings and their requests interleave: it can come to its end,
and when it does, its outcome and the world then are as `post` says. -/
structure Engine.LiveGuarantees (e : Engine) (event : Event) (start : World)
    (post : Except Fault EventReport × World → Prop) : Prop where
  process : post (e.process event start)
  ends : ∀ l, LiveEvent.Run e (.start event start) l →
    ∃ l', LiveEvent.Run e l l' ∧ l'.run.outcome?.isSome = true
  runs : ∀ l outcome, LiveEvent.Run e (.start event start) l → l.run.outcome? = some outcome →
    post (outcome, l.world)

/-- Two ends of an event with the same report and the same logs in any order, but for identifiers and
times. -/
structure World.EndsAlike (start : World) (p q : Except Fault EventReport × World) : Prop where
  reports : ∃ r r', p.1 = .ok r ∧ q.1 = .ok r' ∧ r.Like r'
  logs : ∃ rows rows', p.2.logs = start.logs ++ rows ∧ q.2.logs = start.logs ++ rows' ∧
    (rows.map ExecutionLog.timeless).Perm (rows'.map ExecutionLog.timeless)

/-- It makes no difference whether the rules fire side by side or in turn, nor how their firings and
requests interleave: an event always ends as it does when the engine fires its rules in turn. -/
def Engine.Indifferent (e : Engine) (event : Event) (start : World) : Prop :=
  ∀ parallel, ({ e with parallel } : Engine).LiveGuarantees event start
    (start.EndsAlike (({ e with parallel := false } : Engine).process event start))

/-- Two ends that yield the same are alike. -/
theorem World.Yields.endsAlike {start : World} {report : EventReport} {logs : List ExecutionLog}
    {p q : Except Fault EventReport × World} (hp : start.Yields report logs p)
    (hq : start.Yields report logs q) : start.EndsAlike p q := by
  obtain ⟨⟨r, hr, hlike⟩, rows, hrows, hperm⟩ := hp
  obtain ⟨⟨r', hr', hlike'⟩, rows', hrows', hperm'⟩ := hq
  exact ⟨⟨r, r', hr, hr', hlike.of_both hlike'⟩, rows, rows', hrows, hrows', hperm.trans hperm'.symm⟩

section

variable {e : Engine} {s : OutletSettings} {answer : Request → Response} {start : World}
  {event : Event}

/-- **Where the outlets are calm, it makes no difference whether rules fire side by side or in turn.** -/
theorem indifferent_of_calm (hv : event.Valid) (hw : start.AtRest)
    (hlists : ∀ r ∈ start.rules, ∃ vs, r.actions = .list vs) (hcalm : start.outlets.Calm s answer) :
    e.Indifferent event start := by
  obtain ⟨o, ho⟩ := hv.occasion
  -- What is due does not depend on how the rules fire.
  have hruns : ∀ parallel l outcome, LiveEvent.Run { e with parallel } (.start event start) l →
      l.run.outcome? = some outcome →
      start.Yields (start.dueReport e o) (start.dueLogs e o) (outcome, l.world) :=
    fun parallel l outcome hrun hover =>
      LiveEvent.yields_of_over (e := { e with parallel }) hv hw hlists hcalm ho hrun hover
  have hprocess : ∀ parallel, start.Yields (start.dueReport e o) (start.dueLogs e o)
      (({ e with parallel } : Engine).process event start) := by
    intro parallel
    have hover := Engine.outcome?_ended (e := { e with parallel }) hv hw.keyed hw.idle
    have hyields := hruns parallel _ _ (LiveEvent.run_ended _ event start) hover
    rw [Engine.process_eq_ended] at hyields ⊢
    exact hyields
  exact fun parallel => {
    process := (hprocess false).endsAlike (hprocess parallel)
    ends := fun l hrun => LiveEvent.exists_over hv hw hcalm hrun
    runs := fun l outcome hrun hover => (hprocess false).endsAlike (hruns parallel l outcome hrun hover) }

end

/-- Sinks that take what is posted and refuse all else. -/
def takesPosts (r : Request) : Response := ⟨if r.method = "POST" then 200 else 403, "\x7b\x7d"⟩

/-- A rule that sends an email. -/
def Rule.mailing : Rule := .plain "mail" (.list [.object [("type", .text "send_email"),
  ("parameters", .object [("template_id", .int 5), ("to", .text "a@b")])]])

/-- A rule that changes a record. -/
def Rule.marking : Rule := .plain "mark" (.list [.object [("type", .text "update_record"),
  ("parameters", .object [("record_id", .text "7"), ("set_field", .text "seen"),
    ("value", .bool true)])]])

/-- A world with both rules, before such sinks. -/
def World.posting : World :=
  { World.plain [.mailing, .marking] with
    outlets := .start {} { sinks := fun _ r => ⟨.zero, .answered (takesPosts r)⟩ } }

theorem calm_posting : World.posting.outlets.Calm {} takesPosts :=
  Outlets.calm_start (fun _ _ => rfl) fun r => by
    unfold takesPosts
    split <;> rfl

/-- Both rules send requests, to services that share the network. -/
theorem indifferent_of_calm_posting :
    Event.plain.Valid ∧ World.posting.AtRest ∧
      (∀ r ∈ World.posting.rules, ∃ vs, r.actions = .list vs) ∧
      World.posting.outlets.Calm {} takesPosts ∧
      (∀ r ∈ World.posting.rules, ⟨r, none⟩ ∈ World.posting.found .plain) ∧
      World.posting.rules.map (fun r => (dispatch (.int 10) (.ofFiring r .plain none) r.actions
        World.posting.outlets).2.network.sent.map (·.address)) =
          [["http://email/email-queue"], ["http://data/tenants/t1/tables/tasks/records/7"]] ∧
      ({} : Engine).Indifferent .plain World.posting := by
  have hrest : World.posting.AtRest :=
    ⟨⟨rfl, rfl⟩, Rules.Keyed.of_texts
      (by simp [World.posting, World.plain, Rule.mailing, Rule.marking, Rule.plain])
      (by simp [World.posting, World.plain, Rule.mailing, Rule.marking, Rule.plain]), rfl⟩
  have hlists : ∀ r ∈ World.posting.rules, ∃ vs, r.actions = .list vs := by
    simp [World.posting, World.plain, Rule.mailing, Rule.marking, Rule.plain]
  have hfound : ∀ r ∈ World.posting.rules, ⟨r, none⟩ ∈ World.posting.found .plain := by
    intro r hr
    rcases List.mem_pair.mp hr with rfl | rfl <;> exact mem_found_plain hr
  exact ⟨Event.valid_plain, hrest, hlists, calm_posting, hfound, by decide +kernel,
    indifferent_of_calm Event.valid_plain hrest hlists calm_posting⟩

end ChangeRules
