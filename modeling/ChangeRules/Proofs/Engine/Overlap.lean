import ChangeRules.Proofs.Engine.Isolation

/-!
# Events that overlap

Any number of events come and are processed side by side, each by an engine of its own kind; their
turns, those of their firings and changes of the rules' activity follow one another in any order. All
of them share one world, so none finds the stores as it left them. What a step does to the stores is
nonetheless one of a few changes, and a firing whose log was appended owes its rule one note until it
makes it.

* `Overlap.Step`, `Overlap.Run`: what can happen next, and what events come to.
* `Firing.pending?`, `Overlap.notes`: the notes that are still to be made.
* `World.Change`: what a step does to the stores and to these notes.
* `Firing.Steady`: what holds of firings that begin, and is kept by their turns.
* **`Overlap.Step.leads`**: every step is such a change, and keeps what holds of all firings.
* **`Overlap.Run.induct`**: what every such change keeps holds in every run.
-/

namespace ChangeRules

/-! ## Steps -/

/-- An event that is being processed. -/
structure Processing where
  engine : Engine
  run : EventRun

/-- What can happen next among events that share a world. -/
inductive Overlap.Step : List Processing × World → List Processing × World → Prop
  /-- An event of some tenant comes in. -/
  | arrive {ps : List Processing} {w : World} (e : Engine) {event : Event}
      (htenant : ∃ s, event.tenant = .text s) : Step (ps, w) (ps ++ [⟨e, { event }⟩], w)
  /-- An event gets on. -/
  | process {before behind : List Processing} {e : Engine} {r r' : EventRun} {w w' : World}
      (h : EventRun.Step e (r, w) (r', w')) :
      Step (before ++ ⟨e, r⟩ :: behind, w) (before ++ ⟨e, r'⟩ :: behind, w')
  /-- Somebody makes a rule active or not. -/
  | setActive {ps : List Processing} {w : World} (tenant id active : Value) :
      Step (ps, w) (ps, (w.setActive tenant id active).2)

/-- What events come to from a world in which none is being processed. -/
def Overlap.Run (start : World) : List Processing × World → Prop :=
  Relation.ReflTransGen Overlap.Step ([], start)

/-- The run of an event is part of a run in which other events come as well. -/
theorem Overlap.Run.tail_run {start w w' : World} {before behind : List Processing} {e : Engine}
    {r r' : EventRun} (h : Overlap.Run start (before ++ ⟨e, r⟩ :: behind, w))
    (hrun : ChangeRules.Run e (r, w) (r', w')) :
    Overlap.Run start (before ++ ⟨e, r'⟩ :: behind, w') := by
  refine Relation.ReflTransGen.trans h ?_
  have hlift := hrun.lift (fun s : EventRun × World => (before ++ ⟨e, s.1⟩ :: behind, s.2))
    fun _ _ hstep => Overlap.Step.process hstep
  exact hlift

/-! ## Rules of a store -/

namespace Rule

/-- What never changes of a stored rule. -/
def core (r : Rule) : Rule := { r with isActive := .null, lastExecuted := none }

/-- A rule is the one that a store has, or a past state of it. -/
def Known (rules : Rules) (r : Rule) : Prop := ∃ s ∈ rules, s.core = r.core

variable {r s : Rule}

theorem id_eq_of_core (h : r.core = s.core) : r.id = s.id := by
  change r.core.id = s.core.id
  rw [h]

theorem tenant_eq_of_core (h : r.core = s.core) : r.tenant = s.tenant := by
  change r.core.tenant = s.core.tenant
  rw [h]

theorem actions_eq_of_core (h : r.core = s.core) : r.actions = s.actions := by
  change r.core.actions = s.core.actions
  rw [h]

end Rule

namespace Rules

variable {tenant id active : Value} {time : DateTime} {rules start : Rules}

theorem map_core_change {f : Rule → Rule} (hf : ∀ r, (f r).core = r.core) :
    (rules.change tenant id f).map Rule.core = rules.map Rule.core := by
  unfold change
  rw [List.map_map]
  refine List.map_congr_left fun r _ => ?_
  rw [Function.comp_apply]
  split
  · exact hf r
  · rfl

theorem map_core_touch : (rules.touch tenant id time).map Rule.core = rules.map Rule.core :=
  map_core_change fun _ => rfl

theorem map_core_setActive :
    (rules.setActive tenant id active).map Rule.core = rules.map Rule.core :=
  map_core_change fun _ => rfl

theorem known_of_mem {r : Rule} (h : rules.map Rule.core = start.map Rule.core) (hr : r ∈ rules) :
    r.Known start := by
  have hcore : r.core ∈ start.map Rule.core := h ▸ List.mem_map_of_mem hr
  exact List.mem_map.mp hcore

end Rules

/-! ## Notes that are still to be made -/

namespace Firing

/-- The note that a firing owes its rule: the log is appended and the execution not noted yet. -/
def pending? (f : Firing) : Option Note :=
  match f.progress with
  | .logged _ log (.ok _) | .touching _ log => some ⟨f.rule, log.executedAt⟩
  | _ => none

variable {f f' : Firing} {w w' : World}

theorem pending?_eq_none (hno : ∀ state log logId, f.progress ≠ .logged state log (.ok logId))
    (hno' : ∀ state log, f.progress ≠ .touching state log) : f.pending? = none := by
  unfold pending?
  split
  · next state log logId hp => exact absurd hp (hno state log logId)
  · next state log hp => exact absurd hp (hno' state log)
  · rfl

theorem pending?_of_early (h : f.progress.IsWaiting ∨ f.progress.IsWorking) : f.pending? = none := by
  refine pending?_eq_none (fun state log logId hp => ?_) fun state log hp => ?_
  · rw [hp] at h
    exact h.elim id id
  · rw [hp] at h
    exact h.elim id id

theorem pending?_of_over (h : f.outcome?.isSome = true) : f.pending? = none := by
  unfold outcome? at h
  refine pending?_eq_none (fun state log logId hp => ?_) fun state log hp => ?_
  · rw [hp] at h
    exact absurd h (by simp)
  · rw [hp] at h
    exact absurd h (by simp)

theorem pending?_of_ready (h : f.progress = .ready) : f.pending? = none :=
  pending?_of_early (Or.inl (by rw [h]; trivial))

/-- What a turn of a firing does to the stores and to its note. -/
inductive Changes (f : Firing) (w : World) (f' : Firing) (w' : World) : Prop
  | keep (hs : w.SameStores w') (hn : f'.pending? = f.pending?)
  | append {state : FiringState} {log : ExecutionLog} (hp : f.progress = .logging state log)
      (hrules : w'.rules = w.rules) (hlogs : w'.logs = w.logs ++ [log]) (hn : f.pending? = none)
      (hn' : f'.pending? = some ⟨f.rule, log.executedAt⟩)
  | touch {time : DateTime} (hrules : w'.rules = w.rules.touch f.rule.tenant f.rule.id time)
      (hlogs : w'.logs = w.logs) (hn : f.pending? = some ⟨f.rule, time⟩) (hn' : f'.pending? = none)
  | lose {time : DateTime} (hs : w.SameStores w')
      (hno : w.Reliable → Rules.checkId f.rule.id ≠ .ok ()) (hn : f.pending? = some ⟨f.rule, time⟩)
      (hn' : f'.pending? = none)

/-- **A turn of a firing** appends its log, makes its note or loses it, or leaves the stores alone. -/
theorem Stepped.changes (h : f.Stepped w f' w') : f.Changes w f' w' := by
  have hmove := h.move
  have hrule := h.rule
  generalize hp' : f'.progress = p at hmove
  have none_of : ∀ {q : FiringProgress}, f'.progress = q → q.IsWaiting ∨ q.IsWorking →
      f'.pending? = none := fun hq hearly => pending?_of_early (by rw [hq]; exact hearly)
  have quiet : f.pending? = none → f'.pending? = none → w.SameStores w' → f.Changes w f' w' :=
    fun hn hn' hs => .keep hs (hn'.trans hn.symm)
  cases hmove with
  | wait hf hs => exact quiet (pending?_of_early (Or.inl hf)) (none_of hp' (Or.inl trivial)) hs
  | work hf _ hwork hs => exact quiet (pending?_of_early hf) (none_of hp' (Or.inr hwork)) hs
  | conclude hf _ _ hs => exact quiet (pending?_of_early hf) (by simp [pending?, hp']) hs
  | refuse hf _ _ hs => exact quiet (pending?_of_early (Or.inl hf)) (by simp [pending?, hp']) hs
  | append hf hrules hlogs =>
    exact .append hf hrules hlogs (by simp [pending?, hf]) (by simp [pending?, hp', hrule])
  | appendFailed hf _ _ hs =>
    exact quiet (by simp [pending?, hf]) (by simp [pending?, hp']) hs
  | goOn hf hs => exact .keep hs (by simp [pending?, hf, hp', hrule])
  | touch hf hrules hlogs =>
    exact .touch hrules hlogs (by simp [pending?, hf]) (by simp [pending?, hp'])
  | @touchFailed state log _ _ hf _ hno hs =>
    have hn : f.pending? = some ⟨f.rule, log.executedAt⟩ := by simp [pending?, hf]
    exact .lose hs hno hn (by simp [pending?, hp'])
  | giveUp hf hs =>
    refine quiet ?_ (by simp [pending?, hp']) hs
    rcases hf with hf | hf <;> simp [pending?, hf]
  | report hf hs => exact quiet (by simp [pending?, hf]) (by simp [pending?, hp']) hs
  | rest hf hs => exact quiet (by simp [pending?, hf]) (by simp [pending?, hp']) hs

end Firing

/-- The notes that an event is still to make. -/
def Processing.notes (p : Processing) : List Note :=
  match p.run.progress with
  | .firing _ fs => fs.filterMap Firing.pending?
  | _ => []

/-- The notes that events are still to make. -/
def Overlap.notes (ps : List Processing) : List Note := ps.flatMap Processing.notes

/-- Some notes are others and one more. -/
def Note.Joins (n : Note) (notes notes' : List Note) : Prop := ∀ x, x ∈ notes' ↔ x = n ∨ x ∈ notes

/-- What a step does to the stores and to the notes that are still to be made, on behalf of a firing
of which `F` holds. -/
inductive World.Change (F : Firing → Prop) (w : World) (notes : List Note) (w' : World)
    (notes' : List Note) : Prop
  | keep (hs : w.SameStores w') (hn : ∀ x, x ∈ notes' ↔ x ∈ notes)
  | append {f : Firing} {state : FiringState} {log : ExecutionLog} (hf : F f)
      (hp : f.progress = .logging state log) (hrules : w'.rules = w.rules)
      (hlogs : w'.logs = w.logs ++ [log]) (hn : Note.Joins ⟨f.rule, log.executedAt⟩ notes notes')
  | touch {f : Firing} {time : DateTime} (hf : F f)
      (hrules : w'.rules = w.rules.touch f.rule.tenant f.rule.id time) (hlogs : w'.logs = w.logs)
      (hn : Note.Joins ⟨f.rule, time⟩ notes' notes)
  | lose {f : Firing} {time : DateTime} (hf : F f) (hs : w.SameStores w')
      (hno : w.Reliable → Rules.checkId f.rule.id ≠ .ok ())
      (hn : Note.Joins ⟨f.rule, time⟩ notes' notes)
  | setActive {tenant id active : Value} (hrules : w'.rules = w.rules.setActive tenant id active)
      (hlogs : w'.logs = w.logs) (hn : ∀ x, x ∈ notes' ↔ x ∈ notes)

namespace World.Change

variable {F G : Firing → Prop} {w w' : World} {notes notes' : List Note}

theorem mono (hFG : ∀ f, F f → G f) (h : Change F w notes w' notes') :
    Change G w notes w' notes' := by
  cases h with
  | keep hs hn => exact .keep hs hn
  | append hf hp hrules hlogs hn => exact .append (hFG _ hf) hp hrules hlogs hn
  | touch hf hrules hlogs hn => exact .touch (hFG _ hf) hrules hlogs hn
  | lose hf hs hno hn => exact .lose (hFG _ hf) hs hno hn
  | setActive hrules hlogs hn => exact .setActive hrules hlogs hn

theorem joins_frame {n : Note} (h : n.Joins notes notes') (before behind : List Note) :
    n.Joins (before ++ (notes ++ behind)) (before ++ (notes' ++ behind)) := by
  intro x
  simp only [List.mem_append, h x]
  tauto

/-- Other notes are left alone. -/
theorem frame (h : Change F w notes w' notes') (before behind : List Note) :
    Change F w (before ++ (notes ++ behind)) w' (before ++ (notes' ++ behind)) := by
  cases h with
  | keep hs hn => exact .keep hs fun x => by simp only [List.mem_append, hn x]
  | append hf hp hrules hlogs hn => exact .append hf hp hrules hlogs (joins_frame hn _ _)
  | touch hf hrules hlogs hn => exact .touch hf hrules hlogs (joins_frame hn _ _)
  | lose hf hs hno hn => exact .lose hf hs hno (joins_frame hn _ _)
  | setActive hrules hlogs hn =>
    exact .setActive hrules hlogs fun x => by simp only [List.mem_append, hn x]

theorem of_changes {f f' : Firing} (hf : F f) (h : f.Changes w f' w') :
    Change F w f.pending?.toList w' f'.pending?.toList := by
  cases h with
  | keep hs hn => exact .keep hs fun x => by rw [hn]
  | append hp hrules hlogs hn hn' => exact .append hf hp hrules hlogs fun x => by simp [hn, hn']
  | touch hrules hlogs hn hn' => exact .touch hf hrules hlogs fun x => by simp [hn, hn']
  | @lose time hs hno hn hn' =>
    have hjoins : Note.Joins ⟨f.rule, time⟩ f'.pending?.toList f.pending?.toList :=
      fun x => by simp [hn, hn']
    exact .lose hf hs hno hjoins

/-- One firing of a row takes its turn. -/
theorem of_row {f f' : Firing} {before behind : List Firing} (hf : F f) (h : f.Changes w f' w') :
    Change F w ((before ++ f :: behind).filterMap Firing.pending?) w'
      ((before ++ f' :: behind).filterMap Firing.pending?) := by
  have hsplit : ∀ g : Firing, (before ++ g :: behind).filterMap Firing.pending? =
      before.filterMap Firing.pending? ++ (g.pending?.toList ++ behind.filterMap Firing.pending?) := by
    intro g
    rw [List.filterMap_append, List.filterMap_cons]
    cases g.pending? <;> rfl
  rw [hsplit, hsplit]
  exact (of_changes hf h).frame _ _

/-- What a change leaves of every rule. -/
theorem map_core (h : Change F w notes w' notes') :
    w'.rules.map Rule.core = w.rules.map Rule.core := by
  cases h with
  | keep hs _ | lose _ hs _ _ => rw [hs.rules]
  | append _ _ hrules _ _ => rw [hrules]
  | touch _ hrules _ _ => rw [hrules, Rules.map_core_touch]
  | setActive hrules _ _ => rw [hrules, Rules.map_core_setActive]

end World.Change

/-! ## What holds of events that overlap -/

/-- A firing of a rule of the store for an event of its tenant. -/
structure Firing.From (rules : Rules) (event : Event) (f : Firing) : Prop where
  occasion : f.occasion.Of event
  known : f.rule.Known rules
  tenant : f.rule.tenant = event.tenant

/-- What holds of every firing of a store's rules: at the beginning, and behind each turn. -/
structure Firing.Steady (rules : Rules) (P : Engine → Firing → Prop) : Prop where
  begin : ∀ e f, f.progress = .ready → P e f
  step : ∀ e event f f' w w', f.From rules event → P e f → f.Step e w f' w' → P e f'

/-- Rules that are fired one after the other: nothing is begun before all ahead of it is over. -/
def Engine.InTurn (e : Engine) (fs : List Firing) : Prop :=
  e.parallel = true ∨ fs.Pairwise fun f g => f.outcome?.isSome = true ∨ g.progress = .ready

/-- What is known of an event from how far it is. -/
def EventProgress.Proper (rules : Rules) (P : Engine → Firing → Prop) (e : Engine) (event : Event) :
    EventProgress → Prop
  | .listing o => o.Of event
  | .listed o (.ok found) => o.Of event ∧ ∀ r ∈ found, r.Known rules ∧ r.tenant = event.tenant
  | .firing _ fs => (∀ f ∈ fs, f.From rules event ∧ P e f) ∧ e.InTurn fs
  | _ => True

/-- What is known of an event that is being processed. -/
structure Processing.Proper (rules : Rules) (P : Engine → Firing → Prop) (p : Processing) : Prop where
  tenant : ∃ s, p.run.event.tenant = .text s
  settled : p.run.IsSettled p.engine
  stage : p.run.progress.Proper rules P p.engine p.run.event

section

variable {e : Engine} {before behind fs : List Firing} {f f' : Firing} {r : EventRun} {n : Nat}

theorem inTurn_of_ready (h : ∀ f ∈ fs, f.progress = .ready) : e.InTurn fs :=
  Or.inr (List.pairwise_of_forall_mem_list fun _ _ g hg => Or.inr (h g hg))

/-- Behind an open firing nothing is begun yet. -/
theorem ready_behind (h : e.InTurn (before ++ f :: behind)) (hseq : e.parallel = false)
    (hf : f.outcome? = none) : ∀ g ∈ behind, g.progress = .ready := by
  intro g hg
  have hpairs := h.resolve_left (by simp [hseq])
  have hrest := (List.pairwise_append.mp hpairs).2.1
  exact ((List.pairwise_cons.mp hrest).1 g hg).resolve_left (by simp [hf])

theorem inTurn_replace (h : e.InTurn (before ++ f :: behind)) (hf : f.outcome? = none)
    (hturn : e.parallel = true ∨ ∀ g ∈ before, g.outcome?.isSome = true) :
    e.InTurn (before ++ f' :: behind) := by
  rcases h with hpar | hpairs
  · exact Or.inl hpar
  · rcases hturn with hpar | hbefore
    · exact Or.inl hpar
    · right
      obtain ⟨hfront, hrest, -⟩ := List.pairwise_append.mp hpairs
      obtain ⟨hready, hback⟩ := List.pairwise_cons.mp hrest
      refine List.pairwise_append.mpr ⟨hfront, List.pairwise_cons.mpr ⟨fun g hg => ?_, hback⟩, ?_⟩
      · exact Or.inr ((hready g hg).resolve_left (by simp [hf]))
      · exact fun g hg _ _ => Or.inl (hbefore g hg)

theorem settle_cases (e : Engine) (r : EventRun) (n : Nat) (fs : List Firing) :
    (∃ outcome, r.firingsOutcome? e n fs = some outcome ∧
      r.settle e n fs = r.moved (.ended outcome)) ∨ r.settle e n fs = r.moved (.firing n fs) := by
  unfold EventRun.settle
  cases h : r.firingsOutcome? e n fs with
  | some outcome => exact Or.inl ⟨outcome, rfl, rfl⟩
  | none => exact Or.inr rfl

/-- Only what firings came to decides what their event comes to. -/
theorem firingsOutcome?_congr {gs : List Firing} (h : fs.map Firing.outcome? = gs.map Firing.outcome?) :
    r.firingsOutcome? e n fs = r.firingsOutcome? e n gs := by
  have houtcomes : fs.filterMap Firing.outcome? = gs.filterMap Firing.outcome? := by
    have := congrArg (List.filterMap id) h
    rwa [List.filterMap_map, List.filterMap_map] at this
  have hlength : fs.length = gs.length := by simpa using congrArg List.length h
  unfold EventRun.firingsOutcome?
  rw [houtcomes, hlength]

theorem over_of_firingsOutcome? {outcome : Except Fault EventReport} (hpar : e.parallel = true)
    (h : r.firingsOutcome? e n fs = some outcome) : ∀ f ∈ fs, f.outcome?.isSome = true := by
  unfold EventRun.firingsOutcome? at h
  simp only [hpar, if_true] at h
  split at h
  · next hlength => exact List.filterMap_length_eq_length.mp hlength
  · exact absurd h (by simp)

/-- An event that ends with a turn of one of its firings owes no note. -/
theorem notes_of_ended {outcome : Except Fault EventReport} (h : e.InTurn (before ++ f :: behind))
    (hopen : r.firingsOutcome? e n (before ++ f :: behind) = none) (hf : f.outcome? = none)
    (hturn : e.parallel = true ∨ ∀ g ∈ before, g.outcome?.isSome = true)
    (hend : r.firingsOutcome? e n (before ++ f' :: behind) = some outcome) :
    (before ++ f' :: behind).filterMap Firing.pending? = [] := by
  rw [List.filterMap_eq_nil_iff]
  cases hpar : e.parallel with
  | true => exact fun g hg => Firing.pending?_of_over (over_of_firingsOutcome? hpar hend g hg)
  | false =>
    -- If the firing were still open, the event would have ended before.
    have hover : f'.outcome?.isSome = true := by
      cases hf' : f'.outcome? with
      | some outcome => rfl
      | none =>
        have hsame : (before ++ f' :: behind).map Firing.outcome? =
            (before ++ f :: behind).map Firing.outcome? := by simp [hf, hf']
        rw [firingsOutcome?_congr hsame, hopen] at hend
        exact absurd hend (by simp)
    intro g hg
    rcases List.mem_append.mp hg with hg | hg
    · exact Firing.pending?_of_over (hturn.resolve_left (by simp [hpar]) g hg)
    · rcases List.mem_cons.mp hg with rfl | hg
      · exact Firing.pending?_of_over hover
      · exact Firing.pending?_of_ready (ready_behind h hpar hf g hg)

end

/-! ## Steps of one event -/

/-- What a step of an event is for the world and for the event. -/
structure Processing.Leads (rules : Rules) (P : Engine → Firing → Prop) (p : Processing) (w : World)
    (p' : Processing) (w' : World) : Prop where
  proper : p'.Proper rules P
  event : p'.run.event = p.run.event
  change : World.Change (fun f => f.From rules p.run.event ∧ P p.engine f) w p.notes w' p'.notes
  reliable : w.Reliable → w'.Reliable

namespace Processing

variable {rules : Rules} {P : Engine → Firing → Prop} {e : Engine} {r r' : EventRun} {w w' : World}
  {n : Nat} {before behind : List Firing} {f f' : Firing}

theorem notes_of_idle {p : Processing} (hno : ∀ n fs, p.run.progress ≠ .firing n fs) :
    p.notes = [] := by
  unfold notes
  split
  · next n fs hr => exact absurd hr (hno n fs)
  · rfl

/-- An event that has no firings yet, or is over, gets elsewhere. -/
theorem leads_of_quiet {q : EventProgress} (hp : Proper rules P ⟨e, r⟩)
    (hno : ∀ n fs, r.progress ≠ .firing n fs) (hno' : ∀ n fs, q ≠ .firing n fs)
    (hq : q.Proper rules P e r.event) (hs : w.Kept w') :
    Leads rules P ⟨e, r⟩ w ⟨e, r.moved q⟩ w' where
  proper := ⟨hp.tenant, EventRun.isSettled_of_progress hno', hq⟩
  event := rfl
  change := by
    refine .keep hs.toSameStores fun x => ?_
    rw [notes_of_idle (p := ⟨e, r⟩) hno, notes_of_idle (p := ⟨e, r.moved q⟩) hno']
  reliable := hs.reliable

theorem leads_arrived (hp : Proper rules P ⟨e, r⟩) (hno : ∀ n fs, r.progress ≠ .firing n fs)
    (hr : r.progress = .arrived) (w : World) :
    Leads rules P ⟨e, r⟩ w ⟨e, (r.turn e w).1⟩ (r.turn e w).2 := by
  have hcount : ∀ metrics, w.Kept { w with metrics } := fun metrics =>
    ⟨⟨rfl, rfl⟩, rfl, fun hw => ⟨hw.outages, hw.backend⟩⟩
  unfold EventRun.turn
  rw [hr]
  dsimp only
  unfold EventRun.arrive
  cases hoperation : EventOperation.ofValue r.event.operation with
  | error fault => exact leads_of_quiet hp hno (by simp) trivial (World.Kept.refl w)
  | ok operation =>
    dsimp only
    cases hid : r.event.recordId with
    | error fault => exact leads_of_quiet hp hno (by simp) trivial (hcount _)
    | ok recordId => exact leads_of_quiet hp hno (by simp) ⟨hoperation, hid, rfl⟩ (hcount _)

theorem leads_listing {o : Occasion} (hw : w.rules.map Rule.core = rules.map Rule.core)
    (hp : Proper rules P ⟨e, r⟩) (hno : ∀ n fs, r.progress ≠ .firing n fs)
    (hr : r.progress = .listing o) :
    Leads rules P ⟨e, r⟩ w ⟨e, (r.turn e w).1⟩ (r.turn e w).2 := by
  have ho : o.Of r.event := by
    have hstage := hp.stage
    rw [hr] at hstage
    exact hstage
  unfold EventRun.turn
  rw [hr]
  dsimp only
  unfold World.listActive
  rcases Engine.guarded_cases e .rules .listActive
      (fun w => (.ok (w.rules.active o.event.tenant o.event.table), w)) w with
    ⟨w₀, hw₀, heq⟩ | ⟨-, fault, w', heq, -, hw'⟩
  · rw [heq]
    refine leads_of_quiet (q := .listed o (.ok (w₀.rules.active o.event.tenant o.event.table))) hp hno
      (by simp) ⟨ho, fun s hs => ?_⟩ hw₀
    obtain ⟨hmem, htenant, -⟩ := Rules.mem_active.mp hs
    rw [hw₀.rules] at hmem
    obtain ⟨name, hname⟩ := hp.tenant
    dsimp only at hname
    rw [ho.event, hname, Value.same_text] at htenant
    exact ⟨Rules.known_of_mem hw hmem, htenant.trans hname.symm⟩
  · rw [heq]
    exact leads_of_quiet (q := .listed o (.error fault)) hp hno (by simp) trivial hw'

theorem leads_listed {o : Occasion} {listed : List Rule} (hP : Firing.Steady rules P)
    (hp : Proper rules P ⟨e, r⟩) (hno : ∀ n fs, r.progress ≠ .firing n fs)
    (hr : r.progress = .listed o (.ok listed)) (w : World) :
    Leads rules P ⟨e, r⟩ w ⟨e, r.settle e listed.length (EventRun.firings o listed)⟩ w := by
  have hstage := hp.stage
  rw [hr] at hstage
  obtain ⟨ho, hlisted⟩ := hstage
  have hready : ∀ f ∈ EventRun.firings o listed, f.progress = .ready ∧ f.From rules r.event := by
    intro f hf
    obtain ⟨m, hm, rfl⟩ := List.mem_map.mp hf
    obtain ⟨s, hs, hjudge⟩ := mem_matchRules.mp hm
    obtain rfl : s = m.rule := (rule_of_judge hjudge).symm
    exact ⟨rfl, ho, (hlisted _ hs).1, (hlisted _ hs).2⟩
  rcases settle_cases e r listed.length (EventRun.firings o listed) with ⟨outcome, -, heq⟩ | heq
  · rw [heq]
    exact leads_of_quiet hp hno (by simp) trivial (World.Kept.refl w)
  · have hnone : (EventRun.firings o listed).filterMap Firing.pending? = [] :=
      List.filterMap_eq_nil_iff.mpr fun f hf => Firing.pending?_of_ready (hready f hf).1
    refine ⟨⟨?_, EventRun.isSettled_settle r _ _, ?_⟩, ?_, ?_, id⟩
    · rw [heq]
      exact hp.tenant
    · rw [heq]
      refine ⟨fun f hf => ⟨(hready f hf).2, hP.begin e f (hready f hf).1⟩, ?_⟩
      exact inTurn_of_ready fun f hf => (hready f hf).1
    · rw [heq]
      rfl
    · refine .keep ⟨rfl, rfl⟩ fun x => ?_
      simp only [notes, heq, EventRun.moved, hr, hnone]

theorem leads_fire (hP : Firing.Steady rules P) (hp : Proper rules P ⟨e, r⟩)
    (hr : r.progress = .firing n (before ++ f :: behind)) (hf : f.outcome? = none)
    (hturn : e.parallel = true ∨ ∀ g ∈ before, g.outcome?.isSome = true) (h : f.Step e w f' w') :
    Leads rules P ⟨e, r⟩ w ⟨e, r.settle e n (before ++ f' :: behind)⟩ w' := by
  have hstage := hp.stage
  rw [hr] at hstage
  obtain ⟨hall, hin⟩ := hstage
  have hmem := hall f (by simp)
  have hnotes : notes ⟨e, r⟩ = (before ++ f :: behind).filterMap Firing.pending? := by
    unfold notes
    rw [hr]
  have hchange : World.Change (fun f => f.From rules r.event ∧ P e f) w
      ((before ++ f :: behind).filterMap Firing.pending?) w'
      ((before ++ f' :: behind).filterMap Firing.pending?) :=
    World.Change.of_row hmem h.stepped.changes
  have hfrom : f'.From rules r.event := by
    have hsame := h.stepped
    exact ⟨hsame.occasion ▸ hmem.1.occasion, hsame.rule ▸ hmem.1.known, hsame.rule ▸ hmem.1.tenant⟩
  rcases settle_cases e r n (before ++ f' :: behind) with ⟨outcome, hend, heq⟩ | heq
  · -- Once the event is over its row is gone, and with it only notes that were made.
    have hnone := notes_of_ended hin (hp.settled n _ hr) hf hturn hend
    rw [heq]
    refine ⟨⟨hp.tenant, EventRun.isSettled_of_progress (by simp [EventRun.moved]), trivial⟩, rfl, ?_,
      h.stepped.reliable⟩
    rw [hnone] at hchange
    rw [hnotes]
    exact hchange
  · refine ⟨⟨?_, EventRun.isSettled_settle r _ _, ?_⟩, ?_, ?_, h.stepped.reliable⟩
    · rw [heq]
      exact hp.tenant
    · rw [heq]
      exact ⟨forall_mem_replace hall ⟨hfrom, hP.step e r.event f f' w w' hmem.1 hmem.2 h⟩,
        inTurn_replace hin hf hturn⟩
    · rw [heq]
      rfl
    · rw [hnotes, heq]
      exact hchange

theorem leads_turn (hP : Firing.Steady rules P)
    (hw : w.rules.map Rule.core = rules.map Rule.core) (hp : Proper rules P ⟨e, r⟩)
    (hno : ∀ n fs, r.progress ≠ .firing n fs) :
    Leads rules P ⟨e, r⟩ w ⟨e, (r.turn e w).1⟩ (r.turn e w).2 := by
  cases hr : r.progress with
  | arrived => exact leads_arrived hp hno hr w
  | listing o => exact leads_listing hw hp hno hr
  | listed o outcome =>
    cases outcome with
    | ok listed =>
      have hleads := leads_listed hP hp hno hr w
      simp only [EventRun.turn, hr]
      exact hleads
    | error fault =>
      simp only [EventRun.turn, hr]
      exact leads_of_quiet hp hno (by simp) trivial (World.Kept.refl w)
  | firing n fs => exact absurd hr (hno n fs)
  | ended outcome =>
    simp only [EventRun.turn, hr]
    exact ⟨hp, rfl, .keep ⟨rfl, rfl⟩ fun _ => Iff.rfl, id⟩

/-- **A step of an event**, whatever the others did to the world before. -/
theorem Proper.leads {s s' : EventRun × World} (hP : Firing.Steady rules P)
    (hw : s.2.rules.map Rule.core = rules.map Rule.core) (hp : Proper rules P ⟨e, s.1⟩)
    (h : EventRun.Step e s s') : Leads rules P ⟨e, s.1⟩ s.2 ⟨e, s'.1⟩ s'.2 := by
  cases h with
  | turn hno => exact leads_turn hP hw hp hno
  | fire hr hf hturn hstep => exact leads_fire hP hp hr hf hturn hstep
  | drift r w now outlets =>
    exact ⟨hp, rfl, .keep ⟨rfl, rfl⟩ fun _ => Iff.rfl, fun h => ⟨h.outages, h.backend⟩⟩

end Processing

/-! ## Steps among all events -/

namespace Overlap

/-- What holds of all events that are being processed and of the rules they share. -/
structure Invariant (start : World) (P : Engine → Firing → Prop) (s : List Processing × World) :
    Prop where
  rules : s.2.rules.map Rule.core = start.rules.map Rule.core
  proper : ∀ p ∈ s.1, p.Proper start.rules P

/-- What a step is for all events. -/
structure Leads (start : World) (P : Engine → Firing → Prop) (s s' : List Processing × World) :
    Prop where
  invariant : Invariant start P s'
  events : ∀ p ∈ s.1, ∃ p' ∈ s'.1, p'.run.event = p.run.event
  change : World.Change (fun f => ∃ p ∈ s.1, f.From start.rules p.run.event ∧ P p.engine f)
    s.2 (notes s.1) s'.2 (notes s'.1)
  reliable : s.2.Reliable → s'.2.Reliable

variable {start : World} {P : Engine → Firing → Prop} {s s' : List Processing × World}

theorem leads_setActive {ps : List Processing} {w : World} (hs : Invariant start P (ps, w))
    (tenant id active : Value) :
    Leads start P (ps, w) (ps, (w.setActive tenant id active).2) := by
  have hchange : World.Change (fun f => ∃ p ∈ ps, f.From start.rules p.run.event ∧ P p.engine f)
      w (notes ps) (w.setActive tenant id active).2 (notes ps) := by
    unfold World.setActive World.changeRules World.call
    dsimp only
    split
    · exact .keep ⟨rfl, rfl⟩ fun _ => Iff.rfl
    · split
      · exact .setActive rfl rfl fun _ => Iff.rfl
      · exact .keep ⟨rfl, rfl⟩ fun _ => Iff.rfl
    · exact .keep ⟨rfl, rfl⟩ fun _ => Iff.rfl
  refine ⟨⟨hchange.map_core.trans hs.rules, hs.proper⟩, fun p hp => ⟨p, hp, rfl⟩, hchange, ?_⟩
  intro hw
  unfold World.setActive World.changeRules
  rw [World.call_of_working hw.outages hw.backend]
  split
  · exact ⟨hw.outages, hw.backend⟩
  · exact hw

/-- **Every step among events that overlap** is a change of the stores on behalf of one firing. -/
theorem Step.leads (hP : Firing.Steady start.rules P) (hs : Invariant start P s)
    (h : Overlap.Step s s') : Leads start P s s' := by
  cases h with
  | @arrive ps w e event htenant =>
    refine ⟨⟨hs.rules, ?_⟩, fun p hp => ⟨p, List.mem_append_left _ hp, rfl⟩, ?_, id⟩
    · intro p hp
      rcases List.mem_append.mp hp with hp | hp
      · exact hs.proper p hp
      · rw [List.mem_singleton.mp hp]
        exact ⟨htenant, EventRun.isSettled_of_progress (by simp), trivial⟩
    · refine .keep ⟨rfl, rfl⟩ fun x => ?_
      simp [notes, Processing.notes]
  | @process before behind e r r' w w' hstep =>
    have hleads := (hs.proper ⟨e, r⟩ (by simp)).leads hP hs.rules hstep
    refine ⟨⟨hleads.change.map_core.trans hs.rules, ?_⟩, ?_, ?_, hleads.reliable⟩
    · exact forall_mem_replace hs.proper hleads.proper
    · intro p hp
      rcases List.mem_append.mp hp with hp | hp
      · exact ⟨p, List.mem_append_left _ hp, rfl⟩
      · rcases List.mem_cons.mp hp with rfl | hp
        · exact ⟨⟨e, r'⟩, by simp, hleads.event⟩
        · exact ⟨p, by simp [hp], rfl⟩
    · have hchange : World.Change (fun f => ∃ p ∈ before ++ ⟨e, r⟩ :: behind,
          f.From start.rules p.run.event ∧ P p.engine f) w (Processing.notes ⟨e, r⟩) w'
          (Processing.notes ⟨e, r'⟩) :=
        hleads.change.mono fun f hf => ⟨⟨e, r⟩, by simp, hf⟩
      have hframe := hchange.frame (notes before) (notes behind)
      simpa only [notes, List.flatMap_append, List.flatMap_cons] using hframe
  | setActive tenant id active => exact leads_setActive hs tenant id active

/-- **What every change keeps holds in every run.** -/
theorem Run.induct {Q : List Processing × World → Prop} (hP : Firing.Steady start.rules P)
    (hbegin : Q ([], start))
    (hstep : ∀ s s', Invariant start P s → Q s → Leads start P s s' → Q s')
    (h : Overlap.Run start s) : Invariant start P s ∧ Q s := by
  induction h with
  | refl => exact ⟨⟨rfl, fun p hp => absurd hp List.not_mem_nil⟩, hbegin⟩
  | tail _ hnext ih =>
    have hleads := Step.leads hP ih.1 hnext
    exact ⟨hleads.invariant, hstep _ _ ih.1 ih.2 hleads⟩

/-! ## Two events -/

/-- An event comes to its end while another one, for another kind of engine, is about to begin. -/
theorem exists_run_pair (e e' : Engine) {event event' : Event} {start : World} (hv : event.Valid)
    (hv' : event'.Valid) (hw : start.AtRest) : ∃ ps : List Processing, ps.length = 2 ∧
      Overlap.Run start (ps, (e.process event start).2) ∧
      ∀ p ∈ ps, ∀ n fs, p.run.progress ≠ .firing n fs := by
  obtain ⟨r, hrun, hover⟩ := Engine.over_process (e := e) hv hw.keyed hw.idle
  have hfirst : Overlap.Run start ([⟨e, { event }⟩], start) :=
    Relation.ReflTransGen.single (Step.arrive e hv.tenant)
  have hsecond : Overlap.Run start ([] ++ ⟨e, { event }⟩ :: [⟨e', { event := event' }⟩], start) :=
    Relation.ReflTransGen.tail hfirst (Step.arrive e' hv'.tenant)
  refine ⟨[⟨e, r⟩, ⟨e', { event := event' }⟩], rfl, hsecond.tail_run hrun, fun p hp n fs hfiring => ?_⟩
  rcases List.mem_pair.mp hp with rfl | rfl
  · unfold EventRun.outcome? at hover
    rw [hfiring] at hover
    exact absurd hover (by simp)
  · exact absurd hfiring (by simp)

/-- Where some match can fire, and all of them do, a log is appended. -/
theorem logs_ne_nil_of_firesAll {e : Engine} {event : Event} {start : World} {m : RuleMatch}
    (h : e.FiresAll event start) (hm : m ∈ start.found event) :
    (e.process event start).2.logs ≠ [] := by
  obtain ⟨fired, hfound, hafter, -⟩ := h.process
  obtain ⟨rows, hlogs, hperm, -⟩ := hafter.logs
  rw [← hfound] at hm
  obtain ⟨x, hx, -⟩ := List.mem_map.mp hm
  have hrow : x.log ∈ rows := hperm.mem_iff.mpr (List.mem_map_of_mem hx)
  rw [hlogs]
  exact List.ne_nil_of_mem (List.mem_append_right _ hrow)

end Overlap

theorem World.atRest_unjudgedRules : (World.plain unjudgedRules).AtRest where
  reliable := World.reliable_plain _
  keyed := Rules.Keyed.of_texts (by simp [World.plain, unjudgedRules, Rule.plain])
    (by simp [World.plain, unjudgedRules, Rule.plain])
  idle := rfl

/-- Two events for these rules: one is over and left logs, the other one is about to begin. -/
theorem Overlap.exists_run_unjudgedRules : ∃ ps w, Overlap.Run (World.plain unjudgedRules) (ps, w) ∧
    ps.length = 2 ∧ (∀ p ∈ ps, ∀ n fs, p.run.progress ≠ .firing n fs) ∧ w.logs ≠ [] := by
  have hrest := World.atRest_unjudgedRules
  have hlist : ∀ r ∈ unjudgedRules, r.actions = .list [] := by simp [unjudgedRules, Rule.plain]
  have hfires : ({} : Engine).FiresAll .plain (World.plain unjudgedRules) := by
    refine (firesAll_iff Event.valid_plain hrest).mpr fun m hm => ?_
    rw [m.isFireable_eq, hlist m.rule (World.mem_rules_of_mem_found hm)]
    exact Bool.or_true _
  have hgood : ⟨.plain "good" (.list []), none⟩ ∈ (World.plain unjudgedRules).found .plain :=
    mem_found_plain (List.mem_cons_of_mem _ List.mem_cons_self)
  obtain ⟨ps, hlength, hrun, hquiet⟩ :=
    exists_run_pair {} { parallel := false } Event.valid_plain Event.valid_plain hrest
  exact ⟨ps, _, hrun, hlength, hquiet, logs_ne_nil_of_firesAll hfires hgood⟩

end ChangeRules
