import ChangeRules.Proofs.Engine.Journal
import ChangeRules.Proofs.Engine.Progress

/-!
# Stores that fail

A store that fails keeps no rule from firing. The firing whose log cannot be appended leaves nothing
behind, the one whose execution cannot be noted leaves its log, and all the others leave both. Only
when all of them are over does the event fail, with the fault of the first one of them in firing
order, whichever failed first.

* `Fate`: what becomes of the log and of the note of a firing.
* `Firing.Filed`: the journal agrees with how far a firing is.
* **`Firing.Step.filed`**, **`Journaled.fire`**: it does so after every turn.
* `Chronicle`: where an event can be, with its journal.
* **`chronicle_of_history`**: it is there in every run.
-/

namespace ChangeRules

/-! ## Fates -/

/-- What becomes of the log and of the note of a firing. -/
inductive Fate where
  /-- The log could not be appended. -/
  | unwritten (f : Fault)
  /-- The log was appended, and the execution could not be noted. -/
  | unnoted (f : Fault)
  | complete

namespace Fate

/-- The calls of the stores. -/
def entries (place : Nat) (rule : Rule) (log : ExecutionLog) : Fate → List Entry
  | unwritten f => [⟨place, rule, .append, log, some f⟩]
  | unnoted f => [⟨place, rule, .append, log, none⟩, ⟨place, rule, .touch, log, some f⟩]
  | complete => [⟨place, rule, .append, log, none⟩, ⟨place, rule, .touch, log, none⟩]

/-- The fault that the firing ends with. -/
def fault? (e : Engine) : Fate → Option Fault
  | unwritten f => some (e.reported .logs f)
  | unnoted f => some (e.reported .rules f)
  | complete => none

def isWritten : Fate → Bool
  | unwritten _ => false
  | _ => true

def isComplete : Fate → Bool
  | complete => true
  | _ => false

/-- What the firing comes to. -/
def outcome (e : Engine) (report : FiringReport) (fate : Fate) : Except Fault FiringReport :=
  match fate.fault? e with
  | some fault => .error fault
  | none => .ok report

theorem isStoreFault {e : Engine} {fate : Fate} {fault : Fault} (h : fate.fault? e = some fault) :
    IsStoreFault fault := by
  cases fate with
  | complete => exact absurd h (by simp [fault?])
  | _ =>
    simp only [fault?, Option.some.injEq] at h
    rw [← h]
    exact e.isStoreFault_reported _ _

theorem isFatal_outcome (e : Engine) (report : FiringReport) (fate : Fate) :
    EventRun.isFatal (fate.outcome e report) = false := by
  unfold outcome
  cases h : fate.fault? e with
  | none => rfl
  | some fault =>
    obtain ⟨err, rfl, hkind⟩ := isStoreFault h
    simp [EventRun.isFatal, hkind]

end Fate

/-! ## Entries of a firing -/

namespace Firing

variable {e : Engine} {f f' : Firing} {w w' base : World} {place : Nat}
  {journal entries : List Entry}

/-- The journal agrees with how far a firing is. -/
def Filed (e : Engine) (place : Nat) (f : Firing) (entries : List Entry) : Prop :=
  match f.progress with
  | .logged state log (.ok _) | .touching state log =>
    f.Tells e state log ∧ entries = [⟨place, f.rule, .append, log, none⟩]
  | .logged state log (.error fault) => f.Tells e state log ∧
    ∃ g, fault = e.reported .logs g ∧ entries = (Fate.unwritten g).entries place f.rule log
  | .touched state log (.ok _) =>
    f.Tells e state log ∧ entries = Fate.complete.entries place f.rule log
  | .touched state log (.error fault) => f.Tells e state log ∧
    ∃ g, fault = e.reported .rules g ∧ entries = (Fate.unnoted g).entries place f.rule log
  | .ended outcome => ∃ state log fate, f.Tells e state log ∧
    entries = Fate.entries place f.rule log fate ∧ outcome = fate.outcome e (f.report state log)
  | _ => f.Preparing e ∧ entries = []

theorem Preparing.filed (h : f.Preparing e) (place : Nat) : f.Filed e place [] := by
  have hf := h
  unfold Preparing at hf
  unfold Filed
  cases hp : f.progress with
  | ready | queued | acting _ _ _ | acted _ _ _ | logging _ _ => exact ⟨h, rfl⟩
  | _ =>
    rw [hp] at hf
    exact hf.elim

/-- A turn of a firing in a run with a journal: the journal goes on agreeing with the firing and with
the stores. -/
structure Files (e : Engine) (base : World) (journal entries : List Entry) (place : Nat)
    (f : Firing) (w : World) (f' : Firing) (w' : World) : Prop where
  found : f'.found = f.found
  occasion : f'.occasion = f.occasion
  filed : f'.Filed e place (entries ++ f.entries place w)
  world : base.Follows (journal ++ f.entries place w) w'

theorem files_append {state : FiringState} {log : ExecutionLog}
    (hp : f.progress = .logging state log) (h : f.Filed e place entries)
    (hw : base.Follows journal w) :
    f.Files e base journal entries place w (f.turn e w).1 (f.turn e w).2 := by
  have hentries : f.entries place w = [⟨place, f.rule, .append, log, w.due .append 0⟩] := by
    unfold Firing.entries
    rw [hp]
  unfold Filed at h
  rw [hp] at h
  obtain ⟨hprep, rfl⟩ := h
  unfold Preparing at hprep
  rw [hp] at hprep
  unfold turn
  rw [hp]
  dsimp only [World.appendLog]
  rw [Engine.guarded_eq]
  cases hdue : w.due .append 0 with
  | some g =>
    refine ⟨rfl, rfl, ?_, ?_⟩
    · rw [hentries, hdue]
      exact ⟨hprep, g, rfl, rfl⟩
    · rw [hentries]
      exact hw.concat rfl (by simp [Entry.written?, hdue, World.called])
        (by simp [Entry.note?, Rules.heed, World.called]) rfl rfl
  | none =>
    refine ⟨rfl, rfl, ?_, ?_⟩
    · rw [hentries, hdue]
      exact ⟨hprep, rfl⟩
    · rw [hentries]
      exact hw.concat rfl (by simp [Entry.written?, hdue, World.called, Logs.append])
        (by simp [Entry.note?, Rules.heed, World.called]) rfl rfl

theorem files_touch {state : FiringState} {log : ExecutionLog}
    (hp : f.progress = .touching state log) (hid : Rules.checkId f.rule.id = .ok ())
    (h : f.Filed e place entries) (hw : base.Follows journal w) :
    f.Files e base journal entries place w (f.turn e w).1 (f.turn e w).2 := by
  have hentries : f.entries place w = [⟨place, f.rule, .touch, log, w.due .touch 0⟩] := by
    unfold Firing.entries
    rw [hp]
  unfold Filed at h
  rw [hp] at h
  obtain ⟨htells, rfl⟩ := h
  unfold turn
  rw [hp]
  dsimp only [World.touchRule, World.changeRules]
  rw [Engine.guarded_eq, hid]
  cases hdue : w.due .touch 0 with
  | some g =>
    refine ⟨rfl, rfl, ?_, ?_⟩
    · rw [hentries, hdue]
      exact ⟨htells, g, rfl, rfl⟩
    · rw [hentries]
      exact hw.concat rfl (by simp [Entry.written?, World.called])
        (by simp [Entry.note?, hdue, Rules.heed, World.called]) rfl rfl
  | none =>
    refine ⟨rfl, rfl, ?_, ?_⟩
    · rw [hentries, hdue]
      exact ⟨htells, rfl⟩
    · rw [hentries]
      exact hw.concat rfl (by simp [Entry.written?, World.called])
        (by simp [Entry.note?, hdue, Rules.heed, World.called]) rfl rfl

/-- A turn without a call of a store. -/
theorem files_quiet (hentries : f.entries place w = []) (hfound : f'.found = f.found)
    (hoccasion : f'.occasion = f.occasion) (hfiled : f'.Filed e place entries)
    (hworld : w.Untouched w') (hw : base.Follows journal w) :
    f.Files e base journal entries place w f' w' where
  found := hfound
  occasion := hoccasion
  filed := by rwa [hentries, List.append_nil]
  world := by
    rw [hentries, List.append_nil]
    exact hw.keep hworld

/-- A firing whose log met its fate is over. -/
theorem files_ended {state : FiringState} {log : ExecutionLog} {fate : Fate}
    (hentries : f.entries place w = []) (htells : f.Tells e state log)
    (hfate : entries = fate.entries place f.rule log) (hworld : w.Untouched w')
    (hw : base.Follows journal w) : f.Files e base journal entries place w
      (f.moved (.ended (fate.outcome e (f.report state log)))) w' :=
  files_quiet hentries rfl rfl ⟨state, log, fate, htells, hfate, rfl⟩ hworld hw

/-- **The journal agrees with a firing after each of its turns.** -/
theorem Step.filed {actions : List Value} (h : f.Step e w f' w') (hopen : f.outcome? = none)
    (hactions : storedActions f.rule.actions = .ok actions)
    (hid : Rules.checkId f.rule.id = .ok ()) (hf : f.Filed e place entries)
    (hw : base.Follows journal w) : f.Files e base journal entries place w f' w' := by
  -- Up to its log, a firing calls no store.
  have early (hprep : f.Preparing e ∧ entries = []) (hquiet : f.entries place w = [])
      (hno : ∀ state log, f.progress ≠ .logging state log) :
      f.Files e base journal entries place w f' w' := by
    obtain ⟨hprep, rfl⟩ := hprep
    have hp := h.prepares hactions hprep hno
    exact files_quiet hquiet hp.found hp.occasion (hp.preparing.filed place) hp.world hw
  have hfiled := hf
  unfold Filed at hf
  cases h with
  | act hp =>
    rw [hp] at hf
    exact early hf (entries_eq_nil (by simp [hp]) (by simp [hp]) place w) (by simp [hp])
  | turn =>
    cases hp : f.progress with
    | ready | queued | acting _ _ _ | acted _ _ _ =>
      rw [hp] at hf
      exact early hf (entries_eq_nil (by simp [hp]) (by simp [hp]) place w) (by simp [hp])
    | logging state log => exact files_append hp hfiled hw
    | touching state log => exact files_touch hp hid hfiled hw
    | logged state log outcome =>
      have hquiet := entries_eq_nil (f := f) (by simp [hp]) (by simp [hp]) place w
      rw [hp] at hf
      unfold Firing.turn
      rw [hp]
      cases outcome with
      | ok v => exact files_quiet hquiet rfl rfl hf (.refl w) hw
      | error fault =>
        obtain ⟨htells, g, rfl, hfate⟩ := hf
        exact files_ended hquiet htells hfate ⟨rfl, rfl, rfl, rfl⟩ hw
    | touched state log outcome =>
      have hquiet := entries_eq_nil (f := f) (by simp [hp]) (by simp [hp]) place w
      rw [hp] at hf
      unfold Firing.turn
      rw [hp]
      cases outcome with
      | ok u => exact files_ended hquiet hf.1 hf.2 ⟨rfl, rfl, rfl, rfl⟩ hw
      | error fault =>
        obtain ⟨htells, g, rfl, hfate⟩ := hf
        exact files_ended hquiet htells hfate ⟨rfl, rfl, rfl, rfl⟩ hw
    | ended outcome =>
      unfold outcome? at hopen
      rw [hp] at hopen
      exact absurd hopen (by simp)

end Firing

/-! ## Firings with their journal -/

/-- The firings of an event agree with the journal, and so do the stores. -/
structure Journaled (e : Engine) (start : World) (o : Occasion) (journal : List Entry)
    (fs : List Firing) (w : World) : Prop where
  world : (start.called .listActive).Follows journal w
  found : fs.map (·.found) = start.found o.event
  occasion : ∀ f ∈ fs, f.occasion = o
  places : ∀ x ∈ journal, x.place < fs.length
  filed : ∀ i (f : Firing), fs[i]? = some f → f.Filed e i (journal.filter (·.place = i))

namespace Journaled

variable {e : Engine} {start w w' : World} {o : Occasion} {journal : List Entry}
  {fs before behind : List Firing} {f f' : Firing}

/-- Nothing was called yet. -/
theorem begin (h : (start.called .listActive).Untouched w) :
    Journaled e start o [] (EventRun.firings o (start.listed o)) w where
  world := .of_untouched h
  found := map_found_firings o start
  occasion f hf := by
    obtain ⟨m, -, rfl⟩ := List.mem_map.mp hf
    rfl
  places := by simp
  filed i f hf := by
    obtain ⟨m, -, rfl⟩ := List.mem_map.mp (List.mem_of_getElem? hf)
    exact ⟨trivial, rfl⟩

theorem rule_mem (h : Journaled e start o journal fs w) (hf : f ∈ fs) : f.rule ∈ start.rules := by
  have hmem : f.found ∈ start.found o.event := by
    rw [← h.found]
    exact List.mem_map_of_mem hf
  exact World.mem_rules_of_mem_found hmem

/-- **The journal goes on agreeing with all firings when one of them takes its turn.** -/
theorem fire (h : Journaled e start o journal (before ++ f :: behind) w)
    (hk : start.rules.Keyed) (hlists : ∀ r ∈ start.rules, ∃ vs, r.actions = .list vs)
    (hf : f.outcome? = none) (hstep : f.Step e w f' w') :
    Journaled e start o (journal ++ f.entries before.length w) (before ++ f' :: behind) w' := by
  have hrule := h.rule_mem (f := f) (by simp)
  obtain ⟨vs, hvs⟩ := hlists f.rule hrule
  have hactions : storedActions f.rule.actions = .ok vs := by
    rw [hvs]
    cases vs <;> rfl
  have hfiles := hstep.filed hf hactions (hk.checked f.rule hrule)
    (h.filed before.length f getElem?_replace_self) h.world
  have hplace : ∀ x ∈ f.entries before.length w, x.place = before.length := by
    intro x hx
    unfold Firing.entries at hx
    split at hx
    · rw [List.mem_singleton.mp hx]
    · rw [List.mem_singleton.mp hx]
    · exact absurd hx List.not_mem_nil
  exact {
    world := hfiles.world
    found := by
      rw [← h.found]
      simp [hfiles.found]
    occasion := forall_mem_replace h.occasion (hfiles.occasion.trans (h.occasion f (by simp)))
    places := fun x hx => by
      rcases List.mem_append.mp hx with hx | hx
      · simpa using h.places x hx
      · rw [hplace x hx]
        simp
    filed := fun i g hg => by
      rw [List.filter_append]
      by_cases hi : i = before.length
      · subst hi
        rw [getElem?_replace_self, Option.some.injEq] at hg
        subst hg
        have hall : (f.entries before.length w).filter
            (fun x => decide (x.place = before.length)) = f.entries before.length w :=
          List.filter_eq_self.mpr fun x hx => by simpa using hplace x hx
        rw [hall]
        exact hfiles.filed
      · rw [getElem?_replace_of_ne hi] at hg
        have hnone : (f.entries before.length w).filter (fun x => decide (x.place = i)) = [] :=
          List.filter_eq_nil_iff.mpr fun x hx => by
            rw [hplace x hx]
            simpa using Ne.symm hi
        rw [hnone, List.append_nil]
        exact h.filed i g hg }

theorem keep (h : Journaled e start o journal fs w) (hw : w.Untouched w') :
    Journaled e start o journal fs w' :=
  { h with world := h.world.keep hw }

/-- No firing ends with a fault that would end the event at once. -/
theorem not_isFatal (h : Journaled e start o journal fs w) :
    ∀ x ∈ fs.filterMap Firing.outcome?, EventRun.isFatal x = false := by
  intro x hx
  obtain ⟨f, hf, ho⟩ := List.mem_filterMap.mp hx
  obtain ⟨i, hi⟩ := List.mem_iff_getElem?.mp hf
  have hfiled := h.filed i f hi
  unfold Firing.Filed at hfiled
  unfold Firing.outcome? at ho
  cases hp : f.progress with
  | ended outcome =>
    rw [hp] at hfiled ho
    obtain ⟨state, log, fate, -, -, rfl⟩ := hfiled
    rw [Option.some.injEq] at ho
    rw [← ho]
    exact fate.isFatal_outcome e _
  | _ =>
    rw [hp] at ho
    exact absurd ho (by simp)

end Journaled

/-! ## Events with their journal -/

/-- Where an event can be, if the rules of `start` fire for it, with the journal of the calls that
were made for its firings. -/
inductive Chronicle (e : Engine) (start : World) (o : Occasion) : List Entry → EventRun × World → Prop
  | arrived {w : World} (h : start.Untouched w) : Chronicle e start o [] (⟨o.event, .arrived⟩, w)
  | listing {w : World} (h : start.Untouched w) : Chronicle e start o [] (⟨o.event, .listing o⟩, w)
  | listed {w : World} (hdue : start.due .listActive 0 = none)
      (h : (start.called .listActive).Untouched w) :
      Chronicle e start o [] (⟨o.event, .listed o (.ok (start.listed o))⟩, w)
  | unlisted {w : World} {f : Fault} (hdue : start.due .listActive 0 = some f)
      (h : (start.called .listActive).Untouched w) :
      Chronicle e start o [] (⟨o.event, .listed o (.error (e.reported .rules f))⟩, w)
  | firing {w : World} {journal : List Entry} {fs : List Firing}
      (hdue : start.due .listActive 0 = none) (h : Journaled e start o journal fs w)
      (hopen : o.outcome? e (start.listed o).length fs = none) :
      Chronicle e start o journal (⟨o.event, .firing (start.listed o).length fs⟩, w)
  | ended {w : World} {journal : List Entry} {fs : List Firing} {outcome : Except Fault EventReport}
      (hdue : start.due .listActive 0 = none) (h : Journaled e start o journal fs w)
      (hover : o.outcome? e (start.listed o).length fs = some outcome) :
      Chronicle e start o journal (⟨o.event, .ended outcome⟩, w)
  | failed {w : World} {f : Fault} (hdue : start.due .listActive 0 = some f)
      (h : (start.called .listActive).Untouched w) :
      Chronicle e start o [] (⟨o.event, .ended (.error (e.reported .rules f))⟩, w)

namespace Chronicle

variable {e : Engine} {start w : World} {o : Occasion} {journal : List Entry} {r : EventRun}
  {fs : List Firing}

/-- The firings begin or go on. -/
theorem settle (hr : r.event = o.event) (hdue : start.due .listActive 0 = none)
    (h : Journaled e start o journal fs w) :
    Chronicle e start o journal (r.settle e (start.listed o).length fs, w) := by
  rw [EventRun.settle_eq hr]
  split
  · next outcome hover => exact ended hdue h hover
  · next hopen => exact firing hdue h hopen

theorem turn {event : Event} (ho : o.Of event) (hno : ∀ n fs, r.progress ≠ .firing n fs)
    (h : Chronicle e start o journal (r, w)) : Chronicle e start o journal (r.turn e w) := by
  cases h with
  | arrived h =>
    rw [ho.turn_arrived]
    exact listing (h.trans ⟨rfl, rfl, rfl, rfl⟩)
  | listing h =>
    have hdue : w.due .listActive 0 = start.due .listActive 0 := by
      unfold World.due
      rw [h.outages, h.backend]
    have hcalled : (start.called .listActive).Untouched (w.called .listActive) :=
      ⟨h.rules, h.logs, congrArg (Outages.advance .listActive) h.outages, h.backend⟩
    simp only [EventRun.turn, World.listActive, Engine.guarded_eq, hdue]
    cases hlist : start.due .listActive 0 with
    | some f => exact unlisted hlist hcalled
    | none =>
      have hrules : (w.called .listActive).rules.active o.event.tenant o.event.table =
          start.listed o := by
        rw [hcalled.rules]
        rfl
      dsimp only
      rw [hrules]
      exact listed hlist hcalled
  | listed hdue h => exact settle rfl hdue (.begin h)
  | unlisted hdue h => exact failed hdue h
  | firing hdue h hopen => exact absurd rfl (hno _ _)
  | ended hdue h hover => exact ended hdue h hover
  | failed hdue h => exact failed hdue h

end Chronicle

/-- **The journal of every run agrees with the firings and with the stores.** -/
theorem chronicle_of_history {e : Engine} {event : Event} {o : Occasion} {start : World}
    (ho : o.Of event) (hk : start.rules.Keyed)
    (hlists : ∀ r ∈ start.rules, ∃ vs, r.actions = .list vs) {journal : List Entry}
    {p : EventRun × World} (h : History e ({ event }, start) journal p) :
    Chronicle e start o journal p := by
  induction h with
  | begin =>
    rw [← ho.event]
    exact .arrived (.refl start)
  | turn _ hno ih => exact ih.turn ho hno
  | fire _ hr hf _ hstep ih =>
    cases ih with
    | firing hdue h hopen =>
      simp only [EventProgress.firing.injEq] at hr
      obtain ⟨rfl, rfl⟩ := hr
      exact .settle rfl hdue (h.fire hk hlists hf hstep)
    | _ => exact absurd hr (by simp)
  | drift _ now outlets ih =>
    have hd : ∀ w : World, w.Untouched { w with now, outlets } := fun w => ⟨rfl, rfl, rfl, rfl⟩
    cases ih with
    | arrived h => exact .arrived (h.trans (hd _))
    | listing h => exact .listing (h.trans (hd _))
    | listed hdue h => exact .listed hdue (h.trans (hd _))
    | unlisted hdue h => exact .unlisted hdue (h.trans (hd _))
    | firing hdue h hopen => exact .firing hdue (h.keep (hd _)) hopen
    | ended hdue h hover => exact .ended hdue (h.keep (hd _)) hover
    | failed hdue h => exact .failed hdue (h.trans (hd _))

end ChangeRules
