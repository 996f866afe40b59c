import ChangeRules.Proofs.Engine.Outage
import ChangeRules.Proofs.Engine.Progress
import Mathlib.Data.List.OfFn

/-!
# What failing stores do to an event

Where the rules cannot be listed, nothing fires. Otherwise every match fires, whichever calls of the
stores fail: the logs that could be appended are there, the executions that could be noted are noted,
and the event fails exactly if some call failed, with the fault of the first match that met one.

* `Dossier`: a match that fired, with its log and what became of it.
* `Settlement`: how the dossiers of an event agree with its journal, its stores and its outcome.
* **`Journaled.settlement`**: they do so when all firings are over.
* **`contains_of_lists`**: whatever fails and however the firings interleave, that is what an event
  comes to.
-/

namespace ChangeRules

/-! ## Dossiers -/

/-- A match that fired, with its log and what became of it. -/
structure Dossier where
  found : RuleMatch
  state : FiringState
  log : ExecutionLog
  fate : Fate

namespace Dossier

def report (x : Dossier) : FiringReport := ⟨x.found.rule.id, x.state, x.log.id, x.log.error⟩

/-- The calls of the stores for a match in a place. -/
def entries (place : Nat) (x : Dossier) : List Entry := x.fate.entries place x.found.rule x.log

/-- What the match comes to. -/
def outcome (e : Engine) (x : Dossier) : Except Fault FiringReport := x.fate.outcome e x.report

/-- The log tells how the firing ended: why its rule could not be judged, or what came of its actions. -/
def Tells (e : Engine) (o : Occasion) (x : Dossier) : Prop :=
  Firing.Tells e { found := x.found, occasion := o } x.state x.log

/-- The log that was appended. -/
def written? (x : Dossier) : Option ExecutionLog := if x.fate.isWritten then some x.log else none

/-- The note that was made. -/
def note? (x : Dossier) : Option Note :=
  if x.fate.isComplete then some ⟨x.found.rule, x.log.executedAt⟩ else none

theorem written_entries (place : Nat) (x : Dossier) :
    (x.entries place).filterMap Entry.written? = x.written?.toList := by
  unfold entries written?
  cases x.fate <;> rfl

theorem note_entries (place : Nat) (x : Dossier) :
    (x.entries place).filterMap Entry.note? = x.note?.toList := by
  unfold entries note?
  cases x.fate <;> rfl

theorem filterMap_written? (xs : List Dossier) :
    xs.filterMap written? = (xs.filter (·.fate.isWritten)).map (·.log) := by
  rw [← List.filterMap_eq_map, List.filterMap_filter]
  rfl

theorem filterMap_note? (xs : List Dossier) : xs.filterMap note? =
    (xs.filter (·.fate.isComplete)).map fun x => ⟨x.found.rule, x.log.executedAt⟩ := by
  rw [← List.filterMap_eq_map, List.filterMap_filter]
  rfl

/-- Some call failed exactly if the match comes to a fault. -/
theorem fault?_ne_none_iff (e : Engine) (place : Nat) (x : Dossier) :
    x.fate.fault? e ≠ none ↔ ∃ y ∈ x.entries place, y.failure ≠ none := by
  unfold entries
  cases x.fate <;> simp [Fate.fault?, Fate.entries]

/-- All matches come to their reports together, or to the fault of the first that met one. -/
theorem gather_outcome (e : Engine) (xs : List Dossier) :
    EventRun.gather (xs.map (outcome e)) = match xs.findSome? (·.fate.fault? e) with
      | some fault => .error fault
      | none => .ok (xs.map report) := by
  induction xs with
  | nil => rfl
  | cons x xs ih =>
    rw [List.map_cons, List.findSome?_cons]
    unfold outcome Fate.outcome
    cases hfault : x.fate.fault? e with
    | some fault => rfl
    | none =>
      change (EventRun.gather (xs.map (outcome e))).map _ = _
      rw [ih]
      cases xs.findSome? (·.fate.fault? e) <;> rfl

/-- A journal is made up of the entries of the dossiers, place by place. -/
theorem perm_of_places {β : Type} {g : Entry → Option β} {g' : Dossier → Option β}
    (hg : ∀ place x, (entries place x).filterMap g = (g' x).toList) {xs : List Dossier} {k : Nat}
    {journal : List Entry} (hplaces : ∀ y ∈ journal, k ≤ y.place ∧ y.place < k + xs.length)
    (hcalls : ∀ i x, xs[i]? = some x →
      journal.filter (·.place = k + i) = x.entries (k + i)) :
    (journal.filterMap g).Perm (xs.filterMap g') := by
  induction xs generalizing k journal with
  | nil =>
    have hnil : journal = [] := List.eq_nil_iff_forall_not_mem.mpr fun y hy => by
      have := hplaces y hy
      simp at this
      omega
    rw [hnil]
    rfl
  | cons x xs ih =>
    have hfirst : journal.filter (·.place = k) = x.entries k := hcalls 0 x rfl
    have hsplit := List.filter_append_perm (fun y : Entry => decide (y.place = k)) journal
    have hrest : ((journal.filter fun y => !decide (y.place = k)).filterMap g).Perm
        (xs.filterMap g') := by
      refine @ih (k + 1) _ (fun y hy => ?_) fun i z hz => ?_
      · obtain ⟨hy, hne⟩ := List.mem_filter.mp hy
        have hplace := hplaces y hy
        rw [List.length_cons] at hplace
        have hne : y.place ≠ k := by simpa using hne
        omega
      · have hlater := hcalls (i + 1) z hz
        rw [← Nat.add_assoc, Nat.add_right_comm] at hlater
        rw [← hlater, List.filter_filter]
        refine List.filter_congr fun y _ => ?_
        by_cases h : y.place = k + 1 + i
        · have hne : k + 1 + i ≠ k := by omega
          simp [h, hne]
        · simp [h]
    refine (hsplit.symm.filterMap g).trans ?_
    rw [List.filterMap_append, hfirst, hg]
    have hcons : (x :: xs).filterMap g' = (g' x).toList ++ xs.filterMap g' := by
      cases h : g' x <;> simp [h]
    rw [hcons]
    exact hrest.append_left _

end Dossier

/-! ## Settlements -/

/-- How the dossiers of an event, in firing order, agree with its journal, its stores and its
outcome. -/
structure Settlement (e : Engine) (start : World) (event : Event) (journal : List Entry)
    (outcome : Except Fault EventReport) (w : World) (xs : List Dossier) : Prop where
  found : xs.map (·.found) = start.found event
  tells : ∃ o : Occasion, o.Of event ∧ ∀ x ∈ xs, x.Tells e o
  /-- Which calls were made for each match. -/
  calls : ∀ i x, xs[i]? = some x → journal.filter (·.place = i) = x.entries i
  places : ∀ y ∈ journal, y.place < xs.length
  /-- Every call failed with what was due for it. -/
  due : ∀ c, c ≠ .listActive → (journal.filter (·.call = c)).map Entry.failure =
    (List.range (journal.countP (·.call = c))).map fun k => start.due c k
  logs : ∃ rows, w.logs = start.logs ++ rows ∧
    rows.Perm ((xs.filter (·.fate.isWritten)).map (·.log))
  rules : List.Forall₂ (fun r r' =>
    (∃ x ∈ xs.filter (·.fate.isComplete), x.found.rule = r ∧ r' = r.noted x.log.executedAt) ∨
      (∀ x ∈ xs.filter (·.fate.isComplete), x.found.rule ≠ r) ∧ r' = r) start.rules w.rules
  comes : outcome = match xs.findSome? (·.fate.fault? e) with
    | some fault => .error fault
    | none => .ok ⟨event.id, event.tenant,
        (start.rules.active event.tenant event.table).length, xs.map Dossier.report⟩
  /-- The event fails exactly if some call failed, and then with an error of a store. -/
  fails : (∃ fault, outcome = .error fault ∧ IsStoreFault fault) ↔ ∃ y ∈ journal, y.failure ≠ none

/-- Each place of a row has something that fits: so there is a row of these things. -/
theorem exists_row {α β : Type} {R : Nat → α → β → Prop} (as : List α)
    (h : ∀ i a, as[i]? = some a → ∃ b, R i a b) :
    ∃ bs : List β, bs.length = as.length ∧
      ∀ i a b, as[i]? = some a → bs[i]? = some b → R i a b := by
  have hfin : ∀ i : Fin as.length, ∃ b, R i as[i] b := fun i => h i as[i] (by simp)
  choose g hg using hfin
  refine ⟨List.ofFn g, List.length_ofFn, fun i a b ha hb => ?_⟩
  obtain ⟨hi, rfl⟩ := List.getElem?_eq_some_iff.mp ha
  rw [List.getElem?_ofFn, dif_pos hi, Option.some.injEq] at hb
  rw [← hb]
  exact hg ⟨i, hi⟩

namespace Journaled

variable {e : Engine} {start w : World} {o : Occasion} {journal : List Entry} {fs : List Firing}

/-- Firings that are over have their dossiers. -/
theorem dossiers (h : Journaled e start o journal fs w)
    (hover : ∀ f ∈ fs, f.outcome?.isSome = true) :
    ∃ xs : List Dossier, xs.map (·.found) = start.found o.event ∧ (∀ x ∈ xs, x.Tells e o) ∧
      (∀ i x, xs[i]? = some x → journal.filter (·.place = i) = x.entries i) ∧
      fs.filterMap Firing.outcome? = xs.map (Dossier.outcome e) := by
  obtain ⟨xs, hlen, hR⟩ := exists_row (R := fun i (f : Firing) (x : Dossier) =>
    x.found = f.found ∧ x.Tells e o ∧ journal.filter (·.place = i) = x.entries i ∧
      f.outcome? = some (x.outcome e)) fs fun i f hf => by
    have hmem := List.mem_of_getElem? hf
    have hfiled := h.filed i f hf
    have ho := h.occasion f hmem
    have hend := hover f hmem
    unfold Firing.Filed at hfiled
    unfold Firing.outcome? at hend ⊢
    cases hp : f.progress with
    | ended outcome =>
      rw [hp] at hfiled
      obtain ⟨state, log, fate, htells, hentries, rfl⟩ := hfiled
      refine ⟨⟨f.found, state, log, fate⟩, rfl, ?_, hentries, rfl⟩
      rw [← ho]
      exact htells
    | _ =>
      rw [hp] at hend
      exact absurd hend (by simp)
  have hget : ∀ i (hx : i < xs.length) (hf : i < fs.length), xs[i].found = fs[i].found ∧
      xs[i].Tells e o ∧ journal.filter (·.place = i) = xs[i].entries i ∧
      fs[i].outcome? = some (xs[i].outcome e) :=
    fun i hx hf => hR i _ _ (List.getElem?_eq_getElem hf) (List.getElem?_eq_getElem hx)
  refine ⟨xs, ?_, fun x hx => ?_, fun i x hx => ?_, ?_⟩
  · rw [← h.found]
    refine List.ext_getElem (by simp [hlen]) fun i hx hf => ?_
    rw [List.getElem_map, List.getElem_map]
    exact (hget i _ _).1
  · obtain ⟨i, hi, rfl⟩ := List.getElem_of_mem hx
    exact (hget i hi (hlen ▸ hi)).2.1
  · obtain ⟨hi, rfl⟩ := List.getElem?_eq_some_iff.mp hx
    exact (hget i hi (hlen ▸ hi)).2.2.1
  · have hmap : fs.map Firing.outcome? = xs.map fun x => some (x.outcome e) := by
      refine List.ext_getElem (by simp [hlen]) fun i hf hx => ?_
      rw [List.getElem_map, List.getElem_map]
      exact (hget i _ _).2.2.2
    calc fs.filterMap Firing.outcome?
        = (fs.map Firing.outcome?).filterMap id := by rw [List.filterMap_map]; rfl
      _ = xs.map (Dossier.outcome e) := by
        rw [hmap, List.filterMap_map, ← List.filterMap_eq_map]
        rfl

/-- **What an event comes to when all its firings are over**, whichever calls failed. -/
theorem settlement {outcome : Except Fault EventReport} (hv : o.event.Valid) (ho : o.Of o.event)
    (hk : start.rules.Keyed) (h : Journaled e start o journal fs w)
    (hover : o.outcome? e (start.listed o).length fs = some outcome) :
    ∃ xs, Settlement e start o.event journal outcome w xs := by
  have hall : (∀ f ∈ fs, f.outcome?.isSome = true) ∧
      outcome = (EventRun.gather (fs.filterMap Firing.outcome?)).map
        fun reports => ⟨o.event.id, o.event.tenant, (start.listed o).length, reports⟩ := by
    rcases Occasion.outcome?_cases hover with ⟨-, fault, -, hfatal⟩ | ⟨hall, -, heq⟩
    · have := h.not_isFatal _ (List.mem_of_find?_eq_some hfatal)
      rw [List.find?_some hfatal] at this
      exact absurd this (by simp)
    · exact ⟨hall, heq⟩
  obtain ⟨xs, hfound, htells, hcalls, houtcomes⟩ := h.dossiers hall.1
  have hlen : fs.length = xs.length := by
    have := congrArg List.length (h.found.trans hfound.symm)
    simpa using this
  have hplaces : ∀ y ∈ journal, y.place < xs.length := fun y hy => hlen ▸ h.places y hy
  -- The journal holds what the dossiers tell, in whatever order.
  have hperm {β : Type} {g : Entry → Option β} {g' : Dossier → Option β}
      (hg : ∀ place x, (Dossier.entries place x).filterMap g = (g' x).toList) :
      (journal.filterMap g).Perm (xs.filterMap g') :=
    Dossier.perm_of_places hg (k := 0) (fun y hy => ⟨Nat.zero_le _, by simpa using hplaces y hy⟩)
      fun i x hx => by simpa using hcalls i x hx
  have hcomes : outcome = match xs.findSome? (·.fate.fault? e) with
      | some fault => .error fault
      | none => .ok ⟨o.event.id, o.event.tenant, (start.listed o).length,
          xs.map Dossier.report⟩ := by
    rw [hall.2, houtcomes, Dossier.gather_outcome]
    cases xs.findSome? (·.fate.fault? e) <;> rfl
  refine ⟨xs, ?_⟩
  exact {
    found := hfound
    tells := ⟨o, ho, htells⟩
    calls := hcalls
    places := hplaces
    due := fun c hc => by
      rw [h.world.due]
      refine List.map_congr_left fun k _ => ?_
      simp [World.due, World.called, Outages.advance, hc]
    logs := ⟨_, h.world.logs, by
      rw [← Dossier.filterMap_written?]
      exact hperm Dossier.written_entries⟩
    rules := by
      have hnotes := hperm Dossier.note_entries
      rw [Dossier.filterMap_note?] at hnotes
      have hsub : ((xs.filter (·.fate.isComplete)).map (·.found)).Sublist
          (start.found o.event) := by
        rw [← hfound]
        exact List.filter_sublist.map _
      rw [h.world.rules]
      exact World.heed_of_found hv hk hsub hnotes
    comes := hcomes
    fails := by
      rw [hcomes]
      constructor
      · rintro ⟨fault, hfault, -⟩
        cases hfirst : xs.findSome? (·.fate.fault? e) with
        | none => exact absurd (hfirst ▸ hfault) (by simp)
        | some g =>
          obtain ⟨x, hx, hxg⟩ := List.exists_of_findSome?_eq_some hfirst
          obtain ⟨i, hi⟩ := List.mem_iff_getElem?.mp hx
          obtain ⟨y, hy, hfailed⟩ := (x.fault?_ne_none_iff e i).mp (by simp [hxg])
          rw [← hcalls i x hi] at hy
          exact ⟨y, (List.mem_filter.mp hy).1, hfailed⟩
      · rintro ⟨y, hy, hfailed⟩
        have hx := List.getElem?_eq_getElem (hplaces y hy)
        have hmem : y ∈ journal.filter (·.place = y.place) := List.mem_filter.mpr ⟨hy, by simp⟩
        rw [hcalls _ _ hx] at hmem
        have hfault := (Dossier.fault?_ne_none_iff e _ _).mpr ⟨y, hmem, hfailed⟩
        cases hfirst : xs.findSome? (·.fate.fault? e) with
        | some g =>
          obtain ⟨x, -, hxg⟩ := List.exists_of_findSome?_eq_some hfirst
          exact ⟨g, rfl, x.fate.isStoreFault hxg⟩
        | none =>
          exact absurd (List.findSome?_eq_none_iff.mp hfirst _ (List.getElem_mem (hplaces y hy)))
            hfault }

end Journaled

/-! ## Containment -/

/-- Whatever calls of the stores fail and however the firings interleave, an event comes to its end,
and to what its journal says. -/
structure Engine.Contains (e : Engine) (event : Event) (start : World) : Prop where
  /-- What the engine does with the event is one of the runs. -/
  process : ∃ journal r, History e ({ event }, start) journal (r, (e.process event start).2) ∧
    r.outcome? = some (e.process event start).1
  ends : ∀ p, Run e ({ event }, start) p → ∃ q, Run e p q ∧ q.1.outcome?.isSome = true
  /-- If the rules cannot be listed, nothing fires, and nothing is stored. -/
  unlisted : ∀ f, start.due .listActive 0 = some f →
    IsStoreFault (e.reported .rules f) ∧
    (e.process event start).2.outlets = start.outlets ∧
    ∀ journal r w, History e ({ event }, start) journal (r, w) →
      journal = [] ∧ start.SameStores w ∧ (∀ n fs, r.progress ≠ .firing n fs) ∧
      ∀ outcome, r.outcome? = some outcome → outcome = .error (e.reported .rules f)
  listed : start.due .listActive 0 = none →
    ∀ journal r w outcome, History e ({ event }, start) journal (r, w) →
      r.outcome? = some outcome → ∃ xs, Settlement e start event journal outcome w xs

section

variable {e : Engine} {event : Event} {start : World}

/-- Where the rules cannot be listed, no sink hears of the event. -/
theorem outlets_process_of_unlisted {o : Occasion} {f : Fault} (ho : o.Of event)
    (h : start.due .listActive 0 = some f) :
    (e.process event start).2.outlets = start.outlets := by
  obtain rfl := ho.event
  let counted : World := { start with metrics := start.metrics.countEvent o.operation.name }
  have hlist : EventRun.turn e ⟨o.event, .listing o⟩ counted =
      (⟨o.event, .listed o (.error (e.reported .rules f))⟩, counted.called .listActive) := by
    have hdue : counted.due .listActive 0 = some f := h
    simp only [EventRun.turn, World.listActive, Engine.guarded_eq, hdue]
    rfl
  have hbegun : e.begun o.event start =
      (⟨o.event, .ended (.error (e.reported .rules f))⟩, counted.called .listActive) := by
    simp only [Engine.begun, Engine.roundsToFire, EventRun.turns]
    rw [ho.turn_arrived, hlist]
    rfl
  rw [e.process_eq, hbegun]
  rfl

/-- Where the rules cannot be listed, nothing fires, and nothing is stored. -/
theorem Chronicle.of_unlisted {o : Occasion} {f : Fault} {journal : List Entry} {r : EventRun}
    {w : World} (hc : Chronicle e start o journal (r, w)) (h : start.due .listActive 0 = some f) :
    journal = [] ∧ start.SameStores w ∧ (∀ n fs, r.progress ≠ .firing n fs) ∧
      ∀ outcome, r.outcome? = some outcome → outcome = .error (e.reported .rules f) := by
  have listed : start.due .listActive 0 = none → False := fun hnone => by
    rw [h] at hnone
    exact absurd hnone (by simp)
  cases hc with
  | arrived hw | listing hw =>
    exact ⟨rfl, ⟨hw.rules, hw.logs⟩, by simp, by simp [EventRun.outcome?]⟩
  | unlisted hdue hw => exact ⟨rfl, ⟨hw.rules, hw.logs⟩, by simp, by simp [EventRun.outcome?]⟩
  | failed hdue hw =>
    rw [h, Option.some.injEq] at hdue
    subst hdue
    refine ⟨rfl, ⟨hw.rules, hw.logs⟩, by simp, fun outcome ho => ?_⟩
    unfold EventRun.outcome? at ho
    rw [Option.some.injEq] at ho
    exact ho.symm
  | listed hdue _ => exact (listed hdue).elim
  | firing hdue _ _ => exact (listed hdue).elim
  | ended hdue _ _ => exact (listed hdue).elim

/-- **What failing stores do to an event** whose rules have lists of actions. -/
theorem contains_of_lists (hv : event.Valid) (hk : start.rules.Keyed)
    (hidle : start.locks.queues = []) (hlists : ∀ r ∈ start.rules, ∃ vs, r.actions = .list vs) :
    e.Contains event start := by
  obtain ⟨o, ho⟩ := hv.occasion
  have chronicle {journal : List Entry} {p : EventRun × World}
      (h : History e ({ event }, start) journal p) : Chronicle e start o journal p :=
    chronicle_of_history ho hk hlists h
  refine ⟨?_, fun p hp => over_of_run hv hk hidle hp, fun f hf => ⟨e.isStoreFault_reported .rules f, ?_, ?_⟩, ?_⟩
  · obtain ⟨r, hrun, hover⟩ := Engine.over_process (e := e) hv hk hidle
    obtain ⟨journal, h⟩ := run_iff_history.mp hrun
    exact ⟨journal, r, h, hover⟩
  · exact outlets_process_of_unlisted ho hf
  · exact fun journal r w h => (chronicle h).of_unlisted hf
  · intro hlisted journal r w outcome h hover
    obtain rfl := ho.event
    cases chronicle h with
    | ended hdue hj hout =>
      unfold EventRun.outcome? at hover
      rw [Option.some.injEq] at hover
      rw [← hover]
      exact hj.settlement hv ho hk hout
    | failed hdue _ =>
      rw [hdue] at hlisted
      exact absurd hlisted (by simp)
    | _ => exact absurd hover (by simp [EventRun.outcome?])

/-- A world with two rules in which the first log cannot be appended. -/
def World.failing : World :=
  { World.plain [.plain "r1" (.list []), .plain "r2" (.list [])] with
    outages := Outages.none.add .append 1 (.outside "TimeoutError" "") }

theorem contains_of_lists_failing :
    Event.plain.Valid ∧ World.failing.rules.Keyed ∧ World.failing.locks.queues = [] ∧
      (∀ r ∈ World.failing.rules, ∃ vs, r.actions = .list vs) ∧
      World.failing.due .listActive 0 = none ∧ World.failing.due .append 0 ≠ none ∧
      ({} : Engine).Contains .plain World.failing := by
  have hkeyed : World.failing.rules.Keyed := Rules.Keyed.of_texts
    (by simp [World.failing, World.plain, Rule.plain])
    (by simp [World.failing, World.plain, Rule.plain])
  have hlists : ∀ r ∈ World.failing.rules, ∃ vs, r.actions = .list vs := by
    simp [World.failing, World.plain, Rule.plain]
  exact ⟨Event.valid_plain, hkeyed, rfl, hlists, rfl,
    by simp [World.failing, World.due, Outages.add, Outages.none],
    contains_of_lists Event.valid_plain hkeyed rfl hlists⟩

end

end ChangeRules
