import ChangeRules.Event.Notice
import ChangeRules.Proofs.Engine.Effect

/-!
# Where an event is

A valid event gets to its firings on one way only, whatever happens meanwhile. What is to be shown
of a whole run is therefore shown of its firings: that it holds when they begin and that no turn of
one of them breaks it.

* `Event.Valid`: the events that notices of changes give.
* `Stage`: where an event can be, with what is known of its firings there.
* **`stage_of_run`**: what holds of the firings at first, and is kept by their turns, holds of them
  in every run.
-/

namespace ChangeRules

/-! ## Valid events -/

/-- An event as a notice of a change gives it. -/
structure Event.Valid (event : Event) : Prop where
  operation : ∃ o : EventOperation, event.operation = .text o.name
  tenant : ∃ s, event.tenant = .text s
  table : event.table = .null ∨ ∃ s, event.table = .text s
  oldRow : event.oldRow = .null ∨ ∃ fields, event.oldRow = .object fields
  newRow : event.newRow = .null ∨ ∃ fields, event.newRow = .object fields

/-- What is known of an event when its rules are listed. -/
structure Occasion.Of (event : Event) (o : Occasion) : Prop where
  operation : EventOperation.ofValue event.operation = .ok o.operation
  recordId : event.recordId = .ok o.recordId
  event : o.event = event

theorem EventNotice.valid_toEvent (n : EventNotice) (now : DateTime) (newId : String) :
    (n.toEvent now newId).Valid where
  operation := ⟨n.operation, rfl⟩
  tenant := ⟨n.tenant, rfl⟩
  table := by
    unfold toEvent
    cases n.table with
    | none => exact Or.inl rfl
    | some s => exact Or.inr ⟨s, rfl⟩
  oldRow := by
    unfold toEvent rowValue
    cases n.oldRow with
    | none => exact Or.inl rfl
    | some fields => exact Or.inr ⟨fields, rfl⟩
  newRow := by
    unfold toEvent rowValue
    cases n.newRow with
    | none => exact Or.inl rfl
    | some fields => exact Or.inr ⟨fields, rfl⟩

namespace Event

theorem rowId_ok {row : Value} (h : row = .null ∨ ∃ fields, row = .object fields) :
    ∃ id, rowId row = .ok id := by
  unfold rowId
  rcases h with rfl | ⟨fields, rfl⟩
  · exact ⟨none, rfl⟩
  · dsimp only
    split
    · exact ⟨none, rfl⟩
    · exact ⟨_, rfl⟩

/-- A valid event is counted, and its row has an id or none. -/
theorem Valid.occasion {event : Event} (h : event.Valid) : ∃ o : Occasion, o.Of event := by
  obtain ⟨op, hop⟩ := h.operation
  obtain ⟨new, hnew⟩ := rowId_ok h.newRow
  obtain ⟨old, hold⟩ := rowId_ok h.oldRow
  have hid : ∃ id, event.recordId = .ok id := by
    unfold recordId
    rw [hnew]
    cases new with
    | some id => exact ⟨some id, rfl⟩
    | none => exact ⟨old, hold⟩
  obtain ⟨id, hid⟩ := hid
  refine ⟨⟨event, op, id⟩, ?_, hid, rfl⟩
  rw [hop]
  simp only [EventOperation.ofValue, EventOperation.ofName?_name]

end Event

/-! ## Stages -/

namespace World

theorem kept_drift (w : World) (now : DateTime) (outlets : Outlets) :
    w.Kept { w with now, outlets } := ⟨⟨rfl, rfl⟩, rfl, fun h => ⟨h.outages, h.backend⟩⟩

end World

/-- The rules that are listed for an event. -/
def World.listed (w : World) (o : Occasion) : List Rule :=
  w.rules.active o.event.tenant o.event.table

/-- What the firings of an occasion came to, if the event is over. -/
def Occasion.outcome? (e : Engine) (o : Occasion) (considered : Nat) (fs : List Firing) :
    Option (Except Fault EventReport) :=
  EventRun.firingsOutcome? e { event := o.event } considered fs

/-- Where an event can be, if the rules of `start` fire for it and `P` holds of the firings. -/
inductive Stage (e : Engine) (start : World) (o : Occasion) (P : List Firing → World → Prop) :
    EventRun × World → Prop
  | arrived {w : World} (h : start.Kept w) : Stage e start o P (⟨o.event, .arrived⟩, w)
  | listing {w : World} (h : start.Kept w) : Stage e start o P (⟨o.event, .listing o⟩, w)
  | listed {w : World} (h : start.Kept w) :
      Stage e start o P (⟨o.event, .listed o (.ok (start.listed o))⟩, w)
  | unlisted {w : World} {fault : Fault} (h : start.Kept w) (hw : ¬ start.Reliable)
      (hfault : IsStoreFault fault) : Stage e start o P (⟨o.event, .listed o (.error fault)⟩, w)
  | firing {w : World} {fs : List Firing} (hP : P fs w)
      (hopen : o.outcome? e (start.listed o).length fs = none) :
      Stage e start o P (⟨o.event, .firing (start.listed o).length fs⟩, w)
  | ended {w : World} {fs : List Firing} {outcome : Except Fault EventReport} (hP : P fs w)
      (hover : o.outcome? e (start.listed o).length fs = some outcome) :
      Stage e start o P (⟨o.event, .ended outcome⟩, w)
  | failed {w : World} {fault : Fault} (h : start.Kept w) (hw : ¬ start.Reliable)
      (hfault : IsStoreFault fault) : Stage e start o P (⟨o.event, .ended (.error fault)⟩, w)

/-- A fatal outcome is a fault, and it is found among outcomes if there is one. -/
theorem find?_isFatal (outcomes : List (Except Fault FiringReport)) :
    (∃ fault, outcomes.find? EventRun.isFatal = some (.error fault)) ∨
      outcomes.find? EventRun.isFatal = none ∧ ∀ x ∈ outcomes, EventRun.isFatal x = false := by
  cases h : outcomes.find? EventRun.isFatal with
  | none => exact Or.inr ⟨rfl, fun x hx => by simpa using List.find?_eq_none.mp h x hx⟩
  | some y =>
    cases y with
    | ok report => exact absurd (List.find?_some h) (by simp [EventRun.isFatal])
    | error fault => exact Or.inl ⟨fault, rfl⟩

namespace Occasion

variable {e : Engine} {o : Occasion} {n : Nat} {fs : List Firing}

/-- How an event comes to its outcome: by the first fault that is not a store's, if its rules fire one
after the other, and otherwise when all its firings are over. -/
theorem outcome?_cases {outcome : Except Fault EventReport} (h : o.outcome? e n fs = some outcome) :
    (e.parallel = false ∧ ∃ fault, outcome = .error fault ∧
      (fs.filterMap Firing.outcome?).find? EventRun.isFatal = some (.error fault)) ∨
    (∀ f ∈ fs, f.outcome?.isSome = true) ∧
      (e.parallel = true ∨ ∀ x ∈ fs.filterMap Firing.outcome?, EventRun.isFatal x = false) ∧
      outcome = (EventRun.gather (fs.filterMap Firing.outcome?)).map
        fun reports => ⟨o.event.id, o.event.tenant, n, reports⟩ := by
  have hall : (if (fs.filterMap Firing.outcome?).length = fs.length then
      some ((EventRun.gather (fs.filterMap Firing.outcome?)).map
        fun reports => (⟨o.event.id, o.event.tenant, n, reports⟩ : EventReport))
      else none) = some outcome →
      (∀ f ∈ fs, f.outcome?.isSome = true) ∧
        outcome = (EventRun.gather (fs.filterMap Firing.outcome?)).map
          fun reports => ⟨o.event.id, o.event.tenant, n, reports⟩ := by
    intro hif
    split at hif
    · next hlen =>
      rw [Option.some.injEq] at hif
      exact ⟨List.filterMap_length_eq_length.mp hlen, hif.symm⟩
    · exact absurd hif (by simp)
  unfold outcome? EventRun.firingsOutcome? at h
  dsimp only at h
  cases hp : e.parallel with
  | true =>
    rw [hp] at h
    obtain ⟨hover, heq⟩ := hall h
    exact Or.inr ⟨hover, Or.inl rfl, heq⟩
  | false =>
    rw [hp] at h
    rcases find?_isFatal (fs.filterMap Firing.outcome?) with ⟨fault, hfatal⟩ | ⟨hnone, hno⟩
    · simp only [Bool.false_eq_true, if_false, hfatal, Option.some.injEq] at h
      exact Or.inl ⟨rfl, fault, h.symm, hfatal⟩
    · simp only [Bool.false_eq_true, if_false, hnone] at h
      obtain ⟨hover, heq⟩ := hall h
      exact Or.inr ⟨hover, Or.inr hno, heq⟩

/-- An event that is not over had no fault but of stores, if its rules fire one after the other. -/
theorem not_isFatal_of_open (hseq : e.parallel = false) (h : o.outcome? e n fs = none) :
    ∀ x ∈ fs.filterMap Firing.outcome?, EventRun.isFatal x = false := by
  rcases find?_isFatal (fs.filterMap Firing.outcome?) with ⟨fault, hfatal⟩ | ⟨-, hno⟩
  · unfold outcome? EventRun.firingsOutcome? at h
    simp only [hseq, Bool.false_eq_true, if_false, hfatal] at h
    exact absurd h (by simp)
  · exact hno

end Occasion

/-- Firings come to what those of the occasion come to. -/
theorem EventRun.settle_eq {e : Engine} {o : Occasion} {r : EventRun} {n : Nat} {fs : List Firing}
    (hr : r.event = o.event) : r.settle e n fs = match o.outcome? e n fs with
      | some outcome => ⟨o.event, .ended outcome⟩
      | none => ⟨o.event, .firing n fs⟩ := by
  have hout : r.firingsOutcome? e n fs = o.outcome? e n fs := by
    unfold Occasion.outcome? EventRun.firingsOutcome?
    rw [hr]
  have hmoved : ∀ p, r.moved p = ⟨o.event, p⟩ := fun p => by rw [← hr]; rfl
  unfold settle
  rw [hout]
  cases o.outcome? e n fs <;> exact hmoved _

/-- An event with an occasion is counted first. -/
theorem Occasion.Of.turn_arrived {e : Engine} {event : Event} {o : Occasion} (ho : o.Of event)
    (w : World) : EventRun.turn e ⟨o.event, .arrived⟩ w = (⟨o.event, .listing o⟩,
      { w with metrics := w.metrics.countEvent o.operation.name }) := by
  simp only [EventRun.turn, EventRun.arrive, ho.event, ho.operation, ho.recordId]
  rw [← ho.event]
  rfl

namespace Stage

variable {e : Engine} {start w : World} {o : Occasion} {P : List Firing → World → Prop}
  {r : EventRun} {n : Nat} {fs : List Firing}

/-- The firings begin or go on. -/
theorem settle (hr : r.event = o.event) (hP : P fs w) :
    Stage e start o P (r.settle e (start.listed o).length fs, w) := by
  rw [EventRun.settle_eq hr]
  split
  · next outcome h => exact ended hP h
  · next h => exact firing hP h

theorem turn {event : Event} (ho : o.Of event)
    (hbegin : ∀ w, start.Kept w → P (EventRun.firings o (start.listed o)) w)
    (hno : ∀ n fs, r.progress ≠ .firing n fs) (h : Stage e start o P (r, w)) :
    Stage e start o P (r.turn e w) := by
  cases h with
  | arrived h =>
    rw [ho.turn_arrived]
    exact listing (h.trans ⟨⟨rfl, rfl⟩, rfl, fun hw => ⟨hw.outages, hw.backend⟩⟩)
  | listing h =>
    simp only [EventRun.turn, World.listActive]
    rcases Engine.guarded_cases e .rules .listActive
        (fun w => (.ok (w.rules.active o.event.tenant o.event.table), w)) w with
      ⟨w₀, hw₀, heq⟩ | ⟨hw, fault, w', heq, hfault, hw'⟩
    · rw [heq]
      have hkept : start.Kept w₀ := h.trans hw₀
      have hrules : w₀.rules.active o.event.tenant o.event.table = start.listed o := by
        rw [hkept.rules]
        rfl
      show Stage e start o P (⟨o.event, .listed o (.ok (w₀.rules.active _ _))⟩, w₀)
      rw [hrules]
      exact listed hkept
    · rw [heq]
      exact unlisted (h.trans hw') (fun hr => hw (h.reliable hr)) hfault
  | listed h => exact settle rfl (hbegin w h)
  | unlisted h hw hfault => exact failed h hw hfault
  | firing hP hopen => exact absurd rfl (hno _ _)
  | ended hP hover => exact ended hP hover
  | failed h hw hfault => exact failed h hw hfault

/-- What happens elsewhere does not move an event. -/
theorem kept {w' : World} (h : Stage e start o P (r, w)) (hw : w.Kept w')
    (hP : ∀ fs, P fs w → P fs w') : Stage e start o P (r, w') := by
  cases h with
  | arrived h => exact arrived (h.trans hw)
  | listing h => exact listing (h.trans hw)
  | listed h => exact listed (h.trans hw)
  | unlisted h hfail hfault => exact unlisted (h.trans hw) hfail hfault
  | firing h hopen => exact firing (hP _ h) hopen
  | ended h hover => exact ended (hP _ h) hover
  | failed h hfail hfault => exact failed (h.trans hw) hfail hfault

end Stage

/-- **What holds of the firings of an event throughout a run**: it holds when they begin, no turn of
a firing breaks it, and neither does what happens elsewhere. -/
theorem stage_of_run {e : Engine} {event : Event} {o : Occasion} {start : World}
    {P : List Firing → World → Prop} (ho : o.Of event)
    (hbegin : ∀ w, start.Kept w → P (EventRun.firings o (start.listed o)) w)
    (hfire : ∀ before f behind f' w w', P (before ++ f :: behind) w →
      o.outcome? e (start.listed o).length (before ++ f :: behind) = none → f.outcome? = none →
      (e.parallel = true ∨ ∀ g ∈ before, g.outcome?.isSome = true) → f.Step e w f' w' →
      P (before ++ f' :: behind) w')
    (hkept : ∀ fs w w', P fs w → w.Kept w' → P fs w')
    {p : EventRun × World} (h : Run e ({ event }, start) p) : Stage e start o P p := by
  induction h with
  | refl =>
    rw [← ho.event]
    exact Stage.arrived (World.Kept.refl start)
  | tail _ hstep ih =>
    cases hstep with
    | turn hno => exact ih.turn ho hbegin hno
    | fire hr hf hturn hstep =>
      cases ih with
      | firing hP hopen =>
        simp only [EventProgress.firing.injEq] at hr
        obtain ⟨rfl, rfl⟩ := hr
        exact Stage.settle rfl (hfire _ _ _ _ _ _ hP hopen hf hturn hstep)
      | _ => exact absurd hr (by simp)
    | drift r w now outlets =>
      have hdrift := World.kept_drift w now outlets
      exact ih.kept hdrift fun fs hP => hkept fs _ _ hP hdrift

end ChangeRules
