import ChangeRules.Engine.Process
import Mathlib.Data.List.Forall2

/-!
# Alike but for identifiers

Every log gets a fresh identifier, which is reported and otherwise only kept. Two events whose logs
differ in nothing else are alike: they are over at the same time and come to the same reports, up to
the identifiers.

* `Firing.Like`, `EventRun.Like`: firings and events that are the same but for identifiers.
* **`EventRun.like_settle`**: events with firings that are alike are alike.
-/

namespace ChangeRules

/-! ## Logs and reports -/

/-- The same log with another identifier. -/
def ExecutionLog.identified (id : Value) (l : ExecutionLog) : ExecutionLog := { l with id }

/-- Logs that are the same but for their identifiers. -/
def ExecutionLog.Like (l l' : ExecutionLog) : Prop := ∃ id, l' = l.identified id

/-- The same report with another identifier of the log. -/
def FiringReport.identified (id : Value) (r : FiringReport) : FiringReport := { r with logId := id }

/-- Reports that are the same but for the identifiers of the logs. -/
def FiringReport.Like (r r' : FiringReport) : Prop := ∃ id, r' = r.identified id

/-- Reports of events that are the same but for the identifiers of the logs. -/
structure EventReport.Like (r r' : EventReport) : Prop where
  eventId : r'.eventId = r.eventId
  tenant : r'.tenant = r.tenant
  considered : r'.considered = r.considered
  firings : List.Forall₂ FiringReport.Like r.firings r'.firings

/-- The same fault, or related results. -/
inductive OutcomeLike {α : Type} (R : α → α → Prop) : Except Fault α → Except Fault α → Prop
  | ok {a a' : α} (h : R a a') : OutcomeLike R (.ok a) (.ok a')
  | error (fault : Fault) : OutcomeLike R (.error fault) (.error fault)

theorem OutcomeLike.refl {α : Type} {R : α → α → Prop} (h : ∀ a, R a a) (outcome : Except Fault α) :
    OutcomeLike R outcome outcome := by
  cases outcome with
  | ok a => exact .ok (h a)
  | error fault => exact .error fault

theorem OutcomeLike.eq {α : Type} {outcome outcome' : Except Fault α}
    (h : OutcomeLike Eq outcome outcome') : outcome' = outcome := by
  cases h with
  | ok h => rw [h]
  | error fault => rfl

theorem OutcomeLike.eq_map {α : Type} {a : α} {outcome outcome' : Except Fault α}
    (h : OutcomeLike (fun _ a' => a' = a) outcome outcome') : outcome' = outcome.map fun _ => a := by
  cases h with
  | ok h => rw [h]; rfl
  | error fault => rfl

theorem EventReport.Like.refl (r : EventReport) : r.Like r :=
  ⟨rfl, rfl, rfl, List.forall₂_same.mpr fun firing _ => ⟨firing.logId, rfl⟩⟩

/-- Reports that are like one and the same are like one another. -/
theorem FiringReport.Like.of_both {r r' r'' : FiringReport} (h' : r.Like r') (h'' : r.Like r'') :
    r'.Like r'' := by
  obtain ⟨id', rfl⟩ := h'
  obtain ⟨id'', rfl⟩ := h''
  exact ⟨id'', rfl⟩

theorem FiringReport.forall₂_like_of_both {rs rs' rs'' : List FiringReport}
    (h' : List.Forall₂ Like rs rs') (h'' : List.Forall₂ Like rs rs'') : List.Forall₂ Like rs' rs'' := by
  induction h' generalizing rs'' with
  | nil =>
    cases h''
    exact .nil
  | cons hr' _ ih =>
    cases h'' with
    | cons hr'' hrest => exact .cons (hr'.of_both hr'') (ih hrest)

theorem EventReport.Like.of_both {r r' r'' : EventReport} (h' : r.Like r') (h'' : r.Like r'') :
    r'.Like r'' where
  eventId := h''.eventId.trans h'.eventId.symm
  tenant := h''.tenant.trans h'.tenant.symm
  considered := h''.considered.trans h'.considered.symm
  firings := FiringReport.forall₂_like_of_both h'.firings h''.firings

/-! ## Firings -/

/-- The same point, with another identifier of the log. -/
def FiringProgress.identified (id : Value) : FiringProgress → FiringProgress
  | .logging state log => .logging state (log.identified id)
  | .logged state log outcome => .logged state (log.identified id) (outcome.map fun _ => id)
  | .touching state log => .touching state (log.identified id)
  | .touched state log outcome => .touched state (log.identified id) outcome
  | .ended outcome => .ended (outcome.map (FiringReport.identified id))
  | p => p

namespace Firing

variable {f f' : Firing} {fs fs' : List Firing}

/-- Firings that are the same but for the identifiers of their logs. -/
def Like (f f' : Firing) : Prop := ∃ id, f' = f.moved (f.progress.identified id)

theorem Like.outcome? (h : f.Like f') :
    Option.Rel (OutcomeLike FiringReport.Like) f.outcome? f'.outcome? := by
  obtain ⟨id, rfl⟩ := h
  unfold Firing.outcome?
  cases hp : f.progress with
  | ended outcome =>
    cases outcome with
    | ok report => exact .some (.ok ⟨id, rfl⟩)
    | error fault => exact .some (.error fault)
  | _ => exact .none

theorem Like.weight_eq (h : f.Like f') : f'.weight = f.weight := by
  obtain ⟨id, rfl⟩ := h
  unfold weight
  cases f.progress <;>
    simp only [moved, FiringProgress.identified, actionCount, actions, rule]

theorem map_weight_of_like (h : List.Forall₂ Like fs fs') : fs'.map weight = fs.map weight := by
  induction h with
  | nil => rfl
  | cons hf _ ih => rw [List.map_cons, List.map_cons, hf.weight_eq, ih]

theorem isSome_outcome?_of_like (h : f.Like f') : f'.outcome?.isSome = f.outcome?.isSome := by
  generalize ho : f.outcome? = o
  generalize ho' : f'.outcome? = o'
  have hlike := h.outcome?
  rw [ho, ho'] at hlike
  cases hlike <;> rfl

theorem like_outcomes (h : List.Forall₂ Like fs fs') :
    List.Forall₂ (OutcomeLike FiringReport.Like) (fs.filterMap Firing.outcome?)
      (fs'.filterMap Firing.outcome?) :=
  List.rel_filterMap (fun _ _ hf => hf.outcome?) h

end Firing

/-! ## Events -/

namespace EventRun

variable {e : Engine} {r r' : EventRun} {n : Nat} {fs fs' : List Firing}
  {outcomes outcomes' : List (Except Fault FiringReport)}

/-- The firings that an event begins with. -/
theorem like_firings (o : Occasion) (rules : List Rule) :
    List.Forall₂ Firing.Like (firings o rules) (firings o rules) := by
  refine List.forall₂_same.mpr fun f hf => ?_
  obtain ⟨m, -, rfl⟩ := List.mem_map.mp hf
  exact ⟨.null, rfl⟩

theorem isFatal_of_like {x x' : Except Fault FiringReport}
    (h : OutcomeLike FiringReport.Like x x') : isFatal x' = isFatal x := by
  cases h <;> rfl

theorem find?_isFatal_of_like (h : List.Forall₂ (OutcomeLike FiringReport.Like) outcomes outcomes') :
    Option.Rel (OutcomeLike FiringReport.Like) (outcomes.find? isFatal)
      (outcomes'.find? isFatal) := by
  induction h with
  | nil => exact .none
  | cons hx _ ih =>
    rw [List.find?_cons, List.find?_cons, isFatal_of_like hx]
    split
    · exact .some hx
    · exact ih

theorem gather_of_like (h : List.Forall₂ (OutcomeLike FiringReport.Like) outcomes outcomes') :
    OutcomeLike (List.Forall₂ FiringReport.Like) (gather outcomes) (gather outcomes') := by
  induction h with
  | nil => exact .ok .nil
  | cons hx _ ih =>
    cases hx with
    | error fault => exact .error fault
    | ok hreport =>
      simp only [gather]
      generalize gather _ = rest at ih
      generalize gather _ = rest' at ih
      cases ih with
      | ok hrest => exact .ok (.cons hreport hrest)
      | error fault => exact .error fault

/-- Firings that are alike come to like outcomes together, or to none. -/
theorem firingsOutcome?_of_like (hr : r'.event = r.event) (h : List.Forall₂ Firing.Like fs fs') :
    Option.Rel (OutcomeLike EventReport.Like) (r.firingsOutcome? e n fs)
      (r'.firingsOutcome? e n fs') := by
  have houtcomes := Firing.like_outcomes h
  have hall : Option.Rel (OutcomeLike EventReport.Like)
      (if (fs.filterMap Firing.outcome?).length = fs.length then
        some ((gather (fs.filterMap Firing.outcome?)).map fun reports =>
          (⟨r.event.id, r.event.tenant, n, reports⟩ : EventReport)) else none)
      (if (fs'.filterMap Firing.outcome?).length = fs'.length then
        some ((gather (fs'.filterMap Firing.outcome?)).map fun reports =>
          (⟨r'.event.id, r'.event.tenant, n, reports⟩ : EventReport)) else none) := by
    rw [← houtcomes.length_eq, ← h.length_eq, hr]
    split
    · have hgather := gather_of_like houtcomes
      generalize gather _ = reports at hgather
      generalize gather _ = reports' at hgather
      cases hgather with
      | ok hreports => exact .some (.ok ⟨rfl, rfl, rfl, hreports⟩)
      | error fault => exact .some (.error fault)
    · exact .none
  unfold firingsOutcome?
  cases e.parallel with
  | true => exact hall
  | false =>
    have hfatal := find?_isFatal_of_like houtcomes
    simp only [Bool.false_eq_true, if_false]
    generalize List.find? isFatal _ = x at hfatal
    generalize List.find? isFatal _ = x' at hfatal
    cases hfatal with
    | none => exact hall
    | some hx =>
      cases hx with
      | ok _ => exact hall
      | error fault => exact .some (.error fault)

/-- Events that are the same but for the identifiers of logs. -/
inductive Like : EventRun → EventRun → Prop
  | same {r : EventRun} (h : ∀ n fs, r.progress ≠ .firing n fs) : Like r r
  | firing {event : Event} {n : Nat} {fs fs' : List Firing} (h : List.Forall₂ Firing.Like fs fs') :
      Like ⟨event, .firing n fs⟩ ⟨event, .firing n fs'⟩
  | ended {event : Event} {outcome outcome' : Except Fault EventReport}
      (h : OutcomeLike EventReport.Like outcome outcome') :
      Like ⟨event, .ended outcome⟩ ⟨event, .ended outcome'⟩

/-- **Events with firings that are alike are alike.** -/
theorem like_settle (hr : r'.event = r.event) (h : List.Forall₂ Firing.Like fs fs') :
    (r.settle e n fs).Like (r'.settle e n fs') := by
  have hmoved : ∀ p, r'.moved p = ⟨r.event, p⟩ := fun p => by rw [← hr]; rfl
  have hout := firingsOutcome?_of_like (e := e) (n := n) hr h
  unfold settle
  generalize r.firingsOutcome? e n fs = x at hout
  generalize r'.firingsOutcome? e n fs' = x' at hout
  cases hout with
  | none =>
    dsimp only
    rw [hmoved]
    exact .firing h
  | some houtcome =>
    dsimp only
    rw [hmoved]
    exact .ended houtcome

theorem Like.outcome (h : r.Like r') : OutcomeLike EventReport.Like r.outcome r'.outcome := by
  cases h with
  | same _ => exact .refl EventReport.Like.refl _
  | firing _ => exact .error .stuck
  | ended houtcome => exact houtcome

/-- Events that are alike take as many turns. -/
theorem Like.weight_eq (h : r.Like r') : r'.weight = r.weight := by
  cases h with
  | same _ => rfl
  | firing hfs =>
    unfold weight
    dsimp only
    rw [Firing.map_weight_of_like hfs]
  | ended _ => rfl

end EventRun

end ChangeRules
