import ChangeRules.Engine.Process
import Mathlib.Logic.Relation

/-!
# How firings interleave

The firings of an event wait for sinks and stores, and while one waits, others go on. A run is any
order of their turns. Between two turns time passes, and an action that is performed may come to
anything, whatever the sinks and the breakers before them do meanwhile.

* `Firing.Step`, `EventRun.Step`: what can happen next to a firing and to an event.
* `Run`: the runs of an event.
* **`run_turn`**, **`run_process`**: the turns that the engine takes are one of the runs.
-/

namespace ChangeRules

/-! ## Steps -/

/-- What can happen to a firing in one turn. -/
inductive Firing.Step (e : Engine) : Firing → World → Firing → World → Prop
  | turn (f : Firing) (w : World) : Step e f w (f.turn e w).1 (f.turn e w).2
  /-- Whatever becomes of an action within its time limit. -/
  | act {f : Firing} {w : World} {c : Course} {a : Attempt} {action : Action}
      (h : f.progress = .acting c a action) (outcome : Except Fault Value) (outlets : Outlets) :
      Step e f w (f.moved (.acted c a (Fault.withinLimit outcome))) { w with outlets }

/-- What can happen to an event: its own turns up to the firings, then turns of firings. One that
fires its rules one after the other begins the next firing when those before it are over. -/
inductive EventRun.Step (e : Engine) : EventRun × World → EventRun × World → Prop
  | turn {r : EventRun} {w : World} (h : ∀ n fs, r.progress ≠ .firing n fs) :
      Step e (r, w) (r.turn e w)
  | fire {r : EventRun} {w w' : World} {n : Nat} {before behind : List Firing} {f f' : Firing}
      (hr : r.progress = .firing n (before ++ f :: behind)) (hf : f.outcome? = none)
      (hturn : e.parallel = true ∨ ∀ g ∈ before, g.outcome?.isSome = true)
      (hstep : f.Step e w f' w') :
      Step e (r, w) (r.settle e n (before ++ f' :: behind), w')
  /-- Time passes, and the world outside goes on. -/
  | drift (r : EventRun) (w : World) (now : DateTime) (outlets : Outlets) :
      Step e (r, w) (r, { w with now, outlets })

/-- A firing of an event takes its turn, and the sinks do what they are going to do. -/
inductive EventRun.Advance (e : Engine) : EventRun × World → EventRun × World → Prop
  | mk {r : EventRun} {w : World} {n : Nat} {before behind : List Firing} {f : Firing}
      (hr : r.progress = .firing n (before ++ f :: behind)) (hf : f.outcome? = none)
      (hturn : e.parallel = true ∨ ∀ g ∈ before, g.outcome?.isSome = true) :
      Advance e (r, w) (r.settle e n (before ++ (f.turn e w).1 :: behind), (f.turn e w).2)

/-- The runs of events. -/
def Run (e : Engine) : EventRun × World → EventRun × World → Prop :=
  Relation.ReflTransGen (EventRun.Step e)

/-! ## Rows of which one changes -/

section

variable {α : Type} {before behind : List α} {a a' : α} {i : Nat}

theorem forall_mem_replace {p : α → Prop} (h : ∀ b ∈ before ++ a :: behind, p b) (ha : p a') :
    ∀ b ∈ before ++ a' :: behind, p b := by
  obtain ⟨hbefore, hrest⟩ := List.forall_mem_append.mp h
  exact List.forall_mem_append.mpr
    ⟨hbefore, List.forall_mem_cons.mpr ⟨ha, (List.forall_mem_cons.mp hrest).2⟩⟩

theorem getElem?_replace_self : (before ++ a' :: behind)[before.length]? = some a' := by
  simp

theorem getElem?_replace_of_ne (h : i ≠ before.length) :
    (before ++ a' :: behind)[i]? = (before ++ a :: behind)[i]? := by
  rcases Nat.lt_or_gt_of_ne h with hlt | hgt
  · rw [List.getElem?_append_left hlt, List.getElem?_append_left hlt]
  · obtain ⟨k, rfl⟩ := Nat.exists_eq_add_of_lt hgt
    simp [Nat.add_assoc, List.getElem?_append_right]

end

/-! ## The engine's own run -/

variable {e : Engine}

theorem EventRun.Advance.step {p q : EventRun × World} (h : EventRun.Advance e p q) :
    EventRun.Step e p q := by
  cases h with
  | mk hr hf hturn => exact .fire hr hf hturn (.turn _ _)

/-- An event whose rules fire has no outcome yet. -/
def EventRun.IsSettled (e : Engine) (r : EventRun) : Prop :=
  ∀ n fs, r.progress = .firing n fs → r.firingsOutcome? e n fs = none

namespace EventRun

theorem settle_eq_of_none {r : EventRun} {n : Nat} {fs : List Firing}
    (h : r.firingsOutcome? e n fs = none) : r.settle e n fs = r.moved (.firing n fs) := by
  unfold settle
  rw [h]

theorem isSettled_settle (r : EventRun) (n : Nat) (fs : List Firing) :
    (r.settle e n fs).IsSettled e := by
  intro m gs hp
  unfold settle at hp ⊢
  cases h : r.firingsOutcome? e n fs with
  | some outcome => rw [h] at hp; exact absurd hp (by simp [moved])
  | none =>
    rw [h] at hp
    simp only [moved, EventProgress.firing.injEq] at hp
    obtain ⟨rfl, rfl⟩ := hp
    exact h

theorem moved_progress {r : EventRun} {p : EventProgress} (h : r.progress = p) : r.moved p = r := by
  subst h
  rfl

theorem settle_settle (r : EventRun) (m n : Nat) (fs gs : List Firing) :
    (r.settle e m fs).settle e n gs = r.settle e n gs := by
  have hevent : (r.settle e m fs).event = r.event := by unfold settle; split <;> rfl
  have hout : (r.settle e m fs).firingsOutcome? e n gs = r.firingsOutcome? e n gs := by
    unfold firingsOutcome?
    rw [hevent]
  unfold settle at hout hevent ⊢
  rw [hout]
  split <;> simp only [moved, EventRun.mk.injEq, and_true] <;> exact hevent

/-- Side by side, an event is open as long as a firing is. -/
theorem firingsOutcome?_of_open {r : EventRun} {n : Nat} {fs : List Firing} {f : Firing}
    (hp : e.parallel = true) (hf : f ∈ fs) (ho : f.outcome? = none) :
    r.firingsOutcome? e n fs = none := by
  unfold firingsOutcome?
  simp only [hp, if_true, List.filterMap_length_eq_length]
  rw [if_neg]
  intro h
  have := h f hf
  rw [ho] at this
  exact absurd this (by simp)

/-- Those that are over stay as they are, and the others take their turns one by one. -/
theorem advance_takeTurns (hp : e.parallel = true) (r : EventRun) (n : Nat)
    (before behind : List Firing) (w : World) :
    ((∀ f ∈ behind, f.outcome?.isSome = true) ∧ takeTurns (Firing.turn e) behind w = (behind, w)) ∨
      Relation.TransGen (Advance e) (r.settle e n (before ++ behind), w)
        (r.settle e n (before ++ (takeTurns (Firing.turn e) behind w).1),
          (takeTurns (Firing.turn e) behind w).2) := by
  induction behind generalizing before w with
  | nil => exact Or.inl ⟨fun _ h => absurd h List.not_mem_nil, rfl⟩
  | cons f fs ih =>
    have hrest := ih (before ++ [(f.turn e w).1]) (f.turn e w).2
    simp only [List.append_assoc, List.singleton_append] at hrest
    cases ho : f.outcome? with
    | some outcome =>
      rw [Firing.turn_of_outcome ho] at hrest
      simp only [takeTurns, Firing.turn_of_outcome ho]
      rcases hrest with ⟨hover, heq⟩ | hrest
      · refine Or.inl ⟨fun g hg => ?_, by rw [heq]⟩
        rcases List.mem_cons.mp hg with rfl | hg
        · rw [ho]; rfl
        · exact hover g hg
      · exact Or.inr hrest
    | none =>
      have hopen : r.firingsOutcome? e n (before ++ f :: fs) = none :=
        firingsOutcome?_of_open hp (by simp) ho
      have hfirst := Advance.mk (e := e) (r := r.settle e n (before ++ f :: fs)) (w := w)
        (by rw [settle_eq_of_none hopen]; rfl) ho (Or.inl hp)
      rw [settle_settle] at hfirst
      right
      rcases hrest with ⟨-, heq⟩ | hrest
      · simp only [takeTurns, heq]
        exact Relation.TransGen.single hfirst
      · exact Relation.TransGen.head hfirst hrest

/-- The first firing that is not over takes its turn, if there is one. -/
theorem firstTurn_cases (e : Engine) (fs : List Firing) (w : World) :
    ((∀ f ∈ fs, f.outcome?.isSome = true) ∧ firstTurn e fs w = (fs, w)) ∨
      ∃ before f behind, fs = before ++ f :: behind ∧ (∀ g ∈ before, g.outcome?.isSome = true) ∧
        f.outcome? = none ∧
        firstTurn e fs w = (before ++ (f.turn e w).1 :: behind, (f.turn e w).2) := by
  induction fs with
  | nil => exact Or.inl ⟨fun _ h => absurd h List.not_mem_nil, rfl⟩
  | cons f fs ih =>
    cases ho : f.outcome? with
    | none => exact Or.inr ⟨[], f, fs, rfl, by simp, ho, by simp [firstTurn, ho]⟩
    | some outcome =>
      rcases ih with ⟨hover, heq⟩ | ⟨before, g, behind, rfl, hbefore, hg, heq⟩
      · refine Or.inl ⟨?_, by simp [firstTurn, ho, heq]⟩
        intro g hg
        rcases List.mem_cons.mp hg with rfl | hg
        · rw [ho]; rfl
        · exact hover g hg
      · refine Or.inr ⟨f :: before, g, behind, rfl, ?_, hg, by simp [firstTurn, ho, heq]⟩
        intro h hh
        rcases List.mem_cons.mp hh with rfl | hh
        · rw [ho]; rfl
        · exact hbefore h hh

theorem isSettled_of_progress {r : EventRun} (h : ∀ n fs, r.progress ≠ .firing n fs) :
    r.IsSettled e := fun n fs hp => absurd hp (h n fs)

theorem isSettled_turn {r : EventRun} (h : r.IsSettled e) (w : World) :
    (r.turn e w).1.IsSettled e := by
  unfold turn
  split
  · apply isSettled_of_progress
    intro n fs
    unfold arrive
    split
    · simp [moved]
    · dsimp only
      split <;> simp [moved]
  · exact isSettled_of_progress (by simp [moved])
  · exact isSettled_of_progress (by simp [moved])
  · exact isSettled_settle r _ _
  · exact isSettled_settle r _ _
  · exact h

/-- An event without an outcome has a firing that is not over. -/
theorem exists_open {r : EventRun} {n : Nat} {fs : List Firing}
    (h : r.firingsOutcome? e n fs = none) : ¬ ∀ f ∈ fs, f.outcome?.isSome = true := by
  intro hover
  have hlen : (fs.filterMap Firing.outcome?).length = fs.length :=
    List.filterMap_length_eq_length.mpr hover
  unfold firingsOutcome? at h
  simp only [hlen, if_true] at h
  split at h <;> exact absurd h (by simp)

/-- While rules fire, a turn of the event is turns of its firings, at least one. -/
theorem advance_turn {r : EventRun} {n : Nat} {fs : List Firing} (hr : r.progress = .firing n fs)
    (hopen : r.firingsOutcome? e n fs = none) (w : World) :
    Relation.TransGen (Advance e) (r, w) (r.turn e w) := by
  have hself : r.settle e n fs = r := by
    rw [settle_eq_of_none hopen, moved_progress hr]
  have hturn : r.turn e w =
      (r.settle e n (if e.parallel then takeTurns (Firing.turn e) fs w else firstTurn e fs w).1,
        (if e.parallel then takeTurns (Firing.turn e) fs w else firstTurn e fs w).2) := by
    unfold turn
    rw [hr]
  rw [hturn]
  by_cases hp : e.parallel = true
  · simp only [hp, if_true]
    rcases advance_takeTurns hp r n [] fs w with ⟨hover, -⟩ | h
    · exact absurd hover (exists_open hopen)
    · simpa only [List.nil_append, hself] using h
  · simp only [hp, if_false, Bool.false_eq_true]
    rcases firstTurn_cases e fs w with ⟨hover, -⟩ | ⟨before, f, behind, rfl, hbefore, hf, heq⟩
    · exact absurd hover (exists_open hopen)
    · rw [heq]
      exact Relation.TransGen.single (Advance.mk hr hf (Or.inr hbefore))

/-- **A turn of an event is a run**: its firings take theirs one by one. -/
theorem run_turn {r : EventRun} (h : r.IsSettled e) (w : World) : Run e (r, w) (r.turn e w) := by
  by_cases hfiring : ∃ n fs, r.progress = .firing n fs
  · obtain ⟨n, fs, hr⟩ := hfiring
    have hsteps : Relation.TransGen (Step e) (r, w) (r.turn e w) :=
      Relation.TransGen.mono (fun _ _ => Advance.step) _ _ (advance_turn hr (h n fs hr) w)
    exact hsteps.to_reflTransGen
  · exact Relation.ReflTransGen.single (Step.turn fun n fs hr => hfiring ⟨n, fs, hr⟩)

/-- So many turns of an event. -/
def turns (e : Engine) : Nat → EventRun → World → EventRun × World
  | 0, r, w => (r, w)
  | k + 1, r, w => turns e k (r.turn e w).1 (r.turn e w).2

theorem run_turns {r : EventRun} (h : r.IsSettled e) (k : Nat) (w : World) :
    Run e (r, w) (turns e k r w) ∧ (turns e k r w).1.IsSettled e := by
  induction k generalizing r w with
  | zero => exact ⟨Relation.ReflTransGen.refl, h⟩
  | succ k ih =>
    obtain ⟨hrun, hset⟩ := ih (isSettled_turn h w) (r.turn e w).2
    exact ⟨(run_turn h w).trans hrun, hset⟩

end EventRun

namespace Engine

theorem rounds_singleton (e : Engine) (k : Nat) (r : EventRun) (w : World) :
    e.rounds k [r] w = ([(EventRun.turns e k r w).1], (EventRun.turns e k r w).2) := by
  induction k generalizing r w with
  | zero => rfl
  | succ k ih => exact ih (r.turn e w).1 (r.turn e w).2

/-- The event behind the turns that the engine takes before any rule fires. -/
def begun (e : Engine) (event : Event) (w : World) : EventRun × World :=
  EventRun.turns e roundsToFire { event } w

/-- The engine lets an event take as many turns as its firings need at most. -/
theorem process_eq (e : Engine) (event : Event) (w : World) :
    e.process event w =
      let ended := EventRun.turns e (e.begun event w).1.weight (e.begun event w).1 (e.begun event w).2
      (ended.1.outcome, ended.2) := by
  simp only [process, processAll, List.map_cons, List.map_nil, rounds_singleton]
  simp [begun]

/-- The event behind all turns that the engine takes. -/
def ended (e : Engine) (event : Event) (w : World) : EventRun × World :=
  EventRun.turns e (e.begun event w).1.weight (e.begun event w).1 (e.begun event w).2

theorem process_eq_ended (e : Engine) (event : Event) (w : World) :
    e.process event w = ((e.ended event w).1.outcome, (e.ended event w).2) :=
  e.process_eq event w

/-- **What the engine does with an event is a run of it.** -/
theorem run_process (e : Engine) (event : Event) (w : World) :
    ∃ r, Run e ({ event }, w) (r, (e.process event w).2) ∧ (e.process event w).1 = r.outcome := by
  have hstart : ({ event } : EventRun).IsSettled e :=
    EventRun.isSettled_of_progress (by simp)
  obtain ⟨hbegin, hset⟩ := EventRun.run_turns hstart roundsToFire w
  obtain ⟨hend, -⟩ := EventRun.run_turns hset (e.begun event w).1.weight (e.begun event w).2
  rw [process_eq]
  exact ⟨_, hbegin.trans hend, rfl⟩

end Engine

end ChangeRules
