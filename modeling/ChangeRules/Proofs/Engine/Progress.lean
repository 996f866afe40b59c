import ChangeRules.Proofs.Matching

/-!
# Events come to an end

Every turn of a firing brings it nearer to its end, unless the firing waits for its lock. The firings
of one event are of different rules, so none of them waits for another one.

* **`Firing.weight_turn`**: a firing whose rule is free loses weight with every turn.
* `Unhindered`: no firing of an event waits for its lock, or ever will.
* **`over_of_run`**: wherever an event is, a number of turns brings it to its end.
* **`Engine.over_process`**: the engine lets every event take as many turns as it needs.
-/

namespace ChangeRules

variable {e : Engine}

/-! ## Weights of firings -/

namespace Firing

variable {f f' : Firing} {w w' : World}

/-- Nobody holds or awaits the rule. -/
def IsFree (f : Firing) (w : World) : Prop :=
  f.rule.id.same f.rule.id = true ∧ ∀ q ∈ w.locks.queues, q.ruleId.same f.rule.id = false

theorem weight_next (f : Firing) (c : Course) (w : World) :
    (f.next c w).1.weight ≤ 2 * c.rest.length + 4 := by
  unfold next
  split
  · exact Nat.le_add_left _ _
  · next stored later hrest =>
    dsimp only
    split
    · simp only [weight, moved, hrest, List.length_cons]
      omega
    · exact Nat.le_add_left _ _

theorem weight_begin (f : Firing) (w : World) :
    (f.begin e w).1.weight ≤ 2 * f.actionCount + 4 := by
  unfold begin
  split
  · exact Nat.le_add_left _ _
  · split
    · exact Nat.zero_le _
    · next actions hactions =>
      split
      · exact Nat.le_add_left _ _
      · have hcount : f.actionCount = actions.length := by
          unfold actionCount
          rw [hactions]
          rfl
        rw [hcount]
        exact weight_next f ⟨w.clock, [], actions⟩ w

theorem weight_proceed (limit : Number) (f : Firing) (c : Course) (a : Attempt)
    (outcome : Except Fault Value) (w : World) :
    (f.proceed limit c a outcome w).1.weight ≤ 2 * c.rest.length + 4 := by
  unfold proceed
  dsimp only
  split
  · exact weight_next f _ _
  · exact Nat.le_add_left _ _

/-- A firing whose rule is free begins at once. -/
theorem turn_of_free (hf : f.progress = .ready) (hfree : f.IsFree w) :
    f.turn e w = { f with ticket := (w.locks.enter f.rule.id).1 }.begin e
      { w with locks := (w.locks.enter f.rule.id).2 } := by
  have hholds := RuleLocks.holds_enter hfree.2
  unfold turn
  rw [hf]
  exact if_pos hholds

/-- **A firing whose rule is free loses weight with every turn.** -/
theorem weight_turn (hopen : f.outcome? = none)
    (hfree : f.progress.IsWaiting → f.progress = .ready ∧ f.IsFree w) :
    (f.turn e w).1.weight < f.weight := by
  cases hp : f.progress with
  | ready =>
    have hstart := weight_begin (e := e) { f with ticket := (w.locks.enter f.rule.id).1 }
      { w with locks := (w.locks.enter f.rule.id).2 }
    rw [turn_of_free hp (hfree (by rw [hp]; trivial)).2]
    refine Nat.lt_of_le_of_lt hstart ?_
    simp only [weight, hp, actionCount, actions, rule]
    omega
  | queued =>
    have := (hfree (by rw [hp]; trivial)).1
    rw [hp] at this
    exact absurd this (by simp)
  | acting c a action => simp [turn, weight, hp, moved]
  | acted c a outcome =>
    have hnext := weight_proceed e.actionLimit f c a outcome w
    simp only [turn, weight, hp] at hnext ⊢
    omega
  | logging state log => simp [turn, weight, hp, moved]
  | logged state log outcome => cases outcome <;> simp [turn, weight, hp, moved, finish]
  | touching state log => simp [turn, weight, hp, moved]
  | touched state log outcome => cases outcome <;> simp [turn, weight, hp, moved, finish]
  | ended outcome =>
    unfold outcome? at hopen
    rw [hp] at hopen
    exact absurd hopen (by simp)

/-! ## Firings that wait -/

theorem GoesOn.not_isWaiting (h : f.GoesOn w f' w') : ¬ f'.progress.IsWaiting := by
  intro hwait
  rcases h.progress with hp | ⟨state, log, hp, -⟩
  · cases hc : f'.progress <;> rw [hc] at hwait hp
    all_goals first | exact hp | exact hwait
  · rw [hp] at hwait
    exact hwait

theorem not_isWaiting_begin (f : Firing) (w : World) : ¬ (f.begin e w).1.progress.IsWaiting := by
  unfold begin
  split
  · exact (goesOn_conclude f _ _ w).not_isWaiting
  · split
    · exact id
    · split
      · exact (goesOn_conclude f _ _ w).not_isWaiting
      · exact (goesOn_next f _ w).not_isWaiting

/-- Who does not wait any more never waits again. -/
theorem Stepped.not_isWaiting (h : f.Stepped w f' w') (hf : ¬ f.progress.IsWaiting) :
    ¬ f'.progress.IsWaiting := by
  intro hwait
  have hmove := h.move
  generalize f'.progress = p at hmove hwait
  cases hmove with
  | wait hf' _ => exact hf hf'
  | work _ _ hp _ =>
    cases p
    all_goals first | exact hp | exact hwait
  | _ => exact hwait

/-- A firing whose rule is free does not wait after a turn. -/
theorem Step.not_isWaiting (h : f.Step e w f' w')
    (hfree : f.progress.IsWaiting → f.progress = .ready ∧ f.IsFree w) :
    ¬ f'.progress.IsWaiting := by
  by_cases hf : f.progress.IsWaiting
  · obtain ⟨hready, hrule⟩ := hfree hf
    cases h with
    | turn =>
      rw [turn_of_free hready hrule]
      exact not_isWaiting_begin _ _
    | act hacting =>
      rw [hacting] at hready
      exact absurd hready (by simp)
  · exact h.stepped.not_isWaiting hf

end Firing

/-! ## Firings of one event -/

/-- No firing waits for its lock: those that are still to begin find their rules free, and no two are
of the same rule. -/
structure Unhindered (fs : List Firing) (w : World) : Prop where
  free : ∀ f ∈ fs, f.progress.IsWaiting → f.progress = .ready ∧ f.IsFree w
  apart : fs.Pairwise fun f g => Rules.Apart f.rule g.rule

namespace Unhindered

variable {w w' : World} {fs before behind : List Firing} {f f' : Firing}

/-- The firings that an event begins with. -/
theorem begin {o : Occasion} {start : World}
    (hk : start.rules.Keyed) (hidle : start.locks.queues = []) (h : start.Kept w) :
    Unhindered (EventRun.firings o (start.listed o)) w where
  free f hf _ := by
    have hfound : f.found ∈ start.found o.event := by
      rw [← map_found_firings]
      exact List.mem_map_of_mem hf
    obtain ⟨m, -, rfl⟩ := List.mem_map.mp hf
    refine ⟨rfl, hk.found m.rule (World.mem_rules_of_mem_found hfound), fun q hq => ?_⟩
    rw [h.locks, hidle] at hq
    exact absurd hq List.not_mem_nil
  apart := by
    have := World.apart_found hk o.event
    rw [← map_found_firings, List.pairwise_map] at this
    exact this

theorem kept (h : Unhindered fs w) (hw : w.Kept w') : Unhindered fs w' where
  free f hf hwait := by
    obtain ⟨hready, hself, hfree⟩ := h.free f hf hwait
    refine ⟨hready, hself, fun q hq => ?_⟩
    rw [hw.locks] at hq
    exact hfree q hq
  apart := h.apart

/-- No turn of a firing hinders the others. -/
theorem fire (h : Unhindered (before ++ f :: behind) w) (hs : f.Step e w f' w') :
    Unhindered (before ++ f' :: behind) w' := by
  have hstepped := hs.stepped
  obtain ⟨hbefore, hrest, hcross⟩ := List.pairwise_append.mp h.apart
  obtain ⟨hbehind, hlater⟩ := List.pairwise_cons.mp hrest
  -- The queues of a turn are those before it, or for the rule of the firing.
  have other : ∀ g, g ∈ before ++ f :: behind → Rules.Apart f.rule g.rule →
      g.progress.IsWaiting → g.progress = .ready ∧ g.IsFree w' := by
    intro g hg hapart hwait
    obtain ⟨hready, hself, hfree⟩ := h.free g hg hwait
    refine ⟨hready, hself, fun q hq => ?_⟩
    rcases hstepped.locks q hq with ⟨p, hp, heq⟩ | heq
    · rw [heq]
      exact hfree p hp
    · rw [heq]
      exact hapart.1
  constructor
  · intro g hg hwait
    rcases List.mem_append.mp hg with hg | hg
    · exact other g (by simp [hg]) (symm (hcross g hg f (by simp))) hwait
    · rcases List.mem_cons.mp hg with rfl | hg
      · exact absurd hwait (hs.not_isWaiting (h.free f (by simp)))
      · exact other g (by simp [hg]) (hbehind g hg) hwait
  · refine List.pairwise_append.mpr ⟨hbefore, List.pairwise_cons.mpr ⟨?_, hlater⟩, ?_⟩
    · rw [hstepped.rule]
      exact hbehind
    · intro g hg k hk
      rcases List.mem_cons.mp hk with rfl | hk
      · rw [hstepped.rule]
        exact hcross g hg f (by simp)
      · exact hcross g hg k (by simp [hk])

end Unhindered

/-! ## Weights of events -/

namespace EventRun

variable {r : EventRun} {w : World} {n : Nat} {fs : List Firing}

/-- The weights of several firings together. -/
def weights : List Firing → Nat
  | [] => 0
  | f :: fs => f.weight + weights fs

theorem weights_append (fs gs : List Firing) : weights (fs ++ gs) = weights fs + weights gs := by
  induction fs with
  | nil => exact (Nat.zero_add _).symm
  | cons f fs ih =>
    simp only [List.cons_append, weights, ih]
    omega

theorem foldl_weights (fs : List Firing) (n : Nat) :
    (fs.map Firing.weight).foldl Nat.add n = n + weights fs := by
  induction fs generalizing n with
  | nil => rfl
  | cons f fs ih =>
    rw [List.map_cons, List.foldl_cons, ih, weights]
    exact Nat.add_assoc _ _ _

theorem weight_of_firing (h : r.progress = .firing n fs) : r.weight = weights fs := by
  unfold weight
  rw [h]
  exact (foldl_weights fs 0).trans (Nat.zero_add _)

theorem weight_settle (r : EventRun) (n : Nat) (fs : List Firing) :
    (r.settle e n fs).weight ≤ weights fs := by
  unfold settle
  split
  · exact Nat.zero_le _
  · exact Nat.le_of_eq (weight_of_firing rfl)

/-- An event whose firings, if it has any, do not wait. -/
def IsUnhindered (p : EventRun × World) : Prop :=
  ∀ n fs, p.1.progress = .firing n fs → Unhindered fs p.2

theorem isUnhindered_settle (h : Unhindered fs w) : IsUnhindered (r.settle e n fs, w) := by
  intro m gs hp
  unfold settle at hp
  split at hp
  · exact absurd hp (by simp [moved])
  · simp only [moved, EventProgress.firing.injEq] at hp
    rw [← hp.2]
    exact h

/-- An event loses weight when one of its firings takes its turn. -/
theorem Advance.weight_lt {p q : EventRun × World} (h : Advance e p q) (hp : IsUnhindered p) :
    IsUnhindered q ∧ q.1.weight < p.1.weight := by
  cases h with
  | @mk r w n before behind f hr hf hturn =>
    have hfs := hp n _ hr
    refine ⟨isUnhindered_settle (hfs.fire (.turn f w)), ?_⟩
    refine Nat.lt_of_le_of_lt (weight_settle r n _) ?_
    rw [weight_of_firing hr]
    have hlt : (f.turn e w).1.weight < f.weight := Firing.weight_turn hf (hfs.free f (by simp))
    simp only [weights_append, weights]
    omega

theorem weight_lt_of_advances {p q : EventRun × World} (h : Relation.TransGen (Advance e) p q)
    (hp : IsUnhindered p) : IsUnhindered q ∧ q.1.weight < p.1.weight := by
  induction h with
  | single h => exact h.weight_lt hp
  | tail _ hlast ih =>
    obtain ⟨hmid, hlt⟩ := ih
    obtain ⟨hq, hlt'⟩ := hlast.weight_lt hmid
    exact ⟨hq, Nat.lt_trans hlt' hlt⟩

/-- So many turns lie before the first turn in which rules fire, at most. -/
def lead (r : EventRun) : Nat :=
  match r.progress with
  | .arrived => 3
  | .listing _ => 2
  | .listed _ _ => 1
  | .firing _ _ | .ended _ => 0

theorem lead_settle (r : EventRun) (n : Nat) (fs : List Firing) : (r.settle e n fs).lead = 0 := by
  unfold settle
  split <;> rfl

theorem lead_turn (r : EventRun) (w : World) : (r.turn e w).1.lead ≤ r.lead - 1 := by
  unfold turn
  split
  · next hp =>
    unfold arrive
    split
    · exact Nat.zero_le _
    · dsimp only
      split
      · exact Nat.zero_le _
      · simp [lead, moved, hp]
  · next hp => simp [lead, moved, hp]
  · next hp => simp [lead, moved]
  · next hp => simp [lead_settle]
  · next hp => simp [lead_settle]
  · next hp => simp [lead, hp]

theorem lead_turns (k : Nat) (r : EventRun) (w : World) : (turns e k r w).1.lead ≤ r.lead - k := by
  induction k generalizing r w with
  | zero => exact Nat.le_refl _
  | succ k ih =>
    have hrest := ih (r.turn e w).1 (r.turn e w).2
    have hfirst := lead_turn (e := e) r w
    simp only [turns]
    omega

theorem turns_of_outcome {outcome : Except Fault EventReport} (h : r.outcome? = some outcome)
    (k : Nat) (w : World) : turns e k r w = (r, w) := by
  induction k with
  | zero => rfl
  | succ k ih =>
    simp only [turns, turn_of_outcome h]
    exact ih

/-- An event whose rules fire is over after as many turns as its weight. -/
theorem over_turns {k : Nat} (hset : r.IsSettled e) (hfree : IsUnhindered (r, w)) (hlead : r.lead = 0)
    (hk : r.weight ≤ k) : (turns e k r w).1.outcome?.isSome = true := by
  induction k generalizing r w with
  | zero =>
    cases hp : r.progress with
    | firing n fs =>
      have hlt := (weight_lt_of_advances (advance_turn hp (hset n fs hp) w) hfree).2
      dsimp only at hlt
      omega
    | ended outcome => simp [turns, outcome?, hp]
    | _ => simp [lead, hp] at hlead
  | succ k ih =>
    cases hp : r.progress with
    | firing n fs =>
      obtain ⟨hfree', hlt⟩ := weight_lt_of_advances (advance_turn hp (hset n fs hp) w) hfree
      have hlead' := lead_turn (e := e) r w
      exact ih (isSettled_turn hset w) hfree' (by omega) (by dsimp only at hlt; omega)
    | ended outcome =>
      have hover : r.outcome? = some outcome := by simp [outcome?, hp]
      rw [turns_of_outcome hover, hover]
      rfl
    | _ => simp [lead, hp] at hlead

end EventRun

/-! ## Runs -/

section

variable {event : Event} {start w : World} {r : EventRun}

theorem unhindered_of_run (hv : event.Valid) (hk : start.rules.Keyed)
    (hidle : start.locks.queues = []) (h : Run e ({ event }, start) (r, w)) :
    r.IsSettled e ∧ EventRun.IsUnhindered (r, w) := by
  obtain ⟨o, ho⟩ := hv.occasion
  have hstage := stage_of_run (P := Unhindered) ho
    (fun w hw => Unhindered.begin hk hidle hw)
    (fun before f behind f' w w' hP _ _ _ hstep => hP.fire hstep)
    (fun fs w w' hP hw => hP.kept hw) h
  cases hstage with
  | firing hP hopen =>
    constructor
    · intro n fs hp
      simp only [EventProgress.firing.injEq] at hp
      obtain ⟨rfl, rfl⟩ := hp
      exact hopen
    · intro n fs hp
      simp only [EventProgress.firing.injEq] at hp
      rw [← hp.2]
      exact hP
  | _ => exact ⟨fun n fs hp => absurd hp (by simp), fun n fs hp => absurd hp (by simp)⟩

/-- **Wherever an event is, a number of turns brings it to its end.** -/
theorem over_of_run (hv : event.Valid) (hk : start.rules.Keyed) (hidle : start.locks.queues = [])
    (h : Run e ({ event }, start) (r, w)) :
    ∃ p, Run e (r, w) p ∧ p.1.outcome?.isSome = true := by
  obtain ⟨hset, -⟩ := unhindered_of_run hv hk hidle h
  obtain ⟨hbegin, -⟩ := EventRun.run_turns hset r.lead w
  obtain ⟨hset', hfree'⟩ := unhindered_of_run hv hk hidle (h.trans hbegin)
  have hlead := EventRun.lead_turns (e := e) r.lead r w
  have hover := EventRun.over_turns hset' hfree' (by omega) (Nat.le_refl _)
  obtain ⟨hend, -⟩ := EventRun.run_turns hset' (EventRun.turns e r.lead r w).1.weight
    (EventRun.turns e r.lead r w).2
  exact ⟨_, hbegin.trans hend, hover⟩

/-- The turns that the engine takes are a whole run. -/
theorem Engine.over_ended (hv : event.Valid) (hk : start.rules.Keyed)
    (hidle : start.locks.queues = []) : Run e ({ event }, start) (e.ended event start) ∧
      (e.ended event start).1.outcome?.isSome = true := by
  have hbegin : Run e ({ event }, start) (e.begun event start) :=
    (EventRun.run_turns (EventRun.isSettled_of_progress (by simp)) Engine.roundsToFire start).1
  have hlead : (e.begun event start).1.lead = 0 :=
    Nat.le_zero.mp (EventRun.lead_turns (e := e) Engine.roundsToFire { event } start)
  unfold Engine.ended
  generalize e.begun event start = p at hbegin hlead
  obtain ⟨r, w⟩ := p
  obtain ⟨hset, hfree⟩ := unhindered_of_run hv hk hidle hbegin
  exact ⟨hbegin.trans (EventRun.run_turns hset r.weight w).1,
    EventRun.over_turns hset hfree hlead (Nat.le_refl _)⟩

/-- What the engine gives for an event is what its turns came to. -/
theorem Engine.outcome?_ended (hv : event.Valid) (hk : start.rules.Keyed)
    (hidle : start.locks.queues = []) :
    (e.ended event start).1.outcome? = some (e.process event start).1 := by
  obtain ⟨outcome, ho⟩ := Option.isSome_iff_exists.mp (Engine.over_ended (e := e) hv hk hidle).2
  rw [e.process_eq_ended]
  unfold EventRun.outcome
  rw [ho]
  rfl

/-- **What the engine does with an event is a whole run of it.** -/
theorem Engine.over_process (hv : event.Valid) (hk : start.rules.Keyed)
    (hidle : start.locks.queues = []) :
    ∃ r, Run e ({ event }, start) (r, (e.process event start).2) ∧
      r.outcome? = some (e.process event start).1 := by
  refine ⟨(e.ended event start).1, ?_, Engine.outcome?_ended hv hk hidle⟩
  rw [e.process_eq_ended]
  exact (Engine.over_ended hv hk hidle).1

end

end ChangeRules
