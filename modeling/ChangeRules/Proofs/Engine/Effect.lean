import ChangeRules.Proofs.Engine.Interleaving

/-!
# What a turn of a firing does

Every turn of a firing is one of a few moves, and a move says what it means for the two stores. All
that is proved of firings is derived from the moves.

* `Firing.Move`: the moves.
* `Firing.Fireable`: a firing whose actions can be told one from another.
* **`Firing.Step.stepped`**: whatever happens to a firing in one turn is a move; it concerns no rule
  but its own, and stores that work go on working.
-/

namespace ChangeRules

/-! ## Worlds -/

namespace World

/-- The stores hold the same. -/
structure SameStores (w w' : World) : Prop where
  rules : w'.rules = w.rules
  logs : w'.logs = w.logs

/-- No call of a store fails. -/
structure Reliable (w : World) : Prop where
  outages : w.outages = Outages.none
  backend : w.backend = .memory

/-- The stores hold the same, the locks are as before, and stores that work go on working. -/
structure Kept (w w' : World) : Prop extends SameStores w w' where
  locks : w'.locks = w.locks
  reliable : w.Reliable → w'.Reliable

variable {w w' w'' : World}

theorem Kept.refl (w : World) : w.Kept w := ⟨⟨rfl, rfl⟩, rfl, id⟩

theorem Kept.trans (h : w.Kept w') (h' : w'.Kept w'') : w.Kept w'' where
  rules := h'.rules.trans h.rules
  logs := h'.logs.trans h.logs
  locks := h'.locks.trans h.locks
  reliable := h'.reliable ∘ h.reliable

end World

/-- An error of a store. -/
def IsStoreFault (f : Fault) : Prop := ∃ err, f = .error err ∧ err.kind = .store

theorem isStoreFault_storeFault (e : Engine) (s : Store) (f : Fault) :
    IsStoreFault (e.storeFault s f) := by
  unfold Engine.storeFault
  split
  · split
    · next h => exact ⟨_, rfl, h⟩
    · exact ⟨_, rfl, rfl⟩
  · split <;> exact ⟨_, rfl, rfl⟩

namespace Engine

variable {α : Type} {e : Engine} {s : Store}

theorem withinLimit_error (f : Fault) :
    ∃ g, Fault.withinLimit (α := α) (.error f) = .error g := by
  cases f <;> exact ⟨_, rfl⟩

/-- A call of a store does its job, or it fails and leaves everything alone. -/
theorem guarded_cases (e : Engine) (s : Store) (c : StoreCall) (job : World → Except Fault α × World)
    (w : World) :
    (∃ w₀, w.Kept w₀ ∧ e.guarded s (World.call c job) w =
      ((Fault.withinLimit (job w₀).1).mapError (e.storeFault s), (job w₀).2)) ∨
    ¬ w.Reliable ∧ ∃ fault w', e.guarded s (World.call c job) w = (.error fault, w') ∧
      IsStoreFault fault ∧ w.Kept w' := by
  by_cases hw : w.Reliable
  · refine Or.inl ⟨w, World.Kept.refl w, ?_⟩
    unfold guarded
    rw [World.call_of_working hw.outages hw.backend]
  · have hlater : w.Kept { w with outages := w.outages.advance c } :=
      ⟨⟨rfl, rfl⟩, rfl, fun h => absurd h hw⟩
    have hfail : ∀ f : Fault, ∃ fault,
        ((Fault.withinLimit (α := α) (.error f)).mapError (e.storeFault s)) = .error fault ∧
          IsStoreFault fault := by
      intro f
      obtain ⟨g, hg⟩ := withinLimit_error (α := α) f
      exact ⟨_, by rw [hg]; rfl, isStoreFault_storeFault e s g⟩
    unfold guarded World.call
    dsimp only
    split
    · next f _ =>
      obtain ⟨fault, heq, hfault⟩ := hfail f
      exact Or.inr ⟨hw, fault, _, by rw [heq], hfault, hlater⟩
    · exact Or.inl ⟨_, hlater, rfl⟩
    · obtain ⟨fault, heq, hfault⟩ := hfail (c.store.fault Store.notStarted)
      exact Or.inr ⟨hw, fault, _, by rw [heq], hfault, hlater⟩

end Engine

/-! ## Locks -/

namespace RuleLocks

/-- Every queue of the second locks is for a rule that has a queue in the first ones, or for `id`. -/
def Concern (id : Value) (l l' : RuleLocks) : Prop :=
  ∀ q ∈ l'.queues, (∃ p ∈ l.queues, q.ruleId = p.ruleId) ∨ q.ruleId = id

variable {id : Value} {l l' l'' : RuleLocks}

theorem Concern.refl (id : Value) (l : RuleLocks) : Concern id l l :=
  fun q hq => Or.inl ⟨q, hq, rfl⟩

theorem Concern.trans (h : Concern id l l') (h' : Concern id l' l'') : Concern id l l'' := by
  intro q hq
  rcases h' q hq with ⟨p, hp, heq⟩ | heq
  · rw [heq]
    exact h p hp
  · exact Or.inr heq

/-- A world that was kept concerns no rule. -/
theorem concern_of_kept {w w' : World} (h : w.Kept w') (id : Value) :
    Concern id w.locks w'.locks := by
  rw [h.locks]
  exact Concern.refl id w.locks

theorem concern_enter (id : Value) (l : RuleLocks) : Concern id l (l.enter id).2 := by
  intro q hq
  cases h : l.queueOf? id with
  | some p =>
    rw [enter_of_some h] at hq
    exact Or.inl ⟨q, hq, rfl⟩
  | none =>
    rw [enter_of_none h] at hq
    rcases List.mem_append.mp hq with hq | hq
    · exact Or.inl ⟨q, hq, rfl⟩
    · exact Or.inr (by rw [List.mem_singleton.mp hq])

theorem concern_leave (id : Value) (t : Ticket) (l : RuleLocks) :
    Concern id l (l.leave id t) := by
  intro q hq
  unfold leave at hq
  dsimp only at hq
  split at hq
  · exact Or.inl ⟨q, (List.mem_filter.mp hq).1, rfl⟩
  · exact Or.inl ⟨q, hq, rfl⟩

end RuleLocks

/-! ## Moves -/

namespace FiringProgress

/-- Nothing was done yet. -/
def IsWaiting : FiringProgress → Prop
  | .ready | .queued => True
  | _ => False

/-- The actions are under way. -/
def IsWorking : FiringProgress → Prop
  | .acting _ _ _ | .acted _ _ _ => True
  | _ => False

end FiringProgress

namespace Firing

/-- The actions can be told one from another, or are not looked at. -/
def Fireable (f : Firing) : Prop := f.found.error.isSome = true ∨ ∃ actions, f.actions = .ok actions

/-- A log that a firing writes, and the state it ends in. -/
def Writes (f : Firing) (state : FiringState) (log : ExecutionLog) : Prop :=
  ∃ ending milliseconds id now, state = Ending.state ending ∧ log = f.log ending milliseconds id now

/-- The moves of a firing: where it gets to, and the world then. -/
inductive Move (f : Firing) (w : World) : FiringProgress → World → Prop
  /-- Somebody else holds the rule. -/
  | wait {w' : World} (hf : f.progress.IsWaiting) (hs : w.SameStores w') : Move f w .queued w'
  | work {p : FiringProgress} {w' : World} (hf : f.progress.IsWaiting ∨ f.progress.IsWorking)
      (hc : f.progress.IsWaiting → f.Fireable) (hp : p.IsWorking) (hs : w.SameStores w') :
      Move f w p w'
  | conclude {state : FiringState} {log : ExecutionLog} {w' : World}
      (hf : f.progress.IsWaiting ∨ f.progress.IsWorking)
      (hc : f.progress.IsWaiting → f.Fireable) (hlog : f.Writes state log) (hs : w.SameStores w') :
      Move f w (.logging state log) w'
  /-- The actions cannot be told one from another. -/
  | refuse {fault : Fault} {w' : World} (hf : f.progress.IsWaiting) (hjudged : f.found.error = none)
      (hactions : f.actions = .error fault) (hs : w.SameStores w') :
      Move f w (.ended (.error fault)) w'
  | append {state : FiringState} {log : ExecutionLog} {w' : World}
      (hf : f.progress = .logging state log) (hrules : w'.rules = w.rules)
      (hlogs : w'.logs = w.logs ++ [log]) : Move f w (.logged state log (.ok log.id)) w'
  | appendFailed {state : FiringState} {log : ExecutionLog} {fault : Fault} {w' : World}
      (hf : f.progress = .logging state log) (hfault : IsStoreFault fault) (hw : ¬ w.Reliable)
      (hs : w.SameStores w') : Move f w (.logged state log (.error fault)) w'
  | goOn {state : FiringState} {log : ExecutionLog} {v : Value} {w' : World}
      (hf : f.progress = .logged state log (.ok v)) (hs : w.SameStores w') :
      Move f w (.touching state log) w'
  | touch {state : FiringState} {log : ExecutionLog} {w' : World}
      (hf : f.progress = .touching state log)
      (hrules : w'.rules = w.rules.touch f.rule.tenant f.rule.id log.executedAt)
      (hlogs : w'.logs = w.logs) : Move f w (.touched state log (.ok ())) w'
  | touchFailed {state : FiringState} {log : ExecutionLog} {fault : Fault} {w' : World}
      (hf : f.progress = .touching state log) (hfault : IsStoreFault fault)
      (hw : w.Reliable → Rules.checkId f.rule.id ≠ .ok ()) (hs : w.SameStores w') :
      Move f w (.touched state log (.error fault)) w'
  | giveUp {state : FiringState} {log : ExecutionLog} {fault : Fault} {w' : World}
      (hf : f.progress = .logged state log (.error fault) ∨
        f.progress = .touched state log (.error fault))
      (hs : w.SameStores w') : Move f w (.ended (.error fault)) w'
  | report {state : FiringState} {log : ExecutionLog} {w' : World}
      (hf : f.progress = .touched state log (.ok ())) (hs : w.SameStores w') :
      Move f w (.ended (.ok (f.report state log))) w'
  | rest {outcome : Except Fault FiringReport} {w' : World} (hf : f.progress = .ended outcome)
      (hs : w.SameStores w') : Move f w (.ended outcome) w'

/-- All that a turn means for a firing and for the world. -/
structure Stepped (f : Firing) (w : World) (f' : Firing) (w' : World) : Prop where
  found : f'.found = f.found
  occasion : f'.occasion = f.occasion
  reliable : w.Reliable → w'.Reliable
  locks : RuleLocks.Concern f.rule.id w.locks w'.locks
  move : f.Move w f'.progress w'

namespace Stepped

variable {f f' : Firing} {w w' : World}

theorem rule (h : f.Stepped w f' w') : f'.rule = f.rule := by
  unfold Firing.rule
  rw [h.found]

theorem fireable (h : f.Stepped w f' w') (hf : f.Fireable) : f'.Fireable := by
  unfold Fireable actions at hf ⊢
  rw [h.rule, h.found]
  exact hf

theorem log_eq (h : f.Stepped w f' w') : f'.log = f.log := by
  funext ending milliseconds id now
  unfold log
  rw [h.rule, h.occasion]

theorem writes {state : FiringState} {log : ExecutionLog} (h : f.Stepped w f' w')
    (hf : f.Writes state log) : f'.Writes state log := by
  unfold Writes at hf ⊢
  rw [h.log_eq]
  exact hf

theorem report_eq (h : f.Stepped w f' w') : f'.report = f.report := by
  funext state log
  unfold report
  rw [h.rule]

theorem actions_eq (h : f.Stepped w f' w') : f'.actions = f.actions := by
  unfold actions
  rw [h.rule]

end Stepped

/-! ## Working -/

/-- A firing goes on with its actions or ends them; the stores and the locks are left alone. -/
structure GoesOn (f : Firing) (w : World) (f' : Firing) (w' : World) : Prop where
  found : f'.found = f.found
  occasion : f'.occasion = f.occasion
  ticket : f'.ticket = f.ticket
  world : w.Kept w'
  progress : f'.progress.IsWorking ∨
    ∃ state log, f'.progress = .logging state log ∧ f.Writes state log

theorem goesOn_conclude (f : Firing) (ending : Ending) (milliseconds : Double) (w : World) :
    f.GoesOn w (f.conclude ending milliseconds w).1 (f.conclude ending milliseconds w).2 where
  found := rfl
  occasion := rfl
  ticket := rfl
  world := ⟨⟨rfl, rfl⟩, rfl, fun h => ⟨h.outages, h.backend⟩⟩
  progress := Or.inr ⟨_, _, rfl, ending, milliseconds, _, _, rfl, rfl⟩

theorem GoesOn.of_kept {f f' : Firing} {w w' w'' : World} (hw : w.Kept w')
    (h : f.GoesOn w' f' w'') : f.GoesOn w f' w'' :=
  { h with world := hw.trans h.world }

theorem kept_note (c : Course) (r : ActionResult) (w : World) : w.Kept (note c r w).2 :=
  ⟨⟨rfl, rfl⟩, rfl, fun h => ⟨h.outages, h.backend⟩⟩

theorem goesOn_next (f : Firing) (c : Course) (w : World) :
    f.GoesOn w (f.next c w).1 (f.next c w).2 := by
  unfold next
  split
  · exact goesOn_conclude f _ _ w
  · dsimp only
    split
    · exact ⟨rfl, rfl, rfl, World.Kept.refl w, Or.inl trivial⟩
    · exact GoesOn.of_kept (kept_note _ _ w) (goesOn_conclude f _ _ _)

theorem goesOn_proceed (limit : Number) (f : Firing) (c : Course) (a : Attempt)
    (outcome : Except Fault Value) (w : World) :
    f.GoesOn w (f.proceed limit c a outcome w).1 (f.proceed limit c a outcome w).2 := by
  unfold proceed
  dsimp only
  split
  · exact GoesOn.of_kept (kept_note _ _ w) (goesOn_next f _ _)
  · exact GoesOn.of_kept (kept_note _ _ w) (goesOn_conclude f _ _ _)

/-- A firing that goes on makes a move. -/
theorem GoesOn.stepped {f f' : Firing} {w w' : World}
    (hf : f.progress.IsWaiting ∨ f.progress.IsWorking) (hc : f.progress.IsWaiting → f.Fireable)
    (h : f.GoesOn w f' w') : f.Stepped w f' w' where
  found := h.found
  occasion := h.occasion
  reliable := h.world.reliable
  locks := RuleLocks.concern_of_kept h.world f.rule.id
  move := by
    rcases h.progress with hp | ⟨state, log, hp, hlog⟩
    · exact Move.work hf hc hp h.world.toSameStores
    · rw [hp]
      exact Move.conclude hf hc hlog h.world.toSameStores

/-! ## Every turn is a move -/

variable {e : Engine}

theorem stepped_finish {f : Firing} {w : World} {outcome : Except Fault FiringReport}
    (h : ∀ w', w.SameStores w' → f.Move w (.ended outcome) w') :
    f.Stepped w (f.finish outcome w).1 (f.finish outcome w).2 where
  found := rfl
  occasion := rfl
  reliable hw := ⟨hw.outages, hw.backend⟩
  locks := RuleLocks.concern_leave _ _ _
  move := h _ ⟨rfl, rfl⟩

/-- The rule is the firing's own. -/
theorem stepped_begin {f : Firing} (hf : f.progress.IsWaiting) (w : World) :
    f.Stepped w (f.begin e w).1 (f.begin e w).2 := by
  unfold begin
  split
  · next err herr =>
    exact (goesOn_conclude f _ _ w).stepped (Or.inl hf) fun _ => Or.inl (by rw [herr]; rfl)
  · next hnone =>
    split
    · next fault hfault =>
      exact stepped_finish fun w' hs => Move.refuse hf hnone hfault hs
    · next actions hactions =>
      have hc : f.progress.IsWaiting → f.Fireable := fun _ => Or.inr ⟨actions, hactions⟩
      split
      · exact (goesOn_conclude f _ _ w).stepped (Or.inl hf) hc
      · exact (goesOn_next f _ w).stepped (Or.inl hf) hc

theorem stepped_await {f : Firing} (hf : f.progress.IsWaiting) (w : World) :
    f.Stepped w (f.await e w).1 (f.await e w).2 := by
  unfold await
  split
  · exact stepped_begin hf w
  · exact ⟨rfl, rfl, id, RuleLocks.Concern.refl _ _, Move.wait hf ⟨rfl, rfl⟩⟩

/-- Neither the ticket nor the locks matter to a move. -/
theorem Move.of_entered {f : Firing} {w w' : World} {p : FiringProgress} {ticket : Ticket}
    {locks : RuleLocks} (h : Move { f with ticket } { w with locks } p w') : f.Move w p w' := by
  cases h with
  | wait hf hs => exact .wait hf ⟨hs.rules, hs.logs⟩
  | work hf hc hp hs => exact .work hf hc hp ⟨hs.rules, hs.logs⟩
  | conclude hf hc hlog hs => exact .conclude hf hc hlog ⟨hs.rules, hs.logs⟩
  | refuse hf hjudged hactions hs => exact .refuse hf hjudged hactions ⟨hs.rules, hs.logs⟩
  | append hf hrules hlogs => exact .append hf hrules hlogs
  | appendFailed hf hfault hw hs =>
    exact .appendFailed hf hfault (fun hr => hw ⟨hr.outages, hr.backend⟩) ⟨hs.rules, hs.logs⟩
  | goOn hf hs => exact .goOn hf ⟨hs.rules, hs.logs⟩
  | touch hf hrules hlogs => exact .touch hf hrules hlogs
  | touchFailed hf hfault hw hs =>
    exact .touchFailed hf hfault (fun hr => hw ⟨hr.outages, hr.backend⟩) ⟨hs.rules, hs.logs⟩
  | giveUp hf hs => exact .giveUp hf ⟨hs.rules, hs.logs⟩
  | report hf hs => exact .report hf ⟨hs.rules, hs.logs⟩
  | rest hf hs => exact .rest hf ⟨hs.rules, hs.logs⟩

theorem stepped_enter {f : Firing} (hf : f.progress = .ready) (w : World) :
    f.Stepped w (f.turn e w).1 (f.turn e w).2 := by
  have hwait : f.progress.IsWaiting := by rw [hf]; trivial
  have hturn : f.turn e w = { f with ticket := (w.locks.enter f.rule.id).1 }.await e
      { w with locks := (w.locks.enter f.rule.id).2 } := by
    unfold turn
    rw [hf]
  have h := stepped_await (e := e) (f := { f with ticket := (w.locks.enter f.rule.id).1 }) hwait
    { w with locks := (w.locks.enter f.rule.id).2 }
  rw [hturn]
  exact {
    found := h.found
    occasion := h.occasion
    reliable := fun hw => h.reliable ⟨hw.outages, hw.backend⟩
    locks := (RuleLocks.concern_enter f.rule.id w.locks).trans h.locks
    move := h.move.of_entered }

/-- The log is appended, or the store fails. -/
theorem stepped_append {f : Firing} {state : FiringState} {log : ExecutionLog}
    (hf : f.progress = .logging state log) (w : World) :
    f.Stepped w (f.turn e w).1 (f.turn e w).2 := by
  have hturn : f.turn e w =
      (f.moved (.logged state log (e.guarded .logs (World.appendLog log) w).1),
        (e.guarded .logs (World.appendLog log) w).2) := by
    unfold turn
    rw [hf]
  rw [hturn]
  unfold World.appendLog
  rcases Engine.guarded_cases e .logs .append
      (fun w => (.ok log.id, { w with logs := w.logs.append log })) w with
    ⟨w₀, hw₀, heq⟩ | ⟨hw, fault, w', heq, hfault, hw'⟩
  · rw [heq]
    refine ⟨rfl, rfl, fun hw => ?_, RuleLocks.concern_of_kept hw₀ f.rule.id,
      Move.append hf hw₀.rules ?_⟩
    · exact ⟨(hw₀.reliable hw).outages, (hw₀.reliable hw).backend⟩
    · show w₀.logs.append log = w.logs ++ [log]
      rw [hw₀.logs]
      rfl
  · rw [heq]
    exact ⟨rfl, rfl, hw'.reliable, RuleLocks.concern_of_kept hw' f.rule.id,
      Move.appendFailed hf hfault hw hw'.toSameStores⟩

/-- The execution is noted, or the store fails. -/
theorem stepped_touch {f : Firing} {state : FiringState} {log : ExecutionLog}
    (hf : f.progress = .touching state log) (w : World) :
    f.Stepped w (f.turn e w).1 (f.turn e w).2 := by
  have hturn : f.turn e w =
      (f.moved (.touched state log
        (e.guarded .rules (World.touchRule f.rule.tenant f.rule.id log.executedAt) w).1),
        (e.guarded .rules (World.touchRule f.rule.tenant f.rule.id log.executedAt) w).2) := by
    unfold turn
    rw [hf]
  rw [hturn]
  unfold World.touchRule World.changeRules
  rcases Engine.guarded_cases e .rules .touch _ w with
    ⟨w₀, hw₀, heq⟩ | ⟨hw, fault, w', heq, hfault, hw'⟩
  · rw [heq]
    cases hid : Rules.checkId f.rule.id with
    | ok u =>
      refine ⟨rfl, rfl, fun hw => ⟨(hw₀.reliable hw).outages, (hw₀.reliable hw).backend⟩,
        RuleLocks.concern_of_kept hw₀ f.rule.id, Move.touch hf ?_ hw₀.logs⟩
      show Rules.touch f.rule.tenant f.rule.id log.executedAt w₀.rules = _
      rw [hw₀.rules]
    | error fault =>
      obtain ⟨g, hg⟩ := Engine.withinLimit_error (α := Unit) fault
      dsimp only
      rw [hg]
      refine ⟨rfl, rfl, hw₀.reliable, RuleLocks.concern_of_kept hw₀ f.rule.id,
        Move.touchFailed hf (isStoreFault_storeFault e .rules g) (fun _ => ?_) hw₀.toSameStores⟩
      rw [hid]
      simp
  · rw [heq]
    exact ⟨rfl, rfl, hw'.reliable, RuleLocks.concern_of_kept hw' f.rule.id,
      Move.touchFailed hf hfault (fun h => absurd h hw) hw'.toSameStores⟩

/-- **A turn of a firing is a move.** -/
theorem stepped_turn (f : Firing) (w : World) : f.Stepped w (f.turn e w).1 (f.turn e w).2 := by
  cases hf : f.progress with
  | ready => exact stepped_enter hf w
  | queued =>
    have := stepped_await (e := e) (f := f) (by rw [hf]; trivial) w
    unfold turn
    rw [hf]
    exact this
  | acting c a action =>
    unfold turn
    rw [hf]
    exact GoesOn.stepped (Or.inr (by rw [hf]; trivial)) (fun h => by rw [hf] at h; exact h.elim)
      ⟨rfl, rfl, rfl, ⟨⟨rfl, rfl⟩, rfl, fun h => ⟨h.outages, h.backend⟩⟩, Or.inl trivial⟩
  | acted c a outcome =>
    unfold turn
    rw [hf]
    exact (goesOn_proceed e.actionLimit f c a outcome w).stepped (Or.inr (by rw [hf]; trivial))
      fun h => by rw [hf] at h; exact h.elim
  | logging state log => exact stepped_append hf w
  | logged state log outcome =>
    unfold turn
    rw [hf]
    cases outcome with
    | ok v => exact ⟨rfl, rfl, id, RuleLocks.Concern.refl _ _, Move.goOn hf ⟨rfl, rfl⟩⟩
    | error fault => exact stepped_finish fun w' hs => Move.giveUp (Or.inl hf) hs
  | touching state log => exact stepped_touch hf w
  | touched state log outcome =>
    unfold turn
    rw [hf]
    cases outcome with
    | ok u =>
      have h := stepped_finish (f := f) (w := w) fun w' hs => Move.report hf hs
      exact { h with
        reliable := fun hw => ⟨hw.outages, hw.backend⟩
        move := Move.report hf ⟨rfl, rfl⟩ }
    | error fault => exact stepped_finish fun w' hs => Move.giveUp (Or.inr hf) hs
  | ended outcome =>
    unfold turn
    rw [hf]
    exact ⟨rfl, rfl, id, RuleLocks.Concern.refl _ _, by rw [hf]; exact Move.rest hf ⟨rfl, rfl⟩⟩

/-- **Whatever happens to a firing is a move.** -/
theorem Step.stepped {f f' : Firing} {w w' : World} (h : f.Step e w f' w') : f.Stepped w f' w' := by
  cases h with
  | turn => exact stepped_turn f w
  | act hf outcome outlets =>
    exact GoesOn.stepped (Or.inr (by rw [hf]; trivial)) (fun h => by rw [hf] at h; exact h.elim)
      ⟨rfl, rfl, rfl, ⟨⟨rfl, rfl⟩, rfl, fun h => ⟨h.outages, h.backend⟩⟩, Or.inl trivial⟩

end Firing

end ChangeRules
