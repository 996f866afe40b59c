import ChangeRules.Proofs.Action.FailFast
import ChangeRules.Proofs.Engine.Interleaving

/-!
# What the log of a firing tells

The actions of a firing are run turn by turn, while others take their turns and the sinks do what they
do. Whatever that is, the log tells of all of them: it has one result for each action up to the first
one that failed.

* `RuleMatch.EndsAs`, `Firing.Tells`: how the firing of a match can end, and a log that tells of it.
* `Firing.Preparing`: a firing on its way to its log.
* **`Firing.Step.prepares`**: it stays on its way until it has the log, and touches no store.
-/

namespace ChangeRules

/-! ## Endings -/

/-- How the firing of a match can end: with the error of judging its rule, with what keeps actions from
being run, or with the results of the actions of its rule up to the first failure. -/
def RuleMatch.EndsAs (e : Engine) (m : RuleMatch) : Ending → Prop
  | .unjudged err => m.error = some err
  | .broke fault => m.error = none ∧ e.broken = some fault
  | .ran results => m.error = none ∧ e.broken = none ∧
      ∃ actions, storedActions m.rule.actions = .ok actions ∧ Dispatched 0 actions results

/-- The actions of a match so far: some are done and succeeded, the rest is still to begin. -/
structure SoFar (e : Engine) (m : RuleMatch) (done rest : List Value) (results : List ActionResult) :
    Prop where
  judged : m.error = none
  working : e.broken = none
  actions : storedActions m.rule.actions = .ok (done ++ rest)
  dispatched : Dispatched 0 done results
  succeeded : failure? results = none

namespace SoFar

variable {e : Engine} {m : RuleMatch} {done rest : List Value} {stored : Value}
  {results : List ActionResult} {r : ActionResult}

theorem length_eq (h : SoFar e m done rest results) : results.length = done.length :=
  (h.dispatched.failure?_eq_none_iff.mp h.succeeded).1

/-- The actions are over if none is left. -/
theorem ended (h : SoFar e m done [] results) : m.EndsAs e (.ran results) :=
  ⟨h.judged, h.working, done, by rw [h.actions, List.append_nil], h.dispatched⟩

/-- The actions are over if one failed. -/
theorem failed (h : SoFar e m done (stored :: rest) results) (hr : r.Of done.length stored)
    (hfailed : r.isSuccess = false) : m.EndsAs e (.ran (results ++ [r])) := by
  refine ⟨h.judged, h.working, _, h.actions, h.dispatched.append h.succeeded ?_⟩
  rw [Nat.zero_add]
  exact .failed hr hfailed

/-- One more action succeeded. -/
theorem next (h : SoFar e m done (stored :: rest) results) (hr : r.Of done.length stored)
    (hok : r.isSuccess = true) : SoFar e m (done ++ [stored]) rest (results ++ [r]) where
  judged := h.judged
  working := h.working
  actions := by rw [h.actions, List.append_assoc, List.singleton_append]
  dispatched := by
    refine h.dispatched.append h.succeeded ?_
    rw [Nat.zero_add]
    exact .next hr hok (.done _)
  succeeded := by
    have hnone := h.succeeded
    unfold failure? at hnone ⊢
    simp [List.find?_append, hnone, hok]

end SoFar

/-! ## Firings before their logs -/

/-- No store is touched, and none is called. -/
structure World.Untouched (w w' : World) : Prop where
  rules : w'.rules = w.rules
  logs : w'.logs = w.logs
  outages : w'.outages = w.outages
  backend : w'.backend = w.backend

namespace World.Untouched

variable {w w' w'' : World}

theorem refl (w : World) : w.Untouched w := ⟨rfl, rfl, rfl, rfl⟩

theorem trans (h : w.Untouched w') (h' : w'.Untouched w'') : w.Untouched w'' where
  rules := h'.rules.trans h.rules
  logs := h'.logs.trans h.logs
  outages := h'.outages.trans h.outages
  backend := h'.backend.trans h.backend

end World.Untouched

namespace Firing

variable {e : Engine} {f f' : Firing} {w w' : World}

/-- A log that tells how a firing ended, and the state it ended in. -/
def Tells (e : Engine) (f : Firing) (state : FiringState) (log : ExecutionLog) : Prop :=
  ∃ ending milliseconds id now, f.found.EndsAs e ending ∧ state = Ending.state ending ∧
    log = f.log ending milliseconds id now

/-- An action of a firing is under way. -/
def AtWork (e : Engine) (f : Firing) (c : Course) (a : Attempt) : Prop :=
  ∃ done stored, SoFar e f.found done (stored :: c.rest) c.results ∧ a.index = done.length ∧
    a.type = Action.storedType stored

/-- A firing that is on its way to its log, or has got it. -/
def Preparing (e : Engine) (f : Firing) : Prop :=
  match f.progress with
  | .ready | .queued => True
  | .acting c a _ | .acted c a _ => f.AtWork e c a
  | .logging state log => f.Tells e state log
  | _ => False

/-- A firing gets on its way to its log, and no store is touched. -/
structure Prepares (e : Engine) (f : Firing) (w : World) (f' : Firing) (w' : World) : Prop where
  found : f'.found = f.found
  occasion : f'.occasion = f.occasion
  world : w.Untouched w'
  preparing : f'.Preparing e

theorem prepares_conclude {ending : Ending} (h : f.found.EndsAs e ending) (milliseconds : Double)
    (w : World) : f.Prepares e w (f.conclude ending milliseconds w).1
      (f.conclude ending milliseconds w).2 where
  found := rfl
  occasion := rfl
  world := ⟨rfl, rfl, rfl, rfl⟩
  preparing := ⟨ending, milliseconds, _, _, h, rfl, rfl⟩

theorem prepares_endActions {c : Course} (h : f.found.EndsAs e (.ran c.results)) (w : World) :
    f.Prepares e w (f.endActions c w).1 (f.endActions c w).2 :=
  prepares_conclude h _ w

/-- The metrics are not part of the stores. -/
theorem Prepares.of_note {c : Course} {r : ActionResult}
    (h : f.Prepares e (note c r w).2 f' w') : f.Prepares e w f' w' :=
  { h with world := ⟨h.world.rules, h.world.logs, h.world.outages, h.world.backend⟩ }

theorem prepares_next {done : List Value} {c : Course}
    (h : SoFar e f.found done c.rest c.results) (w : World) :
    f.Prepares e w (f.next c w).1 (f.next c w).2 := by
  unfold next
  split
  · next hrest =>
    rw [hrest] at h
    exact prepares_endActions h.ended w
  · next stored later hrest =>
    rw [hrest] at h
    have hindex : c.results.length = done.length := h.length_eq
    dsimp only
    split
    · exact ⟨rfl, rfl, World.Untouched.refl w, done, stored, h, hindex, rfl⟩
    · exact (prepares_endActions (h.failed ⟨hindex, rfl⟩ rfl) _).of_note

theorem prepares_proceed {c : Course} {a : Attempt} (h : f.AtWork e c a) (limit : Number)
    (outcome : Except Fault Value) (w : World) :
    f.Prepares e w (f.proceed limit c a outcome w).1 (f.proceed limit c a outcome w).2 := by
  obtain ⟨done, stored, hsofar, hindex, htype⟩ := h
  unfold proceed
  dsimp only
  split
  · next hok => exact (prepares_next (hsofar.next ⟨hindex, htype⟩ hok) _).of_note
  · next hfailed =>
    exact (prepares_endActions (hsofar.failed ⟨hindex, htype⟩ (by simpa using hfailed)) _).of_note

theorem prepares_begin {actions : List Value}
    (hactions : storedActions f.rule.actions = .ok actions) (w : World) :
    f.Prepares e w (f.begin e w).1 (f.begin e w).2 := by
  unfold begin
  split
  · next err herr =>
    have hends : f.found.EndsAs e (.unjudged err) := herr
    exact prepares_conclude hends _ w
  · next hjudged =>
    rw [actions_of_stored hactions]
    dsimp only
    split
    · next fault hbroken =>
      have hends : f.found.EndsAs e (.broke fault) := ⟨hjudged, hbroken⟩
      exact prepares_conclude hends _ w
    · next hworking =>
      have hstart : SoFar e f.found [] actions [] := ⟨hjudged, hworking, hactions, .done 0, rfl⟩
      exact prepares_next (c := ⟨w.clock, [], actions⟩) hstart w

theorem prepares_await {actions : List Value}
    (hactions : storedActions f.rule.actions = .ok actions) (w : World) :
    f.Prepares e w (f.await e w).1 (f.await e w).2 := by
  unfold await
  split
  · exact prepares_begin hactions w
  · exact ⟨rfl, rfl, World.Untouched.refl w, trivial⟩

/-- **A firing whose actions can be counted stays on its way until it has its log.** -/
theorem Step.prepares {actions : List Value} (h : f.Step e w f' w')
    (hactions : storedActions f.rule.actions = .ok actions) (hf : f.Preparing e)
    (hno : ∀ state log, f.progress ≠ .logging state log) : f.Prepares e w f' w' := by
  unfold Preparing at hf
  cases h with
  | turn =>
    unfold Firing.turn
    cases hp : f.progress with
    | ready =>
      have h := prepares_await (e := e) (f := { f with ticket := (w.locks.enter f.rule.id).1 })
        hactions { w with locks := (w.locks.enter f.rule.id).2 }
      exact ⟨h.found, h.occasion, ⟨h.world.rules, h.world.logs, h.world.outages, h.world.backend⟩,
        h.preparing⟩
    | queued => exact prepares_await hactions w
    | acting c a action =>
      rw [hp] at hf
      exact ⟨rfl, rfl, ⟨rfl, rfl, rfl, rfl⟩, hf⟩
    | acted c a outcome =>
      rw [hp] at hf
      exact prepares_proceed hf e.actionLimit outcome w
    | logging state log => exact absurd hp (hno state log)
    | _ =>
      rw [hp] at hf
      exact hf.elim
  | act hp outcome outlets =>
    rw [hp] at hf
    exact ⟨rfl, rfl, ⟨rfl, rfl, rfl, rfl⟩, hf⟩

end Firing

end ChangeRules
