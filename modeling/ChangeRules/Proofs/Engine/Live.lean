import ChangeRules.Proofs.Engine.Interleaving
import ChangeRules.Proofs.Sink.Calls
import Mathlib.Logic.Function.Basic

/-!
# Events whose actions wait for answers

The turn in which a firing performs an action is not one piece: the request of the action is sent, and
until it is answered the other firings go on, send requests of their own and use the same breakers. A
live event has these requests under way beside its firings. Its runs are all the ways in which the
firings interleave, with what the sinks and the breakers really do.

* `Firing.LiveStep`, `LiveEvent.Step`: what can happen next to a firing and to a live event.
* **`LiveEvent.Run.run`**: whatever happens to a live event can happen to the event.
* **`LiveEvent.run_turn`**, **`LiveEvent.run_ended`**: the turns that the engine takes, in which
  every action is performed in one piece, are one of the runs.
-/

namespace ChangeRules

/-! ## Steps -/

/-- An errand whose request is under way. -/
structure Trip where
  errand : Errand
  call : Call

/-- What can happen to a firing and to the request that it waits for, if it waits for one. -/
inductive Firing.LiveStep (e : Engine) :
    Firing → Option Trip → World → Firing → Option Trip → World → Prop
  /-- A firing that performs no action takes its turn. -/
  | turn {f : Firing} {w : World} (trip : Option Trip)
      (hno : ∀ c a action, f.progress ≠ .acting c a action) :
      LiveStep e f trip w (f.turn e w).1 trip (f.turn e w).2
  /-- An action that reaches no service is over at once. -/
  | settled {f : Firing} {w : World} {c : Course} {a : Attempt} {action : Action}
      {outcome : Except Fault Value} (trip : Option Trip) (hp : f.progress = .acting c a action)
      (hplan : action.plan f.context w.outlets = .settled outcome) :
      LiveStep e f trip w (f.moved (.acted c a (Fault.withinLimit outcome))) trip w
  | begin {f : Firing} {w : World} {c : Course} {a : Attempt} {action : Action} {x : Errand}
      (hp : f.progress = .acting c a action)
      (hplan : action.plan f.context w.outlets = .errand x) :
      LiveStep e f none w f (some ⟨x, (x.outlet.begin x.request w.outlets).1⟩)
        { w with outlets := (x.outlet.begin x.request w.outlets).2 }
  | goOn {f : Firing} {w : World} {c : Course} {a : Attempt} {action : Action} {x : Errand}
      {call call' : Call} {outlets : Outlets} (hp : f.progress = .acting c a action)
      (hnext : x.outlet.Next x.request (call, w.outlets) (call', outlets)) :
      LiveStep e f (some ⟨x, call⟩) w f (some ⟨x, call'⟩) { w with outlets }
  /-- The answer is there, and the action is over. -/
  | finish {f : Firing} {w : World} {c : Course} {a : Attempt} {action : Action} {x : Errand}
      {answer : Except Fault (Option Response)} (hp : f.progress = .acting c a action) :
      LiveStep e f (some ⟨x, .ended answer⟩) w
        (f.moved (.acted c a (Fault.withinLimit (x.read answer)))) none w

/-- A firing of an event that is not over may get on: side by side at any time, and in turn when those
before it are over. -/
structure EventRun.MayFire (e : Engine) (r : EventRun) (n : Nat) (before : List Firing) (f : Firing)
    (behind : List Firing) : Prop where
  progress : r.progress = .firing n (before ++ f :: behind)
  isOpen : f.outcome? = none
  turn : e.parallel = true ∨ ∀ g ∈ before, g.outcome?.isSome = true

/-- An event under way, with the requests that its firings wait for. -/
structure LiveEvent where
  run : EventRun
  world : World
  /-- The requests under way, by the places of their firings. -/
  trips : Nat → Option Trip := fun _ => none

/-- The outlets when the clock reads `clock`. -/
def Outlets.at (clock : Double) (o : Outlets) : Outlets :=
  { o with network := { o.network with clock } }

namespace LiveEvent

/-- What can happen to a live event: its own turns up to the firings, then steps of firings. One that
fires its rules one after the other begins the next firing when those before it are over. -/
inductive Step (e : Engine) : LiveEvent → LiveEvent → Prop
  | turn {r : EventRun} {w : World} {trips : Nat → Option Trip}
      (h : ∀ n fs, r.progress ≠ .firing n fs) :
      Step e ⟨r, w, trips⟩ ⟨(r.turn e w).1, (r.turn e w).2, trips⟩
  | fire {r : EventRun} {w w' : World} {trips : Nat → Option Trip} {n : Nat}
      {before behind : List Firing} {f f' : Firing} {trip : Option Trip}
      (h : r.MayFire e n before f behind) (hstep : f.LiveStep e (trips before.length) w f' trip w') :
      Step e ⟨r, w, trips⟩ ⟨r.settle e n (before ++ f' :: behind), w',
        Function.update trips before.length trip⟩
  /-- Time passes. -/
  | drift (r : EventRun) (w : World) (trips : Nat → Option Trip) (now : DateTime) (clock : Double) :
      Step e ⟨r, w, trips⟩ ⟨r, { w with now, outlets := w.outlets.at clock }, trips⟩

/-- The runs of live events. -/
def Run (e : Engine) : LiveEvent → LiveEvent → Prop := Relation.ReflTransGen (Step e)

/-- A live event about which nothing was done yet. -/
def start (event : Event) (w : World) : LiveEvent := { run := { event }, world := w }

/-! ## Live events as events -/

variable {e : Engine} {s s' : LiveEvent}

/-- An event that is still open comes to itself. -/
theorem settle_self {r : EventRun} {n : Nat} {fs : List Firing} (h : r.IsSettled e)
    (hr : r.progress = .firing n fs) : r.settle e n fs = r := by
  rw [EventRun.settle_eq_of_none (h n fs hr), EventRun.moved_progress hr]

theorem Step.isSettled (h : Step e s s') (hs : s.run.IsSettled e) : s'.run.IsSettled e := by
  cases h with
  | turn => exact EventRun.isSettled_turn hs _
  | fire => exact EventRun.isSettled_settle _ _ _
  | drift => exact hs

/-- Whatever happens to a live event can happen to the event. -/
theorem Step.run (h : Step e s s') (hs : s.run.IsSettled e) :
    ChangeRules.Run e (s.run, s.world) (s'.run, s'.world) := by
  refine Relation.ReflTransGen.single ?_
  cases h with
  | turn h => exact .turn h
  | @fire r w w' trips n before behind f f' trip h hstep =>
    have hopen : r.settle e n (before ++ f :: behind) = r := settle_self hs h.progress
    have hdrift : ∀ outlets, EventRun.Step e (r, w) (r, { w with outlets }) :=
      fun outlets => .drift r w w.now outlets
    generalize trips before.length = t at hstep
    cases hstep with
    | turn => exact .fire h.progress h.isOpen h.turn (.turn f w)
    | settled _ hp => exact .fire h.progress h.isOpen h.turn (.act hp _ w.outlets)
    | begin =>
      rw [hopen]
      exact hdrift _
    | goOn =>
      rw [hopen]
      exact hdrift _
    | finish hp => exact .fire h.progress h.isOpen h.turn (.act hp _ w.outlets)
  | drift r w _ now clock => exact .drift r w now _

theorem isSettled_start (event : Event) (w : World) : (start event w).run.IsSettled e :=
  EventRun.isSettled_of_progress (by simp [start])

/-- **Whatever happens to a live event can happen to the event**, whose actions may come to anything. -/
theorem Run.run (h : Run e s s') (hs : s.run.IsSettled e) :
    ChangeRules.Run e (s.run, s.world) (s'.run, s'.world) ∧ s'.run.IsSettled e := by
  induction h with
  | refl => exact ⟨Relation.ReflTransGen.refl, hs⟩
  | tail _ hstep ih => exact ⟨ih.1.trans (hstep.run ih.2), hstep.isSettled ih.2⟩

/-! ## Actions in one piece -/

section

variable {r : EventRun} {w : World} {trips : Nat → Option Trip} {n : Nat}
  {before behind : List Firing} {f : Firing} {c : Course} {a : Attempt} {action : Action} {x : Errand}

/-- The steps of a request are steps of the event. -/
theorem run_goes (w : World) (trips : Nat → Option Trip) (hs : r.IsSettled e)
    (h : r.MayFire e n before f behind) (hp : f.progress = .acting c a action)
    {p q : Call × Outlets} (hgoes : x.outlet.Goes x.request p q) :
    Run e ⟨r, { w with outlets := p.2 }, Function.update trips before.length (some ⟨x, p.1⟩)⟩
      ⟨r, { w with outlets := q.2 }, Function.update trips before.length (some ⟨x, q.1⟩)⟩ := by
  induction hgoes with
  | refl => exact Relation.ReflTransGen.refl
  | @tail p q _ hnext ih =>
    have hgo := Firing.LiveStep.goOn (e := e) (w := { w with outlets := p.2 }) hp hnext
    rw [← Function.update_self before.length (some ⟨x, p.1⟩) trips] at hgo
    have hstep := Step.fire h hgo
    rw [Function.update_idem, settle_self hs h.progress] at hstep
    exact ih.tail hstep

/-- An action whose answer is there may be over. -/
theorem run_finish (w : World) (h : r.MayFire e n before f behind)
    (hp : f.progress = .acting c a action) {answer : Except Fault (Option Response)}
    (htrip : trips before.length = some ⟨x, .ended answer⟩) :
    Run e ⟨r, w, trips⟩
      ⟨r.settle e n (before ++ f.moved (.acted c a (Fault.withinLimit (x.read answer))) :: behind), w,
        Function.update trips before.length none⟩ := by
  have hfinish : f.LiveStep e (some ⟨x, .ended answer⟩) w _ none w := .finish hp
  rw [← htrip] at hfinish
  exact Relation.ReflTransGen.single (.fire h hfinish)

/-- **An action may be performed in one piece.** -/
theorem run_acting (hs : r.IsSettled e) (h : r.MayFire e n before f behind)
    (hp : f.progress = .acting c a action) (hfree : trips before.length = none) :
    Run e ⟨r, w, trips⟩ ⟨r.settle e n (before ++ (f.turn e w).1 :: behind), (f.turn e w).2, trips⟩ := by
  have hturn : f.turn e w =
      (f.moved (.acted c a (Fault.withinLimit ((action.plan f.context w.outlets).perform w.outlets).1)),
        { w with outlets := ((action.plan f.context w.outlets).perform w.outlets).2 }) := by
    unfold Firing.turn
    rw [hp]
    dsimp only [Attempt.perform]
    rw [Action.perform_eq_plan]
  have hself : Function.update trips before.length none = trips := by
    rw [← hfree, Function.update_eq_self]
  rw [hturn]
  cases hplan : action.plan f.context w.outlets with
  | settled outcome =>
    have hstep := Step.fire (w := w) h (.settled (trips before.length) hp hplan)
    rw [Function.update_eq_self] at hstep
    exact Relation.ReflTransGen.single hstep
  | errand x =>
    have hbegin : f.LiveStep e none w f _ _ := .begin hp hplan
    rw [← hfree] at hbegin
    have hstart := Step.fire h hbegin
    rw [settle_self hs h.progress] at hstart
    have hend := run_finish (x := x) { w with outlets := (x.outlet.request x.request w.outlets).2 } h hp
      (Function.update_self before.length
        (some ⟨x, .ended (x.outlet.request x.request w.outlets).1⟩) trips)
    rw [Function.update_idem, hself] at hend
    exact (Relation.ReflTransGen.head hstart
      (run_goes w trips hs h hp (x.outlet.goes_request x.request w.outlets))).trans hend

/-- A turn of a firing may be taken in one piece. -/
theorem run_fire (hs : r.IsSettled e) (h : r.MayFire e n before f behind)
    (hfree : trips before.length = none) :
    Run e ⟨r, w, trips⟩ ⟨r.settle e n (before ++ (f.turn e w).1 :: behind), (f.turn e w).2, trips⟩ := by
  cases hp : f.progress with
  | acting c a action => exact run_acting hs h hp hfree
  | _ =>
    have hstep := Step.fire (w := w) h
      (.turn (trips before.length) fun c a action => by rw [hp]; simp)
    rw [Function.update_eq_self] at hstep
    exact Relation.ReflTransGen.single hstep

end

/-! ## The engine's own run -/

/-- Turns of firings may be taken in one piece, one after the other. -/
theorem run_advances {p q : EventRun × World} (hs : p.1.IsSettled e)
    (h : Relation.ReflTransGen (EventRun.Advance e) p q) :
    Run e ⟨p.1, p.2, fun _ => none⟩ ⟨q.1, q.2, fun _ => none⟩ ∧ q.1.IsSettled e := by
  induction h with
  | refl => exact ⟨Relation.ReflTransGen.refl, hs⟩
  | tail _ hadvance ih =>
    obtain ⟨hrun, hset⟩ := ih
    cases hadvance with
    | mk hr hf hturn =>
      exact ⟨hrun.trans (run_fire hset ⟨hr, hf, hturn⟩ rfl), EventRun.isSettled_settle _ _ _⟩

/-- **A turn of an event is a run of it**, in which every action is performed in one piece. -/
theorem run_turn {r : EventRun} (h : r.IsSettled e) (w : World) :
    Run e ⟨r, w, fun _ => none⟩ ⟨(r.turn e w).1, (r.turn e w).2, fun _ => none⟩ := by
  by_cases hfiring : ∃ n fs, r.progress = .firing n fs
  · obtain ⟨n, fs, hr⟩ := hfiring
    exact (run_advances h (EventRun.advance_turn hr (h n fs hr) w).to_reflTransGen).1
  · exact Relation.ReflTransGen.single (.turn fun n fs hr => hfiring ⟨n, fs, hr⟩)

theorem run_turns {r : EventRun} (h : r.IsSettled e) (k : Nat) (w : World) :
    Run e ⟨r, w, fun _ => none⟩
      ⟨(EventRun.turns e k r w).1, (EventRun.turns e k r w).2, fun _ => none⟩ := by
  induction k generalizing r w with
  | zero => exact Relation.ReflTransGen.refl
  | succ k ih => exact (run_turn h w).trans (ih (EventRun.isSettled_turn h w) (r.turn e w).2)

/-- **What the engine does with an event is a run of the live event.** -/
theorem run_ended (e : Engine) (event : Event) (w : World) :
    Run e (start event w) ⟨(e.ended event w).1, (e.ended event w).2, fun _ => none⟩ := by
  have hstart : ({ event } : EventRun).IsSettled e := isSettled_start event w
  obtain ⟨-, hset⟩ := EventRun.run_turns hstart Engine.roundsToFire w
  exact (run_turns hstart Engine.roundsToFire w).trans (run_turns hset _ _)

end LiveEvent

end ChangeRules
