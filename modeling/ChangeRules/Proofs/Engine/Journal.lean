import ChangeRules.Proofs.Engine.Effect
import ChangeRules.Proofs.Engine.Recording
import ChangeRules.Proofs.Store.Keyed
import Mathlib.Data.List.Induction

/-!
# The journal of an event

Whichever calls of the stores fail, they fail one by one: the call for the log of one firing, the call
for the note of another. A journal tells which calls were made for which firing, and what each one
failed with.

* `World.due`: what the next calls of a kind fail with.
* **`Engine.guarded_eq`**: a call fails with what is due for it, and otherwise does its job.
* `Entry`, `History`: the calls that are made for firings, and the runs of events with their journals.
* **`run_iff_history`**: every run has a journal.
* `World.Follows`: the stores hold what the calls that worked put there, and every call got what was
  due for it.
-/

namespace ChangeRules

/-! ## Calls that fail -/

namespace World

variable {α : Type} {w : World}

/-- What the call of a kind fails with, behind `k` others of its kind. -/
def due (c : StoreCall) (k : Nat) (w : World) : Option Fault :=
  match (w.outages c)[k]?, w.backend with
  | some (some f), _ => some f
  | _, .memory => none
  | _, .idleDatabase => some (c.store.fault Store.notStarted)

/-- The world behind a call that left the stores alone. -/
def called (c : StoreCall) (w : World) : World := { w with outages := w.outages.advance c }

theorem call_eq (c : StoreCall) (job : World → Except Fault α × World) (w : World) :
    w.call c job = match w.due c 0 with
      | some f => (.error f, w.called c)
      | none => job (w.called c) := by
  unfold call due called
  rw [List.head?_eq_getElem?]
  rcases (w.outages c)[0]? with _ | (_ | f) <;> cases w.backend <;> rfl

end World

namespace Engine

variable {α : Type}

/-- What the engine reports of a call that failed. -/
def reported (e : Engine) (s : Store) (f : Fault) : Fault :=
  e.storeFault s (match f with
    | .stuck => .timeout
    | f => f)

theorem isStoreFault_reported (e : Engine) (s : Store) (f : Fault) :
    IsStoreFault (e.reported s f) := isStoreFault_storeFault e s _

/-- **A call fails with what is due for it, and otherwise does its job.** -/
theorem guarded_eq (e : Engine) (s : Store) (c : StoreCall) (job : World → Except Fault α × World)
    (w : World) : e.guarded s (World.call c job) w = match w.due c 0 with
      | some f => (.error (e.reported s f), w.called c)
      | none => ((Fault.withinLimit (job (w.called c)).1).mapError (e.storeFault s),
          (job (w.called c)).2) := by
  unfold guarded
  rw [World.call_eq]
  cases w.due c 0 with
  | some f => cases f <;> rfl
  | none => rfl

end Engine

/-! ## Entries -/

/-- A call of a store that was made for a firing. -/
structure Entry where
  /-- The place of the firing. -/
  place : Nat
  rule : Rule
  call : StoreCall
  /-- The log that was to be appended, or whose time was to be noted. -/
  log : ExecutionLog
  /-- What the call failed with. -/
  failure : Option Fault

namespace Entry

/-- The log that was appended. -/
def written? (x : Entry) : Option ExecutionLog :=
  match x.call, x.failure with
  | .append, none => some x.log
  | _, _ => none

/-- The note that was made. -/
def note? (x : Entry) : Option Note :=
  match x.call, x.failure with
  | .touch, none => some ⟨x.rule, x.log.executedAt⟩
  | _, _ => none

end Entry

/-- The call that a firing makes in its turn, if it makes one. -/
def Firing.entries (f : Firing) (place : Nat) (w : World) : List Entry :=
  match f.progress with
  | .logging _ log => [⟨place, f.rule, .append, log, w.due .append 0⟩]
  | .touching _ log => [⟨place, f.rule, .touch, log, w.due .touch 0⟩]
  | _ => []

theorem Firing.entries_eq_nil {f : Firing} (hlog : ∀ state log, f.progress ≠ .logging state log)
    (htouch : ∀ state log, f.progress ≠ .touching state log) (place : Nat) (w : World) :
    f.entries place w = [] := by
  unfold entries
  split
  · next state log hp => exact absurd hp (hlog state log)
  · next state log hp => exact absurd hp (htouch state log)
  · rfl

/-! ## Runs with their journals -/

/-- The runs of events, with the calls of stores that were made for firings. -/
inductive History (e : Engine) (p : EventRun × World) : List Entry → EventRun × World → Prop
  | begin : History e p [] p
  | turn {journal : List Entry} {r : EventRun} {w : World} (h : History e p journal (r, w))
      (hno : ∀ n fs, r.progress ≠ .firing n fs) : History e p journal (r.turn e w)
  | fire {journal : List Entry} {r : EventRun} {w w' : World} {n : Nat}
      {before behind : List Firing} {f f' : Firing} (h : History e p journal (r, w))
      (hr : r.progress = .firing n (before ++ f :: behind)) (hf : f.outcome? = none)
      (hturn : e.parallel = true ∨ ∀ g ∈ before, g.outcome?.isSome = true)
      (hstep : f.Step e w f' w') :
      History e p (journal ++ f.entries before.length w) (r.settle e n (before ++ f' :: behind), w')
  | drift {journal : List Entry} {r : EventRun} {w : World} (h : History e p journal (r, w))
      (now : DateTime) (outlets : Outlets) : History e p journal (r, { w with now, outlets })

/-- **Every run has a journal.** -/
theorem run_iff_history {e : Engine} {p q : EventRun × World} :
    Run e p q ↔ ∃ journal, History e p journal q := by
  constructor
  · intro h
    induction h with
    | refl => exact ⟨[], .begin⟩
    | tail _ hstep ih =>
      obtain ⟨journal, h⟩ := ih
      cases hstep with
      | turn hno => exact ⟨journal, h.turn hno⟩
      | fire hr hf hturn hstep => exact ⟨_, h.fire hr hf hturn hstep⟩
      | drift r w now outlets => exact ⟨journal, h.drift now outlets⟩
  · rintro ⟨journal, h⟩
    induction h with
    | begin => exact Relation.ReflTransGen.refl
    | turn _ hno ih => exact ih.tail (.turn hno)
    | fire _ hr hf hturn hstep ih => exact ih.tail (.fire hr hf hturn hstep)
    | drift _ now outlets ih => exact ih.tail (.drift _ _ now outlets)

/-! ## Worlds that follow a journal -/

/-- One world comes from another by the calls of a journal: the stores hold what the calls that worked
put there, and every call failed with what was due for it. -/
structure World.Follows (w : World) (journal : List Entry) (w' : World) : Prop where
  logs : w'.logs = w.logs ++ journal.filterMap Entry.written?
  rules : w'.rules = w.rules.heed (journal.filterMap Entry.note?)
  outages : ∀ c, w'.outages c = (w.outages c).drop (journal.countP (·.call = c))
  backend : w'.backend = w.backend
  due : ∀ c, (journal.filter (·.call = c)).map Entry.failure =
    (List.range (journal.countP (·.call = c))).map fun k => w.due c k

namespace World.Follows

variable {w w' w'' : World} {journal : List Entry}

theorem of_untouched (h : w.Untouched w') : w.Follows [] w' where
  logs := by simp [h.logs]
  rules := by simp [h.rules, Rules.heed]
  outages c := by simp [h.outages]
  backend := h.backend
  due c := rfl

/-- What is due next is what was due behind the calls that were made. -/
theorem due_eq (h : w.Follows journal w') (c : StoreCall) (k : Nat) :
    w'.due c k = w.due c (journal.countP (·.call = c) + k) := by
  unfold World.due
  rw [h.outages, h.backend, List.getElem?_drop]

/-- One more call. -/
theorem concat (h : w.Follows journal w') {x : Entry} (hdue : x.failure = w'.due x.call 0)
    (hlogs : w''.logs = w'.logs ++ x.written?.toList)
    (hrules : w''.rules = w'.rules.heed x.note?.toList)
    (houtages : w''.outages = w'.outages.advance x.call) (hbackend : w''.backend = w'.backend) :
    w.Follows (journal ++ [x]) w'' where
  logs := by
    rw [hlogs, h.logs, List.append_assoc, List.filterMap_append]
    cases hx : x.written? <;> simp [hx]
  rules := by
    rw [hrules, h.rules, ← Rules.heed_append, List.filterMap_append]
    cases hx : x.note? <;> simp [hx]
  outages c := by
    rw [houtages, Outages.advance, List.countP_append]
    by_cases hc : x.call = c
    · subst hc
      simp [h.outages, List.tail_drop]
    · simp [h.outages, hc, Ne.symm hc]
  backend := hbackend.trans h.backend
  due c := by
    rw [List.filter_append, List.countP_append, List.map_append, h.due]
    by_cases hc : x.call = c
    · subst hc
      simp [List.range_succ, hdue, h.due_eq]
    · simp [hc]

/-- A turn in which no store is touched. -/
theorem keep (h : w.Follows journal w') (hw : w'.Untouched w'') : w.Follows journal w'' where
  logs := hw.logs.trans h.logs
  rules := hw.rules.trans h.rules
  outages c := by rw [hw.outages, h.outages]
  backend := hw.backend.trans h.backend
  due := h.due

end World.Follows

end ChangeRules
