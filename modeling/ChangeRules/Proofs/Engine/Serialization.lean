import ChangeRules.Proofs.Engine.Registry
import ChangeRules.Proofs.Matching

/-!
# Firings of one rule, one after the other

Any number of firings of any rules, from any events, come and take their turns in any order; each of
them may break off at any time. However they interleave, the locks let one firing of a rule in at a
time, and the queues are those of the rules that are wanted at the moment.

* `Crowd.Step`: what can happen next among firings.
* `Orderly`: those who want a rule stand in line for it, and those inside hold its lock.
* `Serialized`: what the locks guarantee.
* **`Orderly.turn`**: no turn of a firing disturbs the order.
* **`serialized_of_crowd`**: the guarantee, at any time.
-/

namespace ChangeRules

/-! ## Stores leave locks alone -/

theorem World.locks_call {α : Type} {c : StoreCall} {job : World → Except Fault α × World}
    (h : ∀ w, (job w).2.locks = w.locks) (w : World) : (World.call c job w).2.locks = w.locks := by
  unfold World.call
  dsimp only
  split
  · rfl
  · exact h _
  · rfl

theorem Engine.locks_appendLog (e : Engine) (log : ExecutionLog) (w : World) :
    (e.guarded .logs (World.appendLog log) w).2.locks = w.locks := by
  change (World.appendLog log w).2.locks = w.locks
  unfold World.appendLog
  exact World.locks_call (fun _ => rfl) w

theorem Engine.locks_touchRule (e : Engine) (tenant id : Value) (time : DateTime) (w : World) :
    (e.guarded .rules (World.touchRule tenant id time) w).2.locks = w.locks := by
  change (World.touchRule tenant id time w).2.locks = w.locks
  unfold World.touchRule World.changeRules
  refine World.locks_call (fun w => ?_) w
  split <;> rfl

/-! ## Who wants a lock -/

/-- Where a firing is, as far as the lock of its rule is concerned. -/
inductive LockPhase where
  | outside
  | waiting
  | inside
  deriving DecidableEq

/-- A firing is inside from its first look at the actions until the lock is given back. -/
def FiringProgress.phase : FiringProgress → LockPhase
  | .ready | .ended _ => .outside
  | .queued => .waiting
  | _ => .inside

namespace Firing

/-- The firing holds or awaits the lock of its rule. -/
def wants (f : Firing) : Bool := f.progress.phase != .outside

/-- The firing is in its locked section. -/
def isInside (f : Firing) : Bool := f.progress.phase == .inside

/-- The place of the firing in line. -/
def standing? (f : Firing) : Option Standing :=
  if f.wants then some ⟨f.rule.id, f.ticket⟩ else none

variable {f f' : Firing} {w w' : World}

theorem wants_of_isInside (h : f.isInside = true) : f.wants = true := by
  rw [isInside, beq_iff_eq] at h
  rw [wants, h]
  rfl

theorem standing?_of_wants (h : f.wants = true) : f.standing? = some ⟨f.rule.id, f.ticket⟩ :=
  if_pos h

theorem standing?_of_not_wants (h : f.wants = false) : f.standing? = none := by
  simp [standing?, h]

theorem mem_standing {fs : List Firing} (hf : f ∈ fs) (h : f.wants = true) :
    ⟨f.rule.id, f.ticket⟩ ∈ fs.filterMap standing? :=
  List.mem_filterMap.mpr ⟨f, hf, standing?_of_wants h⟩

theorem turn_of_ready {e : Engine} (hf : f.progress = .ready) :
    f.turn e w =
      { f with ticket := (w.locks.enter f.rule.id).1, progress := .queued }.await e
        { w with locks := (w.locks.enter f.rule.id).2 } := by
  unfold turn
  rw [hf]
  rfl

theorem GoesOn.isInside (h : f.GoesOn w f' w') : f'.isInside = true := by
  unfold Firing.isInside
  rcases h.progress with hp | ⟨state, log, hp, -⟩
  · cases hf : f'.progress <;> rw [hf] at hp
    all_goals first | rfl | exact hp.elim
  · rw [hp]
    rfl

end Firing

/-! ## Crowds -/

/-- What can happen next among firings that share a world. -/
inductive Crowd.Step (ids : Value → Prop) (e : Engine) :
    List Firing × World → List Firing × World → Prop
  /-- A rule is about to fire. -/
  | arrive {fs : List Firing} {w : World} {f : Firing} (hid : ids f.rule.id)
      (hf : f.progress = .ready) : Step ids e (fs, w) (fs ++ [f], w)
  | fire {before behind : List Firing} {f f' : Firing} {w w' : World} (h : f.Step e w f' w') :
      Step ids e (before ++ f :: behind, w) (before ++ f' :: behind, w')
  /-- Whatever a firing waits for, it may break off there; the lock is given back. -/
  | breakOff {before behind : List Firing} {f : Firing} {w : World} (hf : f.wants = true)
      (fault : Fault) :
      Step ids e (before ++ f :: behind, w)
        (before ++ (f.finish (.error fault) w).1 :: behind, (f.finish (.error fault) w).2)
  /-- A firing that is over, or was never begun, is forgotten. -/
  | depart {before behind : List Firing} {f : Firing} {w : World} (hf : f.wants = false) :
      Step ids e (before ++ f :: behind, w) (before ++ behind, w)
  /-- Everything but the locks may change at any time. -/
  | drift {fs : List Firing} {w w' : World} (h : w'.locks = w.locks) : Step ids e (fs, w) (fs, w')

/-- What firings come to from a world in which none is under way. -/
def Crowd.Run (ids : Value → Prop) (e : Engine) (start : World) : List Firing × World → Prop :=
  Relation.ReflTransGen (Crowd.Step ids e) ([], start)

/-- Those who want a rule stand in line for it, and those inside hold its lock. -/
structure Orderly (ids : Value → Prop) (fs : List Firing) (l : RuleLocks) : Prop where
  keyed : ∀ f ∈ fs, ids f.rule.id
  serves : l.Serves ids (fs.filterMap Firing.standing?)
  inside : ∀ f ∈ fs, f.isInside = true → l.holds f.ticket = true

namespace Orderly

variable {ids : Value → Prop} {fs gs : List Firing} {f f' : Firing} {l : RuleLocks} {e : Engine}
  {w w' : World}

theorem nil (h : l.queues = []) : Orderly ids [] l :=
  ⟨by simp, RuleLocks.Serves.nil h, by simp⟩

theorem perm (h : Orderly ids fs l) (hperm : fs.Perm gs) : Orderly ids gs l where
  keyed f hf := h.keyed f (hperm.mem_iff.mpr hf)
  serves := h.serves.perm (hperm.filterMap _)
  inside f hf := h.inside f (hperm.mem_iff.mpr hf)

/-- A firing that stands where it stood. -/
theorem stay (h : Orderly ids (f :: fs) l) (hfound : f'.found = f.found)
    (hticket : f'.ticket = f.ticket) (hwants : f'.wants = f.wants)
    (hholds : f'.isInside = true → l.holds f.ticket = true) : Orderly ids (f' :: fs) l where
  keyed := by
    obtain ⟨hf, hfs⟩ := List.forall_mem_cons.mp h.keyed
    refine List.forall_mem_cons.mpr ⟨?_, hfs⟩
    rw [Firing.rule, hfound]
    exact hf
  serves := by
    have hstanding : f'.standing? = f.standing? := by
      unfold Firing.standing? Firing.rule
      rw [hwants, hfound, hticket]
    have hserves := h.serves
    rw [List.filterMap_cons] at hserves ⊢
    rw [hstanding]
    exact hserves
  inside := by
    refine List.forall_mem_cons.mpr ⟨?_, (List.forall_mem_cons.mp h.inside).2⟩
    rw [hticket]
    exact hholds

/-- A firing whose lock is its own goes on. -/
theorem goOn (h : Orderly ids (f :: fs) w.locks) (hf : f.wants = true)
    (hholds : w.locks.holds f.ticket = true) (hgo : f.GoesOn w f' w') :
    Orderly ids (f' :: fs) w'.locks := by
  rw [hgo.world.locks]
  refine h.stay hgo.found hgo.ticket ?_ fun _ => hholds
  rw [hf, Firing.wants_of_isInside hgo.isInside]

/-- A firing that is inside stays there. -/
theorem stayInside (h : Orderly ids (f :: fs) l) (hf : f.isInside = true)
    {p : FiringProgress} (hp : p.phase = .inside) : Orderly ids (f.moved p :: fs) l := by
  refine h.stay rfl rfl ?_ fun _ => (List.forall_mem_cons.mp h.inside).1 hf
  rw [Firing.wants_of_isInside hf]
  exact Firing.wants_of_isInside (beq_iff_eq.mpr hp)

variable (hk : Value.Keys ids)

include hk

/-- A firing lines up. -/
theorem enter (h : Orderly ids (f :: fs) l) (hf : f.wants = false) :
    Orderly ids ({ f with ticket := (l.enter f.rule.id).1, progress := .queued } :: fs)
      (l.enter f.rule.id).2 := by
  obtain ⟨hid, hids⟩ := List.forall_mem_cons.mp h.keyed
  have hserves := h.serves
  rw [List.filterMap_cons_none (Firing.standing?_of_not_wants hf)] at hserves
  refine ⟨List.forall_mem_cons.mpr ⟨hid, hids⟩, hserves.enter hk hid, ?_⟩
  refine List.forall_mem_cons.mpr ⟨fun hin => absurd hin Bool.false_ne_true, fun g hg hin => ?_⟩
  exact hserves.holds_enter (Firing.mem_standing hg (Firing.wants_of_isInside hin))
    (h.inside g (List.mem_cons_of_mem f hg) hin)

/-- A firing gives its place back. -/
theorem leave (h : Orderly ids (f :: fs) l) (hf : f.wants = true) (outcome : Except Fault FiringReport) :
    Orderly ids (f.moved (.ended outcome) :: fs) (l.leave f.rule.id f.ticket) := by
  have hserves := h.serves
  rw [List.filterMap_cons_some (Firing.standing?_of_wants hf)] at hserves
  refine ⟨List.forall_mem_cons.mpr (List.forall_mem_cons.mp h.keyed), hserves.leave hk, ?_⟩
  refine List.forall_mem_cons.mpr ⟨fun hin => absurd hin Bool.false_ne_true, fun g hg hin => ?_⟩
  exact hserves.holds_leave (Firing.mem_standing hg (Firing.wants_of_isInside hin))
    (h.inside g (List.mem_cons_of_mem f hg) hin)

/-! ## Turns -/

theorem begin (h : Orderly ids (f :: fs) w.locks) (hf : f.wants = true)
    (hholds : w.locks.holds f.ticket = true) :
    Orderly ids ((f.begin e w).1 :: fs) (f.begin e w).2.locks := by
  unfold Firing.begin
  split
  · exact h.goOn hf hholds (Firing.goesOn_conclude f _ _ w)
  · split
    · exact h.leave hk hf _
    · split
      · exact h.goOn hf hholds (Firing.goesOn_conclude f _ _ w)
      · exact h.goOn hf hholds (Firing.goesOn_next f _ w)

theorem await (h : Orderly ids (f :: fs) w.locks) (hf : f.progress = .queued) :
    Orderly ids ((f.await e w).1 :: fs) (f.await e w).2.locks := by
  unfold Firing.await
  split
  · next hholds => exact h.begin hk (by rw [Firing.wants, hf]; rfl) hholds
  · refine h.stay rfl rfl ?_ fun hin => absurd hin Bool.false_ne_true
    rw [Firing.wants, Firing.wants, hf]
    rfl

/-- **No turn of a firing disturbs the order.** -/
theorem turn (h : Orderly ids (f :: fs) w.locks) :
    Orderly ids ((f.turn e w).1 :: fs) (f.turn e w).2.locks := by
  have hinside : f.progress.phase = .inside → f.isInside = true := fun hf => beq_iff_eq.mpr hf
  cases hf : f.progress with
  | ready =>
    rw [Firing.turn_of_ready hf]
    exact (h.enter hk (by rw [Firing.wants, hf]; rfl)).await hk rfl
  | queued =>
    have hawait := h.await (e := e) hk hf
    unfold Firing.turn
    rw [hf]
    exact hawait
  | acting c a action =>
    unfold Firing.turn
    rw [hf]
    exact h.stayInside (hinside (by rw [hf]; rfl)) rfl
  | acted c a outcome =>
    have hin := hinside (by rw [hf]; rfl)
    unfold Firing.turn
    rw [hf]
    exact h.goOn (Firing.wants_of_isInside hin) ((List.forall_mem_cons.mp h.inside).1 hin)
      (Firing.goesOn_proceed e.actionLimit f c a outcome w)
  | logging state log =>
    have hstay := h.stayInside (hinside (by rw [hf]; rfl))
      (p := .logged state log (e.guarded .logs (World.appendLog log) w).1) rfl
    rw [← Engine.locks_appendLog e log w] at hstay
    unfold Firing.turn
    rw [hf]
    exact hstay
  | logged state log outcome =>
    have hin := hinside (by rw [hf]; rfl)
    unfold Firing.turn
    rw [hf]
    cases outcome with
    | ok v => exact h.stayInside hin rfl
    | error fault => exact h.leave hk (Firing.wants_of_isInside hin) _
  | touching state log =>
    have hstay := h.stayInside (hinside (by rw [hf]; rfl))
      (p := .touched state log (e.guarded .rules
        (World.touchRule f.rule.tenant f.rule.id log.executedAt) w).1) rfl
    rw [← Engine.locks_touchRule e f.rule.tenant f.rule.id log.executedAt w] at hstay
    unfold Firing.turn
    rw [hf]
    exact hstay
  | touched state log outcome =>
    have hin := hinside (by rw [hf]; rfl)
    unfold Firing.turn
    rw [hf]
    cases outcome with
    | ok u => exact h.leave hk (Firing.wants_of_isInside hin) _
    | error fault => exact h.leave hk (Firing.wants_of_isInside hin) _
  | ended outcome =>
    unfold Firing.turn
    rw [hf]
    exact h

/-- Whatever becomes of an action, the order is not disturbed. -/
theorem fire (h : Orderly ids (f :: fs) w.locks) (hs : f.Step e w f' w') :
    Orderly ids (f' :: fs) w'.locks := by
  cases hs with
  | turn => exact h.turn hk
  | act hf outcome outlets => exact h.stayInside (by rw [Firing.isInside, hf]; rfl) rfl

/-- **Nothing that can happen among firings disturbs the order.** -/
theorem step (h : Orderly ids fs w.locks) (hs : Crowd.Step ids e (fs, w) (gs, w')) :
    Orderly ids gs w'.locks := by
  cases hs with
  | @arrive _ _ f hid hf =>
    have hout : f.wants = false := by rw [Firing.wants, hf]; rfl
    have hnew : Orderly ids (f :: fs) w.locks := by
      refine ⟨List.forall_mem_cons.mpr ⟨hid, h.keyed⟩, ?_, List.forall_mem_cons.mpr ⟨?_, h.inside⟩⟩
      · rw [List.filterMap_cons_none (Firing.standing?_of_not_wants hout)]
        exact h.serves
      · intro hin
        rw [Firing.wants_of_isInside hin] at hout
        exact Bool.noConfusion hout
    exact hnew.perm (List.perm_append_singleton f fs).symm
  | fire hstep =>
    exact ((h.perm List.perm_middle).fire hk hstep).perm List.perm_middle.symm
  | breakOff hf fault =>
    exact ((h.perm List.perm_middle).leave hk hf _).perm List.perm_middle.symm
  | depart hf =>
    have hfront := h.perm List.perm_middle
    refine ⟨(List.forall_mem_cons.mp hfront.keyed).2, ?_, (List.forall_mem_cons.mp hfront.inside).2⟩
    have hserves := hfront.serves
    rwa [List.filterMap_cons_none (Firing.standing?_of_not_wants hf)] at hserves
  | drift hw =>
    rw [hw]
    exact h

end Orderly

/-! ## The guarantee -/

/-- What the locks guarantee to firings that share them. -/
structure Serialized (ids : Value → Prop) (fs : List Firing) (l : RuleLocks) : Prop where
  /-- At most one firing of a rule is inside. -/
  exclusive : ∀ id, ids id → fs.countP (fun f => f.isInside && f.rule.id.same id) ≤ 1
  /-- A rule has a queue exactly as long as a firing holds or awaits its lock. -/
  queued_iff : ∀ id, ids id →
    ((l.queueOf? id).isSome = true ↔ ∃ f ∈ fs, f.wants = true ∧ f.rule.id.same id = true)
  /-- The users of a lock are the firings that hold or await it. -/
  users : ∀ id q, ids id → l.queueOf? id = some q →
    (l.lock q.lock).users = fs.countP fun f => f.wants && f.rule.id.same id
  /-- Firings of one rule that overlap use one lock, that of its queue. -/
  shared : ∀ f ∈ fs, ∀ g ∈ fs, f.wants = true → g.wants = true →
    f.rule.id.same g.rule.id = true →
    f.ticket.lock = g.ticket.lock ∧ (l.queueOf? f.rule.id).map (·.lock) = some f.ticket.lock
  /-- Who is inside holds the lock. -/
  holds : ∀ f ∈ fs, f.isInside = true → l.holds f.ticket = true
  /-- As long as a rule is wanted, a firing of it holds its lock. -/
  served : ∀ q ∈ l.queues,
    ∃ f ∈ fs, f.wants = true ∧ f.rule.id.same q.ruleId = true ∧ l.holds f.ticket = true
  /-- Where no firing is under way, there is no queue. -/
  idle : (∀ f ∈ fs, f.wants = false) → l.queues = []

namespace Orderly

variable {ids : Value → Prop} {fs : List Firing} {l : RuleLocks}

theorem countP_standing (fs : List Firing) (id : Value) :
    (fs.filterMap Firing.standing?).countP (·.ruleId.same id) =
      fs.countP fun f => f.wants && f.rule.id.same id := by
  rw [List.countP_filterMap]
  refine List.countP_congr fun f _ => ?_
  unfold Firing.standing?
  cases f.wants <;> simp

theorem mem_standing_iff {s : Standing} :
    s ∈ fs.filterMap Firing.standing? ↔
      ∃ f ∈ fs, f.wants = true ∧ s = ⟨f.rule.id, f.ticket⟩ := by
  rw [List.mem_filterMap]
  refine exists_congr fun f => and_congr_right fun _ => ?_
  unfold Firing.standing?
  cases f.wants <;> simp [eq_comm]

/-- Those who stand in line have different numbers. -/
theorem distinct (h : Orderly ids fs l) :
    fs.Pairwise fun f g => f.wants = true → g.wants = true → f.ticket.number ≠ g.ticket.number := by
  have hnodup := List.pairwise_filterMap.mp (List.pairwise_map.mp h.serves.distinct)
  refine hnodup.imp fun hne hf hg => ?_
  exact hne _ (Firing.standing?_of_wants hf) _ (Firing.standing?_of_wants hg)

/-- Two firings that are inside one rule have one number. -/
theorem number_eq_of_isInside (hk : Value.Keys ids) (h : Orderly ids fs l) {f g : Firing}
    (hf : f ∈ fs) (hg : g ∈ fs) (hfin : f.isInside = true) (hgin : g.isInside = true)
    (hsame : f.rule.id.same g.rule.id = true) : f.ticket.number = g.ticket.number :=
  h.serves.number_eq_of_holds hk (Firing.mem_standing hf (Firing.wants_of_isInside hfin))
    (Firing.mem_standing hg (Firing.wants_of_isInside hgin)) hsame
    (h.inside f hf hfin) (h.inside g hg hgin)

/-- Those inside a rule are one at most. -/
theorem exclusive (hk : Value.Keys ids) (h : Orderly ids fs l) {id : Value} (hid : ids id) :
    fs.countP (fun f => f.isInside && f.rule.id.same id) ≤ 1 := by
  rw [List.countP_eq_length_filter]
  have hdistinct := h.distinct.filter fun f => f.isInside && f.rule.id.same id
  have hmem : ∀ f ∈ fs.filter (fun f => f.isInside && f.rule.id.same id),
      f ∈ fs ∧ f.isInside = true ∧ f.rule.id.same id = true := fun f hf =>
    ⟨(List.mem_filter.mp hf).1, Bool.and_eq_true_iff.mp (List.mem_filter.mp hf).2⟩
  generalize fs.filter (fun f => f.isInside && f.rule.id.same id) = inside at hdistinct hmem ⊢
  cases inside with
  | nil => exact Nat.zero_le _
  | cons f rest =>
    cases rest with
    | nil => exact Nat.le_refl _
    | cons g rest =>
      obtain ⟨hf, hfin, hfid⟩ := hmem f (by simp)
      obtain ⟨hg, hgin, hgid⟩ := hmem g (by simp)
      have hsame := hk.trans _ _ _ (h.keyed f hf) hid (h.keyed g hg) hfid
        (hk.symm _ _ (h.keyed g hg) hid hgid)
      have hne := (List.pairwise_cons.mp hdistinct).1 g (by simp) (Firing.wants_of_isInside hfin)
        (Firing.wants_of_isInside hgin)
      exact absurd (h.number_eq_of_isInside hk hf hg hfin hgin hsame) hne

theorem serialized (hk : Value.Keys ids) (h : Orderly ids fs l) : Serialized ids fs l where
  exclusive id hid := h.exclusive hk hid
  queued_iff id hid := by
    rw [h.serves.isSome_queueOf?_iff hk hid]
    constructor
    · rintro ⟨s, hs, hsame⟩
      obtain ⟨f, hf, hwants, rfl⟩ := mem_standing_iff.mp hs
      exact ⟨f, hf, hwants, hsame⟩
    · rintro ⟨f, hf, hwants, hsame⟩
      exact ⟨_, Firing.mem_standing hf hwants, hsame⟩
  users id q hid hq := by rw [h.serves.users_eq hk hid hq, countP_standing]
  shared f hf g hg hfw hgw hsame := by
    have hstands := Firing.mem_standing hf hfw
    obtain ⟨q, hq, hqf, hlock⟩ := h.serves.queued _ hstands
    refine ⟨h.serves.lock_eq hk hstands (Firing.mem_standing hg hgw) hsame, ?_⟩
    rw [h.serves.queueOf?_eq hk (h.keyed f hf) hq hqf, Option.map_some, hlock]
  holds := h.inside
  served q hq := by
    obtain ⟨s, hs, hsame, hholds⟩ := h.serves.exists_holds hk hq
    obtain ⟨f, hf, hwants, rfl⟩ := mem_standing_iff.mp hs
    exact ⟨f, hf, hwants, hsame, hholds⟩
  idle hnone := by
    rw [List.eq_nil_iff_forall_not_mem]
    intro q hq
    obtain ⟨s, hs, -⟩ := h.serves.exists_holds hk hq
    obtain ⟨f, hf, hwants, -⟩ := mem_standing_iff.mp hs
    rw [hnone f hf] at hwants
    exact Bool.noConfusion hwants

end Orderly

theorem orderly_of_crowd {ids : Value → Prop} {e : Engine} {start : World}
    {p : List Firing × World} (hk : Value.Keys ids) (hidle : start.locks.queues = [])
    (h : Crowd.Run ids e start p) : Orderly ids p.1 p.2.locks := by
  induction h with
  | refl => exact Orderly.nil hidle
  | tail _ hstep ih => exact ih.step hk hstep

/-- **Firings of one rule take their turns one after the other.** Whatever firings come, and however
they interleave and end: one of a rule is inside at most, those that overlap share the lock of the
rule, and the queues and their users are just those that hold or await a lock. -/
theorem serialized_of_crowd {ids : Value → Prop} (hk : Value.Keys ids) {e : Engine}
    {start w : World} {fs : List Firing} (hidle : start.locks.queues = [])
    (h : Crowd.Run ids e start (fs, w)) : Serialized ids fs w.locks :=
  (orderly_of_crowd hk hidle h).serialized hk

/-- Two firings of one rule: the first one is inside and the second one waits. -/
theorem serialized_of_crowd_pair :
    Value.Keys (fun v => ∃ s, v = .text s) ∧ (World.plain []).locks.queues = [] ∧
    ∃ fs w, Crowd.Run (fun v => ∃ s, v = .text s) {} (World.plain []) (fs, w) ∧
      fs.map (·.progress.phase) = [.inside, .waiting] ∧
      Serialized (fun v => ∃ s, v = .text s) fs w.locks := by
  let f : Firing := ⟨⟨Rule.plain "r1" (.list []), none⟩, ⟨Event.plain, .created, none⟩, {}, .ready⟩
  let inside := f.turn {} (World.plain [])
  let waiting := f.turn {} inside.2
  have harrive : ∀ fs w, Crowd.Step (fun v => ∃ s, v = .text s) {} (fs, w) (fs ++ [f], w) :=
    fun fs w => .arrive ⟨"r1", rfl⟩ rfl
  have hfirst : Crowd.Step (fun v => ∃ s, v = .text s) {} ([] ++ f :: [f], World.plain [])
      ([] ++ inside.1 :: [f], inside.2) := .fire (.turn f _)
  have hsecond : Crowd.Step (fun v => ∃ s, v = .text s) {} ([inside.1] ++ f :: [], inside.2)
      ([inside.1] ++ waiting.1 :: [], waiting.2) := .fire (.turn f _)
  have hrun : Crowd.Run (fun v => ∃ s, v = .text s) {} (World.plain [])
      ([inside.1, waiting.1], waiting.2) :=
    (((Relation.ReflTransGen.single (harrive [] _)).tail (harrive [f] _)).tail hfirst).tail hsecond
  exact ⟨Value.keys_text, rfl, _, _, hrun, rfl, serialized_of_crowd Value.keys_text rfl hrun⟩

end ChangeRules
