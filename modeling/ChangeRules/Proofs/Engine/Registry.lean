import ChangeRules.Engine.Lock
import ChangeRules.Proofs.Store.Keyed

/-!
# Who stands in line

The queues of rules against those who stand in line. Each rule that somebody wants has one queue; the
tickets at its lock are those of everybody who wants the rule, and their number is the number of
users. It is the number of users alone that decides when a queue is closed, so this account has to be
kept by everybody who comes and goes.

* `Value.Keys`: values that can be keys, as all texts can (**`keys_text`**).
* `RuleLocks.Serves`: the queues are those of the rules that are wanted.
* **`Serves.enter`**, **`Serves.leave`**: it is kept by those who come and go.
* **`Serves.holds_enter`**, **`Serves.holds_leave`**: whoever holds a lock holds it while others come
  and go.
-/

namespace ChangeRules

/-- Among these values, being the same is an equivalence. -/
structure Value.Keys (ids : Value → Prop) : Prop where
  refl : ∀ v, ids v → v.same v = true
  symm : ∀ v w, ids v → ids w → v.same w = true → w.same v = true
  trans : ∀ u v w, ids u → ids v → ids w → u.same v = true → v.same w = true → u.same w = true

theorem Value.keys_text : Keys fun v => ∃ s, v = .text s where
  refl := by
    rintro v ⟨s, rfl⟩
    rw [same_text]
  symm := by
    rintro v w ⟨s, rfl⟩ ⟨t, rfl⟩ h
    rwa [same_text, eq_comm, ← same_text] at h
  trans := by
    rintro u v w ⟨r, rfl⟩ ⟨s, rfl⟩ ⟨t, rfl⟩ h h'
    rw [same_text] at h h' ⊢
    rw [h, h']

/-! ## Locks -/

namespace RuleLock

/-- Just these tickets stand at a lock, and its users are counted. -/
structure Keeps (numbers : List Nat) (k : RuleLock) : Prop where
  users : k.users = numbers.length
  tickets : k.tickets.Perm numbers

variable {k : RuleLock} {n : Nat} {numbers : List Nat}

theorem Keeps.join (h : k.Keeps numbers) : (k.join n).Keeps (n :: numbers) where
  users := congrArg (· + 1) h.users
  tickets := (List.perm_append_singleton n k.tickets).trans (h.tickets.cons n)

theorem Keeps.quit (h : k.Keeps (n :: numbers)) : (k.quit n).Keeps numbers where
  users := by
    have husers := h.users
    rw [List.length_cons] at husers
    simp only [RuleLock.quit, husers, Nat.add_sub_cancel]
  tickets := by
    have h := h.tickets.erase n
    rwa [List.erase_cons_head] at h

theorem Keeps.perm {more : List Nat} (h : k.Keeps numbers) (hperm : numbers.Perm more) :
    k.Keeps more where
  users := h.users.trans hperm.length_eq
  tickets := h.tickets.trans hperm

end RuleLock

/-! ## Queues -/

/-- Somebody stands in line for a rule. -/
structure Standing where
  ruleId : Value
  ticket : Ticket

/-- The numbers of those who stand in line for a rule. -/
def numbersOf (id : Value) (line : List Standing) : List Nat :=
  (line.filter (·.ruleId.same id)).map (·.ticket.number)

section

variable {id : Value} {s : Standing} {line : List Standing}

theorem numbersOf_cons_of_same (h : s.ruleId.same id = true) :
    numbersOf id (s :: line) = s.ticket.number :: numbersOf id line := by
  simp [numbersOf, h]

theorem numbersOf_cons_of_not_same (h : s.ruleId.same id = false) :
    numbersOf id (s :: line) = numbersOf id line := by
  simp [numbersOf, h]

theorem mem_numbersOf (hs : s ∈ line) (h : s.ruleId.same id = true) :
    s.ticket.number ∈ numbersOf id line :=
  List.mem_map_of_mem (List.mem_filter.mpr ⟨hs, h⟩)

theorem exists_of_mem_numbersOf {n : Nat} (h : n ∈ numbersOf id line) :
    ∃ s ∈ line, s.ruleId.same id = true ∧ s.ticket.number = n := by
  obtain ⟨s, hs, rfl⟩ := List.mem_map.mp h
  obtain ⟨hs, hsame⟩ := List.mem_filter.mp hs
  exact ⟨s, hs, hsame, rfl⟩

theorem numbersOf_eq_nil (h : ∀ s ∈ line, s.ruleId.same id = false) : numbersOf id line = [] := by
  rw [List.eq_nil_iff_forall_not_mem]
  intro n hn
  obtain ⟨s, hs, hsame, -⟩ := exists_of_mem_numbersOf hn
  rw [h s hs] at hsame
  exact Bool.noConfusion hsame

end

/-- Two queues have nothing in common. -/
def RuleQueue.Apart (p q : RuleQueue) : Prop :=
  p.ruleId.same q.ruleId = false ∧ q.ruleId.same p.ruleId = false ∧ p.lock ≠ q.lock

instance : Std.Symm RuleQueue.Apart := ⟨fun _ _ h => ⟨h.2.1, h.1, h.2.2.symm⟩⟩

namespace RuleLocks

section

variable {l l' : RuleLocks} {f : RuleLock → RuleLock} {n m : Nat}

theorem lock_modify_self (hl : l'.made = l.made.modify n f) (h : n < l.made.length) :
    l'.lock n = f (l.lock n) := by
  simp [lock, hl, List.getElem?_eq_getElem h]

theorem lock_modify_of_ne (hl : l'.made = l.made.modify n f) (h : n ≠ m) :
    l'.lock m = l.lock m := by
  simp [lock, hl, h]

theorem made_leave {id : Value} {t : Ticket} :
    (l.leave id t).made = l.made.modify t.lock (RuleLock.quit t.number) := by
  unfold leave
  dsimp only
  split <;> rfl

end

/-- The queues are those of the rules that somebody stands in line for. -/
structure Serves (ids : Value → Prop) (line : List Standing) (l : RuleLocks) : Prop where
  known : ∀ s ∈ line, ids s.ruleId
  /-- Everybody stands at the lock of the rule. -/
  queued : ∀ s ∈ line, ∃ q ∈ l.queues, q.ruleId.same s.ruleId = true ∧ q.lock = s.ticket.lock
  keyed : ∀ q ∈ l.queues, ids q.ruleId
  apart : l.queues.Pairwise RuleQueue.Apart
  made : ∀ q ∈ l.queues, q.lock < l.made.length
  /-- A queue is somebody's. -/
  wanted : ∀ q ∈ l.queues, numbersOf q.ruleId line ≠ []
  keeps : ∀ q ∈ l.queues, (l.lock q.lock).Keeps (numbersOf q.ruleId line)
  drawn : ∀ s ∈ line, s.ticket.number < l.next
  distinct : (line.map (·.ticket.number)).Nodup

namespace Serves

variable {ids : Value → Prop} {id : Value} {s t : Standing} {line : List Standing} {l : RuleLocks}
  {p q : RuleQueue}

theorem nil (h : l.queues = []) : l.Serves ids [] := by
  constructor <;> simp [h]

theorem perm {line' : List Standing} (h : l.Serves ids line) (hperm : line.Perm line') :
    l.Serves ids line' where
  known s hs := h.known s (hperm.mem_iff.mpr hs)
  queued s hs := h.queued s (hperm.mem_iff.mpr hs)
  keyed := h.keyed
  apart := h.apart
  made := h.made
  wanted q hq hnil := by
    have hnumbers : (numbersOf q.ruleId line).Perm (numbersOf q.ruleId line') :=
      (hperm.filter _).map _
    rw [hnil] at hnumbers
    exact h.wanted q hq hnumbers.eq_nil
  keeps q hq := (h.keeps q hq).perm ((hperm.filter _).map _)
  drawn s hs := h.drawn s (hperm.mem_iff.mpr hs)
  distinct := (hperm.map _).nodup_iff.mp h.distinct

/-- A rule has one queue. -/
theorem eq_of_same (h : l.Serves ids line) (hp : p ∈ l.queues) (hq : q ∈ l.queues)
    (hsame : p.ruleId.same q.ruleId = true) : p = q := by
  by_contra hne
  have hapart := (h.apart.forall hp hq hne).1
  rw [hsame] at hapart
  exact Bool.noConfusion hapart

theorem lock_ne (h : l.Serves ids line) (hp : p ∈ l.queues) (hq : q ∈ l.queues) (hne : p ≠ q) :
    p.lock ≠ q.lock := (h.apart.forall hp hq hne).2.2

/-- The next number was not drawn yet. -/
theorem not_drawn (h : l.Serves ids line) : l.next ∉ line.map (·.ticket.number) := by
  intro hdrawn
  obtain ⟨s, hs, hs'⟩ := List.mem_map.mp hdrawn
  have hlt := h.drawn s hs
  rw [hs'] at hlt
  exact Nat.lt_irrefl _ hlt

/-! ## Holding -/

/-- **Whoever holds a lock holds it when somebody comes.** -/
theorem holds_enter (h : l.Serves ids line) (hs : s ∈ line) (hholds : l.holds s.ticket = true) :
    (l.enter id).2.holds s.ticket = true := by
  obtain ⟨p, hp, -, hlock⟩ := h.queued s hs
  have hmade : s.ticket.lock < l.made.length := hlock ▸ h.made p hp
  cases hq : l.queueOf? id with
  | none =>
    rw [RuleLocks.enter_of_none hq]
    simpa [holds, RuleLocks.lock, List.getElem?_append_left hmade] using hholds
  | some q =>
    rw [RuleLocks.enter_of_some hq]
    unfold holds at hholds ⊢
    by_cases heq : q.lock = s.ticket.lock
    · rw [heq, lock_modify_self rfl hmade]
      have hhead := eq_of_beq hholds
      simp [RuleLock.join, List.head?_append, hhead]
    · rw [lock_modify_of_ne rfl heq]
      exact hholds

/-- **Whoever holds a lock holds it when somebody else goes.** -/
theorem holds_leave (h : l.Serves ids (s :: line)) (ht : t ∈ line)
    (hholds : l.holds t.ticket = true) : (l.leave s.ruleId s.ticket).holds t.ticket = true := by
  obtain ⟨p, hp, -, hlock⟩ := (List.forall_mem_cons.mp h.queued).2 t ht
  have hother : s.ticket.number ≠ t.ticket.number := fun heq =>
    (List.nodup_cons.mp h.distinct).1 (List.mem_map.mpr ⟨t, ht, heq.symm⟩)
  unfold holds at hholds ⊢
  by_cases heq : s.ticket.lock = t.ticket.lock
  · rw [lock_modify_self (heq ▸ made_leave) (hlock ▸ h.made p hp)]
    have hhead := eq_of_beq hholds
    obtain ⟨rest, hrest⟩ := List.head?_eq_some_iff.mp hhead
    simp [RuleLock.quit, hrest, List.erase_cons_tail, hother.symm]
  · rw [lock_modify_of_ne made_leave heq]
    exact hholds

variable (hk : Value.Keys ids)

include hk

/-- Who wants the rule of one queue does not want the rule of another one. -/
theorem not_same_other (h : l.Serves ids line) (hid : ids id) (hp : p ∈ l.queues)
    (hq : q ∈ l.queues) (hne : p ≠ q) (hsame : p.ruleId.same id = true) :
    id.same q.ruleId = false := by
  rw [← Bool.not_eq_true]
  intro hsame'
  have htrans := hk.trans _ _ _ (h.keyed p hp) hid (h.keyed q hq) hsame hsame'
  exact hne (h.eq_of_same hp hq htrans)

theorem not_same_symm {v w : Value} (hv : ids v) (hw : ids w) (h : v.same w = false) :
    w.same v = false := by
  rw [← Bool.not_eq_true] at h ⊢
  exact fun h' => h (hk.symm w v hw hv h')

/-- The queue of a rule is found by its id. -/
theorem queueOf?_eq (h : l.Serves ids line) (hid : ids id) (hq : q ∈ l.queues)
    (hsame : q.ruleId.same id = true) : l.queueOf? id = some q := by
  obtain ⟨p, hp⟩ : ∃ p, l.queueOf? id = some p :=
    Option.isSome_iff_exists.mp (List.find?_isSome.mpr ⟨q, hq, hsame⟩)
  obtain ⟨hmem, hsame'⟩ := mem_of_queueOf? hp
  have htrans := hk.trans _ _ _ (h.keyed p hmem) hid (h.keyed q hq) hsame'
    (hk.symm _ _ (h.keyed q hq) hid hsame)
  rw [hp, h.eq_of_same hmem hq htrans]

/-! ## Coming -/

/-- Who comes shares the lock of the queue. -/
theorem enter_of_some (h : l.Serves ids line) (hid : ids id) (hq : l.queueOf? id = some q) :
    (l.enter id).2.Serves ids (⟨id, (l.enter id).1⟩ :: line) := by
  obtain ⟨hmem, hsame⟩ := mem_of_queueOf? hq
  have hback := hk.symm _ _ (h.keyed q hmem) hid hsame
  rw [RuleLocks.enter_of_some hq]
  refine ⟨?_, ?_, h.keyed, h.apart, ?_, ?_, ?_, ?_, ?_⟩
  · exact List.forall_mem_cons.mpr ⟨hid, h.known⟩
  · exact List.forall_mem_cons.mpr ⟨⟨q, hmem, hsame, rfl⟩, h.queued⟩
  · intro p hp
    rw [List.length_modify]
    exact h.made p hp
  · intro p hp hnil
    by_cases hpq : id.same p.ruleId = true
    · rw [numbersOf_cons_of_same hpq] at hnil
      exact absurd hnil (List.cons_ne_nil _ _)
    · rw [numbersOf_cons_of_not_same (Bool.eq_false_iff.mpr hpq)] at hnil
      exact h.wanted p hp hnil
  · intro p hp
    by_cases hpq : q = p
    · subst hpq
      rw [numbersOf_cons_of_same hback, lock_modify_self rfl (h.made q hmem)]
      exact (h.keeps q hmem).join
    · rw [numbersOf_cons_of_not_same (h.not_same_other hk hid hmem hp hpq hsame),
        lock_modify_of_ne rfl (h.lock_ne hmem hp hpq)]
      exact h.keeps p hp
  · exact List.forall_mem_cons.mpr ⟨Nat.lt_succ_self _, fun s hs => Nat.lt_succ_of_lt (h.drawn s hs)⟩
  · exact List.nodup_cons.mpr ⟨h.not_drawn, h.distinct⟩

/-- Who comes first makes a lock. -/
theorem enter_of_none (h : l.Serves ids line) (hid : ids id) (hnone : l.queueOf? id = none) :
    (l.enter id).2.Serves ids (⟨id, (l.enter id).1⟩ :: line) := by
  have hfree : ∀ q ∈ l.queues, q.ruleId.same id = false := fun q hq =>
    Bool.eq_false_iff.mpr (List.find?_eq_none.mp hnone q hq)
  have hfree' : ∀ q ∈ l.queues, id.same q.ruleId = false := fun q hq =>
    not_same_symm hk (h.keyed q hq) hid (hfree q hq)
  have hself : id.same id = true := hk.refl id hid
  have hnobody : numbersOf id line = [] := by
    refine numbersOf_eq_nil fun s hs => ?_
    obtain ⟨q, hq, hsame, -⟩ := h.queued s hs
    rw [← Bool.not_eq_true]
    intro hwants
    have htrans := hk.trans _ _ _ (h.keyed q hq) (h.known s hs) hid hsame hwants
    rw [hfree q hq] at htrans
    exact Bool.noConfusion htrans
  rw [RuleLocks.enter_of_none hnone]
  refine ⟨?_, ?_, ?_, ?_, ?_, ?_, ?_, ?_, ?_⟩
  · exact List.forall_mem_cons.mpr ⟨hid, h.known⟩
  · refine List.forall_mem_cons.mpr ⟨⟨⟨id, l.made.length⟩, by simp, hself, rfl⟩, fun s hs => ?_⟩
    obtain ⟨q, hq, hsame, hlock⟩ := h.queued s hs
    exact ⟨q, List.mem_append_left _ hq, hsame, hlock⟩
  · exact List.forall_mem_append.mpr ⟨h.keyed, List.forall_mem_singleton.mpr hid⟩
  · refine List.pairwise_append.mpr ⟨h.apart, List.pairwise_singleton _ _, fun p hp q hq => ?_⟩
    rw [List.mem_singleton.mp hq]
    exact ⟨hfree p hp, hfree' p hp, Nat.ne_of_lt (h.made p hp)⟩
  · rw [List.length_append]
    refine List.forall_mem_append.mpr ⟨fun q hq => Nat.lt_succ_of_lt (h.made q hq), ?_⟩
    exact List.forall_mem_singleton.mpr (Nat.lt_succ_self _)
  · refine List.forall_mem_append.mpr ⟨fun q hq => ?_, List.forall_mem_singleton.mpr ?_⟩
    · rw [numbersOf_cons_of_not_same (hfree' q hq)]
      exact h.wanted q hq
    · rw [numbersOf_cons_of_same hself]
      exact List.cons_ne_nil _ _
  · refine List.forall_mem_append.mpr ⟨fun q hq => ?_, List.forall_mem_singleton.mpr ?_⟩
    · rw [numbersOf_cons_of_not_same (hfree' q hq), RuleLocks.lock,
        List.getElem?_append_left (h.made q hq)]
      exact h.keeps q hq
    · rw [numbersOf_cons_of_same hself, hnobody, RuleLocks.lock, List.getElem?_concat_length]
      exact ⟨rfl, List.Perm.refl _⟩
  · exact List.forall_mem_cons.mpr ⟨Nat.lt_succ_self _, fun s hs => Nat.lt_succ_of_lt (h.drawn s hs)⟩
  · exact List.nodup_cons.mpr ⟨h.not_drawn, h.distinct⟩

/-- **Who comes is served.** -/
theorem enter (h : l.Serves ids line) (hid : ids id) :
    (l.enter id).2.Serves ids (⟨id, (l.enter id).1⟩ :: line) := by
  cases hq : l.queueOf? id with
  | none => exact h.enter_of_none hk hid hq
  | some q => exact h.enter_of_some hk hid hq

/-! ## Going -/

theorem numbersOf_other (h : l.Serves ids (s :: line)) (hq : q ∈ l.queues)
    (hsame : q.ruleId.same s.ruleId = true) (hp : p ∈ l.queues) (hne : q ≠ p) :
    numbersOf p.ruleId (s :: line) = numbersOf p.ruleId line :=
  numbersOf_cons_of_not_same
    (h.not_same_other hk (List.forall_mem_cons.mp h.known).1 hq hp hne hsame)

/-- The account of each lock when one has quit. -/
theorem keeps_quit (h : l.Serves ids (s :: line)) (hq : q ∈ l.queues)
    (hsame : q.ruleId.same s.ruleId = true) (hlock : q.lock = s.ticket.lock) (l' : RuleLocks)
    (hmade : l'.made = l.made.modify s.ticket.lock (RuleLock.quit s.ticket.number))
    (hp : p ∈ l.queues) : (l'.lock p.lock).Keeps (numbersOf p.ruleId line) := by
  rw [← hlock] at hmade
  by_cases hpq : q = p
  · subst hpq
    have hback := hk.symm _ _ (h.keyed q hq) (List.forall_mem_cons.mp h.known).1 hsame
    rw [lock_modify_self hmade (h.made q hq)]
    exact (numbersOf_cons_of_same hback ▸ h.keeps q hq).quit
  · rw [lock_modify_of_ne hmade (h.lock_ne hq hp hpq), ← h.numbersOf_other hk hq hsame hp hpq]
    exact h.keeps p hp

/-- Where others stand, the queue stays. -/
theorem quit_shared (h : l.Serves ids (s :: line)) (hq : q ∈ l.queues)
    (hsame : q.ruleId.same s.ruleId = true) (hlock : q.lock = s.ticket.lock)
    (hsome : numbersOf q.ruleId line ≠ []) :
    ({ l with made := l.made.modify s.ticket.lock (RuleLock.quit s.ticket.number) } : RuleLocks).Serves
      ids line where
  known := (List.forall_mem_cons.mp h.known).2
  queued := (List.forall_mem_cons.mp h.queued).2
  keyed := h.keyed
  apart := h.apart
  made p hp := by
    rw [List.length_modify]
    exact h.made p hp
  wanted p hp := by
    by_cases hpq : q = p
    · exact hpq ▸ hsome
    · rw [← h.numbersOf_other hk hq hsame hp hpq]
      exact h.wanted p hp
  keeps p hp := h.keeps_quit hk hq hsame hlock _ rfl hp
  drawn := (List.forall_mem_cons.mp h.drawn).2
  distinct := (List.nodup_cons.mp h.distinct).2

/-- Nobody else stands in the queue of the last one, which is closed. -/
theorem quit_last (h : l.Serves ids (s :: line)) (hq : q ∈ l.queues)
    (hsame : q.ruleId.same s.ruleId = true) (hlock : q.lock = s.ticket.lock)
    (hnone : numbersOf q.ruleId line = []) :
    ({ l with
        made := l.made.modify s.ticket.lock (RuleLock.quit s.ticket.number)
        queues := l.queues.filter (!·.ruleId.same s.ruleId) } : RuleLocks).Serves ids line := by
  obtain ⟨hid, hknown⟩ := List.forall_mem_cons.mp h.known
  have hstay : ∀ p ∈ l.queues.filter (!·.ruleId.same s.ruleId), p ∈ l.queues ∧ q ≠ p := by
    intro p hp
    obtain ⟨hp, hne⟩ := List.mem_filter.mp hp
    refine ⟨hp, ?_⟩
    rintro rfl
    rw [hsame] at hne
    exact Bool.noConfusion hne
  exact {
    known := hknown
    queued := fun t ht => by
      obtain ⟨p, hp, hsame', hlock'⟩ := (List.forall_mem_cons.mp h.queued).2 t ht
      refine ⟨p, List.mem_filter.mpr ⟨hp, ?_⟩, hsame', hlock'⟩
      rw [Bool.not_eq_true', ← Bool.not_eq_true]
      intro hclosed
      have hback := hk.symm _ _ (h.keyed q hq) hid hsame
      have heq : p = q := h.eq_of_same hp hq
        (hk.trans _ _ _ (h.keyed p hp) hid (h.keyed q hq) hclosed hback)
      subst heq
      have hmem := mem_numbersOf ht (hk.symm _ _ (h.keyed p hp) (hknown t ht) hsame')
      rw [hnone] at hmem
      exact absurd hmem List.not_mem_nil
    keyed := fun p hp => h.keyed p (hstay p hp).1
    apart := h.apart.filter _
    made := fun p hp => by
      rw [List.length_modify]
      exact h.made p (hstay p hp).1
    wanted := fun p hp => by
      rw [← h.numbersOf_other hk hq hsame (hstay p hp).1 (hstay p hp).2]
      exact h.wanted p (hstay p hp).1
    keeps := fun p hp => h.keeps_quit hk hq hsame hlock _ rfl (hstay p hp).1
    drawn := (List.forall_mem_cons.mp h.drawn).2
    distinct := (List.nodup_cons.mp h.distinct).2 }

/-- **Who goes leaves the others served.** -/
theorem leave (h : l.Serves ids (s :: line)) : (l.leave s.ruleId s.ticket).Serves ids line := by
  obtain ⟨q, hq, hsame, hlock⟩ := (List.forall_mem_cons.mp h.queued).1
  -- The account of the lock tells whether the queue is to be closed.
  have hcount := (h.keeps_quit hk hq hsame hlock
    { l with made := l.made.modify s.ticket.lock (RuleLock.quit s.ticket.number) } rfl hq).users
  rw [hlock] at hcount
  unfold RuleLocks.leave
  dsimp only
  split
  · next hzero =>
    rw [hcount, List.length_eq_zero_iff] at hzero
    exact h.quit_last hk hq hsame hlock hzero
  · next hsome =>
    rw [hcount, List.length_eq_zero_iff] at hsome
    exact h.quit_shared hk hq hsame hlock hsome

/-! ## The account -/

/-- Those who want one rule stand at one lock. -/
theorem lock_eq (h : l.Serves ids line) (hs : s ∈ line) (ht : t ∈ line)
    (hsame : s.ruleId.same t.ruleId = true) : s.ticket.lock = t.ticket.lock := by
  obtain ⟨p, hp, hps, hplock⟩ := h.queued s hs
  obtain ⟨q, hq, hqt, hqlock⟩ := h.queued t ht
  have hpt := hk.trans _ _ _ (h.keyed p hp) (h.known s hs) (h.known t ht) hps hsame
  have hpq := hk.trans _ _ _ (h.keyed p hp) (h.known t ht) (h.keyed q hq) hpt
    (hk.symm _ _ (h.keyed q hq) (h.known t ht) hqt)
  rw [← hplock, ← hqlock, h.eq_of_same hp hq hpq]

/-- Those who hold the lock of one rule are the same. -/
theorem number_eq_of_holds (h : l.Serves ids line) (hs : s ∈ line) (ht : t ∈ line)
    (hsame : s.ruleId.same t.ruleId = true) (hsholds : l.holds s.ticket = true)
    (htholds : l.holds t.ticket = true) : s.ticket.number = t.ticket.number := by
  unfold holds at hsholds htholds
  rw [h.lock_eq hk hs ht hsame] at hsholds
  have hhead := (eq_of_beq hsholds).symm.trans (eq_of_beq htholds)
  exact Option.some.inj hhead

/-- A rule has a queue as long as somebody wants it. -/
theorem isSome_queueOf?_iff (h : l.Serves ids line) (hid : ids id) :
    (l.queueOf? id).isSome = true ↔ ∃ s ∈ line, s.ruleId.same id = true := by
  constructor
  · intro hsome
    obtain ⟨q, hq⟩ := Option.isSome_iff_exists.mp hsome
    obtain ⟨hmem, hsame⟩ := mem_of_queueOf? hq
    obtain ⟨n, hn⟩ := List.exists_mem_of_ne_nil _ (h.wanted q hmem)
    obtain ⟨s, hs, hwants, -⟩ := exists_of_mem_numbersOf hn
    exact ⟨s, hs, hk.trans _ _ _ (h.known s hs) (h.keyed q hmem) hid hwants hsame⟩
  · rintro ⟨s, hs, hwants⟩
    obtain ⟨q, hq, hsame, -⟩ := h.queued s hs
    have hqid := hk.trans _ _ _ (h.keyed q hq) (h.known s hs) hid hsame hwants
    rw [h.queueOf?_eq hk hid hq hqid]
    rfl

/-- The users of a lock are those who want its rule. -/
theorem users_eq (h : l.Serves ids line) (hid : ids id) (hq : l.queueOf? id = some q) :
    (l.lock q.lock).users = line.countP (·.ruleId.same id) := by
  obtain ⟨hmem, hsame⟩ := mem_of_queueOf? hq
  have hback := hk.symm _ _ (h.keyed q hmem) hid hsame
  rw [(h.keeps q hmem).users, numbersOf, List.length_map, ← List.countP_eq_length_filter]
  refine List.countP_congr fun s hs => ⟨fun hwants => ?_, fun hwants => ?_⟩
  · exact hk.trans _ _ _ (h.known s hs) (h.keyed q hmem) hid hwants hsame
  · exact hk.trans _ _ _ (h.known s hs) hid (h.keyed q hmem) hwants hback

/-- Somebody who wants the rule of a queue holds its lock. -/
theorem exists_holds (h : l.Serves ids line) (hq : q ∈ l.queues) :
    ∃ s ∈ line, s.ruleId.same q.ruleId = true ∧ l.holds s.ticket = true := by
  have hkeeps := (h.keeps q hq).tickets
  cases htickets : (l.lock q.lock).tickets with
  | nil =>
    rw [htickets] at hkeeps
    exact absurd hkeeps.nil_eq.symm (h.wanted q hq)
  | cons n rest =>
    rw [htickets] at hkeeps
    obtain ⟨s, hs, hwants, hnumber⟩ := exists_of_mem_numbersOf (hkeeps.subset List.mem_cons_self)
    obtain ⟨p, hp, hsame, hlock⟩ := h.queued s hs
    have hpq := h.eq_of_same hp hq
      (hk.trans _ _ _ (h.keyed p hp) (h.known s hs) (h.keyed q hq) hsame hwants)
    refine ⟨s, hs, hwants, ?_⟩
    rw [holds, ← hlock, hpq, htickets, hnumber]
    exact beq_self_eq_true _

end Serves

end RuleLocks

end ChangeRules
