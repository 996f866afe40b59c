import ChangeRules.Value.Equal

/-!
# Locks of rules

Firings of one rule take their turns one after the other. There is a queue for each rule that
somebody wants, and it names the lock of the rule: who wants a rule without a queue opens one with a
lock of its own, who comes later shares that lock, and the last one to go closes the queue. At a
lock, tickets stand in line, and the first one holds the lock.

* `RuleLocks.enter`, `RuleLocks.leave`: a firing lines up for a rule and goes.
* `RuleLocks.holds`: whether a ticket is the first one at its lock.
* **`RuleLocks.leave_enter`**: who enters where nobody is and leaves again leaves no queue behind.
-/

namespace ChangeRules

/-- A lock. -/
structure RuleLock where
  /-- So many hold or await it. -/
  users : Nat := 0
  /-- Their tickets, the holder's first. -/
  tickets : List Nat := []

namespace RuleLock

/-- The lock with a ticket at the end of the line. -/
def join (number : Nat) (k : RuleLock) : RuleLock := ⟨k.users + 1, k.tickets ++ [number]⟩

/-- The lock without a ticket. -/
def quit (number : Nat) (k : RuleLock) : RuleLock := ⟨k.users - 1, k.tickets.erase number⟩

end RuleLock

/-- The place of a firing in the line at a lock. -/
structure Ticket where
  /-- The number of the lock. -/
  lock : Nat := 0
  number : Nat := 0
  deriving DecidableEq

/-- The queue of a rule. -/
structure RuleQueue where
  ruleId : Value
  /-- The number of the lock that those who want the rule share. -/
  lock : Nat

/-- The queues of all rules that somebody wants. -/
structure RuleLocks where
  queues : List RuleQueue := []
  /-- All locks, by their numbers; those of closed queues are among them. -/
  made : List RuleLock := []
  /-- The next number of a ticket. -/
  next : Nat := 0

namespace RuleLocks

/-- The queue of a rule. -/
def queueOf? (id : Value) (l : RuleLocks) : Option RuleQueue :=
  l.queues.find? fun q => q.ruleId.same id

/-- The lock with a number. -/
def lock (number : Nat) (l : RuleLocks) : RuleLock := (l.made[number]?).getD {}

/-- Line up for a rule and draw a ticket. -/
def enter (id : Value) (l : RuleLocks) : Ticket × RuleLocks :=
  match l.queueOf? id with
  | some q =>
    (⟨q.lock, l.next⟩,
      { l with made := l.made.modify q.lock (RuleLock.join l.next), next := l.next + 1 })
  | none =>
    (⟨l.made.length, l.next⟩,
      ⟨l.queues ++ [⟨id, l.made.length⟩], l.made ++ [RuleLock.join l.next {}], l.next + 1⟩)

/-- Whether a ticket is the first one at its lock. -/
def holds (t : Ticket) (l : RuleLocks) : Bool := (l.lock t.lock).tickets.head? == some t.number

/-- Leave the lock of a rule. The last one to go closes the queue. -/
def leave (id : Value) (t : Ticket) (l : RuleLocks) : RuleLocks :=
  let l := { l with made := l.made.modify t.lock (RuleLock.quit t.number) }
  if (l.lock t.lock).users = 0 then { l with queues := l.queues.filter (!·.ruleId.same id) } else l

variable {id : Value} {l : RuleLocks}

theorem queueOf?_eq_none (hfree : ∀ q ∈ l.queues, q.ruleId.same id = false) :
    l.queueOf? id = none :=
  List.find?_eq_none.mpr fun q hq => Bool.eq_false_iff.mp (hfree q hq)

theorem mem_of_queueOf? {q : RuleQueue} (h : l.queueOf? id = some q) :
    q ∈ l.queues ∧ q.ruleId.same id = true := by
  unfold queueOf? at h
  have hsame := List.find?_some h
  exact ⟨List.mem_of_find?_eq_some h, hsame⟩

theorem enter_of_none (h : l.queueOf? id = none) :
    l.enter id = (⟨l.made.length, l.next⟩,
      ⟨l.queues ++ [⟨id, l.made.length⟩], l.made ++ [RuleLock.join l.next {}], l.next + 1⟩) := by
  unfold enter
  rw [h]

theorem enter_of_some {q : RuleQueue} (h : l.queueOf? id = some q) :
    l.enter id = (⟨q.lock, l.next⟩,
      { l with made := l.made.modify q.lock (RuleLock.join l.next), next := l.next + 1 }) := by
  unfold enter
  rw [h]

/-- Who enters where nobody is holds the rule. -/
theorem holds_enter (hfree : ∀ q ∈ l.queues, q.ruleId.same id = false) :
    (l.enter id).2.holds (l.enter id).1 = true := by
  simp [enter_of_none (queueOf?_eq_none hfree), holds, lock, RuleLock.join]

theorem leave_enter (h : id.same id = true) (hfree : ∀ q ∈ l.queues, q.ruleId.same id = false) :
    ((l.enter id).2.leave id (l.enter id).1).queues = l.queues := by
  have hkept : l.queues.filter (!·.ruleId.same id) = l.queues :=
    List.filter_eq_self.mpr fun q hq => by rw [hfree q hq]; rfl
  simp [enter_of_none (queueOf?_eq_none hfree), leave, lock, RuleLock.join, RuleLock.quit, h, hkept]

end RuleLocks

end ChangeRules
