import ChangeRules.Sink.Client

/-!
# The traffic of a client

A client is used for one request after the other, and time passes in between. Each request is tried
at the breaker once or several times, with delays in between. Whoever looks at the line sees the
tries, one after the other, and otherwise nothing but time passing.

* `Client.run`: a client in use. The delays of each request are drawn anew.
* `Client.tries`: the tries that this comes to, each with the line that it finds.
* `Traffic`: the way of a line through tries.
* **`traffic_run`**: a client in use does nothing but its tries.
* **`Traffic.sent`**: what was sent are the requests of the tries that were let through.
-/

namespace ChangeRules

/-! ## Tries -/

/-- The states in which a job is tried, the next attempt being attempt `attempt` of `left`. -/
def Retrying.tried {σ α δ : Type} (r : Retrying σ δ) (job : Job σ α) :
    (attempt : Int) → (left : Nat) → σ → List σ
  | _, 0, _ => []
  | attempt, left + 1, s =>
    s :: match job s with
      | (.ok _, _) => []
      | (.error f, s') =>
        if !r.retried f then []
        else if left = 0 then []
        else match r.delay attempt with
          | .ok d => r.tried job (attempt + 1) left (r.sleep d s')
          | .error _ => []

/-- A request that is tried at a line. -/
structure Try where
  request : Request
  line : Client.Line

namespace Try

/-- Whether the breaker lets the request through. -/
def isSent (t : Try) : Bool := t.line.breaker.admits t.line.network.clock

/-- What the sink does with the request if it is sent. -/
def delivery (t : Try) : Delivery := (t.line.network.sinks t.line.network.sent t.request).delivery

end Try

/-- What a client is used for. -/
inductive ClientUse where
  /-- A request, and where its delays are drawn. -/
  | request (r : Request) (draw : Int → Double)
  /-- Nothing is asked for some seconds. -/
  | wait (seconds : Double)

namespace Client

variable (c : Client)

/-- The line behind a use. -/
def use (line : Line) : ClientUse → Line
  | .request r draw => ({ c with draw }.request r line).2
  | .wait seconds => { line with network := line.network.advance seconds }

/-- The line behind several uses, one after the other. -/
def run (uses : List ClientUse) (line : Line) : Line := uses.foldl c.use line

/-- The tries of a request. -/
def triesOf (r : Request) (line : Line) : List Try :=
  (c.retrying.tried (c.attempt r) 1 c.retrying.attempts.toNat line).map (Try.mk r)

/-- The tries of several uses. -/
def tries : List ClientUse → Line → List Try
  | [], _ => []
  | .request r draw :: uses, line =>
    { c with draw }.triesOf r line ++ tries uses (c.use line (.request r draw))
  | .wait seconds :: uses, line => tries uses (c.use line (.wait seconds))

end Client

/-! ## Lines -/

namespace Client

variable {c : Client} {r : Request} {l : Line}

/-- Nothing but the clock may have changed. -/
structure Line.Idles (l l' : Line) : Prop where
  breaker : l'.breaker = l.breaker
  sent : l'.network.sent = l.network.sent
  sinks : l'.network.sinks = l.network.sinks

theorem sent_sendOnce (c : Client) (r : Request) (n : Network) :
    (c.sendOnce r n).2.sent = n.sent ++ [r] := by
  have hsent := n.sent_send r
  unfold sendOnce
  split
  · next h => rwa [h] at hsent
  · next h => rwa [h] at hsent

theorem sinks_sendOnce (c : Client) (r : Request) (n : Network) :
    (c.sendOnce r n).2.sinks = n.sinks := by
  have hsinks : (n.send r).2.sinks = n.sinks := by
    unfold Network.send
    dsimp only
    split <;> rfl
  unfold sendOnce
  split
  · next h => rwa [h] at hsinks
  · next h => rwa [h] at hsinks

theorem attempt_of_admits (h : l.breaker.admits l.network.clock = true) :
    c.attempt r l = ((c.sendOnce r l.network).1, ⟨(c.sendOnce r l.network).2,
      (l.breaker.admitted l.network.clock).settle isRejection (c.sendOnce r l.network).2.clock
        (c.sendOnce r l.network).1⟩) := by
  simp only [attempt, Breaker.call, h, if_true]

theorem attempt_of_not_admits (h : l.breaker.admits l.network.clock = false) :
    c.attempt r l = (.error (.blocked l.breaker.name), l) := by
  unfold attempt
  rw [Breaker.call_of_not_admits h]

end Client

/-! ## Traffic -/

/-- The way of a line through tries. -/
inductive Traffic (c : Client) : Client.Line → List Try → Client.Line → Prop
  | done (l : Client.Line) : Traffic c l [] l
  | idle {l l' l'' : Client.Line} {tries : List Try} (h : l.Idles l') (ht : Traffic c l' tries l'') :
      Traffic c l tries l''
  | attempt {l l' : Client.Line} {tries : List Try} (r : Request)
      (ht : Traffic c (c.attempt r l).2 tries l') : Traffic c l (⟨r, l⟩ :: tries) l'

namespace Traffic

variable {c : Client} {l l' l'' : Client.Line} {tries more : List Try}

theorem trans (h : Traffic c l tries l') (h' : Traffic c l' more l'') :
    Traffic c l (tries ++ more) l'' := by
  induction h with
  | done => exact h'
  | idle hidle _ ih => exact .idle hidle (ih h')
  | attempt r _ ih => exact .attempt r (ih h')

/-- A request is tried so often and otherwise delayed. -/
theorem of_from (c : Client) (r : Request) (attempt : Int) (left : Nat) (l : Client.Line) :
    Traffic c l ((c.retrying.tried (c.attempt r) attempt left l).map (Try.mk r))
      (c.retrying.from (c.attempt r) attempt left l).2 := by
  induction left generalizing attempt l with
  | zero => exact .done l
  | succ left ih =>
    rw [Retrying.tried, Retrying.from, List.map_cons]
    have hend : Traffic c l [⟨r, l⟩] (c.attempt r l).2 := .attempt r (.done _)
    generalize c.attempt r l = behind at hend ⊢
    obtain ⟨outcome, l₁⟩ := behind
    cases outcome with
    | ok response => exact hend
    | error f =>
      dsimp only
      by_cases hretried : (!c.retrying.retried f) = true
      · rw [if_pos hretried, if_pos hretried]
        exact hend
      · by_cases hleft : left = 0
        · rw [if_neg hretried, if_neg hretried, if_pos hleft, if_pos hleft]
          exact hend
        · rw [if_neg hretried, if_neg hretried, if_neg hleft, if_neg hleft]
          cases c.retrying.delay attempt with
          | error flaw => exact hend
          | ok d =>
            have hidle : l₁.Idles (c.retrying.sleep d l₁) := ⟨rfl, rfl, rfl⟩
            exact hend.trans (.idle hidle (ih (attempt + 1) _))

/-- **A request is nothing but its tries.** -/
theorem traffic_request (c : Client) (r : Request) (l : Client.Line) :
    Traffic c l (c.triesOf r l) (c.request r l).2 :=
  of_from c r 1 c.retrying.attempts.toNat l

/-- What becomes of a try does not depend on where delays are drawn. -/
theorem of_draw {draw : Int → Double} (h : Traffic { c with draw } l tries l') :
    Traffic c l tries l' := by
  induction h with
  | done l => exact .done l
  | idle hidle _ ih => exact .idle hidle ih
  | attempt r _ ih => exact .attempt r ih

/-- **A client in use does nothing but its tries.** -/
theorem traffic_run (c : Client) (uses : List ClientUse) (l : Client.Line) :
    Traffic c l (c.tries uses l) (c.run uses l) := by
  induction uses generalizing l with
  | nil => exact .done l
  | cons u uses ih =>
    cases u with
    | request r draw => exact (of_draw (traffic_request { c with draw } r l)).trans (ih _)
    | wait seconds =>
      have hidle : l.Idles (c.use l (.wait seconds)) := ⟨rfl, rfl, rfl⟩
      exact .idle hidle (ih _)

/-- **What was sent are the requests that were let through.** -/
theorem sent (h : Traffic c l tries l') :
    l'.network.sent = l.network.sent ++ (tries.filter Try.isSent).map Try.request := by
  induction h with
  | done => simp
  | idle hidle _ ih => rw [ih, hidle.sent]
  | @attempt l l' tries r _ ih =>
    rw [ih]
    cases hadmits : l.breaker.admits l.network.clock with
    | true =>
      have hsent : Try.isSent ⟨r, l⟩ = true := hadmits
      rw [Client.attempt_of_admits hadmits, List.filter_cons_of_pos hsent]
      simp only [Client.sent_sendOnce, List.map_cons, List.append_assoc, List.singleton_append]
    | false =>
      have hblocked : ¬ Try.isSent ⟨r, l⟩ = true := Bool.eq_false_iff.mp hadmits
      rw [Client.attempt_of_not_admits hadmits, List.filter_cons_of_neg hblocked]

theorem sinks (h : Traffic c l tries l') : l'.network.sinks = l.network.sinks := by
  induction h with
  | done => rfl
  | idle hidle _ ih => rw [ih, hidle.sinks]
  | @attempt l l' tries r _ ih =>
    rw [ih]
    cases hadmits : l.breaker.admits l.network.clock with
    | true =>
      rw [Client.attempt_of_admits hadmits]
      exact Client.sinks_sendOnce c r l.network
    | false => rw [Client.attempt_of_not_admits hadmits]

end Traffic

end ChangeRules
