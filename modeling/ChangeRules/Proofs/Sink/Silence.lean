import ChangeRules.Proofs.Sink.History
import ChangeRules.Proofs.Sink.Traffic

/-!
# An open breaker is silent

A client tries its requests at a breaker, and delays between tries are part of the time that the
breaker waits for. Whatever the client is used for and whatever comes of its requests, the breaker
sees one row of tries: it opens with the last of a number of failed requests in a row, however they
are spread over requests and their tries, sends nothing until it has rested, and then sends a single
request that closes it or opens it again.

* `Network.Ends`: no request hangs.
* `Try.event`: what a breaker notes of a try.
* `Client.Behind`: what a line is behind tries.
* **`Client.Behind.attempt`**: the next try keeps the account.
* `Try.Heeds`: what the breaker means for a try, and the try for the breaker.
* **`silence_of_run`**: every try heeds the breaker.
-/

namespace ChangeRules

/-! ## What comes of requests -/

namespace Delivery

/-- The service works: it granted or refused the request. -/
def isAnswer : Delivery → Bool
  | .answered r => (200 ≤ r.status && r.status < 300) || (400 ≤ r.status && r.status < 500)
  | _ => false

/-- The service answered, or the network failed. -/
def Ends : Delivery → Prop
  | .answered _ => True
  | .failed f => Client.isRejection f = false ∧ f ≠ .stuck
  | .unanswered => False

end Delivery

/-- No request hangs. -/
def Network.Ends (n : Network) : Prop := ∀ past r, (n.sinks past r).delivery.Ends

namespace Client

variable {c : Client} {r : Request} {n : Network}

theorem sendOnce_outcome (c : Client) (r : Request) (n : Network) :
    (c.sendOnce r n).1 = match (n.sinks n.sent r).delivery with
      | .answered response => c.judge r response
      | .failed f => .error f
      | .unanswered => .error .stuck := by
  unfold sendOnce Network.send
  dsimp only
  cases (n.sinks n.sent r).delivery <;> rfl

theorem ofOutcome_judge (c : Client) (r : Request) (response : Response) :
    BreakerEvent.ofOutcome isRejection (c.judge r response) =
      if (Delivery.answered response).isAnswer then .success else .failure := by
  unfold judge Delivery.isAnswer
  by_cases hok : 200 ≤ response.status ∧ response.status < 300
  · simp [hok, BreakerEvent.ofOutcome]
  · by_cases hrefused : 400 ≤ response.status ∧ response.status < 500
    · simp [hok, hrefused, BreakerEvent.ofOutcome, isRejection, RuleError.rejection]
    · have hnone : ¬ ((200 ≤ response.status && response.status < 300) ||
          (400 ≤ response.status && response.status < 500)) = true := by
        simp only [Bool.or_eq_true, Bool.and_eq_true, decide_eq_true_eq]
        exact fun h => h.elim hok hrefused
      rw [if_neg hok, if_neg hrefused, if_neg hnone]
      rfl

/-- A breaker notes whether the service works. -/
theorem ofOutcome_sendOnce (h : (n.sinks n.sent r).delivery.Ends) :
    BreakerEvent.ofOutcome isRejection (c.sendOnce r n).1 =
      if (n.sinks n.sent r).delivery.isAnswer then .success else .failure := by
  rw [sendOnce_outcome]
  cases hdelivery : (n.sinks n.sent r).delivery with
  | answered response => exact c.ofOutcome_judge r response
  | failed f =>
    rw [hdelivery] at h
    obtain ⟨hown, hended⟩ := h
    dsimp only
    unfold BreakerEvent.ofOutcome
    split
    · next heq => exact absurd heq (by simp)
    · next heq => exact absurd (Except.error.inj heq) hended
    · next g _ heq =>
      rw [← Except.error.inj heq, hown]
      rfl
  | unanswered =>
    rw [hdelivery] at h
    exact h.elim

end Client

/-! ## Tries at a breaker -/

namespace Try

variable (c : Client)

/-- What the breaker notes of a try. -/
def event (t : Try) : BreakerEvent :=
  if t.isSent then (if t.delivery.isAnswer then .success else .failure) else .ask

/-- The request was sent, and it failed. -/
def isFailure (t : Try) : Bool := t.isSent && !t.delivery.isAnswer

/-- The line behind a try. -/
def behind (t : Try) : Client.Line := (c.attempt t.request t.line).2

/-- The breaker that a try finds, and the clock. -/
def watch (t : Try) : BreakerWatch := ⟨t.line.network.clock, t.line.breaker⟩

/-- The clock when the last one of several tries failed. -/
def lastFailure (tries : List Try) : Double :=
  ((tries.filter isFailure).getLast?.map fun t => (t.behind c).network.clock).getD .zero

theorem lastFailure_concat_of_failure {tries : List Try} {t : Try} (h : t.isFailure = true) :
    lastFailure c (tries ++ [t]) = (t.behind c).network.clock := by
  simp [lastFailure, h]

theorem lastFailure_concat_of_not_failure {tries : List Try} {t : Try} (h : t.isFailure = false) :
    lastFailure c (tries ++ [t]) = lastFailure c tries := by
  simp [lastFailure, h]

end Try

section

variable {b : Breaker} {now : Double}

theorem admitted_eq (now : Double) (b : Breaker) :
    b.admitted now = { b with state := (b.admitted now).state } := by
  unfold Breaker.admitted
  split <;> rfl

/-- Being let through tells nothing new. -/
theorem BreakerWatch.Told.admitted {limit : Int} {history : List BreakerEvent}
    (h : Told limit history b) : Told limit history (b.admitted now) where
  threshold := by
    rw [admitted_eq]
    exact h.threshold
  failures := by
    rw [admitted_eq]
    exact h.failures
  successes := by
    rw [admitted_eq]
    exact h.successes
  closed := by
    have hclosed := h.closed
    have hfailures : (b.admitted now).failures = b.failures := by rw [admitted_eq]
    rw [hfailures, ← hclosed]
    unfold Breaker.admitted
    split
    · next hopen =>
      have hopened : b.state = .opened := eq_of_beq (Bool.and_eq_true_iff.mp hopen).1
      simp [hopened]
    · rfl

/-- A failure opens a breaker or leaves it closed. -/
theorem state_noteFailure (b : Breaker) (now : Double) :
    (b.noteFailure now).state ≠ .halfOpen := by
  unfold Breaker.noteFailure
  dsimp only
  split
  · exact BreakerState.noConfusion
  · next h =>
    rw [Bool.or_eq_true, not_or, beq_iff_eq] at h
    exact h.1

end

namespace Client

variable {c : Client} {r : Request} {l : Line}

/-- A try that is let through is noted. -/
theorem breaker_attempt (hadmits : l.breaker.admits l.network.clock = true)
    (hends : l.network.Ends) :
    (c.attempt r l).2.breaker = (BreakerWatch.step
      ⟨(c.attempt r l).2.network.clock, l.breaker.admitted l.network.clock⟩
      (Try.event ⟨r, l⟩)).breaker := by
  have hevent : Try.event ⟨r, l⟩ =
      BreakerEvent.ofOutcome isRejection (c.sendOnce r l.network).1 := by
    have hsent : Try.isSent ⟨r, l⟩ = true := hadmits
    rw [ofOutcome_sendOnce (hends _ _), Try.event, if_pos hsent]
    rfl
  rw [hevent, ← BreakerWatch.settle_eq_step, attempt_of_admits hadmits]

/-- What a line with a breaker that was fresh once is behind tries. -/
structure Behind (c : Client) (threshold : Int) (recovery : Number) (tries : List Try) (l : Line) :
    Prop where
  told : BreakerWatch.Told threshold (tries.map Try.event) l.breaker
  /-- Nobody is under way on trial. -/
  settled : l.breaker.state ≠ .halfOpen
  recovery : l.breaker.recovery = recovery
  lastFailure : l.breaker.lastFailure = Try.lastFailure c tries

namespace Behind

variable {c : Client} {threshold : Int} {recovery : Number} {tries : List Try} {l l' : Line}
  {r : Request}

theorem fresh (c : Client) (name : String) (h : 1 ≤ threshold) (network : Network) :
    Behind c threshold recovery [] ⟨network, { name, threshold, recovery }⟩ :=
  ⟨BreakerWatch.told_fresh name recovery h, by simp, rfl, rfl⟩

theorem idle (h : Behind c threshold recovery tries l) (hidle : l.Idles l') :
    Behind c threshold recovery tries l' := by
  obtain ⟨htold, hsettled, hrecovery, hlast⟩ := h
  rw [← hidle.breaker] at htold hsettled hrecovery hlast
  exact ⟨htold, hsettled, hrecovery, hlast⟩

/-- A breaker is open after so many failures in a row, and closed before. -/
theorem opened_iff (h : Behind c threshold recovery tries l) :
    l.breaker.state = .opened ↔
      threshold ≤ BreakerEvent.failuresSinceSuccess (tries.map Try.event) := by
  have hclosed := h.told.closed
  rw [h.told.failures] at hclosed
  cases hs : l.breaker.state with
  | closed =>
    have := hclosed.mp hs
    simp only [reduceCtorEq, false_iff, Int.not_le]
    exact this
  | opened =>
    simp only [true_iff]
    by_contra hfew
    have := hclosed.mpr (Int.not_le.mp hfew)
    rw [hs] at this
    exact BreakerState.noConfusion this
  | halfOpen => exact absurd hs h.settled

/-- A blocked try changes nothing. -/
theorem blocked (h : Behind c threshold recovery tries l)
    (hadmits : l.breaker.admits l.network.clock = false) :
    Behind c threshold recovery (tries ++ [⟨r, l⟩]) (c.attempt r l).2 := by
  have hevent : Try.event ⟨r, l⟩ = .ask := by simp [Try.event, Try.isSent, hadmits]
  have hfailure : Try.isFailure ⟨r, l⟩ = false := by simp [Try.isFailure, Try.isSent, hadmits]
  rw [attempt_of_not_admits hadmits]
  refine ⟨?_, h.settled, h.recovery, ?_⟩
  · rw [List.map_append, List.map_singleton, hevent]
    exact h.told.quiet rfl rfl Iff.rfl rfl
  · rw [Try.lastFailure_concat_of_not_failure c hfailure]
    exact h.lastFailure

/-- **The next try keeps the account.** -/
theorem attempt (h : Behind c threshold recovery tries l) (hthreshold : 1 ≤ threshold)
    (hends : l.network.Ends) (r : Request) :
    Behind c threshold recovery (tries ++ [⟨r, l⟩]) (c.attempt r l).2 := by
  cases hadmits : l.breaker.admits l.network.clock with
  | false => exact h.blocked hadmits
  | true =>
    have hsent : Try.isSent ⟨r, l⟩ = true := hadmits
    have hbreaker := breaker_attempt (c := c) (r := r) hadmits hends
    have htold : BreakerWatch.Told threshold (tries.map Try.event ++ [Try.event ⟨r, l⟩])
        (c.attempt r l).2.breaker := by
      rw [hbreaker]
      exact BreakerWatch.Told.step (s := ⟨_, l.breaker.admitted l.network.clock⟩) h.told.admitted
        hthreshold _
    refine ⟨?_, ?_, ?_, ?_⟩
    · rwa [List.map_append, List.map_singleton]
    all_goals
      rw [hbreaker]
      unfold Try.event
      rw [if_pos hsent, admitted_eq]
      cases hanswer : (Try.delivery ⟨r, l⟩).isAnswer
    · exact state_noteFailure _ _
    · exact BreakerState.noConfusion
    · exact h.recovery
    · exact h.recovery
    · have hfailure : Try.isFailure ⟨r, l⟩ = true := by simp [Try.isFailure, hsent, hanswer]
      rw [Try.lastFailure_concat_of_failure c hfailure]
      rfl
    · have hnone : Try.isFailure ⟨r, l⟩ = false := by simp [Try.isFailure, hanswer]
      rw [Try.lastFailure_concat_of_not_failure c hnone]
      exact h.lastFailure

end Behind

end Client

/-! ## Silence -/

/-- What the breaker means for a try behind others, and the try for the breaker. -/
structure Try.Heeds (c : Client) (threshold : Int) (recovery : Number) (past : List Try) (t : Try) :
    Prop where
  /-- So many failed requests in a row opened the breaker. -/
  opened_iff : t.line.breaker.state = .opened ↔
    threshold ≤ BreakerEvent.failuresSinceSuccess (past.map Try.event)
  closed_of_not_opened : t.line.breaker.state ≠ .opened → t.line.breaker.state = .closed
  lastFailure : t.line.breaker.lastFailure = Try.lastFailure c past
  recovery : t.line.breaker.recovery = recovery
  /-- A closed breaker lets every request through. -/
  sent_of_closed : t.line.breaker.state = .closed →
    (t.behind c).network.sent = t.line.network.sent ++ [t.request]
  /-- An open breaker that has not rested lets none through, and nothing changes. -/
  silent : t.line.breaker.state = .opened → ¬ t.watch.HasRested → t.behind c = t.line
  /-- One that has rested sends one request, on trial. -/
  sent_of_rested : t.line.breaker.state = .opened → t.watch.HasRested →
    (t.behind c).network.sent = t.line.network.sent ++ [t.request]
  closed_of_answer : t.line.breaker.state = .opened → t.watch.HasRested →
    t.delivery.isAnswer = true →
    (t.behind c).breaker.state = .closed ∧ (t.behind c).breaker.failures = 0
  opened_of_failure : t.line.breaker.state = .opened → t.watch.HasRested →
    t.delivery.isAnswer = false →
    (t.behind c).breaker.state = .opened ∧
      (t.behind c).breaker.lastFailure = (t.behind c).network.clock

namespace Client

variable {c : Client} {threshold : Int} {recovery : Number} {past tries : List Try}
  {l l' : Line}

theorem admits_of_closed (h : l.breaker.state = .closed) :
    l.breaker.admits l.network.clock = true := by
  simp [Breaker.admits, Breaker.isOpen, h]

theorem admits_of_opened (t : Try) (h : t.line.breaker.state = .opened) :
    t.isSent = true ↔ t.watch.HasRested := by
  rw [BreakerWatch.hasRested_iff]
  simp [Try.isSent, Breaker.admits, Breaker.isOpen, h, Try.watch]

/-- Who is let through sends one request. -/
theorem sent_behind {t : Try} (h : t.isSent = true) :
    (t.behind c).network.sent = t.line.network.sent ++ [t.request] := by
  have htraffic : Traffic c t.line [t] (t.behind c) := .attempt t.request (.done _)
  rw [htraffic.sent, List.filter_cons_of_pos h]
  rfl

/-- **A try heeds the breaker that it finds.** -/
theorem Behind.heeds {t : Try} (h : Behind c threshold recovery past t.line)
    (hends : t.line.network.Ends) : t.Heeds c threshold recovery past where
  opened_iff := h.opened_iff
  closed_of_not_opened hopen := by
    have hsettled := h.settled
    cases hs : t.line.breaker.state with
    | closed => rfl
    | opened => exact absurd hs hopen
    | halfOpen => exact absurd hs hsettled
  lastFailure := h.lastFailure
  recovery := h.recovery
  sent_of_closed hclosed := sent_behind (admits_of_closed hclosed)
  silent hopen hrest := by
    have hblocked : t.isSent = false :=
      Bool.eq_false_iff.mpr fun hsent => hrest ((admits_of_opened t hopen).mp hsent)
    unfold Try.behind
    rw [attempt_of_not_admits hblocked]
  sent_of_rested hopen hrest := sent_behind ((admits_of_opened t hopen).mpr hrest)
  closed_of_answer hopen hrest hanswer := by
    have hsent := (admits_of_opened t hopen).mpr hrest
    unfold Try.behind
    rw [breaker_attempt hsent hends, Try.event, if_pos hsent, if_pos hanswer]
    exact ⟨rfl, rfl⟩
  opened_of_failure hopen hrest hanswer := by
    have hsent := (admits_of_opened t hopen).mpr hrest
    have htrial : (t.line.breaker.admitted t.line.network.clock).state = .halfOpen := by
      have hrecovered := BreakerWatch.hasRested_iff.mp hrest
      simp only [Try.watch] at hrecovered
      simp [Breaker.admitted, Breaker.isOpen, hopen, hrecovered]
    unfold Try.behind
    rw [breaker_attempt hsent hends, Try.event, if_pos hsent, hanswer]
    simp [BreakerWatch.step, Breaker.noteFailure, htrial]

/-- The account is kept by all traffic, and every try finds it in order. -/
theorem Behind.traffic (h : Behind c threshold recovery past l) (hthreshold : 1 ≤ threshold)
    (hends : l.network.Ends) (ht : Traffic c l tries l') :
    Behind c threshold recovery (past ++ tries) l' ∧
      ∀ before t behind, tries = before ++ t :: behind →
        t.Heeds c threshold recovery (past ++ before) := by
  induction ht generalizing past with
  | done =>
    rw [List.append_nil]
    exact ⟨h, fun before t behind heq => absurd heq (by simp)⟩
  | idle hidle _ ih =>
    refine ih (h.idle hidle) ?_
    unfold Network.Ends
    rw [hidle.sinks]
    exact hends
  | @attempt l l' tries r ht ih =>
    have hsinks : (c.attempt r l).2.network.sinks = l.network.sinks :=
      (Traffic.attempt r (.done _)).sinks
    have hrest := ih (h.attempt hthreshold hends r) (by unfold Network.Ends; rwa [hsinks])
    rw [List.append_assoc, List.singleton_append] at hrest
    refine ⟨hrest.1, fun before t behind heq => ?_⟩
    cases before with
    | nil =>
      obtain ⟨rfl, -⟩ := List.cons.inj heq
      rw [List.append_nil]
      exact h.heeds hends
    | cons t' before =>
      obtain ⟨rfl, hrow⟩ := List.cons.inj heq
      have hheeds := hrest.2 before t behind hrow
      rwa [List.append_assoc] at hheeds

end Client

/-- **An open breaker silences a client.** A client is used for any requests, with any time in
between, at a breaker that was fresh at first. All that happens are its tries. The requests that were
let through are those that were sent. The breaker is open behind as many failed requests in a row as
it bears, however they are spread over requests and tries. While it is open, no try sends anything
until the breaker has rested since the last failure; then one is sent on trial, and it closes the
breaker or opens it again. -/
theorem silence_of_run (c : Client) (name : String) {threshold : Int} (recovery : Number)
    (hthreshold : 1 ≤ threshold) {network : Network} (hends : network.Ends) (uses : List ClientUse) :
    let start : Client.Line := ⟨network, { name, threshold, recovery }⟩
    let tries := c.tries uses start
    let final := c.run uses start
    Traffic c start tries final ∧
    final.network.sent = network.sent ++ (tries.filter Try.isSent).map Try.request ∧
    (final.breaker.state = .opened ↔
      threshold ≤ BreakerEvent.failuresSinceSuccess (tries.map Try.event)) ∧
    ∀ past t future, tries = past ++ t :: future → t.Heeds c threshold recovery past := by
  intro start tries final
  have htraffic : Traffic c start tries final := Traffic.traffic_run c uses start
  obtain ⟨hbehind, hheeds⟩ :=
    (Client.Behind.fresh c name hthreshold network).traffic hthreshold hends htraffic
  exact ⟨htraffic, htraffic.sent, hbehind.opened_iff, hheeds⟩

/-- Sinks that cannot be reached for the first two requests. -/
def Network.recovering : Network where
  sinks past _ := ⟨.zero, if past.length < 2 then .failed (.outside "ConnectError" "") else
    .answered ⟨200, ""⟩⟩

theorem Network.ends_recovering : recovering.Ends := by
  intro past r
  unfold recovering
  dsimp only
  split
  · exact ⟨rfl, Fault.noConfusion⟩
  · trivial

/-- A request that opens the breaker with its second try and is blocked at the third one; much later,
a request on trial. -/
theorem silence_of_run_recovering :
    let c : Client := { service := "records", policy := { RetryPolicy.standard with jitter := false } }
    let start : Client.Line := ⟨.recovering, { name := "b", threshold := 2, recovery := .int 30 }⟩
    let uses : List ClientUse := [.request ⟨"GET", "http://a/", .null, .null⟩ c.draw,
      .wait (.ofInt 40), .request ⟨"GET", "http://b/", .null, .null⟩ c.draw]
    (1 : Int) ≤ 2 ∧ Network.recovering.Ends ∧
    (c.tries uses start).map Try.isSent = [true, true, false, true] ∧
    (c.run uses start).breaker.state = .closed ∧
    ∀ past t future, c.tries uses start = past ++ t :: future → t.Heeds c 2 (.int 30) past := by
  intro c start uses
  have h := silence_of_run c "b" (.int 30) (by decide : (1 : Int) ≤ 2) Network.ends_recovering uses
  exact ⟨by decide, Network.ends_recovering, by decide +kernel, by decide +kernel, h.2.2.2⟩

end ChangeRules
