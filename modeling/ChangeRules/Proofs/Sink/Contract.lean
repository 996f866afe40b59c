import ChangeRules.Proofs.Sink.Silence
import ChangeRules.Proofs.Text.Tidy

/-!
# What a client reports

A request passes three layers. The innermost one sends it and judges the answer, the breaker around
it lets it through or not, and the outermost one tries again when the network failed. Each of them
lets some faults through and makes others of the rest. Whatever the sinks do, and whatever the
breaker was before, the report that comes out can be read off the tries.

* `Retrying.exists_last`: a job is tried until a try ends it; those before it failed.
* `Client.Concludes`: the report for the last try of a request, a constructor for each layer that can
  end it.
* **`Client.concludes_request`**: a request comes to the report for its last try.
* **`Traffic.noted`**: a breaker learns of every request that was sent, once.
* `Client.Contract`, **`Client.contract_of_request`**: what this means for whoever sends requests.
-/

namespace ChangeRules

/-! ## Trying again -/

namespace Retrying

variable {σ α δ : Type}

/-- What comes of a job when a try behind `failed` others, out of `limit`, has an outcome. -/
def Ends (r : Retrying σ δ) (limit failed : Nat) (last : Except Fault α)
    (outcome : Except Fault (Option α)) : Prop :=
  match last with
  | .ok a => outcome = .ok (some a)
  | .error f =>
    if r.retried f then
      failed + 1 = limit ∧ outcome = .error (.exhausted r.job r.attempts f) ∨
        failed + 1 < limit ∧ ∃ flaw, outcome = .error (.misuse (.arithmetic flaw))
    else outcome = .error f

/-- One more try that failed is one more that was allowed. -/
theorem Ends.succ {r : Retrying σ δ} {limit failed : Nat} {last : Except Fault α}
    {outcome : Except Fault (Option α)} (h : r.Ends limit failed last outcome) :
    r.Ends (limit + 1) (failed + 1) last outcome := by
  cases last with
  | ok a => exact h
  | error f => simpa [Ends] using h

/-- A try failed, and the job is to be tried again. -/
def Fails (r : Retrying σ δ) (job : Job σ α) (s : σ) : Prop :=
  ∃ f, (job s).1 = .error f ∧ r.retried f = true

/-- **A job is tried until a try ends it.** -/
theorem exists_last (r : Retrying σ δ) (job : Job σ α) (attempt : Int) (left : Nat) (s : σ) :
    ∃ failed last, r.tried job attempt (left + 1) s = failed ++ [last] ∧ failed.length ≤ left ∧
      (∀ t ∈ failed, r.Fails job t) ∧
      r.Ends (left + 1) failed.length (job last).1 (r.from job attempt (left + 1) s).1 := by
  induction left generalizing attempt s with
  | zero =>
    rw [Retrying.tried, Retrying.from]
    refine ⟨[], s, ?_, Nat.le_refl _, by simp, ?_⟩
    · split
      · rfl
      · rw [if_pos rfl, ite_self]
        rfl
    · split
      · next a s' hjob => rw [hjob, Ends]
      · next f s' hjob =>
        rw [hjob, Ends]
        cases hretried : r.retried f <;> simp
  | succ left ih =>
    rw [Retrying.tried, Retrying.from]
    cases hjob : job s with
    | mk outcome s' =>
      cases outcome with
      | ok a => exact ⟨[], s, rfl, Nat.zero_le _, by simp, by rw [hjob]; rfl⟩
      | error f =>
        dsimp only
        cases hretried : r.retried f with
        | false => exact ⟨[], s, rfl, Nat.zero_le _, by simp, by simp [hjob, Ends, hretried]⟩
        | true =>
          cases hdelay : r.delay attempt with
          | error flaw =>
            refine ⟨[], s, rfl, Nat.zero_le _, by simp, ?_⟩
            simp [hjob, Ends, hretried]
          | ok d =>
            -- The try failed and there is another one: what comes of it comes of the job.
            obtain ⟨failed, last, htried, hlength, hfailed, hends⟩ := ih (attempt + 1) (r.sleep d s')
            refine ⟨s :: failed, last, ?_, Nat.succ_le_succ hlength, ?_, ?_⟩
            · simp [htried]
            · exact List.forall_mem_cons.mpr ⟨⟨f, by rw [hjob], hretried⟩, hfailed⟩
            · simpa using hends.succ

end Retrying

/-! ## What sinks do -/

namespace Response

/-- The request was granted. -/
def isSuccess (r : Response) : Bool := 200 ≤ r.status && r.status < 300

/-- The request was refused. -/
def isRefusal (r : Response) : Bool := 400 ≤ r.status && r.status < 500

theorem isRefusal_of_isSuccess {r : Response} (h : r.isSuccess = true) : r.isRefusal = false := by
  simp only [isSuccess, isRefusal, Bool.and_eq_true, Bool.and_eq_false_iff, decide_eq_true_eq,
    decide_eq_false_iff_not] at h ⊢
  omega

end Response

namespace Delivery

/-- Something comes of the request: an answer, or a fault from outside. -/
def Returns : Delivery → Prop
  | .answered _ => True
  | .failed f => ∃ kind message, f = .outside kind message
  | .unanswered => False

theorem ends_of_returns {d : Delivery} (h : d.Returns) : d.Ends := by
  cases d with
  | answered response => trivial
  | failed f =>
    obtain ⟨kind, message, rfl⟩ := h
    exact ⟨rfl, Fault.noConfusion⟩
  | unanswered => exact h.elim

/-- The network failed. -/
def isTransport : Delivery → Bool
  | .failed f => Client.isTransport f
  | _ => false

/-- The request was granted with an answer. -/
def Grants (d : Delivery) (response : Response) : Prop :=
  d = .answered response ∧ response.isSuccess = true

/-- The request was refused. -/
def Refuses (d : Delivery) : Prop := ∃ response, d = .answered response ∧ response.isRefusal = true

theorem Grants.not_transport {d : Delivery} {response : Response} (h : d.Grants response) :
    d.isTransport = false := by
  rw [h.1]
  rfl

theorem Refuses.not_transport {d : Delivery} (h : d.Refuses) : d.isTransport = false := by
  obtain ⟨response, hanswer, -⟩ := h
  rw [hanswer]
  rfl

end Delivery

namespace Client

variable {c : Client} {r : Request} {t : Try}

theorem judge_eq (c : Client) (r : Request) (response : Response) :
    c.judge r response =
      if response.isSuccess then .ok response
      else if response.isRefusal then .error (.error (.rejection c.service
        ("rejected with HTTP " ++ toString response.status) (answerDetails r response)))
      else .error (.error (.service c.service ("HTTP " ++ toString response.status)
        (answerDetails r response))) := by
  simp [judge, Response.isSuccess, Response.isRefusal]

theorem attempt_of_blocked (hsent : t.isSent = false) :
    (c.attempt t.request t.line).1 = .error (.blocked t.line.breaker.name) := by
  rw [attempt_of_not_admits hsent]

theorem attempt_of_answered {response : Response} (hsent : t.isSent = true)
    (hanswer : t.delivery = .answered response) :
    (c.attempt t.request t.line).1 = c.judge t.request response := by
  change (t.line.network.sinks t.line.network.sent t.request).delivery = _ at hanswer
  rw [attempt_of_admits hsent, sendOnce_outcome, hanswer]

theorem attempt_of_failed {f : Fault} (hsent : t.isSent = true) (hfault : t.delivery = .failed f) :
    (c.attempt t.request t.line).1 = .error f := by
  change (t.line.network.sinks t.line.network.sent t.request).delivery = _ at hfault
  rw [attempt_of_admits hsent, sendOnce_outcome, hfault]

/-- A try behind which there is another one was sent, and the network failed. -/
theorem transport_of_fails (hreturns : t.delivery.Returns)
    (h : c.retrying.Fails (c.attempt t.request) t.line) :
    t.isSent = true ∧ t.delivery.isTransport = true := by
  obtain ⟨f, hf, hretried⟩ := h
  change isTransport f = true at hretried
  cases hsent : t.isSent with
  | false =>
    rw [attempt_of_blocked hsent] at hf
    rw [← Except.error.inj hf] at hretried
    exact absurd hretried (by simp [isTransport, Fault.isA])
  | true =>
    refine ⟨rfl, ?_⟩
    cases hdelivery : t.delivery with
    | answered response =>
      rw [attempt_of_answered hsent hdelivery, judge_eq] at hf
      split at hf
      · exact absurd hf (by simp)
      · split at hf <;>
          exact absurd hretried (by simp [← Except.error.inj hf, isTransport, Fault.isA])
    | failed g =>
      rw [attempt_of_failed hsent hdelivery] at hf
      rw [Except.error.inj hf]
      exact hretried
    | unanswered =>
      rw [hdelivery] at hreturns
      exact hreturns.elim

/-! ## Reports -/

/-- The report for the last try of a request, behind so many that failed. -/
inductive Concludes (c : Client) (r : Request) (failed : Nat) (last : Try) :
    Except Fault (Option Response) → Prop
  | blocked (hsent : last.isSent = false) :
      Concludes c r failed last (.error (.error (.service c.service "circuit breaker open"
        [("url", .text r.address), ("circuit_breaker", .text last.line.breaker.name)])))
  | granted {response : Response} (hsent : last.isSent = true)
      (hanswer : last.delivery = .answered response) (hsuccess : response.isSuccess = true) :
      Concludes c r failed last (.ok (some response))
  | refused {response : Response} (hsent : last.isSent = true)
      (hanswer : last.delivery = .answered response) (hsuccess : response.isSuccess = false)
      (hrefusal : response.isRefusal = true) :
      Concludes c r failed last (.error (.error (.rejection c.service
        ("rejected with HTTP " ++ toString response.status) (answerDetails r response))))
  /-- The sink answered that it does not work. -/
  | failing {response : Response} (hsent : last.isSent = true)
      (hanswer : last.delivery = .answered response) (hsuccess : response.isSuccess = false)
      (hrefusal : response.isRefusal = false) :
      Concludes c r failed last (.error (.error (.service c.service
        ("HTTP " ++ toString response.status) (answerDetails r response))))
  /-- No try is left. -/
  | unreachable {kind message : String} (hsent : last.isSent = true)
      (hfault : last.delivery = .failed (.outside kind message))
      (htransport : isKind kind "TransportError" = true)
      (hall : (failed : Int) + 1 = c.policy.attempts) :
      Concludes c r failed last (.error (.error (.service c.service
        ("unreachable after " ++ toString c.policy.attempts ++ " attempts: " ++
          (Fault.outside kind message).message)
        [("url", .text r.address), ("attempts", .int c.policy.attempts)])))
  /-- The delay before the next try cannot be computed. -/
  | undelayed {kind message : String} {flaw : ArithmeticFlaw} (hsent : last.isSent = true)
      (hfault : last.delivery = .failed (.outside kind message))
      (htransport : isKind kind "TransportError" = true)
      (hleft : (failed : Int) + 1 < c.policy.attempts) :
      Concludes c r failed last (.error (.misuse (.arithmetic flaw)))
  /-- Something else went wrong with the request. -/
  | broken {kind message : String} (hsent : last.isSent = true)
      (hfault : last.delivery = .failed (.outside kind message))
      (htransport : isKind kind "TransportError" = false) (hhttp : isKind kind "HTTPError" = true) :
      Concludes c r failed last (.error (.error (.service c.service
        ("HTTP error: " ++ (Fault.outside kind message).message) [("url", .text r.address)])))
  /-- What has nothing to do with requests is not touched. -/
  | foreign {kind message : String} (hsent : last.isSent = true)
      (hfault : last.delivery = .failed (.outside kind message))
      (htransport : isKind kind "TransportError" = false)
      (hhttp : isKind kind "HTTPError" = false) :
      Concludes c r failed last (.error (.outside kind message))

/-- What an answer means for the last try. -/
theorem concludes_of_answered {failed limit : Nat} {outcome : Except Fault (Option Response)}
    {response : Response} (hsent : t.isSent = true) (hanswer : t.delivery = .answered response)
    (hends : c.retrying.Ends limit failed (c.judge t.request response) outcome) :
    c.Concludes t.request failed t (outcome.mapError (c.report t.request)) := by
  rw [judge_eq] at hends
  cases hsuccess : response.isSuccess with
  | true =>
    rw [if_pos hsuccess] at hends
    obtain rfl : outcome = _ := hends
    exact .granted hsent hanswer hsuccess
  | false =>
    rw [if_neg (by simp [hsuccess])] at hends
    cases hrefusal : response.isRefusal with
    | true =>
      rw [if_pos hrefusal] at hends
      obtain rfl : outcome = _ := hends
      exact .refused hsent hanswer hsuccess hrefusal
    | false =>
      rw [if_neg (by simp [hrefusal])] at hends
      obtain rfl : outcome = _ := hends
      exact .failing hsent hanswer hsuccess hrefusal

theorem report_outside (c : Client) (r : Request) (kind message : String) :
    c.report r (.outside kind message) = if isKind kind "HTTPError" then
      .error (.service c.service ("HTTP error: " ++ (Fault.outside kind message).message)
        [("url", .text r.address)])
    else .outside kind message := rfl

/-- A delay that cannot be computed has nothing to do with requests. -/
theorem isA_undelayed (flaw : ArithmeticFlaw) :
    (Fault.misuse (.arithmetic flaw)).isA "HTTPError" = false := by
  cases flaw <;> decide +kernel

theorem report_undelayed (c : Client) (r : Request) (flaw : ArithmeticFlaw) :
    c.report r (.misuse (.arithmetic flaw)) = .misuse (.arithmetic flaw) := by
  simp [report, isA_undelayed]

/-- What a fault from outside means for the last try. -/
theorem concludes_of_failed {failed : Nat} {outcome : Except Fault (Option Response)}
    {kind message : String} (hsent : t.isSent = true)
    (hfault : t.delivery = .failed (.outside kind message)) (hattempts : 0 ≤ c.policy.attempts)
    (hends : c.retrying.Ends c.policy.attempts.toNat failed (.error (.outside kind message))
      outcome) : c.Concludes t.request failed t (outcome.mapError (c.report t.request)) := by
  have hretried : c.retrying.retried (.outside kind message) = isKind kind "TransportError" := rfl
  unfold Retrying.Ends at hends
  dsimp only at hends
  rw [hretried] at hends
  cases htransport : isKind kind "TransportError" with
  | true =>
    rw [htransport, if_pos rfl] at hends
    obtain ⟨hall, rfl⟩ | ⟨hleft, flaw, rfl⟩ := hends
    · exact .unreachable hsent hfault htransport (by omega)
    · rw [Except.mapError, report_undelayed]
      exact .undelayed hsent hfault htransport (by omega)
  | false =>
    rw [htransport, if_neg (by simp)] at hends
    subst hends
    rw [Except.mapError, report_outside]
    cases hhttp : isKind kind "HTTPError" with
    | true =>
      rw [if_pos rfl]
      exact .broken hsent hfault htransport hhttp
    | false =>
      rw [if_neg (by simp)]
      exact .foreign hsent hfault htransport hhttp

/-- What comes of the last try is reported. -/
theorem concludes_of_ends {failed : Nat} {outcome : Except Fault (Option Response)}
    (hreturns : t.delivery.Returns) (hattempts : 0 ≤ c.policy.attempts)
    (hends : c.retrying.Ends c.policy.attempts.toNat failed (c.attempt t.request t.line).1 outcome) :
    c.Concludes t.request failed t (outcome.mapError (c.report t.request)) := by
  cases hsent : t.isSent with
  | false =>
    rw [attempt_of_blocked hsent] at hends
    obtain rfl : outcome = _ := hends
    exact .blocked hsent
  | true =>
    cases hdelivery : t.delivery with
    | answered response =>
      rw [attempt_of_answered hsent hdelivery] at hends
      exact concludes_of_answered hsent hdelivery hends
    | failed f =>
      rw [attempt_of_failed hsent hdelivery] at hends
      rw [hdelivery] at hreturns
      obtain ⟨kind, message, rfl⟩ := hreturns
      exact concludes_of_failed hsent hdelivery hattempts hends
    | unanswered =>
      rw [hdelivery] at hreturns
      exact hreturns.elim

end Client

/-! ## Requests -/

/-- Something comes of every request. -/
def Network.Returns (n : Network) : Prop := ∀ past r, (n.sinks past r).delivery.Returns

theorem Network.ends_of_returns {n : Network} (h : n.Returns) : n.Ends :=
  fun past r => Delivery.ends_of_returns (h past r)

theorem Network.returns_recovering : recovering.Returns := by
  intro past r
  unfold recovering
  dsimp only
  split
  · exact ⟨_, _, rfl⟩
  · trivial

theorem Network.Ends.of_sinks {n n' : Network} (h : n.Ends) (hsinks : n'.sinks = n.sinks) :
    n'.Ends := by
  unfold Network.Ends
  rw [hsinks]
  exact h

/-- What a breaker learns of a request that was sent: that the service works, or that it does not. -/
def Try.noted (c : Client) (b : Breaker) (t : Try) : Breaker :=
  let asked := b.admitted t.line.network.clock
  if t.delivery.isAnswer then asked.noteSuccess
  else asked.noteFailure (t.behind c).network.clock

namespace Traffic

variable {c : Client} {l l' : Client.Line} {tries : List Try} {t : Try}

theorem sinks_attempt (c : Client) (r : Request) (l : Client.Line) :
    (c.attempt r l).2.network.sinks = l.network.sinks :=
  (Traffic.attempt r (.done _)).sinks

theorem sinks_of_mem (h : Traffic c l tries l') (ht : t ∈ tries) :
    t.line.network.sinks = l.network.sinks := by
  induction h with
  | done => exact absurd ht List.not_mem_nil
  | idle hidle _ ih => rw [ih ht, hidle.sinks]
  | @attempt l l' tries r _ ih =>
    rcases List.mem_cons.mp ht with rfl | ht
    · rfl
    · rw [ih ht, sinks_attempt]

/-- **A breaker learns of every request that was sent**, once and in order, and of nothing else. -/
theorem noted (h : Traffic c l tries l') (hends : l.network.Ends) :
    l'.breaker = (tries.filter Try.isSent).foldl (Try.noted c) l.breaker := by
  induction h with
  | done => rfl
  | idle hidle _ ih => rw [ih (hends.of_sinks hidle.sinks), hidle.breaker]
  | @attempt l l' tries r _ ih =>
    rw [ih (hends.of_sinks (sinks_attempt c r l))]
    cases hadmits : l.breaker.admits l.network.clock with
    | true =>
      have hsent : Try.isSent ⟨r, l⟩ = true := hadmits
      rw [List.filter_cons_of_pos hsent, List.foldl_cons, Client.breaker_attempt hadmits hends,
        Try.event, if_pos hsent]
      cases hanswer : (Try.delivery ⟨r, l⟩).isAnswer <;> simp [Try.noted, hanswer] <;> rfl
    | false =>
      have hblocked : ¬ Try.isSent ⟨r, l⟩ = true := Bool.eq_false_iff.mp hadmits
      rw [Client.attempt_of_not_admits hadmits, List.filter_cons_of_neg hblocked]

end Traffic

namespace Client

variable {c : Client} {r : Request} {line : Line}

/-- **A request comes to the report for its last try.** -/
theorem concludes_request (hattempts : 1 ≤ c.policy.attempts) (hreturns : line.network.Returns)
    (r : Request) :
    ∃ failed last, c.triesOf r line = failed ++ [last] ∧
      (failed.length : Int) < c.policy.attempts ∧
      (∀ t ∈ failed, t.isSent = true ∧ t.delivery.isTransport = true) ∧
      c.Concludes r failed.length last (c.request r line).1 := by
  obtain ⟨left, hleft⟩ : ∃ left, c.policy.attempts.toNat = left + 1 :=
    ⟨c.policy.attempts.toNat - 1, by omega⟩
  have hreturned : ∀ t ∈ c.triesOf r line, t.delivery.Returns := by
    intro t ht
    have hsinks := (Traffic.traffic_request c r line).sinks_of_mem ht
    unfold Try.delivery
    rw [hsinks]
    exact hreturns _ _
  obtain ⟨states, state, htried, hlength, hfailed, hends⟩ :=
    c.retrying.exists_last (c.attempt r) 1 left line
  have htries : c.triesOf r line = states.map (Try.mk r) ++ [⟨r, state⟩] := by
    have hlimit : c.retrying.attempts.toNat = left + 1 := hleft
    rw [triesOf, hlimit, htried, List.map_append, List.map_singleton]
  refine ⟨states.map (Try.mk r), ⟨r, state⟩, htries, ?_, fun t ht => ?_, ?_⟩
  · rw [List.length_map]
    omega
  · obtain ⟨s, hs, rfl⟩ := List.mem_map.mp ht
    refine transport_of_fails (hreturned _ ?_) (hfailed s hs)
    rw [htries]
    exact List.mem_append_left _ ht
  · have hrequest : (c.request r line).1 =
        (c.retrying.from (c.attempt r) 1 (left + 1) line).1.mapError (c.report r) := by
      rw [← hleft]
      rfl
    rw [hrequest]
    refine concludes_of_ends (t := ⟨r, state⟩) (hreturned _ ?_) (by omega) ?_
    · rw [htries]
      exact List.mem_append_right _ (List.mem_singleton_self _)
    · rw [hleft, List.length_map]
      exact hends

end Client

/-! ## Numbers in sentences -/

theorem toDigits_inj {m n : Nat} (h : Nat.toDigits 10 m = Nat.toDigits 10 n) : m = n := by
  rw [← Nat.ofDigitChars_ten_toDigits (n := m), h, Nat.ofDigitChars_ten_toDigits]

theorem int_inj {m n : Int} (h : (toString m).toList = (toString n).toList) : m = n := by
  rw [toList_int, toList_int] at h
  have hminus : ∀ k, '-' ∉ Nat.toDigits 10 k := not_mem_toDigits (by decide)
  split at h <;> split at h
  · have := toDigits_inj (List.cons.inj h).2
    omega
  · exact absurd (h ▸ List.mem_cons_self) (hminus _)
  · exact absurd (h ▸ List.mem_cons_self) (hminus _)
  · have := toDigits_inj h
    omega

/-- A number in a sentence can be read off it. -/
theorem int_of_append {m n : Int} {s t : String}
    (h : toString m ++ (" attempts: " ++ s) = toString n ++ (" attempts: " ++ t)) : m = n := by
  have hblank : ∀ k : Int, ∀ ch ∈ (toString k).toList, (ch != ' ') = true := by
    intro k ch hch
    rw [toList_int] at hch
    refine bne_iff_ne.mpr ?_
    rintro rfl
    split at hch
    · rcases List.mem_cons.mp hch with heq | hch
      · exact absurd heq (by decide)
      · exact not_mem_toDigits (by decide) _ hch
    · exact not_mem_toDigits (by decide) _ hch
  have hfront := congrArg (fun text : String => text.toList.takeWhile (· != ' ')) h
  simp only [String.toList_append] at hfront
  rw [List.takeWhile_append_of_pos (hblank m), List.takeWhile_append_of_pos (hblank n)] at hfront
  exact int_inj (by simpa using hfront)

/-! ## What a report tells -/

/-- Faults that only the layers of a client know: failures of requests, attempts that are used up, and
breakers that block. -/
def Fault.IsInner (f : Fault) : Prop :=
  f.isA "HTTPError" = true ∨ (∃ job attempts last, f = .exhausted job attempts last) ∨
    ∃ breaker, f = .blocked breaker

theorem RuleError.service_inj {name message message' : String} {details details' : Fields}
    (h : RuleError.service name message details = .service name message' details') :
    message = message' := by
  have hmessage := congrArg RuleError.message h
  simpa [RuleError.service] using hmessage

namespace Client.Concludes

variable {c : Client} {r : Request} {failed : Nat} {last : Try}
  {outcome : Except Fault (Option Response)}

theorem ne_nothing (h : c.Concludes r failed last outcome) : outcome ≠ .ok none := by
  cases h <;> simp

theorem granted_iff (h : c.Concludes r failed last outcome) (response : Response) :
    outcome = .ok (some response) ↔ last.isSent = true ∧ last.delivery.Grants response := by
  unfold Delivery.Grants
  cases h with
  | blocked hsent => simp [hsent]
  | granted hsent hanswer hsuccess =>
    simp only [hsent, hanswer, Except.ok.injEq, Option.some.injEq, Delivery.answered.injEq, true_and]
    exact ⟨fun heq => ⟨heq, heq ▸ hsuccess⟩, And.left⟩
  | refused hsent hanswer hsuccess =>
    simp only [reduceCtorEq, hanswer, Delivery.answered.injEq, false_iff]
    rintro ⟨-, rfl, hgranted⟩
    simp [hgranted] at hsuccess
  | failing hsent hanswer hsuccess =>
    simp only [reduceCtorEq, hanswer, Delivery.answered.injEq, false_iff]
    rintro ⟨-, rfl, hgranted⟩
    simp [hgranted] at hsuccess
  | _ => simp [*]

theorem refused_iff (h : c.Concludes r failed last outcome) :
    (∃ e, outcome = .error (.error e) ∧ e.kind = .rejection) ↔
      last.isSent = true ∧ last.delivery.Refuses := by
  unfold Delivery.Refuses
  cases h with
  | refused hsent hanswer hsuccess hrefusal =>
    simp [hsent, hanswer, hrefusal, RuleError.rejection]
  | granted hsent hanswer hsuccess =>
    simp [hanswer, Response.isRefusal_of_isSuccess hsuccess]
  | failing hsent hanswer hsuccess hrefusal => simp [hanswer, hrefusal, RuleError.service]
  | _ => simp [*, RuleError.service]

theorem blocked_iff (h : c.Concludes r failed last outcome) :
    (∃ details, outcome = .error (.error (.service c.service "circuit breaker open" details))) ↔
      last.isSent = false := by
  cases h with
  | blocked hsent => simp [hsent]
  | granted hsent | undelayed hsent | foreign hsent => simp [hsent]
  | refused hsent => simp [hsent, RuleError.rejection, RuleError.service]
  | failing hsent | unreachable hsent | broken hsent =>
    simp only [hsent, Bool.true_eq_false, iff_false]
    rintro ⟨details, heq⟩
    have hmessage := RuleError.service_inj (Fault.error.inj (Except.error.inj heq))
    exact absurd (congrArg String.toList hmessage) (by simp)

/-- The sink is called unreachable when the last attempt failed. -/
theorem unreachable_only (h : c.Concludes r failed last outcome) {n : Int} {why : String}
    {details : Fields} (hreport : outcome = .error (.error (.service c.service
      ("unreachable after " ++ toString n ++ " attempts: " ++ why) details))) :
    n = c.policy.attempts ∧ (failed : Int) + 1 = c.policy.attempts ∧ last.isSent = true ∧
      last.delivery.isTransport = true := by
  cases h with
  | unreachable hsent hfault htransport hall =>
    have hmessage := RuleError.service_inj (Fault.error.inj (Except.error.inj hreport))
    simp only [String.append_assoc, String.append_right_inj] at hmessage
    refine ⟨?_, hall, hsent, ?_⟩
    · exact (int_of_append hmessage).symm
    · rw [hfault]
      exact htransport
  | granted | undelayed | foreign => exact absurd hreport (by simp)
  | refused => exact absurd hreport (by simp [RuleError.rejection, RuleError.service])
  | blocked | failing | broken =>
    have hmessage := RuleError.service_inj (Fault.error.inj (Except.error.inj hreport))
    exact absurd (congrArg String.toList hmessage) (by simp)

theorem unreachable_of_all (h : c.Concludes r failed last outcome) (hsent : last.isSent = true)
    (htransport : last.delivery.isTransport = true) (hall : (failed : Int) + 1 = c.policy.attempts) :
    ∃ why details, outcome = .error (.error (.service c.service
      ("unreachable after " ++ toString c.policy.attempts ++ " attempts: " ++ why) details)) := by
  cases h with
  | unreachable => exact ⟨_, _, rfl⟩
  | undelayed _ _ _ hleft => omega
  | blocked hblocked => exact absurd hsent (by simp [hblocked])
  | granted _ hanswer | refused _ hanswer | failing _ hanswer =>
    exact absurd htransport (by simp [hanswer, Delivery.isTransport])
  | broken _ hfault hother | foreign _ hfault hother =>
    rw [hfault] at htransport
    exact absurd (hother.symm.trans htransport) (by simp)

/-- Other failures of requests are reported as failures of the service. -/
theorem wrapped (h : c.Concludes r failed last outcome) (hsent : last.isSent = true)
    {kind message : String} (hfault : last.delivery = .failed (.outside kind message))
    (htransport : isKind kind "TransportError" = false) (hhttp : isKind kind "HTTPError" = true) :
    ∃ details, outcome = .error (.error (.service c.service
      ("HTTP error: " ++ (Fault.outside kind message).message) details)) := by
  cases h with
  | broken hs hfault' =>
    have heq := hfault.symm.trans hfault'
    simp only [Delivery.failed.injEq, Fault.outside.injEq] at heq
    obtain ⟨rfl, rfl⟩ := heq
    exact ⟨_, rfl⟩
  | _ => simp_all

/-- No fault of an inner layer gets out. -/
theorem contained (h : c.Concludes r failed last outcome) {f : Fault} (hf : outcome = .error f) :
    ¬ f.IsInner := by
  unfold Fault.IsInner
  cases h with
  | granted => exact absurd hf (by simp)
  | foreign hsent hfault htransport hhttp =>
    rw [← Except.error.inj hf]
    simp [Fault.isA, hhttp]
  | @undelayed _ _ flaw =>
    rw [← Except.error.inj hf]
    simp [isA_undelayed]
  | _ =>
    rw [← Except.error.inj hf]
    simp [Fault.isA]

end Client.Concludes

/-! ## The contract -/

namespace Client

/-- The tries of a request that were sent. -/
def sentTries (c : Client) (r : Request) (line : Line) : List Try :=
  (c.triesOf r line).filter Try.isSent

/-- What whoever sends a request can rely on. -/
structure Contract (c : Client) (r : Request) (line : Line) : Prop where
  /-- A request is nothing but its tries. -/
  traffic : Traffic c line (c.triesOf r line) (c.request r line).2
  /-- Nothing else is sent, and what the breaker blocks is not. -/
  sent : (c.request r line).2.network.sent =
    line.network.sent ++ List.replicate (c.sentTries r line).length r
  few : ((c.sentTries r line).length : Int) ≤ c.policy.attempts
  /-- A request is sent again only if the network failed. -/
  retried : ∀ t ∈ (c.sentTries r line).dropLast, t.delivery.isTransport = true
  /-- The breaker learns of each request that was sent, once and in order. -/
  noted : (c.request r line).2.breaker =
    (c.sentTries r line).foldl (Try.noted c) line.breaker
  /-- There is an answer or a fault. -/
  ends : (c.request r line).1 ≠ .ok none
  /-- The answer is the one to the request sent last. -/
  granted_iff : ∀ response, (c.request r line).1 = .ok (some response) ↔
    ∃ t, (c.sentTries r line).getLast? = some t ∧ t.delivery.Grants response
  /-- There is one if any request was granted. -/
  granted_of_any : ∀ t ∈ c.sentTries r line, ∀ response, t.delivery.Grants response →
    (c.request r line).1 = .ok (some response)
  refused_iff : (∃ e, (c.request r line).1 = .error (.error e) ∧ e.kind = .rejection) ↔
    ∃ t, (c.sentTries r line).getLast? = some t ∧ t.delivery.Refuses
  /-- A sink is called unreachable behind all attempts, when each was sent and the network failed. -/
  unreachable : ∀ n why details, (c.request r line).1 = .error (.error (.service c.service
      ("unreachable after " ++ toString n ++ " attempts: " ++ why) details)) →
    n = c.policy.attempts ∧ ((c.sentTries r line).length : Int) = c.policy.attempts ∧
      ∀ t ∈ c.sentTries r line, t.delivery.isTransport = true
  unreachable_of_all : ((c.sentTries r line).length : Int) = c.policy.attempts →
    (∀ t ∈ c.sentTries r line, t.delivery.isTransport = true) →
    ∃ why details, (c.request r line).1 = .error (.error (.service c.service
      ("unreachable after " ++ toString c.policy.attempts ++ " attempts: " ++ why) details))
  blocked_iff : (∃ details, (c.request r line).1 = .error (.error (.service c.service
      "circuit breaker open" details))) ↔ ∃ t ∈ c.triesOf r line, t.isSent = false
  /-- Other failures of the request sent last are failures of the service. -/
  wrapped : ∀ t kind message, (c.sentTries r line).getLast? = some t →
    t.delivery = .failed (.outside kind message) → isKind kind "TransportError" = false →
    isKind kind "HTTPError" = true → ∃ details, (c.request r line).1 = .error (.error
      (.service c.service ("HTTP error: " ++ (Fault.outside kind message).message) details))
  contained : ∀ f, (c.request r line).1 = .error f → ¬ f.IsInner

section

variable {failed : List Try} {last t : Try}

theorem filter_isSent (hfailed : ∀ t ∈ failed, t.isSent = true ∧ t.delivery.isTransport = true)
    (last : Try) : (failed ++ [last]).filter Try.isSent =
      failed ++ if last.isSent then [last] else [] := by
  rw [List.filter_append, List.filter_eq_self.mpr fun t ht => (hfailed t ht).1, List.filter_cons,
    List.filter_nil]

/-- What came of a request that was sent, if not a failure of the network, came of the last try. -/
theorem eq_last_of_sent (hfailed : ∀ t ∈ failed, t.isSent = true ∧ t.delivery.isTransport = true)
    (ht : t ∈ (failed ++ [last]).filter Try.isSent) (hother : t.delivery.isTransport = false) :
    t = last ∧ last.isSent = true := by
  obtain ⟨hmem, hsent⟩ := List.mem_filter.mp ht
  rcases List.mem_append.mp hmem with hmem | hmem
  · exact absurd (hfailed t hmem).2 (by simp [hother])
  · obtain rfl := List.mem_singleton.mp hmem
    exact ⟨rfl, hsent⟩

theorem exists_getLast_iff {P : Try → Prop} (hP : ∀ t, P t → t.delivery.isTransport = false)
    (hfailed : ∀ t ∈ failed, t.isSent = true ∧ t.delivery.isTransport = true) :
    (∃ t, ((failed ++ [last]).filter Try.isSent).getLast? = some t ∧ P t) ↔
      last.isSent = true ∧ P last := by
  constructor
  · rintro ⟨t, ht, hPt⟩
    obtain ⟨rfl, hsent⟩ := eq_last_of_sent hfailed (List.mem_of_getLast? ht) (hP t hPt)
    exact ⟨hsent, hPt⟩
  · rintro ⟨hsent, hPlast⟩
    refine ⟨last, ?_, hPlast⟩
    rw [filter_isSent hfailed, if_pos hsent, List.getLast?_concat]

end

/-- **Whoever sends a request can rely on the contract**, whatever the breaker was, whatever the sinks
do and however often the request may be tried, if it may be tried at all. -/
theorem contract_of_request {c : Client} (hattempts : 1 ≤ c.policy.attempts) {line : Line}
    (hreturns : line.network.Returns) (r : Request) : c.Contract r line := by
  obtain ⟨failed, last, htries, hfew, hfailed, hconcludes⟩ := concludes_request hattempts hreturns r
  have hsent : c.sentTries r line = failed ++ if last.isSent then [last] else [] := by
    rw [sentTries, htries, filter_isSent hfailed]
  have htraffic := Traffic.traffic_request c r line
  exact {
    traffic := htraffic
    sent := by
      rw [htraffic.sent]
      refine congrArg _ (List.eq_replicate_iff.mpr ⟨List.length_map _, fun r' hr' => ?_⟩)
      obtain ⟨t, ht, rfl⟩ := List.mem_map.mp hr'
      obtain ⟨s, -, rfl⟩ := List.mem_map.mp (List.mem_filter.mp ht).1
      rfl
    few := by
      rw [hsent, List.length_append]
      split <;> simp <;> omega
    retried := by
      intro t ht
      rw [hsent] at ht
      split at ht
      · rw [List.dropLast_concat] at ht
        exact (hfailed t ht).2
      · rw [List.append_nil] at ht
        exact (hfailed t ((List.dropLast_sublist _).subset ht)).2
    noted := htraffic.noted (Network.ends_of_returns hreturns)
    ends := hconcludes.ne_nothing
    granted_iff := by
      intro response
      rw [hconcludes.granted_iff, sentTries, htries]
      exact (exists_getLast_iff (fun _ => Delivery.Grants.not_transport) hfailed).symm
    granted_of_any := by
      intro t ht response hgrants
      rw [sentTries, htries] at ht
      obtain ⟨rfl, hlast⟩ := eq_last_of_sent hfailed ht hgrants.not_transport
      exact (hconcludes.granted_iff response).mpr ⟨hlast, hgrants⟩
    refused_iff := by
      rw [hconcludes.refused_iff, sentTries, htries]
      exact (exists_getLast_iff (fun _ => Delivery.Refuses.not_transport) hfailed).symm
    unreachable := by
      intro n why details hreport
      obtain ⟨hn, hall, hlast, htransport⟩ := hconcludes.unreachable_only hreport
      rw [hsent, if_pos hlast]
      refine ⟨hn, ?_, fun t ht => ?_⟩
      · rw [List.length_append, List.length_singleton]
        omega
      · rcases List.mem_append.mp ht with ht | ht
        · exact (hfailed t ht).2
        · rwa [List.mem_singleton.mp ht]
    unreachable_of_all := by
      intro hlength htransport
      rw [hsent] at hlength htransport
      cases hlast : last.isSent with
      | true =>
        rw [hlast, if_pos rfl] at hlength htransport
        rw [List.length_append, List.length_singleton] at hlength
        exact hconcludes.unreachable_of_all hlast (htransport last (by simp)) (by omega)
      | false =>
        rw [hlast, if_neg (by simp), List.append_nil] at hlength
        omega
    blocked_iff := by
      rw [hconcludes.blocked_iff, htries]
      constructor
      · exact fun hblocked => ⟨last, List.mem_append_right _ (List.mem_singleton_self _), hblocked⟩
      · rintro ⟨t, ht, hblocked⟩
        rcases List.mem_append.mp ht with ht | ht
        · exact absurd (hfailed t ht).1 (by simp [hblocked])
        · rwa [← List.mem_singleton.mp ht]
    wrapped := by
      intro t kind message ht hfault htransport hhttp
      have hother : t.delivery.isTransport = false := by
        rw [hfault]
        exact htransport
      rw [sentTries, htries] at ht
      obtain ⟨rfl, hlast⟩ := eq_last_of_sent hfailed (List.mem_of_getLast? ht) hother
      exact hconcludes.wrapped hlast hfault htransport hhttp
    contained := fun f hf => hconcludes.contained hf }

/-- A request that is granted at the third attempt, and one that opens the breaker before. -/
theorem contract_of_request_recovering :
    let c : Client := { service := "records", policy := { RetryPolicy.standard with jitter := false } }
    let r : Request := ⟨"GET", "http://a/", .null, .null⟩
    let patient : Line := ⟨.recovering, { name := "b", threshold := 3, recovery := .int 30 }⟩
    let strict : Line := ⟨.recovering, { name := "b", threshold := 2, recovery := .int 30 }⟩
    1 ≤ c.policy.attempts ∧ Network.recovering.Returns ∧
    (c.request r patient).1.toOption.join.map Response.status = some 200 ∧ c.Contract r patient ∧
    (c.triesOf r strict).map Try.isSent = [true, true, false] ∧ c.Contract r strict := by
  intro c r patient strict
  have hattempts : 1 ≤ c.policy.attempts := by decide
  have hgranted : (c.request r patient).1.toOption.join.map Response.status = some 200 := by
    decide +kernel
  have htried : (c.triesOf r strict).map Try.isSent = [true, true, false] := by decide +kernel
  exact ⟨hattempts, Network.returns_recovering, hgranted, contract_of_request hattempts Network.returns_recovering r,
    htried, contract_of_request hattempts Network.returns_recovering r⟩

end Client

end ChangeRules
