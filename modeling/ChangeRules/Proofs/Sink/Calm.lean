import ChangeRules.Proofs.Sink.Calls
import ChangeRules.Proofs.Sink.Silence

/-!
# Outlets in calm weather

Where every sink grants or refuses a request by what the request is, and no breaker is open, nothing
that one request does shows in another one: the breakers stay closed, nothing is tried again, and each
request gets the answer that is due for it, whatever other requests are under way.

* `Outlets.Calm`: such outlets, and **`Outlets.calm_start`**: those that were never used.
* `Outlet.due`: the answer that is due for a request to a service.
* **`Outlets.Calm.begin`**, **`Outlets.Calm.next`**: the steps of requests keep outlets calm, and lead
  to the answer that is due.
* **`Outlets.Calm.request`**: so does a request that is made in one go.
-/

namespace ChangeRules

/-! ## Answers that are due -/

/-- The answer to a request that gets a response, unless there is no attempt to make it. -/
def Client.due (c : Client) (r : Request) (response : Response) : Except Fault (Option Response) :=
  if c.policy.attempts ≤ 0 then .ok none
  else ((c.judge r response).map some).mapError (c.report r)

/-- A request is on its way to the answer that is due. -/
def Call.IsDue (c : Client) (r : Request) (response : Response) : Call → Prop
  | .asking _ _ => 0 < c.policy.attempts
  | .sent _ _ outcome => 0 < c.policy.attempts ∧ outcome = c.judge r response
  | .ended answer => answer = c.due r response

namespace Client

/-- A line of which the sink answers so, behind a closed breaker. -/
structure Line.Calm (answer : Request → Response) (l : Line) : Prop where
  sinks : ∀ past r, (l.network.sinks past r).delivery = .answered (answer r)
  closed : l.breaker.state = .closed

variable {c : Client} {r : Request} {answer : Request → Response} {l : Line} {b : Breaker}

theorem isTransport_judge {response : Response} {f : Fault} (h : c.judge r response = .error f) :
    isTransport f = false := by
  unfold judge at h
  split at h
  · exact absurd h (by simp)
  · split at h <;> (rw [← Except.error.inj h]; rfl)

/-- A breaker that is told that the service works is closed. -/
theorem state_settle_judge {response : Response}
    (hworks : (Delivery.answered response).isAnswer = true) (now : Double) (b : Breaker) :
    (b.settle isRejection now (c.judge r response)).state = .closed := by
  rw [BreakerWatch.settle_eq_step, c.ofOutcome_judge, if_pos hworks]
  rfl

theorem follow_judge (attempt : Int) (left : Nat) {response : Response}
    (hattempts : 0 < c.policy.attempts) (l : Line) :
    c.follow r attempt left (c.judge r response) l = (.ended (c.due r response), l) := by
  have hdue : c.due r response = ((c.judge r response).map some).mapError (c.report r) := by
    unfold due
    rw [if_neg (by omega)]
  rw [hdue]
  cases hjudge : c.judge r response with
  | ok response => rfl
  | error f =>
    unfold follow
    simp only [isTransport_judge hjudge, Bool.not_false, if_true]
    rfl

theorem isDue_call (c : Client) (r : Request) (response : Response) :
    c.call.IsDue c r response := by
  unfold call
  cases hattempts : c.policy.attempts.toNat with
  | zero =>
    have hnone : c.policy.attempts ≤ 0 := by omega
    simp only [Call.IsDue, due, if_pos hnone]
  | succ left =>
    have hsome : 0 < c.policy.attempts := by omega
    exact hsome

/-- **A step of a request on a calm line** leaves the line calm and leads to the answer that is due. -/
theorem calm_goOn {call : Call} (hl : l.Calm answer)
    (hworks : (Delivery.answered (answer r)).isAnswer = true) (hdue : call.IsDue c r (answer r)) :
    (c.goOn r call l).2.Calm answer ∧ (c.goOn r call l).1.IsDue c r (answer r) := by
  cases call with
  | asking attempt left =>
    have hnot : l.breaker.isOpen = false := by
      unfold Breaker.isOpen
      rw [hl.closed]
      rfl
    have hadmits : l.breaker.admits l.network.clock = true := by
      unfold Breaker.admits
      rw [hnot]
      rfl
    have hanswer : (c.sendOnce r l.network).1 = c.judge r (answer r) := by
      rw [sendOnce_outcome, hl.sinks]
    simp only [goOn, ask, if_pos hadmits, Breaker.admitted_eq_self_of_not_isOpen hnot]
    refine ⟨⟨fun past r' => ?_, hl.closed⟩, hdue, hanswer⟩
    rw [sinks_sendOnce]
    exact hl.sinks past r'
  | sent attempt left outcome =>
    obtain ⟨hattempts, rfl⟩ := hdue
    simp only [goOn, follow_judge attempt left hattempts]
    exact ⟨⟨hl.sinks, state_settle_judge hworks _ _⟩, rfl⟩
  | ended answer => exact ⟨hl, hdue⟩

end Client

/-! ## Outlets -/

/-- The breakers are closed, and every sink answers by what the request is: it grants or refuses it. -/
structure Outlets.Calm (s : OutletSettings) (answer : Request → Response) (o : Outlets) : Prop where
  settings : o.settings = s
  sinks : ∀ past r, (o.network.sinks past r).delivery = .answered (answer r)
  works : ∀ r, (Delivery.answered (answer r)).isAnswer = true
  email : o.email.state = .closed
  records : o.records.state = .closed
  hosts : ∀ p ∈ o.hosts.breakers, p.2.state = .closed
  /-- Where no number of hosts is small enough, none was ever kept (`Outlet.few_request`). -/
  few : s.maxHosts < 0 → o.hosts.breakers = []

/-- Outlets that were never used are calm. -/
theorem Outlets.calm_start {s : OutletSettings} {answer : Request → Response} {network : Network}
    (hsinks : ∀ past r, (network.sinks past r).delivery = .answered (answer r))
    (hworks : ∀ r, (Delivery.answered (answer r)).isAnswer = true) :
    (Outlets.start s network).Calm s answer where
  settings := rfl
  sinks := hsinks
  works := hworks
  email := rfl
  records := rfl
  hosts _ hp := absurd hp List.not_mem_nil
  few _ := rfl

/-- Where no number of hosts is small enough, no request leaves one behind, whatever the sinks do. -/
theorem Outlet.few_request {o : Outlets} (hneg : o.settings.maxHosts < 0)
    (h : o.hosts.breakers = []) (r : Request) (outlet : Outlet) :
    (outlet.request r o).2.hosts.breakers = [] := by
  cases outlet with
  | email => exact h
  | records => exact h
  | host name =>
    have hunknown : (o.hosts.breakers.lookup name).isNone = true := by
      rw [h]
      rfl
    unfold Outlet.request Outlets.requestHost
    dsimp only
    rw [if_pos ⟨hneg, hunknown⟩]

/-- Whether requests to a service are made at all: those to hosts need a number of hosts. -/
def Outlet.isServed (s : OutletSettings) : Outlet → Bool
  | .host _ => 0 ≤ s.maxHosts
  | _ => true

/-- The answer that is due for a request to a service. -/
def Outlet.due (s : OutletSettings) (answer : Request → Response) (r : Request) (outlet : Outlet) :
    Except Fault (Option Response) :=
  if outlet.isServed s then (outlet.client s).due r (answer r)
  else .error (.outside "KeyError" "dictionary is empty")

/-- A request to a service is on its way to the answer that is due. -/
def Outlet.IsDue (s : OutletSettings) (answer : Request → Response) (r : Request) (outlet : Outlet)
    (call : Call) : Prop :=
  if outlet.isServed s then call.IsDue (outlet.client s) r (answer r)
  else call = .ended (.error (.outside "KeyError" "dictionary is empty"))

theorem Outlet.eq_due {s : OutletSettings} {answer : Request → Response} {r : Request}
    {outlet : Outlet} {a : Except Fault (Option Response)} (h : outlet.IsDue s answer r (.ended a)) :
    a = outlet.due s answer r := by
  unfold IsDue at h
  unfold due
  split at h
  · next hserved =>
    rw [if_pos hserved]
    exact h
  · next hnot =>
    rw [if_neg hnot]
    exact Call.ended.inj h

namespace Outlets.Calm

variable {s : OutletSettings} {answer : Request → Response} {o o' : Outlets} {outlet : Outlet}
  {r : Request} {call : Call} {l : Client.Line}

theorem breaker (h : o.Calm s answer) (name : String) : (o.hosts.breaker name).state = .closed := by
  unfold Hosts.breaker
  cases hlookup : o.hosts.breakers.lookup name with
  | none => rfl
  | some b =>
    obtain ⟨front, back, heq, -⟩ := List.lookup_eq_some_iff.mp hlookup
    exact h.hosts (name, b) (by rw [heq]; exact List.mem_append_cons_self)

theorem line (h : o.Calm s answer) (outlet : Outlet) : (outlet.line o).Calm answer := by
  cases outlet with
  | email => exact ⟨h.sinks, h.email⟩
  | records => exact ⟨h.sinks, h.records⟩
  | host name => exact ⟨h.sinks, h.breaker name⟩

theorem put (h : o.Calm s answer) (outlet : Outlet) (hl : l.Calm answer) :
    (outlet.put o l).Calm s answer := by
  cases outlet with
  | email => exact { h with sinks := hl.sinks, email := hl.closed }
  | records => exact { h with sinks := hl.sinks, records := hl.closed }
  | host name =>
    refine { h with sinks := hl.sinks, hosts := fun p hp => ?_, few := fun hneg => ?_ }
    · obtain ⟨q, hq, rfl⟩ := List.mem_map.mp hp
      split
      · exact hl.closed
      · exact h.hosts q hq
    · simp only [Outlet.put, Hosts.replace, h.few hneg, List.map_nil]

/-- A host is used. -/
theorem touch (h : o.Calm s answer) (name : String) (hserved : 0 ≤ s.maxHosts) (limit : Nat) :
    ({ o with hosts := o.hosts.touch limit name } : Outlets).Calm s answer := by
  have hall : ∀ p ∈ (o.hosts.touch limit name).breakers, p ∈ o.hosts.breakers ∨
      p = (name, o.hosts.breaker name) := by
    intro p hp
    have hmem : p ∈ o.hosts.breakers.filter (·.1 != name) ++ [(name, o.hosts.breaker name)] := by
      unfold Hosts.touch at hp
      dsimp only at hp
      split at hp
      · exact hp
      · exact List.mem_of_mem_drop hp
    rcases List.mem_append.mp hmem with hmem | hmem
    · exact Or.inl (List.mem_filter.mp hmem).1
    · exact Or.inr (List.mem_singleton.mp hmem)
  refine { h with hosts := fun p hp => ?_, few := fun hneg => absurd hserved (by omega) }
  rcases hall p hp with hold | rfl
  · exact h.hosts p hold
  · exact h.breaker name

/-- A step of a request that is under way. -/
theorem goOn (h : o.Calm s answer) (hdue : outlet.IsDue s answer r call) :
    (outlet.goOn r call o).2.Calm s answer ∧ outlet.IsDue s answer r (outlet.goOn r call o).1 := by
  unfold Outlet.IsDue at hdue ⊢
  unfold Outlet.goOn
  rw [h.settings]
  split at hdue
  · next hserved =>
    obtain ⟨hl, hcall⟩ := Client.calm_goOn (h.line outlet) (h.works r) hdue
    exact ⟨h.put outlet hl, by rw [if_pos hserved]; exact hcall⟩
  · next hnot =>
    rw [hdue, if_neg hnot]
    exact ⟨h.put outlet (h.line outlet), rfl⟩

/-- **The first step of a request.** -/
theorem begin (h : o.Calm s answer) (r : Request) (outlet : Outlet) :
    (outlet.begin r o).2.Calm s answer ∧ outlet.IsDue s answer r (outlet.begin r o).1 := by
  obtain rfl := h.settings
  have hcall : ∀ outlet : Outlet, outlet.isServed o.settings = true →
      outlet.IsDue o.settings answer r (outlet.client o.settings).call := fun outlet hserved => by
    unfold Outlet.IsDue
    rw [if_pos hserved]
    exact Client.isDue_call _ r (answer r)
  cases outlet with
  | email => exact h.goOn (hcall .email rfl)
  | records => exact h.goOn (hcall .records rfl)
  | host name =>
    unfold Outlet.begin
    dsimp only
    by_cases hneg : o.settings.maxHosts < 0
    · have hno : Outlet.isServed o.settings (.host name) = false := by
        simp [Outlet.isServed, hneg]
      rw [if_pos ⟨hneg, by rw [h.few hneg]; rfl⟩]
      refine ⟨{ h with hosts := by simp, few := fun _ => rfl }, ?_⟩
      unfold Outlet.IsDue
      rw [if_neg (by simp [hno])]
    · have hserved : 0 ≤ o.settings.maxHosts := by omega
      rw [if_neg (fun hboth => hneg hboth.1)]
      exact (h.touch name hserved _).goOn (hcall (.host name) (by simp [Outlet.isServed, hserved]))

/-- **The steps behind it.** -/
theorem next (h : o.Calm s answer) (hdue : outlet.IsDue s answer r call) {call' : Call}
    (hnext : outlet.Next r (call, o) (call', o')) :
    o'.Calm s answer ∧ outlet.IsDue s answer r call' := by
  cases hnext with
  | goOn => exact h.goOn hdue
  | lost name attempt left outcome => exact ⟨h, (h.goOn hdue).2⟩

theorem goes (h : o.Calm s answer) (hdue : outlet.IsDue s answer r call) {q : Call × Outlets}
    (hgoes : outlet.Goes r (call, o) q) : q.2.Calm s answer ∧ outlet.IsDue s answer r q.1 := by
  induction hgoes with
  | refl => exact ⟨h, hdue⟩
  | tail _ hnext ih => exact ih.1.next ih.2 hnext

/-- A request that is made in one go gets the answer that is due. -/
theorem request (h : o.Calm s answer) (r : Request) (outlet : Outlet) :
    (outlet.request r o).2.Calm s answer ∧ (outlet.request r o).1 = outlet.due s answer r := by
  obtain ⟨hcalm, hdue⟩ := h.begin r outlet
  obtain ⟨hend, hanswer⟩ := hcalm.goes hdue (outlet.goes_request r o)
  exact ⟨hend, Outlet.eq_due hanswer⟩

end Outlets.Calm

end ChangeRules
