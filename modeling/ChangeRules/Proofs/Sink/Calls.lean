import ChangeRules.Proofs.Action.Errand
import Mathlib.Logic.Relation

/-!
# Requests under way

A request is sent, and until it is answered others may use the same services: the breaker that let it
through may have changed when the answer comes, and the breaker of a host may be gone. Here a request
is made step by step, and between two steps anything may happen to the outlets.

* `Call`, `Client.goOn`: how far a client is with a request, and its next step.
* `Outlet.begin`, `Outlet.Goes`: the first step of a request to a service, and those behind it.
* **`Outlet.goes_request`**: a request that is left alone comes to what it comes to in one go.
* **`Outlet.goes_ended`**: however far a request is, left alone it comes to an end.
-/

namespace ChangeRules

/-- How far a client is with a request. -/
inductive Call where
  /-- The breaker is about to be asked for an attempt; so many more are left behind it. -/
  | asking (attempt : Int) (left : Nat)
  /-- The request was sent, and this is going to come of it. -/
  | sent (attempt : Int) (left : Nat) (outcome : Except Fault Response)
  | ended (outcome : Except Fault (Option Response))

/-! ## Clients -/

namespace Client

/-- A request about which nothing was done yet. -/
def call (c : Client) : Call :=
  match c.policy.attempts.toNat with
  | 0 => .ended (.ok none)
  | left + 1 => .asking 1 left

/-- The breaker is asked, and the request is sent if it lets it through. -/
def ask (c : Client) (r : Request) (attempt : Int) (left : Nat) (l : Line) : Call × Line :=
  if l.breaker.admits l.network.clock then
    (.sent attempt left (c.sendOnce r l.network).1,
      ⟨(c.sendOnce r l.network).2, l.breaker.admitted l.network.clock⟩)
  else (.ended (.error (c.report r (.blocked l.breaker.name))), l)

/-- What is done about the outcome of an attempt: a request is tried again if the network failed. -/
def follow (c : Client) (r : Request) (attempt : Int) (left : Nat)
    (outcome : Except Fault Response) (l : Line) : Call × Line :=
  match outcome with
  | .ok response => (.ended (.ok (some response)), l)
  | .error f =>
    if !isTransport f then (.ended (.error (c.report r f)), l)
    else match left with
      | 0 => (.ended (.error (c.report r (.exhausted c.retrying.job c.policy.attempts f))), l)
      | left + 1 =>
        match c.retrying.delay attempt with
        | .ok d => (.asking (attempt + 1) left, c.retrying.sleep d l)
        | .error flaw => (.ended (.error (c.report r (.misuse (.arithmetic flaw)))), l)

/-- The next step of a request. The outcome of an attempt is noted at the breaker as it is then. -/
def goOn (c : Client) (r : Request) : Call → Line → Call × Line
  | .asking attempt left, l => c.ask r attempt left l
  | .sent attempt left outcome, l =>
    c.follow r attempt left outcome
      { l with breaker := l.breaker.settle isRejection l.network.clock outcome }
  | .ended outcome, l => (.ended outcome, l)

/-- Steps of a request, with nothing else happening in between. -/
def Goes (c : Client) (r : Request) : Call × Line → Call × Line → Prop :=
  Relation.ReflTransGen fun p q => c.goOn r p.1 p.2 = q

/-- An attempt that is left alone is made in one go. -/
theorem goes_follow (c : Client) (r : Request) (attempt : Int) (left : Nat) (l : Line) :
    c.Goes r (c.ask r attempt left l)
      (c.follow r attempt left (c.attempt r l).1 (c.attempt r l).2) := by
  unfold ask
  cases hadmits : l.breaker.admits l.network.clock with
  | true =>
    rw [attempt_of_admits hadmits]
    exact Relation.ReflTransGen.single rfl
  | false =>
    rw [attempt_of_not_admits hadmits]
    exact Relation.ReflTransGen.refl

/-- The last attempt ends a request. -/
theorem follow_last (c : Client) (r : Request) (attempt : Int) (l : Line) :
    c.follow r attempt 0 (c.attempt r l).1 (c.attempt r l).2 =
      (.ended ((c.retrying.from (c.attempt r) attempt 1 l).1.mapError (c.report r)),
        (c.retrying.from (c.attempt r) attempt 1 l).2) := by
  rw [Retrying.from]
  generalize c.attempt r l = behind
  obtain ⟨f | response, l₁⟩ := behind
  · cases hf : isTransport f <;> (simp only [follow, retrying, hf]; rfl)
  · rfl

/-- The last attempt leaves the line alone. -/
theorem follow_zero (c : Client) (r : Request) (attempt : Int) (outcome : Except Fault Response)
    (l l' : Line) :
    c.follow r attempt 0 outcome l' = ((c.follow r attempt 0 outcome l).1, l') := by
  cases outcome with
  | ok response => rfl
  | error f => cases hf : isTransport f <;> simp [follow, hf]

/-- Attempts that are left alone are made in one go. -/
theorem goes_from (c : Client) (r : Request) (attempt : Int) (left : Nat) (l : Line) :
    c.Goes r (c.ask r attempt left l)
      (.ended ((c.retrying.from (c.attempt r) attempt (left + 1) l).1.mapError (c.report r)),
        (c.retrying.from (c.attempt r) attempt (left + 1) l).2) := by
  induction left generalizing attempt l with
  | zero =>
    have hlast := goes_follow c r attempt 0 l
    rw [follow_last] at hlast
    exact hlast
  | succ left ih =>
    refine (goes_follow c r attempt (left + 1) l).trans ?_
    rw [Retrying.from]
    generalize c.attempt r l = behind
    obtain ⟨f | response, l₁⟩ := behind
    · cases hf : isTransport f with
      | false =>
        simp only [follow, retrying, hf]
        exact Relation.ReflTransGen.refl
      | true =>
        -- The network failed: the request sleeps and is tried again, unless the delay is too large.
        have hretried : c.retrying.retried f = true := hf
        simp only [follow, hf, hretried, Bool.not_true, Bool.false_eq_true, if_false,
          Nat.succ_ne_zero]
        cases c.retrying.delay attempt with
        | ok d => exact Relation.ReflTransGen.head rfl (ih (attempt + 1) _)
        | error flaw => exact Relation.ReflTransGen.refl
    · exact Relation.ReflTransGen.refl

/-- A request that is left alone is made in one go. -/
theorem goes_request (c : Client) (r : Request) (l : Line) :
    c.Goes r (c.goOn r c.call l) (.ended (c.request r l).1, (c.request r l).2) := by
  unfold call request retry
  have hattempts : c.retrying.attempts = c.policy.attempts := rfl
  rw [hattempts]
  cases c.policy.attempts.toNat with
  | zero => exact Relation.ReflTransGen.refl
  | succ left => exact goes_from c r 1 left l

/-- Asked, a breaker lets the request through or ends it. -/
theorem ask_cases (c : Client) (r : Request) (attempt : Int) (left : Nat) (l : Line) :
    (∃ outcome, (c.ask r attempt left l).1 = .sent attempt left outcome) ∨
      ∃ answer, (c.ask r attempt left l).1 = .ended answer := by
  unfold ask
  split
  · exact Or.inl ⟨_, rfl⟩
  · exact Or.inr ⟨_, rfl⟩

/-- An attempt ends a request, or there is one attempt less to make. -/
theorem follow_cases (c : Client) (r : Request) (attempt : Int) (left : Nat)
    (outcome : Except Fault Response) (l : Line) :
    (∃ answer, (c.follow r attempt left outcome l).1 = .ended answer) ∨
      ∃ later, left = later + 1 ∧ (c.follow r attempt left outcome l).1 = .asking (attempt + 1) later := by
  unfold follow
  split
  · exact Or.inl ⟨_, rfl⟩
  · split
    · exact Or.inl ⟨_, rfl⟩
    · split
      · exact Or.inl ⟨_, rfl⟩
      · next later =>
        split
        · exact Or.inr ⟨later, rfl, rfl⟩
        · exact Or.inl ⟨_, rfl⟩

end Client

/-! ## Hosts -/

namespace Hosts

variable {h : Hosts} {host : String} {b b' : Breaker}

/-- A host keeps its breaker when it is used. -/
theorem breaker_touch (h : Hosts) (limit : Nat) (host : String) :
    (h.touch limit host).breaker host = h.breaker host := by
  have hothers : (h.breakers.filter (·.1 != host)).lookup host = none := by
    refine List.lookup_eq_none_iff.mpr fun p hp => ?_
    simpa [bne_comm] using (List.mem_filter.mp hp).2
  unfold touch
  dsimp only
  split
  · next hknown =>
    unfold breaker
    rw [List.lookup_append, hothers]
    simp
  · next hnew =>
    -- A breaker that is made now is a fresh one, whether it is kept or dropped at once.
    have hfresh : h.breaker host = fresh host := by
      unfold breaker
      rw [Option.not_isSome_iff_eq_none.mp hnew]
      rfl
    rw [hfresh]
    generalize hall : h.breakers.filter (·.1 != host) ++ [(host, fresh host)] = all
    unfold breaker
    cases hlookup : (all.drop (all.length - limit)).lookup host with
    | none => rfl
    | some b =>
      obtain ⟨front, back, heq, -⟩ := List.lookup_eq_some_iff.mp hlookup
      have hmem : (host, b) ∈ all := List.mem_of_mem_drop (heq ▸ List.mem_append_cons_self)
      rw [← hall] at hmem
      rcases List.mem_append.mp hmem with hmem | hmem
      · exact absurd (List.mem_filter.mp hmem).2 (by simp)
      · simpa using hmem

theorem replace_replace (h : Hosts) (host : String) (b b' : Breaker) :
    (h.replace host b).replace host b' = h.replace host b' := by
  simp only [replace, List.map_map, Hosts.mk.injEq]
  refine List.map_congr_left fun p _ => ?_
  by_cases hp : p.1 = host <;> simp [hp]

/-- A host without a breaker is not given one. -/
theorem replace_of_unknown (hnone : h.breakers.lookup host = none) (b : Breaker) :
    h.replace host b = h := by
  have hother : ∀ p ∈ h.breakers, (host == p.1) = false := fun p hp => by
    simpa using List.lookup_eq_none_iff.mp hnone p hp
  unfold replace
  rw [List.map_congr_left fun p hp => if_neg (by rw [BEq.comm, hother p hp]; simp), List.map_id']

theorem breaker_replace (hsome : (h.breakers.lookup host).isSome = true) (b : Breaker) :
    (h.replace host b).breaker host = b := by
  have hlookup : ∀ ps : List (String × Breaker),
      (ps.map fun p => if p.1 == host then (host, b) else p).lookup host =
        (ps.lookup host).map fun _ => b := by
    intro ps
    induction ps with
    | nil => rfl
    | cons p ps ih =>
      obtain ⟨key, old⟩ := p
      by_cases hp : key = host
      · simp [hp]
      · rw [List.map_cons, if_neg (by simpa using hp), List.lookup_cons, List.lookup_cons,
          beq_false_of_ne (Ne.symm hp)]
        exact ih
  obtain ⟨b', hb'⟩ := Option.isSome_iff_exists.mp hsome
  unfold breaker replace
  rw [hlookup, hb']
  rfl

end Hosts

/-! ## Services -/

namespace Outlet

open Outlets

/-- The client of a service. -/
def client (s : OutletSettings) : Outlet → Client
  | .email => ⟨"email_queue", s.policy, s.draw⟩
  | .records => ⟨"data_mutation", s.policy, s.draw⟩
  | .host _ => hookClient

/-- The network, and the breaker before a service. -/
def line (o : Outlets) : Outlet → Client.Line
  | .email => ⟨o.network, o.email⟩
  | .records => ⟨o.network, o.records⟩
  | .host name => ⟨o.network, o.hosts.breaker name⟩

/-- The outlets with another line to a service. A host that has no breaker does not get one. -/
def put (o : Outlets) (l : Client.Line) : Outlet → Outlets
  | .email => { o with network := l.network, email := l.breaker }
  | .records => { o with network := l.network, records := l.breaker }
  | .host name => { o with network := l.network, hosts := o.hosts.replace name l.breaker }

theorem settings_put (o : Outlets) (l : Client.Line) (outlet : Outlet) :
    (outlet.put o l).settings = o.settings := by
  cases outlet <;> rfl

/-- The next step of a request. -/
def goOn (r : Request) (outlet : Outlet) (call : Call) (o : Outlets) : Call × Outlets :=
  let next := (outlet.client o.settings).goOn r call (outlet.line o)
  (next.1, outlet.put o next.2)

/-- The first step of a request. The breaker of a host is looked up or made. -/
def begin (r : Request) (outlet : Outlet) (o : Outlets) : Call × Outlets :=
  match outlet with
  | .host name =>
    if o.settings.maxHosts < 0 ∧ (o.hosts.breakers.lookup name).isNone then
      (.ended (.error (.outside "KeyError" "dictionary is empty")), { o with hosts := {} })
    else
      goOn r (.host name) hookClient.call
        { o with hosts := o.hosts.touch o.settings.maxHosts.toNat name }
  | outlet => outlet.goOn r (outlet.client o.settings).call o

/-- What can come next of a request that was begun. -/
inductive Next (r : Request) : Outlet → Call × Outlets → Call × Outlets → Prop
  | goOn (outlet : Outlet) (call : Call) (o : Outlets) : Next r outlet (call, o) (outlet.goOn r call o)
  /-- The breaker of the host was dropped since the request was sent, and what it learns is lost. -/
  | lost (name : String) (attempt : Int) (left : Nat) (outcome : Except Fault Response)
      (o : Outlets) : Next r (.host name) (.sent attempt left outcome, o)
        ((goOn r (.host name) (.sent attempt left outcome) o).1, o)

/-- Steps of a request behind the first one, with nothing else happening in between. -/
def Goes (r : Request) (outlet : Outlet) : Call × Outlets → Call × Outlets → Prop :=
  Relation.ReflTransGen (Next r outlet)

/-- A request to a service that keeps its line is made in one go. -/
theorem goes_of_client (r : Request) (outlet : Outlet) {o : Outlets}
    (hline : ∀ l, outlet.line (outlet.put o l) = l)
    (hput : ∀ l l', outlet.put (outlet.put o l) l' = outlet.put o l') {call : Call}
    {l : Client.Line} {q : Call × Client.Line} (h : (outlet.client o.settings).Goes r (call, l) q) :
    outlet.Goes r (call, outlet.put o l) (q.1, outlet.put o q.2) := by
  refine Relation.ReflTransGen.lift (fun p : Call × Client.Line => (p.1, outlet.put o p.2)) ?_ _ _ h
  rintro ⟨call, l⟩ _ rfl
  have hstep := Next.goOn (r := r) outlet call (outlet.put o l)
  simp only [goOn, hline, hput, settings_put] at hstep
  exact hstep

/-- A request to a host that keeps its breaker is made in one go. -/
theorem goes_known (r : Request) {name : String} {o : Outlets}
    (hknown : (o.hosts.breakers.lookup name).isSome = true) :
    Goes r (.host name) (goOn r (.host name) hookClient.call o)
      (.ended (hookClient.request r (line o (.host name))).1,
        put o (hookClient.request r (line o (.host name))).2 (.host name)) := by
  have hline : ∀ l, line (put o l (.host name)) (.host name) = l := fun l => by
    simp only [line, put, Hosts.breaker_replace hknown]
  have hput : ∀ l l', put (put o l (.host name)) l' (.host name) = put o l' (.host name) :=
    fun l l' => by simp only [put, Hosts.replace_replace]
  exact goes_of_client r (.host name) hline hput (hookClient.goes_request r (line o (.host name)))

/-- A host without a breaker is not given one by what a request tells. -/
theorem put_dropped {name : String} {o : Outlets} (hdropped : o.hosts.breakers.lookup name = none)
    (l : Client.Line) : put o l (.host name) = { o with network := l.network } := by
  simp only [put, Hosts.replace_of_unknown hdropped]

theorem goOn_dropped (r : Request) {name : String} {o : Outlets}
    (hdropped : o.hosts.breakers.lookup name = none) (attempt : Int)
    (outcome : Except Fault Response) (l : Client.Line) :
    goOn r (.host name) (.sent attempt 0 outcome) o =
      ((hookClient.follow r attempt 0 outcome l).1, o) := by
  unfold goOn Client.goOn
  dsimp only
  rw [put_dropped hdropped, Client.follow_zero _ _ _ _ l]
  rfl

/-- A request to a host whose breaker was dropped at once is made in one go: there is one attempt, and
what it tells the breaker is lost. -/
theorem goes_dropped (r : Request) {name : String} {o : Outlets}
    (hdropped : o.hosts.breakers.lookup name = none) :
    Goes r (.host name) (goOn r (.host name) hookClient.call o)
      (.ended (hookClient.request r (line o (.host name))).1,
        put o (hookClient.request r (line o (.host name))).2 (.host name)) := by
  have hlast : hookClient.follow r 1 0 (hookClient.attempt r (line o (.host name))).1
      (hookClient.attempt r (line o (.host name))).2 =
        (.ended (hookClient.request r (line o (.host name))).1,
          (hookClient.request r (line o (.host name))).2) :=
    hookClient.follow_last r 1 (line o (.host name))
  generalize hl : line o (.host name) = l at hlast ⊢
  have hstart : goOn r (.host name) hookClient.call o = ((hookClient.ask r 1 0 l).1,
      put o (hookClient.ask r 1 0 l).2 (.host name)) := by
    rw [← hl]
    rfl
  rw [hstart, put_dropped hdropped, put_dropped hdropped]
  cases hadmits : l.breaker.admits l.network.clock with
  | true =>
    rw [Client.attempt_of_admits hadmits, Client.follow_zero _ _ _ _ l] at hlast
    obtain ⟨hcall, hbehind⟩ := Prod.mk.inj hlast
    rw [Client.ask, if_pos hadmits, ← hcall, ← hbehind]
    refine Relation.ReflTransGen.single ?_
    rw [← goOn_dropped r (o := { o with network := (hookClient.sendOnce r l.network).2 }) hdropped]
    exact Next.goOn _ _ _
  | false =>
    rw [Client.attempt_of_not_admits hadmits] at hlast
    obtain ⟨hcall, hbehind⟩ := Prod.mk.inj hlast
    rw [Client.ask, if_neg (by simp [hadmits]), ← hcall, ← hbehind]
    exact Relation.ReflTransGen.refl

theorem goes_host (r : Request) (name : String) (o : Outlets) :
    Goes r (.host name) (goOn r (.host name) hookClient.call o)
      (.ended (hookClient.request r (line o (.host name))).1,
        put o (hookClient.request r (line o (.host name))).2 (.host name)) := by
  cases hlookup : o.hosts.breakers.lookup name with
  | some b => exact goes_known r (by rw [hlookup]; rfl)
  | none => exact goes_dropped r hlookup

/-- **A request that is left alone is made in one go.** -/
theorem goes_request (r : Request) (outlet : Outlet) (o : Outlets) :
    outlet.Goes r (outlet.begin r o) (.ended (outlet.request r o).1, (outlet.request r o).2) := by
  cases outlet with
  | email =>
    exact goes_of_client r .email (fun _ => rfl) (fun _ _ => rfl)
      (o.emailClient.goes_request r ⟨o.network, o.email⟩)
  | records =>
    exact goes_of_client r .records (fun _ => rfl) (fun _ _ => rfl)
      (o.recordsClient.goes_request r ⟨o.network, o.records⟩)
  | host name =>
    unfold begin Outlet.request requestHost
    dsimp only
    split
    · exact Relation.ReflTransGen.refl
    · have h := goes_host r name { o with hosts := o.hosts.touch o.settings.maxHosts.toNat name }
      simp only [line, o.hosts.breaker_touch] at h
      exact h

/-! ### Requests come to an end -/

/-- Left alone, a request that is so far comes to an end. -/
def Ends (r : Request) (outlet : Outlet) (call : Call) : Prop :=
  ∀ o, ∃ answer o', outlet.Goes r (call, o) (.ended answer, o')

theorem ends_ended (r : Request) (outlet : Outlet) (answer : Except Fault (Option Response)) :
    outlet.Ends r (.ended answer) := fun o => ⟨answer, o, Relation.ReflTransGen.refl⟩

theorem Ends.of_goOn {r : Request} {outlet : Outlet} {call : Call}
    (h : ∀ o, outlet.Ends r (outlet.goOn r call o).1) : outlet.Ends r call := by
  intro o
  obtain ⟨answer, o', hend⟩ := h o (outlet.goOn r call o).2
  exact ⟨answer, o', Relation.ReflTransGen.head (Next.goOn outlet call o) hend⟩

/-- An attempt that was made leaves fewer attempts, or none. -/
theorem ends_sent {r : Request} {outlet : Outlet} {left : Nat}
    (hlater : ∀ later, left = later + 1 → ∀ attempt, outlet.Ends r (.asking attempt later))
    (attempt : Int) (outcome : Except Fault Response) :
    outlet.Ends r (.sent attempt left outcome) := by
  refine .of_goOn fun o => ?_
  rcases (outlet.client o.settings).follow_cases r attempt left outcome _ with
    ⟨answer, h⟩ | ⟨later, hleft, h⟩
  · exact h ▸ ends_ended r outlet answer
  · exact h ▸ hlater later hleft (attempt + 1)

theorem ends_asking (r : Request) (outlet : Outlet) (left : Nat) (attempt : Int) :
    outlet.Ends r (.asking attempt left) := by
  induction left using Nat.strongRecOn generalizing attempt with
  | _ left ih =>
    refine .of_goOn fun o => ?_
    rcases (outlet.client o.settings).ask_cases r attempt left (outlet.line o) with
      ⟨outcome, h⟩ | ⟨answer, h⟩
    · exact h ▸ ends_sent (fun later hleft => ih later (by omega)) attempt outcome
    · exact h ▸ ends_ended r outlet answer

/-- **However far a request is, left alone it comes to an end.** -/
theorem goes_ended (r : Request) (outlet : Outlet) (call : Call) : outlet.Ends r call := by
  cases call with
  | asking attempt left => exact ends_asking r outlet left attempt
  | sent attempt left outcome =>
    exact ends_sent (fun later _ => ends_asking r outlet later) attempt outcome
  | ended answer => exact ends_ended r outlet answer

end Outlet

end ChangeRules
