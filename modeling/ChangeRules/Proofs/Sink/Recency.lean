import ChangeRules.Proofs.Sink.Traffic
import ChangeRules.Sink.Outlets
import Mathlib.Data.List.Dedup
import Mathlib.Data.List.DropRight

/-!
# The hosts used last

Requests to any address go through a breaker of the address's host, and only so many hosts have one.
A host that is used moves to the end, and a new one drops those at the front; a host that was dropped
and comes again has a fresh breaker. Here this is told from the visits that were made alone: which
hosts have a breaker, and what each breaker is.

* `Visit`: a request to a host, and what it found.
* `recent`: the hosts visited last, each once, in the order of the last visits.
* `Recalls`: a breaker is what the visits to its host made of a fresh one, since the host was kept.
* **`Recalls.visit`**, **`Hosts.Remembers.visit`**: the next visit keeps the account.
* **`recency_of_run`**: so it is for any use of any addresses.
-/

namespace ChangeRules

/-! ## The last items of a list -/

section

variable {α : Type} {l front : List α} {limit : Nat}

theorem rtake_of_length_le (h : l.length ≤ limit) : l.rtake limit = l := by
  rw [List.rtake, Nat.sub_eq_zero_of_le h, List.drop_zero]

theorem length_rtake_le (l : List α) (limit : Nat) : (l.rtake limit).length ≤ limit := by
  rw [List.rtake, List.length_drop]
  omega

theorem rtake_append_of_le (h : limit ≤ l.length) : (front ++ l).rtake limit = l.rtake limit := by
  have hdrop : (front ++ l).length - limit = front.length + (l.length - limit) := by
    rw [List.length_append]
    omega
  rw [List.rtake, List.rtake, hdrop, List.drop_append, List.drop_of_length_le (by omega),
    List.nil_append, Nat.add_sub_cancel_left]

variable [DecidableEq α]

theorem length_filter_ne (h : l.Nodup) (a : α) :
    (l.filter (· != a)).length = if a ∈ l then l.length - 1 else l.length := by
  rw [← h.erase_eq_filter, List.length_erase]

/-- An item that comes again moves to the end. -/
theorem dedup_concat (l : List α) (a : α) :
    (l ++ [a]).dedup = l.dedup.filter (· != a) ++ [a] := by
  induction l with
  | nil => rfl
  | cons b l ih =>
    rw [List.cons_append, List.dedup_cons, List.dedup_cons, ih]
    by_cases hb : b ∈ l
    · rw [if_pos hb, if_pos (List.mem_append_left _ hb)]
    · rw [if_neg hb, List.filter_cons]
      by_cases hba : b = a
      · simp [hba]
      · simp [hb, hba]

/-- When an item moves to the end, what is dropped at the front may as well be dropped before. -/
theorem rtake_moved (h : l.Nodup) (limit : Nat) (a : α) :
    (l.filter (· != a) ++ [a]).rtake limit =
      ((l.rtake limit).filter (· != a) ++ [a]).rtake limit := by
  obtain hshort | hlong := Nat.le_total l.length limit
  · rw [rtake_of_length_le hshort]
  · have hsplit : l = l.take (l.length - limit) ++ l.rtake limit := (List.take_append_drop _ _).symm
    have hnodup : (l.rtake limit).Nodup := h.sublist (List.drop_sublist _ _)
    have hlength : (l.rtake limit).length = limit := by
      rw [List.rtake, List.length_drop]
      omega
    -- One of the last items at most moves, so there are enough of them without the front.
    conv_lhs => rw [hsplit, List.filter_append, List.append_assoc]
    refine rtake_append_of_le ?_
    rw [List.length_append, length_filter_ne hnodup, List.length_singleton]
    split <;> omega

end

/-! ## Visits -/

/-- A request to a host, and what it finds. -/
structure Visit extends Try where
  host : String

/-- The hosts visited last, each once, the one visited last at the end. -/
def recent (limit : Nat) (visits : List Visit) : List String :=
  (visits.map Visit.host).dedup.rtake limit

theorem nodup_recent (limit : Nat) (visits : List Visit) : (recent limit visits).Nodup :=
  (List.nodup_dedup _).sublist (List.drop_sublist _ _)

theorem recent_concat (limit : Nat) (visits : List Visit) (v : Visit) :
    recent limit (visits ++ [v]) =
      ((recent limit visits).filter (· != v.host) ++ [v.host]).rtake limit := by
  rw [recent, List.map_append, List.map_singleton, dedup_concat,
    rtake_moved (List.nodup_dedup _), recent]

/-- Who is among the last ones was so before, or comes now. -/
theorem mem_recent_of_concat {limit : Nat} {visits : List Visit} {v : Visit} {host : String}
    (h : host ∈ recent limit (visits ++ [v])) (hother : v.host ≠ host) :
    host ∈ recent limit visits := by
  rw [recent_concat] at h
  rcases List.mem_append.mp (List.mem_of_mem_drop h) with h | h
  · exact List.mem_of_mem_filter h
  · exact absurd (List.mem_singleton.mp h).symm hother

/-- What a breaker learns of a visit. -/
def Visit.note (b : Breaker) (v : Visit) : Breaker :=
  (Outlets.hookClient.attempt v.request ⟨v.line.network, b⟩).2.breaker

/-- The breaker that visits make of a fresh one, where only those to its host matter. -/
def Visit.replay (host : String) (visits : List Visit) : Breaker :=
  (visits.filter (·.host == host)).foldl note (Hosts.fresh host)

/-- A host's breaker is what the visits since the host was kept made of a fresh one: before them the
host was not among the last ones, and since the first of them it always was. -/
def Recalls (limit : Nat) (visits : List Visit) (host : String) (b : Breaker) : Prop :=
  ∃ past since, visits = past ++ since ∧ host ∉ recent limit past ∧
    (∀ part, part ≠ [] → part <+: since → host ∈ recent limit (past ++ part)) ∧
    b = Visit.replay host since

namespace Recalls

variable {limit : Nat} {visits : List Visit} {host : String} {b : Breaker} {v : Visit}

/-- A host that is not among the last ones has nothing to recall. -/
theorem fresh (h : host ∉ recent limit visits) : Recalls limit visits host (Hosts.fresh host) :=
  ⟨visits, [], (List.append_nil _).symm, h,
    fun _ hpart hprefix => absurd (List.prefix_nil.mp hprefix) hpart, rfl⟩

/-- **The next visit is recalled** by a breaker that is kept, if it is one to its host. -/
theorem visit (h : Recalls limit visits host b) (hkept : host ∈ recent limit (visits ++ [v])) :
    Recalls limit (visits ++ [v]) host (if v.host = host then Visit.note b v else b) := by
  obtain ⟨past, since, rfl, habsent, hsince, rfl⟩ := h
  refine ⟨past, since ++ [v], List.append_assoc .., habsent, fun part hpart hprefix => ?_, ?_⟩
  · rcases List.prefix_concat_iff.mp hprefix with rfl | hprefix
    · rwa [← List.append_assoc]
    · exact hsince part hpart hprefix
  · unfold Visit.replay
    rw [List.filter_append]
    by_cases hv : v.host = host
    · rw [if_pos hv, List.filter_cons_of_pos (by simpa using hv), List.filter_nil, List.foldl_concat]
    · rw [if_neg hv, List.filter_cons_of_neg (by simpa using hv), List.filter_nil, List.append_nil]

end Recalls

/-! ## Hosts -/

namespace Hosts

/-- Hosts that have a breaker each. -/
def of (names : List String) (breaker : String → Breaker) : Hosts :=
  ⟨names.map fun name => (name, breaker name)⟩

variable {names : List String} {f : String → Breaker} {host : String} {limit : Nat}

theorem lookup_of (names : List String) (f : String → Breaker) (host : String) :
    (of names f).breakers.lookup host = if host ∈ names then some (f host) else none := by
  split
  · next h => exact List.lookup_graph f h
  · next h =>
    refine List.lookup_eq_none_iff.mpr fun p hp => ?_
    obtain ⟨name, hname, rfl⟩ := List.mem_map.mp hp
    exact bne_iff_ne.mpr fun heq => h (heq ▸ hname)

theorem breaker_of (names : List String) (f : String → Breaker) (host : String) :
    (of names f).breaker host = if host ∈ names then f host else fresh host := by
  rw [breaker, lookup_of]
  split <;> rfl

theorem of_breaker_of (names : List String) (f : String → Breaker) :
    of names (of names f).breaker = of names f := by
  refine congrArg Hosts.mk (List.map_congr_left fun name hname => ?_)
  rw [breaker_of, if_pos hname]

theorem replace_of (names : List String) (f : String → Breaker) (host : String) (b : Breaker) :
    (of names f).replace host b = of names (Function.update f host b) := by
  unfold replace of
  rw [List.map_map]
  refine congrArg Hosts.mk (List.map_congr_left fun name _ => ?_)
  by_cases hname : name = host
  · simp [hname]
  · simp [hname]

/-- A host that is used moves to the end, and if it is new those at the front are dropped. -/
theorem touch_of (hnodup : names.Nodup) (hlimit : names.length ≤ limit) (f : String → Breaker)
    (host : String) : (of names f).touch limit host =
      of ((names.filter (· != host) ++ [host]).rtake limit) (of names f).breaker := by
  have hothers : (of names f).breakers.filter (·.1 != host) ++ [(host, (of names f).breaker host)] =
      (names.filter (· != host) ++ [host]).map fun name => (name, (of names f).breaker name) := by
    rw [List.map_append, List.map_singleton, of, List.filter_map]
    refine congrArg (· ++ _) (List.map_congr_left fun name hname => ?_)
    rw [← of, breaker_of, if_pos (List.mem_of_mem_filter hname)]
  unfold touch
  dsimp only
  rw [hothers, lookup_of]
  by_cases hknown : host ∈ names
  · -- Nothing is dropped for a known host, but then there are only as many hosts as before.
    have hlength : (names.filter (· != host) ++ [host]).length ≤ limit := by
      have hpos := List.length_pos_of_mem hknown
      rw [List.length_append, length_filter_ne hnodup, if_pos hknown, List.length_singleton]
      omega
    rw [if_pos hknown, Option.isSome_some, if_pos rfl, rtake_of_length_le hlength]
    rfl
  · rw [if_neg hknown, if_neg (by simp), List.length_map, ← List.map_drop]
    rfl

/-- The hosts with a breaker are those visited last, and their breakers recall these visits. -/
structure Remembers (limit : Nat) (visits : List Visit) (h : Hosts) : Prop where
  kept : h = of (recent limit visits) h.breaker
  recalls : ∀ host, Recalls limit visits host (h.breaker host)

namespace Remembers

variable {visits : List Visit} {h : Hosts}

theorem nothing (limit : Nat) : Remembers limit [] {} :=
  ⟨by simp [of, recent], fun _ => .fresh (by simp [recent])⟩

/-- The hosts behind a visit. -/
theorem used (hh : Remembers limit visits h) (v : Visit) (b : Breaker) :
    (h.touch limit v.host).replace v.host b =
      of (recent limit (visits ++ [v])) (Function.update h.breaker v.host b) := by
  rw [hh.kept, touch_of (nodup_recent limit visits) (length_rtake_le _ _), replace_of,
    recent_concat, ← hh.kept]

/-- **A visit is remembered** when the breaker of its host learns of it. -/
theorem visit (hh : Remembers limit visits h) (v : Visit) :
    Remembers limit (visits ++ [v])
      ((h.touch limit v.host).replace v.host (v.note (h.breaker v.host))) := by
  rw [hh.used]
  refine ⟨(of_breaker_of _ _).symm, fun host => ?_⟩
  rw [breaker_of]
  -- Whoever is not kept starts afresh, the visitor too if there is no room at all.
  split
  · next hkept =>
    have hrecalls := (hh.recalls host).visit hkept
    by_cases hv : v.host = host
    · subst hv
      rw [Function.update_self]
      rwa [if_pos rfl] at hrecalls
    · rw [Function.update_of_ne (Ne.symm hv)]
      rwa [if_neg hv] at hrecalls
  · next hgone => exact .fresh hgone

/-- A visit to one host leaves the breakers that others keep alone. -/
theorem lookup_of_used (hh : Remembers limit visits h) {v : Visit} {b b' : Breaker} {other : String}
    (hother : v.host ≠ other)
    (hkept : ((h.touch limit v.host).replace v.host b).breakers.lookup other = some b') :
    h.breakers.lookup other = some b' := by
  rw [hh.used, lookup_of] at hkept
  split at hkept
  · next hmem =>
    rw [Function.update_of_ne (Ne.symm hother)] at hkept
    rw [hh.kept, lookup_of, if_pos (mem_recent_of_concat hmem hother)]
    exact hkept
  · exact absurd hkept (by simp)

end Remembers

end Hosts

/-! ## Outlets in use -/

/-- What outlets for any address are used for. -/
inductive HookUse where
  | deliver (address method : String) (payload headers : Value)
  /-- Nothing is sent for some seconds. -/
  | wait (seconds : Double)

namespace Outlets

/-- The outlets behind a use. -/
def hook (o : Outlets) : HookUse → Outlets
  | .deliver address method payload headers => (deliver address method payload headers o).2
  | .wait seconds => { o with network := o.network.advance seconds }

/-- The outlets behind several uses, one after the other. -/
def runHooks (uses : List HookUse) (o : Outlets) : Outlets := uses.foldl hook o

/-- The visit that a use comes to, if there is one. -/
def visit? (o : Outlets) : HookUse → Option Visit
  | .deliver address method payload headers =>
    match Address.host address with
    | .ok host =>
      let body := if method = "GET" then .null else payload
      some { host, request := { method, address, body, headers },
             line := ⟨o.network, o.hosts.breaker host⟩ }
    | .error _ => none
  | .wait _ => none

/-- The visits that several uses come to. -/
def visits : List HookUse → Outlets → List Visit
  | [], _ => []
  | use :: uses, o => (o.visit? use).toList ++ visits uses (o.hook use)

/-- A request that is sent once is a single attempt. -/
theorem request_hookClient (r : Request) (l : Client.Line) :
    (hookClient.request r l).2 = (hookClient.attempt r l).2 := by
  have hfrom : (hookClient.request r l).2 =
      (hookClient.retrying.from (hookClient.attempt r) 1 1 l).2 := rfl
  rw [hfrom, Retrying.from]
  generalize hookClient.attempt r l = behind
  obtain ⟨f | response, l'⟩ := behind
  · dsimp only
    split <;> rfl
  · rfl

variable {o : Outlets} {use : HookUse} {v : Visit}

/-- A visit goes to the host of its address and finds the breaker of this host. -/
theorem of_visit {address method : String} {payload headers : Value}
    (hv : o.visit? (.deliver address method payload headers) = some v) :
    Address.host address = .ok v.host ∧
      v.request = { method, address, body := if method = "GET" then .null else payload, headers } ∧
      v.line = ⟨o.network, o.hosts.breaker v.host⟩ := by
  unfold visit? at hv
  dsimp only at hv
  split at hv
  · next host hhost =>
    rw [hhost, ← Option.some.inj hv]
    exact ⟨rfl, rfl, rfl⟩
  · exact absurd hv (by simp)

theorem line_of_visit (hv : o.visit? use = some v) :
    v.line = ⟨o.network, o.hosts.breaker v.host⟩ := by
  cases use with
  | wait seconds => exact absurd hv (by simp [visit?])
  | deliver address method payload headers => exact (of_visit hv).2.2

theorem hook_of_visit (hlimit : 0 ≤ o.settings.maxHosts) (hv : o.visit? use = some v) :
    o.hook use = { o with
      network := (hookClient.attempt v.request v.line).2.network
      hosts := (o.hosts.touch o.settings.maxHosts.toNat v.host).replace v.host
        (v.note (o.hosts.breaker v.host)) } := by
  cases use with
  | wait seconds => exact absurd hv (by simp [visit?])
  | deliver address method payload headers =>
    obtain ⟨hhost, hrequest, hline⟩ := of_visit hv
    unfold hook deliver requestHost Visit.note
    dsimp only
    rw [hhost, hrequest, hline]
    dsimp only
    rw [if_neg (by omega), request_hookClient]

/-- A use that is no visit lets time pass. -/
theorem hook_of_no_visit (hv : o.visit? use = none) :
    ∃ network, network.sent = o.network.sent ∧ o.hook use = { o with network } := by
  cases use with
  | wait seconds => exact ⟨o.network.advance seconds, rfl, rfl⟩
  | deliver address method payload headers =>
    unfold visit? at hv
    dsimp only at hv
    split at hv
    · exact absurd hv (by simp)
    · next flaw hflaw =>
      refine ⟨o.network, rfl, ?_⟩
      unfold hook deliver
      dsimp only
      rw [hflaw]

/-- What outlets are behind visits to any addresses. -/
structure Visited (limit : Nat) (sent : List Request) (visits : List Visit) (o : Outlets) :
    Prop where
  settings : o.settings.maxHosts = limit
  hosts : o.hosts.Remembers limit visits
  /-- What was sent are the requests that the breakers let through. -/
  sent : o.network.sent = sent ++ (visits.filter (·.isSent)).map (·.request)
  /-- A visit finds the breaker that the visits before it make. -/
  found : ∀ before v, before ++ [v] <+: visits → Recalls limit before v.host v.line.breaker

namespace Visited

variable {limit : Nat} {sent : List Request} {vs : List Visit}

/-- **Every use keeps the account.** -/
theorem hook (h : Visited limit sent vs o) (use : HookUse) :
    Visited limit sent (vs ++ (o.visit? use).toList) (o.hook use) := by
  cases hv : o.visit? use with
  | none =>
    obtain ⟨network, hsent, hbehind⟩ := hook_of_no_visit hv
    rw [Option.toList_none, List.append_nil, hbehind]
    exact ⟨h.settings, h.hosts, hsent.trans h.sent, h.found⟩
  | some v =>
    have hline := line_of_visit hv
    have hlimit : 0 ≤ o.settings.maxHosts := by
      rw [h.settings]
      exact Int.natCast_nonneg limit
    rw [Option.toList_some, hook_of_visit hlimit hv]
    refine ⟨h.settings, ?_, ?_, fun before w hprefix => ?_⟩
    · rw [h.settings, Int.toNat_natCast]
      exact h.hosts.visit v
    · have htraffic : Traffic hookClient v.line [v.toTry]
          (hookClient.attempt v.request v.line).2 := .attempt v.request (.done _)
      have hnetwork : v.line.network = o.network := by rw [hline]
      rw [htraffic.sent, hnetwork, h.sent, List.filter_append, List.map_append, List.append_assoc]
      cases hadmitted : v.isSent <;> simp [hadmitted]
    · rcases List.prefix_concat_iff.mp hprefix with hlast | hprefix
      · obtain ⟨rfl, rfl⟩ := List.concat_inj.mp (by simpa using hlast)
        rw [hline]
        exact h.hosts.recalls w.host
      · exact h.found before w hprefix

theorem runHooks (h : Visited limit sent vs o) (uses : List HookUse) :
    Visited limit sent (vs ++ o.visits uses) (o.runHooks uses) := by
  induction uses generalizing o vs with
  | nil => simpa [Outlets.visits, Outlets.runHooks] using h
  | cons use uses ih =>
    rw [Outlets.visits, ← List.append_assoc]
    exact ih (h.hook use)

end Visited

theorem visited_start {settings : OutletSettings} (h : 0 ≤ settings.maxHosts) (network : Network) :
    Visited settings.maxHosts.toNat network.sent [] (start settings network) where
  settings := (Int.toNat_of_nonneg h).symm
  hosts := .nothing _
  sent := (List.append_nil _).symm
  found before v hprefix := absurd (List.prefix_nil.mp hprefix) (by simp)

/-- **The hosts used last are kept, each with a breaker of its own.** However outlets with new
breakers are used for any addresses, the hosts that have a breaker are those visited last, in the order
of their last visits; a breaker is what the visits to its host made of a fresh one since the host was
kept, and this is the breaker that each visit finds and that alone decides whether it is sent. The
breakers that other hosts keep stay as they are. -/
theorem recency_of_run {settings : OutletSettings} (h : 0 ≤ settings.maxHosts) (network : Network)
    (uses : List HookUse) :
    let o := (start settings network).runHooks uses
    let visits := (start settings network).visits uses
    let limit := settings.maxHosts.toNat
    o.hosts.breakers = (recent limit visits).map (fun host => (host, o.hosts.breaker host)) ∧
    (∀ host, Recalls limit visits host (o.hosts.breaker host)) ∧
    (∀ before v after, visits = before ++ v :: after →
      Recalls limit before v.host v.line.breaker) ∧
    o.network.sent = network.sent ++ (visits.filter (·.isSent)).map (·.request) ∧
    ∀ address method payload headers other b, Address.host address ≠ .ok other →
      (deliver address method payload headers o).2.hosts.breakers.lookup other = some b →
        o.hosts.breakers.lookup other = some b := by
  intro o visits limit
  have hvisited : Visited limit network.sent visits o := (visited_start h network).runHooks uses
  refine ⟨congrArg Hosts.breakers hvisited.hosts.kept, hvisited.hosts.recalls,
    fun before v after hvisits => ?_, hvisited.sent,
    fun address method payload headers other b hother hkept => ?_⟩
  · refine hvisited.found before v ⟨after, ?_⟩
    rw [hvisits, List.append_assoc, List.singleton_append]
  · have hlimit : 0 ≤ o.settings.maxHosts := by
      rw [hvisited.settings]
      exact Int.natCast_nonneg limit
    have hhook : (deliver address method payload headers o).2 =
        o.hook (.deliver address method payload headers) := rfl
    rw [hhook] at hkept
    cases hv : o.visit? (.deliver address method payload headers) with
    | none =>
      obtain ⟨network', -, hbehind⟩ := hook_of_no_visit hv
      rwa [hbehind] at hkept
    | some v =>
      rw [hook_of_visit hlimit hv] at hkept
      dsimp only at hkept
      rw [hvisited.settings, Int.toNat_natCast] at hkept
      exact hvisited.hosts.lookup_of_used (fun hhost => hother (hhost ▸ (of_visit hv).1)) hkept

/-- Two hosts in turn, where one of them has a breaker at a time. -/
def crowded : List HookUse :=
  [.deliver "http://b" "POST" .null .null, .deliver "http://a" "POST" .null .null,
    .deliver "http://b" "POST" .null .null, .wait (.ofInt 5), .deliver "http://b/x" "GET" .null .null]

theorem recency_of_run_crowded :
    let settings : OutletSettings := { maxHosts := 1 }
    let network : Network := { sinks := fun _ _ => ⟨.zero, .answered ⟨500, ""⟩⟩ }
    let o := (start settings network).runHooks crowded
    let visits := (start settings network).visits crowded
    0 ≤ settings.maxHosts ∧ recent 1 visits = ["b"] ∧ (o.hosts.breaker "b").failures = 2 ∧
      o.hosts.breakers = (recent 1 visits).map (fun host => (host, o.hosts.breaker host)) ∧
      Recalls 1 visits "b" (o.hosts.breaker "b") :=
  have h := @recency_of_run { maxHosts := 1 } (by decide)
    { sinks := fun _ _ => ⟨.zero, .answered ⟨500, ""⟩⟩ } crowded
  ⟨by decide, by decide +kernel, by decide +kernel, h.1, h.2.1 "b"⟩

end Outlets

end ChangeRules
