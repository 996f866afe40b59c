import ChangeRules.Engine.Toggle
import ChangeRules.Proofs.Store.Boundary
import Mathlib.Algebra.BigOperators.Group.Finset.Basic
import Mathlib.Algebra.Group.Nat.Even
import Mathlib.Data.Fintype.Card

/-!
# Toggles that overlap

Any number of requests toggle one rule. Each reads the rule in one call of the store and sets it in
another one, and the calls of different requests follow one another in any order. A request that sets
the rule flips what it has read, whatever others have made of the rule since, so their flips are lost.

* `Toggling`: requests and the world that they share; calls are listed with the latest one first.
* `Toggling.flips`, `Toggling.settings`: how many flips the rule shows after some calls, and how often it
  was set.
* **`Toggling.Shows.call`**, **`Toggling.shows_after`**: the rule shows so many flips, step by step and
  in every run.
* **`Toggling.flips_eq_settings_iff`**: none is lost exactly if the requests came one after the other.
* **`Toggling.flipped_iff`**: it is as if all requests had flipped the rule exactly if the number of
  flips that are lost is even.
-/

namespace ChangeRules

/-! ## Flips of a rule -/

namespace Rule

variable {r : Rule} {k n : Nat}

/-- The rule made active if it is not, and inactive if it is. -/
def flip (r : Rule) : Rule := { r with isActive := .bool (!r.isActive.truthy) }

/-- Flips touch nothing but the activity. -/
theorem setActive_iterate_flip (r : Rule) (k : Nat) (active : Value) :
    { flip^[k] r with isActive := active } = { r with isActive := active } := by
  induction k with
  | zero => rfl
  | succ k ih =>
    rw [Function.iterate_succ_apply']
    exact ih

theorem truthy_iterate_flip (r : Rule) (k : Nat) :
    (flip^[k] r).isActive.truthy = if Even k then r.isActive.truthy else !r.isActive.truthy := by
  induction k with
  | zero => rfl
  | succ k ih =>
    rw [Function.iterate_succ_apply', flip, Value.truthy, ih]
    by_cases hk : Even k <;> simp [hk, Nat.even_add_one]

/-- One more flip is a new activity of the rule as it was at first. -/
theorem iterate_succ_flip (r : Rule) (k : Nat) :
    flip^[k + 1] r = { r with isActive := .bool (!(flip^[k] r).isActive.truthy) } := by
  rw [Function.iterate_succ_apply', flip, setActive_iterate_flip]

/-- Two numbers of flips come to the same if they differ by an even number. -/
theorem iterate_flip_eq_iff (hle : k ≤ n) (h : k = 0 → n = 0) :
    flip^[k] r = flip^[n] r ↔ Even (n - k) := by
  cases k with
  | zero => simp [h rfl]
  | succ k =>
    obtain ⟨n, rfl⟩ : ∃ m, n = m + 1 := ⟨n - 1, by omega⟩
    rw [iterate_succ_flip, iterate_succ_flip, Nat.add_sub_add_right, Nat.even_sub (by omega)]
    simp only [Rule.mk.injEq, true_and, and_true, Value.bool.injEq, Bool.not_inj_iff,
      truthy_iterate_flip]
    by_cases hk : Even k <;> by_cases hn : Even n <;> simp [hk, hn]

end Rule

theorem Rules.get?_setActive {rules : Rules} {tenant id : Value} {r : Rule}
    (h : rules.get? tenant id = some r) (active : Value) :
    (rules.setActive tenant id active).get? tenant id = some { r with isActive := active } := by
  obtain ⟨hfind, htenant⟩ := Option.filter_eq_some_iff.mp h
  have hid : hasId id r = true := List.find?_some hfind
  have hkept : hasId id ∘ (fun s => if isOf tenant id s then { s with isActive := active } else s) =
      hasId id := by
    funext s
    rw [Function.comp_apply]
    split <;> rfl
  rw [get?, setActive, change, List.find?_map, hkept, hfind, Option.map_some, isOf, hid, htenant]
  simpa using htenant

/-! ## Calls of requests -/

theorem World.setActive_of_reliable {w : World} (h : w.Reliable) (tenant : Value) (id : String)
    (active : Value) : w.setActive tenant (.text id) active =
      (.ok ((w.rules.setActive tenant (.text id) active).get? tenant (.text id)),
        { w with rules := w.rules.setActive tenant (.text id) active }) := by
  unfold setActive changeRules
  rw [call_of_working h.outages h.backend]
  rfl

/-- Requests to toggle a rule, and the world that they share. -/
structure Toggling (ι : Type) where
  requests : ι → Toggle
  world : World

variable {ι : Type} [DecidableEq ι]

namespace Toggling

/-- A request makes its next call. -/
def call (i : ι) (s : Toggling ι) : Toggling ι where
  requests := Function.update s.requests i ((s.requests i).turn s.world).1
  world := ((s.requests i).turn s.world).2

/-- What requests come to by their calls, the latest one first. -/
def after (calls : List ι) (s : Toggling ι) : Toggling ι := calls.foldr call s

/-- Requests for one rule of which none has made a call. -/
def start (tenant id : String) (w : World) : Toggling ι where
  requests _ := { tenant := .text tenant, id := .text id }
  world := w

/-! ## Flips that show -/

mutual

/-- How many flips a rule shows after some calls, the latest one first: the last request to set it added
one to those that it had read. -/
def flips : List ι → Nat
  | [] => 0
  | i :: past => if i ∈ past then flipsRead i past + 1 else flips past

/-- How many flips a request has read. -/
def flipsRead (i : ι) : List ι → Nat
  | [] => 0
  | j :: past => if j = i then flips past else flipsRead i past

end

/-- How often a rule was set. -/
def settings : List ι → Nat
  | [] => 0
  | i :: past => if i ∈ past then settings past + 1 else settings past

section

variable {i : ι} {calls past : List ι}

theorem flips_of_not_mem (h : i ∉ past) : flips (i :: past) = flips past := by
  rw [flips, if_neg h]

theorem flips_of_mem (h : i ∈ past) : flips (i :: past) = flipsRead i past + 1 := by
  rw [flips, if_pos h]

theorem flipsRead_self (i : ι) (past : List ι) : flipsRead i (i :: past) = flips past := by
  rw [flipsRead, if_pos rfl]

theorem flipsRead_of_ne {j : ι} (h : j ≠ i) (past : List ι) :
    flipsRead i (j :: past) = flipsRead i past := by
  rw [flipsRead, if_neg h]

end

end Toggling

/-! ## What requests come to -/

/-- A request has done what its calls say; all calls are listed, the latest one first. -/
structure Toggle.Follows (tenant id : String) (r : Rule) (calls : List ι) (i : ι) (t : Toggle) :
    Prop where
  unread : calls.count i = 0 → t = ⟨.text tenant, .text id, .reading⟩
  /-- It is about to set what flips the rule that it has read. -/
  read : calls.count i = 1 → t = ⟨.text tenant, .text id,
    .setting (!(Rule.flip^[Toggling.flipsRead i calls] r).isActive.truthy)⟩
  set : calls.count i = 2 → ∃ r', t.outcome? = some (.ok (some r'))

/-- The call of another request. -/
theorem Toggle.Follows.cons {tenant id : String} {r : Rule} {calls : List ι} {i j : ι} {t : Toggle}
    (h : t.Follows tenant id r calls j) (hne : i ≠ j) : t.Follows tenant id r (i :: calls) j := by
  have hcount : (i :: calls).count j = calls.count j := List.count_cons_of_ne hne
  exact ⟨fun hj => h.unread (hcount ▸ hj),
    fun hj => Toggling.flipsRead_of_ne hne calls ▸ h.read (hcount ▸ hj), fun hj => h.set (hcount ▸ hj)⟩

namespace Toggling

/-- The rule shows the flips of some calls, and each request has done what its calls say. -/
structure Shows (tenant id : String) (r : Rule) (calls : List ι) (s : Toggling ι) : Prop where
  reliable : s.world.Reliable
  rule : s.world.rules.get? (.text tenant) (.text id) = some (Rule.flip^[flips calls] r)
  requests : ∀ i, (s.requests i).Follows tenant id r calls i

namespace Shows

variable {tenant id : String} {r : Rule} {calls : List ι} {s : Toggling ι} {i : ι}

/-- A call is the business of the request that makes it. -/
theorem of_turn {t : Toggle} {w : World} (h : Shows tenant id r calls s)
    (hturn : (s.requests i).turn s.world = (t, w)) (hreliable : w.Reliable)
    (hrule : w.rules.get? (.text tenant) (.text id) = some (Rule.flip^[flips (i :: calls)] r))
    (ht : t.Follows tenant id r (i :: calls) i) : Shows tenant id r (i :: calls) (s.call i) := by
  rw [call, hturn]
  refine ⟨hreliable, hrule, fun j => ?_⟩
  by_cases hne : j = i
  · subst hne
    simpa only [Function.update_self] using ht
  · simpa only [Function.update_of_ne hne] using (h.requests j).cons (Ne.symm hne)

/-- The first call of a request reads the rule. -/
theorem call_of_unread (h : Shows tenant id r calls s) (hi : calls.count i = 0) :
    Shows tenant id r (i :: calls) (s.call i) := by
  have hturn : (s.requests i).turn s.world = (⟨.text tenant, .text id,
      .setting (!(Rule.flip^[flips calls] r).isActive.truthy)⟩, s.world) := by
    rw [(h.requests i).unread hi, Toggle.turn, World.getRule_of_reliable h.reliable, h.rule]
    rfl
  have hcount : (i :: calls).count i = 1 := by rw [List.count_cons_self, hi]
  refine h.of_turn hturn h.reliable ?_ ⟨fun h0 => ?_, fun _ => ?_, fun h2 => ?_⟩
  · rw [flips_of_not_mem (List.count_eq_zero.mp hi)]
    exact h.rule
  · omega
  · rw [flipsRead_self]
  · omega

/-- The second call of a request sets the rule. -/
theorem call_of_read (h : Shows tenant id r calls s) (hi : calls.count i = 1) :
    Shows tenant id r (i :: calls) (s.call i) := by
  -- What is set is a flip of the rule that was read, and the rule now is one up to its activity.
  have hset := Rules.get?_setActive h.rule
    (.bool (!(Rule.flip^[flipsRead i calls] r).isActive.truthy))
  rw [Rule.setActive_iterate_flip, ← Rule.iterate_succ_flip,
    ← flips_of_mem (List.count_pos_iff.mp (by omega : 0 < calls.count i))] at hset
  have hturn := congrArg (fun t : Toggle => t.turn s.world) ((h.requests i).read hi)
  simp only [Toggle.turn, World.setActive_of_reliable h.reliable, hset] at hturn
  have hcount : (i :: calls).count i = 2 := by rw [List.count_cons_self, hi]
  refine h.of_turn hturn ⟨h.reliable.outages, h.reliable.backend⟩ hset
    ⟨fun h0 => ?_, fun h1 => ?_, fun _ => ⟨_, rfl⟩⟩
  · omega
  · omega

/-- **A call of a request that has not made both**: the rule shows its flips as before. -/
theorem call (h : Shows tenant id r calls s) (hi : calls.count i < 2) :
    Shows tenant id r (i :: calls) (s.call i) := by
  obtain hi | hi : calls.count i = 0 ∨ calls.count i = 1 := by omega
  · exact h.call_of_unread hi
  · exact h.call_of_read hi

end Shows

/-- **The rule behind any calls** shows their flips. -/
theorem shows_after {tenant id : String} {w : World} {r : Rule} (hw : w.Reliable)
    (hr : w.rules.get? (.text tenant) (.text id) = some r) (calls : List ι)
    (hcalls : ∀ i, calls.count i ≤ 2) :
    Shows tenant id r calls ((start tenant id w).after calls) := by
  induction calls with
  | nil =>
    refine ⟨hw, hr, fun i => ⟨fun _ => rfl, fun hi => ?_, fun hi => ?_⟩⟩
    · exact absurd hi (by simp)
    · exact absurd hi (by simp)
  | cons i calls ih =>
    have hcount := hcalls i
    rw [List.count_cons_self] at hcount
    exact (ih fun j => (List.count_le_count_cons ..).trans (hcalls j)).call (by omega)

/-! ## Flips that are lost -/

section

variable {i : ι} {calls past : List ι}

/-- A request reads no more flips than the rule was set, and the rule shows no more. -/
theorem flips_le_settings (calls : List ι) :
    flips calls ≤ settings calls ∧ ∀ i, flipsRead i calls ≤ settings calls := by
  induction calls with
  | nil => exact ⟨Nat.le_refl _, fun _ => Nat.le_refl _⟩
  | cons j past ih =>
    obtain ⟨hflips, hread⟩ := ih
    have hgrown : settings past ≤ settings (j :: past) := by
      rw [settings]
      split <;> omega
    refine ⟨?_, fun i => ?_⟩
    · rw [flips, settings]
      have := hread j
      split <;> omega
    · have := hread i
      rw [flipsRead]
      split <;> omega

/-- A rule that was set shows a flip. -/
theorem flips_pos (h : 0 < settings calls) : 0 < flips calls := by
  induction calls with
  | nil => exact h
  | cons i past ih =>
    by_cases hi : i ∈ past
    · rw [flips_of_mem hi]
      exact Nat.succ_pos _
    · rw [settings, if_neg hi] at h
      rw [flips_of_not_mem hi]
      exact ih h

/-- Who sets the rule right behind another request, having read it before, has not read what that one
set. -/
theorem flips_lt_settings {j : ι} (hne : j ≠ i) (hi : i ∈ past) (hj : j ∈ past) :
    flips (i :: j :: past) < settings (i :: j :: past) := by
  have hi' : i ∈ j :: past := List.mem_cons_of_mem j hi
  have hread := (flips_le_settings past).2 i
  rw [flips_of_mem hi', flipsRead_of_ne hne, settings, if_pos hi', settings, if_pos hj]
  omega

/-- The last of the requests that came one after the other. -/
theorem exists_eq_flatMap_iff {α : Type} {a b : α} {past : List α} :
    (∃ order : List α, a :: b :: past = order.flatMap fun a => [a, a]) ↔
      b = a ∧ ∃ order : List α, past = order.flatMap fun a => [a, a] := by
  constructor
  · rintro ⟨order, horder⟩
    cases order with
    | nil => simp at horder
    | cons c order =>
      simp only [List.flatMap_cons, List.cons_append, List.nil_append, List.cons.injEq] at horder
      obtain ⟨rfl, rfl, horder⟩ := horder
      exact ⟨rfl, order, horder⟩
  · rintro ⟨rfl, order, rfl⟩
    exact ⟨b :: order, rfl⟩

/-- **No flip is lost** exactly if the requests came one after the other. -/
theorem flips_eq_settings_iff : ∀ calls : List ι, (∀ i ∈ calls, calls.count i = 2) →
    (flips calls = settings calls ↔ ∃ order : List ι, calls = order.flatMap fun i => [i, i])
  | [], _ => ⟨fun _ => ⟨[], rfl⟩, fun _ => rfl⟩
  | [i], h => absurd (h i List.mem_cons_self) (by simp)
  | i :: j :: past, h => by
    have hi := h i List.mem_cons_self
    have hj := h j (List.mem_cons_of_mem i List.mem_cons_self)
    rw [exists_eq_flatMap_iff]
    by_cases heq : j = i
    · subst heq
      rw [List.count_cons_self, List.count_cons_self] at hj
      have hnew : j ∉ past := List.count_eq_zero.mp (by omega)
      have hrest : ∀ k ∈ past, past.count k = 2 := fun k hk => by
        have hne : j ≠ k := fun heq => hnew (heq ▸ hk)
        rw [← h k (List.mem_cons_of_mem j (List.mem_cons_of_mem j hk)), List.count_cons_of_ne hne,
          List.count_cons_of_ne hne]
      rw [flips_of_mem List.mem_cons_self, flipsRead_self, settings, if_pos List.mem_cons_self,
        settings, if_neg hnew, Nat.add_right_cancel_iff, flips_eq_settings_iff past hrest,
        and_iff_right rfl]
    · -- The last two calls are of different requests, so both of these have called before.
      rw [List.count_cons_self, List.count_cons_of_ne heq] at hi
      rw [List.count_cons_of_ne (Ne.symm heq), List.count_cons_self] at hj
      have hlost := flips_lt_settings heq (List.count_pos_iff.mp (by omega : 0 < past.count i))
        (List.count_pos_iff.mp (by omega : 0 < past.count j))
      exact iff_of_false (Nat.ne_of_lt hlost) fun hserial => heq hserial.1

/-- A call that is not the first one of its request sets the rule. -/
theorem settings_add_dedup (calls : List ι) :
    settings calls + calls.dedup.length = calls.length := by
  induction calls with
  | nil => rfl
  | cons i past ih =>
    rw [settings, List.length_cons]
    by_cases hi : i ∈ past
    · rw [if_pos hi, List.dedup_cons_of_mem hi]
      omega
    · rw [if_neg hi, List.dedup_cons_of_notMem hi, List.length_cons]
      omega

/-- Each of the requests has set the rule. -/
theorem settings_eq {n : Nat} {calls : List (Fin n)} (h : ∀ i, calls.count i = 2) :
    settings calls = n := by
  have hall : calls.toFinset = Finset.univ := by
    ext i
    simpa using List.count_pos_iff.mp (by rw [h i]; decide : 0 < calls.count i)
  have hlength : 2 * n = calls.length := by
    rw [← List.sum_toFinset_count_eq_length, hall]
    simp [h, Nat.mul_comm]
  have hdedup : calls.dedup.length = n := by
    rw [← List.card_toFinset, hall, Finset.card_univ, Fintype.card_fin]
  have := settings_add_dedup calls
  omega

end

/-! ## All requests -/

/-- **Flips that are kept.** However the calls of any number of requests for one rule follow one
another, all requests come to an end, and the rule shows some number of flips, which the calls tell. It
is as if all requests had flipped it exactly if the number of flips that are lost is even; and none is
lost exactly if no request begins before another one is over. -/
theorem flipped_iff {tenant id : String} {w : World} {r : Rule} (hw : w.Reliable)
    (hr : w.rules.get? (.text tenant) (.text id) = some r) {n : Nat} (calls : List (Fin n))
    (hcalls : ∀ i, calls.count i = 2) :
    let s := (start tenant id w).after calls
    (∀ i, ∃ r', (s.requests i).outcome? = some (.ok (some r'))) ∧
    s.world.rules.get? (.text tenant) (.text id) = some (Rule.flip^[flips calls] r) ∧
    (s.world.rules.get? (.text tenant) (.text id) = some (Rule.flip^[n] r) ↔
      Even (n - flips calls)) ∧
    flips calls ≤ n ∧
    (flips calls = n ↔ ∃ order : List (Fin n), calls = order.flatMap fun i => [i, i]) := by
  intro s
  have hshows : Shows tenant id r calls s := shows_after hw hr calls fun i => (hcalls i).le
  have hle : flips calls ≤ n := (flips_le_settings calls).1.trans_eq (settings_eq hcalls)
  have hserial := flips_eq_settings_iff calls fun i _ => hcalls i
  rw [settings_eq hcalls] at hserial
  refine ⟨fun i => (hshows.requests i).set (hcalls i), hshows.rule, ?_, hle, hserial⟩
  rw [hshows.rule, Option.some.injEq]
  refine Rule.iterate_flip_eq_iff hle fun hzero => ?_
  by_contra hn
  have hset : 0 < settings calls := by rw [settings_eq hcalls]; omega
  exact Nat.ne_of_gt (flips_pos hset) hzero

/-- Three requests side by side: two flips are lost, and none is missed. -/
theorem flipped_iff_three :
    let w := World.plain [.plain "r1" (.list [])]
    let calls : List (Fin 3) := [2, 1, 0, 2, 1, 0]
    w.Reliable ∧ w.rules.get? (.text "t1") (.text "r1") = some (.plain "r1" (.list [])) ∧
    (∀ i, calls.count i = 2) ∧ flips calls = 1 ∧
    ((start "t1" "r1" w).after calls).world.rules.get? (.text "t1") (.text "r1") =
      some (Rule.flip^[3] (.plain "r1" (.list []))) := by
  intro w calls
  have hw : w.Reliable := World.reliable_plain _
  have hr : w.rules.get? (.text "t1") (.text "r1") = some (.plain "r1" (.list [])) := rfl
  have hcalls : ∀ i, calls.count i = 2 := by decide
  obtain ⟨-, -, hiff, -⟩ := flipped_iff hw hr calls hcalls
  exact ⟨hw, hr, hcalls, by decide, hiff.mpr (by decide)⟩

/-- Two requests side by side: a rule that was active is inactive when both are over. -/
theorem not_flipped_pair :
    let w := World.plain [.plain "r1" (.list [])]
    let calls : List (Fin 2) := [1, 0, 1, 0]
    let s := (start "t1" "r1" w).after calls
    w.Reliable ∧ w.rules.get? (.text "t1") (.text "r1") = some (.plain "r1" (.list [])) ∧
    (∀ i, calls.count i = 2) ∧ (∀ i, (s.requests i).outcome?.isSome = true) ∧
    (s.world.rules.get? (.text "t1") (.text "r1")).map (·.isActive) = some (.bool false) ∧
    s.world.rules.get? (.text "t1") (.text "r1") ≠ some (Rule.flip^[2] (.plain "r1" (.list []))) := by
  intro w calls s
  have hset : (s.world.rules.get? (.text "t1") (.text "r1")).map (·.isActive) =
      some (.bool false) := rfl
  refine ⟨World.reliable_plain _, rfl, by decide, by decide, hset, fun h => ?_⟩
  rw [h] at hset
  have hactive : Value.bool true = .bool false := Option.some.inj hset
  exact absurd (Value.bool.inj hactive) (by decide)

end Toggling

end ChangeRules
