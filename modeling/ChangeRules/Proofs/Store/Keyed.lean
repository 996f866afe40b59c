import ChangeRules.Store.Rules
import Mathlib.Data.List.Pairwise
import Mathlib.Data.List.Perm.Basic

/-!
# Rules by id

A store of rules knows each rule by its id, so no two rules in it have the same one. What is noted at
one rule leaves the others alone, and where every rule gets one note at most, the order in which
the notes come does not matter.

* `Rules.Keyed`: what every store of rules holds.
* **`Rules.Keyed.change`**, **`Rules.Keyed.save`**: it is kept by changes and by new rules.
* `Rules.heed`: rules that executions are noted at, one after the other.
* **`Rules.Keyed.heed_noted`**: one note a rule comes to that note at each rule that has one.
-/

namespace ChangeRules

namespace Value

@[simp]
theorem same_text {v : Value} {s : String} : v.same (.text s) = true ↔ v = .text s := by
  cases v <;> simp [same, sameScalar, asInt?]

@[simp]
theorem text_same {v : Value} {s : String} : (text s).same v = true ↔ v = .text s := by
  cases v with
  | text t => simpa [same, sameScalar] using eq_comm
  | _ => simp [same, sameScalar, asInt?]

end Value

namespace Rules

/-- Two rules have different ids. -/
def Apart (r s : Rule) : Prop := r.id.same s.id = false ∧ s.id.same r.id = false

instance : Std.Symm Apart := ⟨fun _ _ h => ⟨h.2, h.1⟩⟩

/-- Every rule is known by its id. -/
structure Keyed (rules : Rules) : Prop where
  /-- Ids can be looked up. -/
  checked : ∀ r ∈ rules, checkId r.id = .ok ()
  /-- An id finds its rule. -/
  found : ∀ r ∈ rules, r.id.same r.id = true
  apart : rules.Pairwise Apart

namespace Keyed

variable {rules : Rules} {r s : Rule}

theorem nil : Keyed [] := ⟨by simp, by simp, List.Pairwise.nil⟩

/-- Rules whose ids are different texts. -/
theorem of_texts (htext : ∀ r ∈ rules, ∃ name, r.id = .text name)
    (hnodup : (rules.map (·.id)).Nodup) : rules.Keyed where
  checked r hr := by
    obtain ⟨name, hname⟩ := htext r hr
    rw [hname]
    rfl
  found r hr := by
    obtain ⟨name, hname⟩ := htext r hr
    rw [hname, Value.same_text]
  apart := by
    refine (List.pairwise_map.mp hnodup).imp_of_mem fun {r s} hr hs hne => ?_
    obtain ⟨name, hname⟩ := htext r hr
    rw [Apart, ← Bool.not_eq_true, ← Bool.not_eq_true, hname, Value.text_same, Value.same_text]
    rw [hname] at hne
    exact ⟨hne.symm, hne.symm⟩

/-- An id has one rule. -/
theorem eq_of_same (h : rules.Keyed) (hr : r ∈ rules) (hs : s ∈ rules)
    (hsame : r.id.same s.id = true) : r = s := by
  by_contra hne
  have hapart := h.apart.forall hr hs hne
  rw [hapart.1] at hsame
  exact absurd hsame (by simp)

theorem of_map {f : Rule → Rule} (h : rules.Keyed) (hf : ∀ r ∈ rules, (f r).id = r.id) :
    Keyed (rules.map f) where
  checked r hr := by
    obtain ⟨s, hs, rfl⟩ := List.mem_map.mp hr
    rw [hf s hs]
    exact h.checked s hs
  found r hr := by
    obtain ⟨s, hs, rfl⟩ := List.mem_map.mp hr
    rw [hf s hs]
    exact h.found s hs
  apart := by
    rw [List.pairwise_map]
    refine h.apart.imp_of_mem fun {r s} hr hs hapart => ?_
    rw [Apart, hf r hr, hf s hs]
    exact hapart

/-- A change that keeps the id of every rule keeps the store in order. -/
theorem change {tenant id : Value} {f : Rule → Rule} (h : rules.Keyed) (hf : ∀ r, (f r).id = r.id) :
    (rules.change tenant id f).Keyed := by
  refine h.of_map fun r _ => ?_
  split
  · exact hf r
  · rfl

/-- A rule that is saved under a text keeps the store in order. -/
theorem save {name : String} (h : rules.Keyed) (hid : r.id = .text name) :
    (rules.save r).Keyed := by
  have hhas : ∀ s : Rule, hasId r.id s = true ↔ s.id = .text name := by simp [hasId, hid]
  unfold Rules.save
  split
  · refine h.of_map fun s _ => ?_
    split
    · next hs => rw [hid, (hhas s).mp hs]
    · rfl
  · next hnew =>
    have hother : ∀ s ∈ rules, s.id ≠ .text name := fun s hs heq =>
      hnew (List.any_eq_true.mpr ⟨s, hs, (hhas s).mpr heq⟩)
    refine ⟨fun s hs => ?_, fun s hs => ?_, ?_⟩
    · rcases List.mem_append.mp hs with hs | hs
      · exact h.checked s hs
      · rw [List.mem_singleton.mp hs, hid]
        rfl
    · rcases List.mem_append.mp hs with hs | hs
      · exact h.found s hs
      · rw [List.mem_singleton.mp hs, hid, Value.same_text]
    · refine List.pairwise_append.mpr ⟨h.apart, List.pairwise_singleton _ _, fun s hs t ht => ?_⟩
      rw [List.mem_singleton.mp ht]
      have hne := hother s hs
      constructor
      · rw [← Bool.not_eq_true, hid, Value.same_text]
        exact hne
      · rw [← Bool.not_eq_true, hid, Value.text_same]
        exact hne

end Keyed

end Rules

/-! ## Notes -/

/-- A rule whose execution at a time was noted. -/
def Rule.noted (time : DateTime) (r : Rule) : Rule :=
  { r with lastExecuted := some (Rules.laterExecution r.lastExecuted time) }

/-- An execution that is noted at a rule. -/
structure Note where
  rule : Rule
  time : DateTime

namespace Note

/-- Whether a rule is the one of a note. -/
def concerns (n : Note) (r : Rule) : Bool := Rules.isOf n.rule.tenant n.rule.id r

/-- A rule after a note. -/
def heed (n : Note) (r : Rule) : Rule := if n.concerns r then r.noted n.time else r

@[simp]
theorem concerns_heed (m n : Note) (r : Rule) : m.concerns (n.heed r) = m.concerns r := by
  unfold heed
  split <;> rfl

end Note

namespace Rules

/-- The rules after notes, one after the other. -/
def heed (notes : List Note) (rules : Rules) : Rules :=
  notes.foldl (fun rules n => rules.touch n.rule.tenant n.rule.id n.time) rules

theorem heed_append (notes more : List Note) (rules : Rules) :
    rules.heed (notes ++ more) = (rules.heed notes).heed more := List.foldl_append

/-- Every rule heeds the notes by itself. -/
theorem heed_eq_map (notes : List Note) (rules : Rules) :
    rules.heed notes = rules.map fun r => notes.foldl (fun r n => n.heed r) r := by
  induction notes generalizing rules with
  | nil => simp [heed]
  | cons n notes ih =>
    have := ih (rules.map n.heed)
    rw [List.map_map] at this
    exact this

theorem foldl_heed_of_unconcerned {notes : List Note} {r : Rule}
    (h : ∀ n ∈ notes, n.concerns r = false) : notes.foldl (fun r n => n.heed r) r = r := by
  induction notes with
  | nil => rfl
  | cons n notes ih =>
    rw [List.foldl_cons, Note.heed, h n List.mem_cons_self, if_neg (by simp)]
    exact ih fun m hm => h m (List.mem_cons_of_mem n hm)

/-- One of the notes concerns a rule: the rule heeds this one. -/
theorem foldl_heed_of_single {notes : List Note} {n : Note} {r : Rule}
    (hn : n ∈ notes) (hc : n.concerns r = true)
    (h : notes.Pairwise fun m n => m.concerns r = false ∨ n.concerns r = false) :
    notes.foldl (fun r n => n.heed r) r = r.noted n.time := by
  induction notes with
  | nil => exact absurd hn List.not_mem_nil
  | cons m notes ih =>
    obtain ⟨hm, hrest⟩ := List.pairwise_cons.mp h
    rw [List.foldl_cons]
    rcases List.mem_cons.mp hn with rfl | hn
    · rw [foldl_heed_of_unconcerned, Note.heed, if_pos hc]
      intro k hk
      rw [Note.concerns_heed]
      rcases hm k hk with hfalse | hfalse
      · rw [hc] at hfalse
        exact absurd hfalse (by simp)
      · exact hfalse
    · have hmr : m.concerns r = false := by
        rcases hm n hn with hfalse | hfalse
        · exact hfalse
        · rw [hc] at hfalse
          exact absurd hfalse (by simp)
      rw [Note.heed, hmr, if_neg (by simp)]
      exact ih hn hrest

namespace Keyed

variable {rules : Rules}

/-- A note about a rule of the store concerns only this rule. -/
theorem concerns_iff (h : rules.Keyed) {n : Note} {r : Rule} (hn : n.rule ∈ rules) (hr : r ∈ rules)
    (htenant : n.rule.tenant.same n.rule.tenant = true) : n.concerns r = true ↔ r = n.rule := by
  constructor
  · intro hc
    simp only [Note.concerns, isOf, hasId, Bool.and_eq_true] at hc
    exact h.eq_of_same hr hn hc.1
  · rintro rfl
    simp [Note.concerns, isOf, hasId, h.found _ hr, htenant]

/-- **One note a rule**: a rule that has one heeds it, and the others stay as they are. -/
theorem heed_noted (h : rules.Keyed) {notes : List Note} (hmem : ∀ n ∈ notes, n.rule ∈ rules)
    (htenant : ∀ n ∈ notes, n.rule.tenant.same n.rule.tenant = true)
    (hone : notes.Pairwise fun m n => m.rule ≠ n.rule) :
    List.Forall₂ (fun r r' => (∃ n ∈ notes, n.rule = r ∧ r' = r.noted n.time) ∨
      (∀ n ∈ notes, n.rule ≠ r) ∧ r' = r) rules (rules.heed notes) := by
  rw [heed_eq_map, List.forall₂_map_right_iff]
  refine List.forall₂_same.mpr fun r hr => ?_
  by_cases hex : ∃ n ∈ notes, n.rule = r
  · obtain ⟨n, hn, rfl⟩ := hex
    refine Or.inl ⟨n, hn, rfl, ?_⟩
    refine foldl_heed_of_single hn ((h.concerns_iff hr hr (htenant n hn)).mpr rfl) ?_
    refine hone.imp_of_mem fun {m k} hm hk hne => ?_
    by_contra hboth
    simp only [not_or, Bool.not_eq_false] at hboth
    have hm' := (h.concerns_iff (hmem m hm) hr (htenant m hm)).mp hboth.1
    have hk' := (h.concerns_iff (hmem k hk) hr (htenant k hk)).mp hboth.2
    exact hne (hm'.symm.trans hk')
  · have hnone : ∀ n ∈ notes, n.rule ≠ r := fun n hn heq => hex ⟨n, hn, heq⟩
    refine Or.inr ⟨hnone, foldl_heed_of_unconcerned fun n hn => ?_⟩
    rw [← Bool.not_eq_true]
    intro hc
    exact hnone n hn ((h.concerns_iff (hmem n hn) hr (htenant n hn)).mp hc).symm

end Keyed

end Rules

end ChangeRules
