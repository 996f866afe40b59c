import ChangeRules.Condition.Evaluation
import ChangeRules.Proofs.Condition.Shape
import Mathlib.Logic.Relation

/-!
# Stored conditions as a disjunctive normal form

A stored value is read as a whole before any of its conditions is evaluated. So where no condition
fails of its own, a value with the wrong shape is refused whatever its first groups come to, and any
other value is true or false: true if one group with conditions has all of them true, or no group
has any. Of a group only the set of its conditions counts, and of a value only the set of its groups
with conditions. What is refused has to be shown: of a value that cannot be written, which none is that
comes out of JSON, it is only known that it has no truth value.

* `Condition.Satisfied`: what it is for stored conditions to be true, said of the stored value.
* `Condition.Rearranges`: one change of the order, the repetitions or the spelling of groups.
* `Condition.Covers`, `covers_of_rearranges`: what such a change leaves alone; `Condition.Alike`: what
  all of them together do.
* **`normalForm_of_evaluable`**: stored conditions are evaluated as a disjunctive normal form.
-/

namespace ChangeRules

namespace Condition

/-- A condition stands in some group of a stored value. -/
def Mentions (stored : Value) (c : Condition) : Prop :=
  ∃ g ∈ groupsIn stored, ∃ items, Items g items ∧ ∃ v ∈ items, Denotes v c

/-- No condition of a stored value fails to be true or false of a record. -/
def Evaluable (types : Fields) (record stored : Value) : Prop :=
  ∀ c, Mentions stored c → ∃ b, c.holds types record = .ok b

/-- Stored conditions are true of a record: no group has a condition, or some group has conditions
and all of them are true. -/
def Satisfied (types : Fields) (record stored : Value) : Prop :=
  (∀ g ∈ groupsIn stored, Items g []) ∨
    ∃ g ∈ groupsIn stored, ∃ items, Items g items ∧ items ≠ [] ∧
      ∀ v ∈ items, ∃ c, Denotes v c ∧ c.holds types record = .ok true

/-! ## Truth of groups -/

section Truth

variable {types : Fields} {record stored : Value}

theorem Denotes.unique {v : Value} {c c' : Condition} (h : Denotes v c) (h' : Denotes v c') :
    c = c' := by
  rw [denotes_iff] at h h'
  rw [h, Except.ok.injEq] at h'
  exact h'

theorem allHold_of_evaluable {cs : List Condition}
    (h : ∀ c ∈ cs, ∃ b, c.holds types record = .ok b) :
    ∃ b, allHold types record cs = .ok b ∧
      (b = true ↔ ∀ c ∈ cs, c.holds types record = .ok true) := by
  induction cs with
  | nil => exact ⟨true, rfl, by simp⟩
  | cons c cs ih =>
    obtain ⟨first, hfirst⟩ := h c List.mem_cons_self
    obtain ⟨rest, hrest, htrue⟩ := ih fun c' hc' => h c' (List.mem_cons_of_mem c hc')
    cases first with
    | false => exact ⟨false, by simp [allHold, hfirst, bind, Except.bind], by simp [hfirst]⟩
    | true =>
      refine ⟨rest, by simp [allHold, hfirst, hrest, bind, Except.bind], ?_⟩
      simpa [hfirst] using htrue

theorem anyHolds_of_evaluable {groups : List (List Condition)}
    (h : ∀ g ∈ groups, ∀ c ∈ g, ∃ b, c.holds types record = .ok b) :
    ∃ b, anyHolds types record groups = .ok b ∧
      (b = true ↔ ∃ g ∈ groups, ∀ c ∈ g, c.holds types record = .ok true) := by
  induction groups with
  | nil => exact ⟨false, rfl, by simp⟩
  | cons g groups ih =>
    obtain ⟨first, hfirst, hall⟩ := allHold_of_evaluable (h g List.mem_cons_self)
    obtain ⟨rest, hrest, hany⟩ := ih fun g' hg' => h g' (List.mem_cons_of_mem g hg')
    simp only [List.mem_cons, exists_eq_or_imp, ← hall, ← hany]
    cases first with
    | true => exact ⟨true, by simp [anyHolds, hfirst, bind, Except.bind], by simp⟩
    | false => exact ⟨rest, by simp [anyHolds, hfirst, hrest, bind, Except.bind], by simp⟩

/-- A group denotes no conditions exactly if nothing is stored in it. -/
theorem DenotesGroup.eq_nil_iff {g : Value} {cs : List Condition} (h : DenotesGroup g cs) :
    cs = [] ↔ Items g [] := by
  obtain ⟨items, hitems, hcs⟩ := h
  constructor
  · rintro rfl
    rwa [List.forall₂_nil_right_iff.mp hcs] at hitems
  · intro hnone
    rw [hitems.unique hnone] at hcs
    exact List.forall₂_nil_left_iff.mp hcs

/-- What is read of a group stands in the stored value. -/
theorem mentions_of_denotes {all : List (List Condition)} {cs : List Condition} {c : Condition}
    (hall : List.Forall₂ DenotesGroup (groupsIn stored) all) (hcs : cs ∈ all) (hc : c ∈ cs) :
    Mentions stored c := by
  obtain ⟨g, hg, items, hitems, hrow⟩ := exists_mem_of_forall₂ hall.flip hcs
  obtain ⟨v, hv, hvc⟩ := exists_mem_of_forall₂ hrow.flip hc
  exact ⟨g, hg, items, hitems, v, hv, hvc⟩

/-- All conditions of a group are true, as they are read and as they are stored. -/
theorem DenotesGroup.holds_iff {g : Value} {cs : List Condition} (h : DenotesGroup g cs) :
    (cs ≠ [] ∧ ∀ c ∈ cs, c.holds types record = .ok true) ↔
      ∃ items, Items g items ∧ items ≠ [] ∧
        ∀ v ∈ items, ∃ c, Denotes v c ∧ c.holds types record = .ok true := by
  obtain ⟨items, hitems, hrow⟩ := h
  constructor
  · rintro ⟨hne, hholds⟩
    refine ⟨items, hitems, fun hnil => hne ?_, fun v hv => ?_⟩
    · rw [hnil] at hrow
      exact List.forall₂_nil_left_iff.mp hrow
    · obtain ⟨c, hc, hvc⟩ := exists_mem_of_forall₂ hrow hv
      exact ⟨c, hvc, hholds c hc⟩
  · rintro ⟨items', hitems', hne, hholds⟩
    obtain rfl := hitems.unique hitems'
    refine ⟨fun hnil => hne ?_, fun c hc => ?_⟩
    · rw [hnil] at hrow
      exact List.forall₂_nil_right_iff.mp hrow
    · obtain ⟨v, hv, hvc⟩ := exists_mem_of_forall₂ hrow.flip hc
      obtain ⟨c', hvc', htrue⟩ := hholds v hv
      rwa [Denotes.unique hvc hvc']

/-- The groups that are read, against what is stored. -/
theorem satisfied_iff {all : List (List Condition)}
    (hall : List.Forall₂ DenotesGroup (groupsIn stored) all) :
    Satisfied types record stored ↔ (∀ cs ∈ all, cs = []) ∨
      ∃ cs ∈ all, cs ≠ [] ∧ ∀ c ∈ cs, c.holds types record = .ok true := by
  refine or_congr ⟨fun h cs hcs => ?_, fun h g hg => ?_⟩ ⟨?_, ?_⟩
  · obtain ⟨g, hg, hdenotes⟩ := exists_mem_of_forall₂ hall.flip hcs
    exact (DenotesGroup.eq_nil_iff hdenotes).mpr (h g hg)
  · obtain ⟨cs, hcs, hdenotes⟩ := exists_mem_of_forall₂ hall hg
    exact (DenotesGroup.eq_nil_iff hdenotes).mp (h cs hcs)
  · rintro ⟨g, hg, hholds⟩
    obtain ⟨cs, hcs, hdenotes⟩ := exists_mem_of_forall₂ hall hg
    exact ⟨cs, hcs, hdenotes.holds_iff.mpr hholds⟩
  · rintro ⟨cs, hcs, hholds⟩
    obtain ⟨g, hg, hdenotes⟩ := exists_mem_of_forall₂ hall.flip hcs
    exact ⟨g, hg, (DenotesGroup.holds_iff hdenotes).mp hholds⟩

theorem evaluateGroups_of_evaluable {groups : List (List Condition)} {fields : Fields}
    (h : ∀ cs ∈ groups, ∀ c ∈ cs, ∃ b, c.holds types (.object fields) = .ok b) :
    ∃ b, evaluateGroups types groups (.object fields) = .ok b ∧ (b = true ↔ groups = [] ∨
      ∃ cs ∈ groups, ∀ c ∈ cs, c.holds types (.object fields) = .ok true) := by
  have hrecord : (if (Value.object fields).truthy then Value.object fields else .object []) =
      .object fields := by
    cases fields <;> rfl
  cases groups with
  | nil => exact ⟨true, rfl, by simp⟩
  | cons cs groups =>
    obtain ⟨b, hb, hholds⟩ := anyHolds_of_evaluable h
    refine ⟨b, ?_, hholds.trans (or_iff_right (List.cons_ne_nil cs groups)).symm⟩
    rw [← hb, evaluateGroups, hrecord, List.isEmpty_cons]
    rfl

/-- **A value with the right shape is true or false.** -/
theorem evaluate_of_wellShaped {fields : Fields} (h : Evaluable types (.object fields) stored)
    (hshape : WellShaped stored) :
    ∃ b, evaluate types stored (.object fields) = .ok b ∧
      (b = true ↔ Satisfied types (.object fields) stored) := by
  obtain ⟨groups, hgroups⟩ := exists_groupsOf_iff.mpr hshape
  obtain ⟨-, all, hall, hkept⟩ := groupsOf_eq_ok_iff.mp hgroups
  -- Groups without conditions are not kept, and do not count.
  have hmem : ∀ cs, cs ∈ groups ↔ cs ∈ all ∧ cs ≠ [] := by
    intro cs
    simp [hkept]
  have hnone : groups = [] ↔ ∀ cs ∈ all, cs = [] := by
    simp [hkept]
  have heval : ∀ cs ∈ groups, ∀ c ∈ cs, ∃ b, c.holds types (.object fields) = .ok b :=
    fun cs hcs c hc => h c (mentions_of_denotes hall ((hmem cs).mp hcs).1 hc)
  obtain ⟨b, hb, htrue⟩ := evaluateGroups_of_evaluable heval
  refine ⟨b, by rw [← hb, evaluate, hgroups], htrue.trans ?_⟩
  rw [satisfied_iff hall, hnone]
  simp only [hmem, and_assoc]

/-- A value with the wrong shape has a flaw, and fails with it whatever its conditions come to. -/
theorem evaluate_of_not_wellShaped (h : ¬ WellShaped stored) :
    ∃ flaw, groupsOf stored = .error flaw ∧ evaluate types stored record = .error flaw.fault := by
  cases hgroups : groupsOf stored with
  | ok groups => exact absurd (exists_groupsOf_iff.mp ⟨groups, hgroups⟩) h
  | error flaw => exact ⟨flaw, rfl, by simp only [evaluate, hgroups]⟩

/-- It is refused if whatever is wrong with it can be told. -/
theorem refused_of_not_wellShaped (h : ¬ WellShaped stored) (hlegible : Legible stored) :
    ∃ e, evaluate types stored record = .error (.error e) ∧ e.kind = .matching := by
  obtain ⟨flaw, hgroups, heval⟩ : ∃ flaw, groupsOf stored = .error flaw ∧
      evaluate types stored record = .error flaw.fault := evaluate_of_not_wellShaped h
  obtain ⟨message, key, v, -, herror⟩ := flaw.shapeError
  refine ⟨.matching message [(key, v)], ?_, rfl⟩
  rw [heval, Flaw.fault, if_pos (hlegible.isTellable hgroups), herror]

end Truth

/-! ## Rearranging groups -/

/-- A change of one stored group: its conditions in another order, one of them once more, or the
list of them under `conditions`. The changed group may be spelled in another way. -/
inductive GroupRearranges : Value → Value → Prop
  | reorder {g g' : Value} {items items' : List Value} (hg : Items g items) (hg' : Items g' items')
      (h : items.Perm items') : GroupRearranges g g'
  | again {g g' v : Value} {items : List Value} (hg : Items g items) (hg' : Items g' (v :: items))
      (h : v ∈ items) : GroupRearranges g g'
  | wrap (items : List Value) :
      GroupRearranges (.list items) (.object [("conditions", .list items)])

/-- A change of a stored value: its groups in another order, one of them once more, one without
conditions left out, or one of them changed where it stands. -/
inductive Rearranges : Value → Value → Prop
  | reorder {groups groups' : List Value} (h : groups.Perm groups') :
      Rearranges (.list groups) (.list groups')
  | again {g : Value} {groups : List Value} (h : g ∈ groups) :
      Rearranges (.list groups) (.list (g :: groups))
  | drop {g : Value} (before behind : List Value) (h : Items g []) :
      Rearranges (.list (before ++ g :: behind)) (.list (before ++ behind))
  | regroup {g g' : Value} (before behind : List Value) (h : GroupRearranges g g') :
      Rearranges (.list (before ++ g :: behind)) (.list (before ++ g' :: behind))

/-- Two stored groups hold the same conditions, in any order and number, or neither holds any that
can be read. -/
def SameItems (g g' : Value) : Prop :=
  (∀ items, Items g items → ∃ items', Items g' items' ∧ ∀ v, v ∈ items ↔ v ∈ items') ∧
    ∀ items', Items g' items' → ∃ items, Items g items ∧ ∀ v, v ∈ items ↔ v ∈ items'

/-- Each group of the first value is without conditions or is, up to order and number of its
conditions, a group of the second one. -/
def Covers (stored stored' : Value) : Prop :=
  (stored' = .null ∨ (∃ groups, stored' = .list groups) →
      stored = .null ∨ ∃ groups, stored = .list groups) ∧
    ∀ g ∈ groupsIn stored, Items g [] ∨ ∃ g' ∈ groupsIn stored', SameItems g g'

namespace SameItems

variable {g g' : Value}

theorem refl (g : Value) : SameItems g g :=
  ⟨fun items h => ⟨items, h, fun _ => Iff.rfl⟩, fun items h => ⟨items, h, fun _ => Iff.rfl⟩⟩

theorem symm (h : SameItems g g') : SameItems g' g := by
  refine ⟨fun items' h' => ?_, fun items h' => ?_⟩
  · obtain ⟨items, hitems, hsame⟩ := h.2 items' h'
    exact ⟨items, hitems, fun v => (hsame v).symm⟩
  · obtain ⟨items', hitems', hsame⟩ := h.1 items h'
    exact ⟨items', hitems', fun v => (hsame v).symm⟩

theorem of_items {items items' : List Value} (h : Items g items) (h' : Items g' items')
    (hsame : ∀ v, v ∈ items ↔ v ∈ items') : SameItems g g' := by
  refine ⟨fun vs hvs => ⟨items', h', ?_⟩, fun vs hvs => ⟨items, h, ?_⟩⟩
  · rwa [hvs.unique h]
  · rwa [hvs.unique h']

end SameItems

theorem sameItems_of_groupRearranges {g g' : Value} (h : GroupRearranges g g') : SameItems g g' := by
  cases h with
  | reorder hg hg' h => exact .of_items hg hg' fun _ => h.mem_iff
  | again hg hg' h =>
    refine .of_items hg hg' fun v => ?_
    rw [List.mem_cons, or_iff_right_of_imp]
    rintro rfl
    exact h
  | wrap items => exact .of_items (.bare items) (.under rfl) fun v => Iff.rfl

/-- Lists of groups cover each other as their members do. -/
theorem covers_of_forall {groups groups' : List Value}
    (h : ∀ g ∈ groups, Items g [] ∨ ∃ g' ∈ groups', SameItems g g') :
    Covers (.list groups) (.list groups') :=
  ⟨fun _ => .inr ⟨groups, rfl⟩, h⟩

theorem covers_of_subset {groups groups' : List Value} (h : groups ⊆ groups') :
    Covers (.list groups) (.list groups') :=
  covers_of_forall fun g hg => .inr ⟨g, h hg, .refl g⟩

/-- The places of a list where one member is another one: all others stay. -/
theorem covers_of_regroup {g g' : Value} {before behind : List Value} (h : SameItems g g') :
    Covers (.list (before ++ g :: behind)) (.list (before ++ g' :: behind)) := by
  refine covers_of_forall fun k hk => .inr ?_
  rcases List.mem_append.mp hk with hk | hk
  · exact ⟨k, List.mem_append_left _ hk, .refl k⟩
  · rcases List.mem_cons.mp hk with rfl | hk
    · exact ⟨g', List.mem_append_right _ List.mem_cons_self, h⟩
    · exact ⟨k, List.mem_append_right _ (List.mem_cons_of_mem _ hk), .refl k⟩

/-- **A change leaves the groups alone**, but for order, number and those without conditions. -/
theorem covers_of_rearranges {stored stored' : Value} (h : Rearranges stored stored') :
    Covers stored stored' ∧ Covers stored' stored := by
  cases h with
  | reorder h => exact ⟨covers_of_subset h.subset, covers_of_subset h.symm.subset⟩
  | @again g groups h =>
    refine ⟨covers_of_subset (List.subset_cons_self g groups), covers_of_subset ?_⟩
    exact List.cons_subset.mpr ⟨h, List.Subset.refl groups⟩
  | @drop g before behind h =>
    constructor
    · refine covers_of_forall fun k hk => ?_
      rcases List.mem_append.mp hk with hk | hk
      · exact .inr ⟨k, List.mem_append_left _ hk, .refl k⟩
      · rcases List.mem_cons.mp hk with rfl | hk
        · exact .inl h
        · exact .inr ⟨k, List.mem_append_right _ hk, .refl k⟩
    · exact covers_of_subset (by simp)
  | regroup before behind h =>
    have hsame := sameItems_of_groupRearranges h
    exact ⟨covers_of_regroup hsame, covers_of_regroup hsame.symm⟩

namespace Covers

variable {types : Fields} {record stored stored' : Value}

theorem mentions (h : Covers stored stored') {c : Condition} (hc : Mentions stored c) :
    Mentions stored' c := by
  obtain ⟨g, hg, items, hitems, v, hv, hvc⟩ := hc
  rcases h.2 g hg with hnone | ⟨g', hg', hsame⟩
  · rw [hitems.unique hnone] at hv
    exact absurd hv List.not_mem_nil
  · obtain ⟨items', hitems', hmem⟩ := hsame.1 items hitems
    exact ⟨g', hg', items', hitems', v, (hmem v).mp hv, hvc⟩

theorem evaluable (h : Covers stored stored') (h' : Evaluable types record stored') :
    Evaluable types record stored := fun c hc => h' c (h.mentions hc)

theorem wellShaped (h : Covers stored stored') (h' : WellShaped stored') : WellShaped stored := by
  refine ⟨h.1 h'.1, fun g hg => ?_⟩
  rcases h.2 g hg with hnone | ⟨g', hg', hsame⟩
  · exact ⟨[], hnone, fun v hv => absurd hv List.not_mem_nil⟩
  · obtain ⟨items', hitems', hall⟩ := h'.2 g' hg'
    obtain ⟨items, hitems, hmem⟩ := hsame.2 items' hitems'
    exact ⟨items, hitems, fun v hv => hall v ((hmem v).mp hv)⟩

theorem satisfied (h : Covers stored stored') (h' : Covers stored' stored)
    (hs : Satisfied types record stored) : Satisfied types record stored' := by
  rcases hs with hnone | ⟨g, hg, items, hitems, hne, hholds⟩
  · refine .inl fun g' hg' => ?_
    rcases h'.2 g' hg' with hnone' | ⟨g, hg, hsame⟩
    · exact hnone'
    · obtain ⟨items', hitems', hmem⟩ := hsame.2 [] (hnone g hg)
      have hempty : items' = [] := List.eq_nil_iff_forall_not_mem.mpr fun v hv =>
        List.not_mem_nil ((hmem v).mp hv)
      rwa [hempty] at hitems'
  · rcases h.2 g hg with hnone | ⟨g', hg', hsame⟩
    · exact absurd (hitems.unique hnone) hne
    · obtain ⟨items', hitems', hmem⟩ := hsame.1 items hitems
      refine .inr ⟨g', hg', items', hitems', ?_, fun v hv => hholds v ((hmem v).mpr hv)⟩
      rintro rfl
      exact hne (List.eq_nil_iff_forall_not_mem.mpr fun v hv =>
        List.not_mem_nil ((hmem v).mp hv))

theorem legible {groups groups' : List Value} (h : Covers (.list groups) (.list groups'))
    (h' : Legible (.list groups')) : Legible (.list groups) := by
  intro g hg items hitems v hv
  rcases h.2 g hg with hnone | ⟨g', hg', hsame⟩
  · rw [hitems.unique hnone] at hv
    exact absurd hv List.not_mem_nil
  · obtain ⟨items', hitems', hmem⟩ := hsame.1 items hitems
    exact h' g' hg' items' hitems' v ((hmem v).mp hv)

end Covers

/-! ## The normal form -/

/-- Two stored values have the same shape and the same conditions. -/
structure Alike (types : Fields) (record stored stored' : Value) : Prop where
  wellShaped_iff : WellShaped stored ↔ WellShaped stored'
  legible_iff : Legible stored ↔ Legible stored'
  evaluable_iff : Evaluable types record stored ↔ Evaluable types record stored'
  satisfied_iff : Satisfied types record stored ↔ Satisfied types record stored'

theorem Rearranges.alike {stored stored' : Value} (h : Rearranges stored stored') (types : Fields)
    (record : Value) : Alike types record stored stored' := by
  obtain ⟨hcovers, hcovers'⟩ := covers_of_rearranges h
  refine ⟨⟨hcovers'.wellShaped, hcovers.wellShaped⟩, ?_, ⟨hcovers'.evaluable, hcovers.evaluable⟩,
    ⟨hcovers.satisfied hcovers', hcovers'.satisfied hcovers⟩⟩
  -- Only lists are rearranged, and only of them it is enough that their conditions are legible.
  cases h <;> exact ⟨hcovers'.legible, hcovers.legible⟩

/-- Whatever is done to the groups one change after another, or undone, they stay alike. -/
theorem alike_of_rearranged {stored stored' : Value} (h : Relation.EqvGen Rearranges stored stored')
    (types : Fields) (record : Value) : Alike types record stored stored' := by
  induction h with
  | rel stored stored' h => exact h.alike types record
  | refl stored => exact ⟨Iff.rfl, Iff.rfl, Iff.rfl, Iff.rfl⟩
  | symm stored stored' _ ih =>
    exact ⟨ih.wellShaped_iff.symm, ih.legible_iff.symm, ih.evaluable_iff.symm, ih.satisfied_iff.symm⟩
  | trans stored stored' stored'' _ _ ih ih' =>
    exact ⟨ih.wellShaped_iff.trans ih'.wellShaped_iff, ih.legible_iff.trans ih'.legible_iff,
      ih.evaluable_iff.trans ih'.evaluable_iff, ih.satisfied_iff.trans ih'.satisfied_iff⟩

/-- Two evaluations come to the same: the same truth value, or an error of matching both times. -/
def SameVerdict (a b : Except Fault Bool) : Prop :=
  (∃ truth, a = .ok truth ∧ b = .ok truth) ∨
    ∃ e e', a = .error (.error e) ∧ b = .error (.error e') ∧ e.kind = .matching ∧ e'.kind = .matching

/-- Stored conditions are evaluated as a disjunctive normal form: they fail for their shape alone, which
is refused if they can be written, only their truth counts, and no rearrangement changes what they come
to. -/
structure NormalForm (types fields : Fields) (stored : Value) : Prop where
  failed_iff : (∃ f, evaluate types stored (.object fields) = .error f) ↔ ¬ WellShaped stored
  refused_iff : stored.isWritable = true → ((∃ e,
    evaluate types stored (.object fields) = .error (.error e) ∧ e.kind = .matching) ↔
      ¬ WellShaped stored)
  judged : WellShaped stored → ∃ b, evaluate types stored (.object fields) = .ok b ∧
    (b = true ↔ Satisfied types (.object fields) stored)
  rearranged : ∀ stored', Relation.EqvGen Rearranges stored stored' →
    (∀ truth, evaluate types stored (.object fields) = .ok truth ↔
      evaluate types stored' (.object fields) = .ok truth) ∧
    (stored.isWritable = true → SameVerdict
      (evaluate types stored (.object fields)) (evaluate types stored' (.object fields)))

section

variable {types fields : Fields} {stored stored' : Value}

theorem evaluate_eq_ok_iff (h : Evaluable types (.object fields) stored) {truth : Bool} :
    evaluate types stored (.object fields) = .ok truth ↔
      WellShaped stored ∧ (truth = true ↔ Satisfied types (.object fields) stored) := by
  constructor
  · intro htruth
    have hshape : WellShaped stored := by
      by_contra hshape
      obtain ⟨flaw, -, heval⟩ := evaluate_of_not_wellShaped hshape
      exact absurd (htruth.symm.trans heval) (by simp)
    obtain ⟨b, hb, htrue⟩ := evaluate_of_wellShaped h hshape
    obtain rfl : b = truth := Except.ok.inj (hb.symm.trans htruth)
    exact ⟨hshape, htrue⟩
  · rintro ⟨hshape, htrue⟩
    obtain ⟨b, hb, htrue'⟩ := evaluate_of_wellShaped h hshape
    rw [hb, Bool.eq_iff_iff.mpr (htrue.trans htrue'.symm)]

/-- Values that are alike come to the same truth value or to none. -/
theorem Alike.evaluate_iff (halike : Alike types (.object fields) stored stored')
    (h : Evaluable types (.object fields) stored) (truth : Bool) :
    evaluate types stored (.object fields) = .ok truth ↔
      evaluate types stored' (.object fields) = .ok truth := by
  rw [evaluate_eq_ok_iff h, evaluate_eq_ok_iff (halike.evaluable_iff.mp h), halike.wellShaped_iff,
    halike.satisfied_iff]

theorem Alike.sameVerdict (halike : Alike types (.object fields) stored stored')
    (h : Evaluable types (.object fields) stored) (hlegible : Legible stored) :
    SameVerdict (evaluate types stored (.object fields)) (evaluate types stored' (.object fields)) := by
  by_cases hshape : WellShaped stored
  · obtain ⟨b, hb, -⟩ := evaluate_of_wellShaped h hshape
    exact .inl ⟨b, hb, (halike.evaluate_iff h b).mp hb⟩
  · obtain ⟨e, he, hkind⟩ := refused_of_not_wellShaped hshape hlegible
    obtain ⟨e', he', hkind'⟩ := refused_of_not_wellShaped
      (fun hshape' => hshape (halike.wellShaped_iff.mpr hshape')) (halike.legible_iff.mp hlegible)
    exact .inr ⟨e, e', he, he', hkind, hkind'⟩

end

/-- **Stored conditions are a disjunctive normal form** wherever no condition fails of its own. -/
theorem normalForm_of_evaluable {types fields : Fields} {stored : Value}
    (h : Evaluable types (.object fields) stored) : NormalForm types fields stored where
  failed_iff := by
    constructor
    · rintro ⟨f, hf⟩ hshape
      obtain ⟨b, hb, -⟩ := evaluate_of_wellShaped h hshape
      exact absurd (hf.symm.trans hb) (by simp)
    · intro hshape
      obtain ⟨flaw, -, heval⟩ := evaluate_of_not_wellShaped hshape
      exact ⟨_, heval⟩
  refused_iff := by
    intro hwritable
    constructor
    · rintro ⟨e, he, -⟩ hshape
      obtain ⟨b, hb, -⟩ := evaluate_of_wellShaped h hshape
      exact absurd (he.symm.trans hb) (by simp)
    · exact fun hshape => refused_of_not_wellShaped hshape (legible_of_isWritable hwritable)
  judged := evaluate_of_wellShaped h
  rearranged := by
    intro stored' hrearranged
    have halike := alike_of_rearranged hrearranged types (.object fields)
    exact ⟨halike.evaluate_iff h, fun hwritable =>
      halike.sameVerdict h (legible_of_isWritable hwritable)⟩

/-- Three groups: one condition that every record with a name meets, nothing, and one that is no
condition at all. -/
def misshapen : Value := .list [
  .list [.object [("field", .text "name"), ("operator", .text "is_not_null")]],
  .object [("conditions", .null)],
  .object [("conditions", .list [.text "name"])]]

theorem evaluable_misshapen (types : Fields) (record : Fields) :
    Evaluable types (.object record) misshapen := by
  rintro c ⟨g, hg, items, hitems, v, hv, hvc⟩
  have hgroups : g ∈ [Value.list [.object [("field", .text "name"), ("operator", .text "is_not_null")]],
      .object [("conditions", .null)], .object [("conditions", .list [.text "name"])]] := hg
  simp only [List.mem_cons, List.not_mem_nil, or_false] at hgroups
  rcases hgroups with rfl | rfl | rfl
  · rw [hitems.unique (.bare _), List.mem_singleton] at hv
    have hread : Denotes v ⟨"name", .isNotNull, .null⟩ := denotes_iff.mpr (by rw [hv]; rfl)
    rw [Denotes.unique hvc hread]
    exact ⟨_, rfl⟩
  · rw [hitems.unique (.noneUnder rfl)] at hv
    exact absurd hv List.not_mem_nil
  · rw [hitems.unique (.under rfl), List.mem_singleton] at hv
    obtain ⟨fields, hobject, -⟩ := hvc
    rw [hv] at hobject
    exact absurd hobject (by simp)

/-- The first group is true of this record, and the value is refused for its last one. -/
theorem normalForm_of_evaluable_misshapen :
    Evaluable [] (.object [("name", .text "Ada")]) misshapen ∧ misshapen.isWritable = true ∧
      NormalForm [] [("name", .text "Ada")] misshapen :=
  ⟨evaluable_misshapen _ _, rfl, normalForm_of_evaluable (evaluable_misshapen _ _)⟩

end Condition

end ChangeRules
