import ChangeRules.Proofs.Feed.Handling

/-!
# Partitions

The broker keeps the messages of each partition in order, where the next poll reads on, and up to
where everything is done with. A poll delivers what comes next in some partitions, and the calls of a
consumer tell the broker where to go on.

* `Track`: a partition as the broker keeps it; `Tracks.obey`: what a call makes of them.
* `Polled`: a poll; **`Polled.mem_deliveries_iff`**: what it delivers.
* **`foldl_seeks_cases`**: a partition is sought, or it stays as it is.
* **`Polled.left_resumption`**: what a batch leaves over is not before the place where it is resumed.

Out of scope: partitions that come and go, messages that the broker drops, and other consumers.
-/

namespace ChangeRules

/-! ## Partitions -/

/-- A partition as the broker keeps it. -/
structure Track where
  messages : List Message
  /-- The next poll reads on here. -/
  position : Int
  /-- Everything before is done with. -/
  committed : Int

/-- All partitions. -/
abbrev Tracks := Value → Track

/-- The numbers of messages rise in every partition. -/
def Tracks.Rising (ts : Tracks) : Prop :=
  ∀ q, (ts q).messages.Pairwise fun m k => m.offset < k.offset

open Classical in
/-- What a call makes of the partitions. -/
noncomputable def Tracks.obey (ts : Tracks) : BrokerCall → Tracks
  | .seek part offset => fun q => if q = part then { ts q with position := offset } else ts q
  | .commit => fun q => { ts q with committed := (ts q).position }
  | _ => ts

/-- A poll: for some partitions the messages from their positions up to new ones. -/
structure Polled (ts : Tracks) (portions : List Portion) (ts' : Tracks) : Prop where
  distinct : (portions.map (·.part)).Nodup
  next : ∀ p ∈ portions, p.messages = (ts p.part).messages.filter fun m =>
    decide ((ts p.part).position ≤ m.offset) && decide (m.offset < (ts' p.part).position)
  others : ∀ q, (∀ p ∈ portions, p.part ≠ q) → (ts' q).position = (ts q).position
  forth : ∀ q, (ts q).position ≤ (ts' q).position
  messages : ∀ q, (ts' q).messages = (ts q).messages
  committed : ∀ q, (ts' q).committed = (ts q).committed

theorem mem_deliveries {portions : List Portion} {d : Delivered} :
    d ∈ deliveries portions ↔ ∃ p ∈ portions, p.part = d.part ∧ d.message ∈ p.messages := by
  simp only [deliveries, Portion.deliveries, List.mem_flatMap, List.mem_map]
  constructor
  · rintro ⟨p, hp, m, hm, rfl⟩
    exact ⟨p, hp, rfl, hm⟩
  · rintro ⟨p, hp, hpart, hm⟩
    exact ⟨p, hp, d.message, hm, by rw [hpart]⟩

namespace Polled

variable {ts ts' : Tracks} {portions : List Portion}

/-- Delivered is what lies between the positions before and behind the poll. -/
theorem mem_deliveries_iff (h : Polled ts portions ts') {d : Delivered} :
    d ∈ deliveries portions ↔ d.message ∈ (ts d.part).messages ∧
      (ts d.part).position ≤ d.message.offset ∧ d.message.offset < (ts' d.part).position := by
  rw [mem_deliveries]
  constructor
  · rintro ⟨p, hp, hpart, hm⟩
    rw [h.next p hp, hpart] at hm
    simpa using hm
  · rintro ⟨hm, hlow, hhigh⟩
    by_cases hex : ∃ p ∈ portions, p.part = d.part
    · obtain ⟨p, hp, hpart⟩ := hex
      refine ⟨p, hp, hpart, ?_⟩
      rw [h.next p hp, hpart]
      simp [hm, hlow, hhigh]
    · have hsame := h.others d.part fun p hp hpart => hex ⟨p, hp, hpart⟩
      omega

theorem rising_portion (h : Polled ts portions ts') (hr : ts.Rising) {p : Portion}
    (hp : p ∈ portions) : p.messages.Pairwise fun m k => m.offset < k.offset := by
  rw [h.next p hp]
  exact (hr p.part).filter _

/-- Messages of a partition are delivered in order. -/
theorem rising_deliveries (h : Polled ts portions ts') (hr : ts.Rising) :
    (deliveries portions).Pairwise fun d d' =>
      d.part = d'.part → d.message.offset < d'.message.offset := by
  refine List.pairwise_flatMap.mpr ⟨fun p hp => ?_, ?_⟩
  · refine List.pairwise_map.mpr ((h.rising_portion hr hp).imp ?_)
    intro m k hlt _
    exact hlt
  · refine (List.pairwise_map.mp h.distinct).imp fun hne d hd d' hd' hsame => ?_
    obtain ⟨m, -, rfl⟩ := List.mem_map.mp hd
    obtain ⟨m', -, rfl⟩ := List.mem_map.mp hd'
    exact absurd hsame hne

end Polled

/-! ## Seeking -/

/-- The seeks for several positions. -/
def seeks (positions : List Position) : List BrokerCall :=
  positions.map fun p => .seek p.part p.offset

section

variable {positions : List Position}

theorem foldl_seeks_of_elsewhere {q : Value} (h : ∀ p ∈ positions, p.part ≠ q) (ts : Tracks) :
    (seeks positions).foldl Tracks.obey ts q = ts q := by
  induction positions generalizing ts with
  | nil => rfl
  | cons p ps ih =>
    have hrest := ih (fun k hk => h k (List.mem_cons_of_mem p hk)) (ts.obey (.seek p.part p.offset))
    have hne := h p List.mem_cons_self
    rw [seeks, List.map_cons, List.foldl_cons]
    rw [← seeks, hrest]
    simp [Tracks.obey, Ne.symm hne]

theorem foldl_seeks_of_mem (hnodup : (positions.map (·.part)).Nodup) {p : Position}
    (hp : p ∈ positions) (ts : Tracks) :
    (seeks positions).foldl Tracks.obey ts p.part = { ts p.part with position := p.offset } := by
  induction positions generalizing ts with
  | nil => exact absurd hp List.not_mem_nil
  | cons k ps ih =>
    rw [List.map_cons, List.nodup_cons] at hnodup
    rw [seeks, List.map_cons, List.foldl_cons, ← seeks]
    rcases List.mem_cons.mp hp with rfl | hp
    · have helse : ∀ k ∈ ps, k.part ≠ p.part := fun k hk heq =>
        hnodup.1 (heq ▸ List.mem_map_of_mem hk)
      rw [foldl_seeks_of_elsewhere helse]
      simp [Tracks.obey]
    · have hne : p.part ≠ k.part := fun heq => hnodup.1 (heq ▸ List.mem_map_of_mem hp)
      rw [ih hnodup.2 hp]
      simp [Tracks.obey, hne]

/-- A partition is sought or stays as it is. -/
theorem foldl_seeks_cases (hnodup : (positions.map (·.part)).Nodup) (ts : Tracks) (q : Value) :
    (∃ p ∈ positions, p.part = q ∧
      (seeks positions).foldl Tracks.obey ts q = { ts q with position := p.offset }) ∨
    (seeks positions).foldl Tracks.obey ts q = ts q := by
  by_cases hex : ∃ p ∈ positions, p.part = q
  · obtain ⟨p, hp, rfl⟩ := hex
    exact Or.inl ⟨p, hp, rfl, foldl_seeks_of_mem hnodup hp ts⟩
  · exact Or.inr (foldl_seeks_of_elsewhere (fun p hp heq => hex ⟨p, hp, heq⟩) ts)

end

/-! ## Where a batch is resumed -/

theorem mem_starts {portions : List Portion} {k : Position} (h : k ∈ Portion.starts portions) :
    ∃ p ∈ portions, ∃ m ∈ p.messages, k = ⟨p.part, m.offset⟩ := by
  obtain ⟨p, hp, hk⟩ := List.mem_filterMap.mp h
  obtain ⟨m, hm, rfl⟩ := Option.map_eq_some_iff.mp hk
  exact ⟨p, hp, m, List.mem_of_head? hm, rfl⟩

theorem starts_sublist (portions : List Portion) :
    ((Portion.starts portions).map (·.part)).Sublist (portions.map (·.part)) := by
  induction portions with
  | nil => exact List.Sublist.refl _
  | cons p ps ih =>
    unfold Portion.starts at ih ⊢
    rw [List.filterMap_cons]
    cases p.messages.head? with
    | none => exact ih.cons _
    | some m => exact ih.cons_cons _

/-- A partition is resumed at one position at most. -/
theorem nodup_resumption_of_distinct {before after : List Portion} {p : Portion}
    (h : ((before ++ p :: after).map (·.part)).Nodup) (m : Message) :
    ((resumption p m after).map (·.part)).Nodup := by
  rw [List.map_append, List.map_cons] at h
  exact (List.nodup_append.mp h).2.1.sublist ((starts_sublist after).cons_cons p.part)

namespace Polled

variable {ts ts' : Tracks} {before after : List Portion} {p : Portion} {done rest : List Message}
  {m : Message}

theorem nodup_resumption (h : Polled ts (before ++ p :: after) ts') :
    ((resumption p m after).map (·.part)).Nodup :=
  nodup_resumption_of_distinct h.distinct m

/-- A batch is resumed at messages that were delivered. -/
theorem bounds_resumption (h : Polled ts (before ++ p :: after) ts') (hm : m ∈ p.messages)
    {k : Position} (hk : k ∈ resumption p m after) :
    (ts k.part).position ≤ k.offset ∧ k.offset ≤ (ts' k.part).position := by
  have hmem : ∃ d ∈ deliveries (before ++ p :: after), d.part = k.part ∧
      d.message.offset = k.offset := by
    rcases List.mem_cons.mp hk with rfl | hk
    · exact ⟨⟨p.part, m⟩, mem_deliveries.mpr ⟨p, by simp, rfl, hm⟩, rfl, rfl⟩
    · obtain ⟨p', hp', m', hm', rfl⟩ := mem_starts hk
      exact ⟨⟨p'.part, m'⟩, mem_deliveries.mpr ⟨p', by simp [hp'], rfl, hm'⟩, rfl, rfl⟩
  obtain ⟨d, hd, hpart, hoffset⟩ := hmem
  obtain ⟨-, hlow, hhigh⟩ := h.mem_deliveries_iff.mp hd
  rw [hpart, hoffset] at hlow hhigh
  exact ⟨hlow, Int.le_of_lt hhigh⟩

/-- What is left of a batch is not before the place where its partition is resumed. -/
theorem left_resumption (h : Polled ts (before ++ p :: after) ts') (hr : ts.Rising)
    (hp : p.messages = done ++ m :: rest) {d : Delivered}
    (hd : d ∈ remainder p m rest after) :
    ∃ k ∈ resumption p m after, k.part = d.part ∧ k.offset ≤ d.message.offset := by
  rcases List.mem_append.mp hd with hd | hd
  · refine ⟨⟨p.part, m.offset⟩, List.mem_cons_self, ?_⟩
    rcases List.mem_cons.mp hd with rfl | hd
    · exact ⟨rfl, Int.le_refl _⟩
    · obtain ⟨k, hk, rfl⟩ := List.mem_map.mp hd
      have hrise := h.rising_portion hr (p := p) (by simp)
      rw [hp] at hrise
      exact ⟨rfl, Int.le_of_lt
        ((List.pairwise_cons.mp (List.pairwise_append.mp hrise).2.1).1 k hk)⟩
  · obtain ⟨p', hp', hpart, hd⟩ := mem_deliveries.mp hd
    obtain ⟨first, more, hfirst⟩ := List.exists_cons_of_ne_nil (List.ne_nil_of_mem hd)
    have hk : ⟨p'.part, first.offset⟩ ∈ Portion.starts after :=
      List.mem_filterMap.mpr ⟨p', hp', by rw [hfirst]; rfl⟩
    refine ⟨⟨p'.part, first.offset⟩, List.mem_cons_of_mem _ hk, hpart, ?_⟩
    have hrise := h.rising_portion hr (p := p') (by simp [hp'])
    rw [hfirst] at hrise hd
    rcases List.mem_cons.mp hd with hd | hd
    · exact Int.le_of_eq (congrArg Message.offset hd.symm)
    · exact Int.le_of_lt ((List.pairwise_cons.mp hrise).1 _ hd)

end Polled

end ChangeRules
