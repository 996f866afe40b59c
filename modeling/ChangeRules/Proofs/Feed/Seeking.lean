import ChangeRules.Proofs.Feed.Tracks

/-!
# Seeks that fail

The broker is sent back position by position. The first of these seeks that fails is the last one that
is made. So all positions that can be reached are sought exactly if none of them stands behind one that
cannot.

* `Broker.heeds`, `Broker.reaches`: whether a call, a seek works.
* `Broker.Orderly`: no position that can be reached stands behind one that cannot.
* **`Broker.made_seekAll`**: the seeks that are made; **`Broker.filter_attempted`**: those that work.
* **`Broker.Orderly.mem_takeWhile`**, **`Broker.orderly_of_mem_takeWhile`**: when these are all that can.
-/

namespace ChangeRules

theorem mem_seeks_iff {positions : List Position} {k : Position} :
    .seek k.part k.offset ∈ seeks positions ↔ k ∈ positions := by
  unfold seeks
  constructor
  · intro h
    obtain ⟨j, hj, heq⟩ := List.mem_map.mp h
    obtain ⟨hpart, hoffset⟩ := BrokerCall.seek.inj heq
    rwa [show k = j by cases j; cases k; simp_all]
  · exact fun h => List.mem_map_of_mem h

namespace Broker

/-- Whether a call works. -/
def heeds (b : Broker) (c : BrokerCall) : Bool := (b.failing c).isNone

/-- Whether the broker can go on at a position. -/
def reaches (b : Broker) (k : Position) : Bool := b.heeds (.seek k.part k.offset)

/-- The positions that are sought: those up to the first one that cannot be reached. -/
def attempted (b : Broker) : List Position → List Position
  | [] => []
  | k :: ks => k :: if b.reaches k then b.attempted ks else []

/-- No position that can be reached stands behind one that cannot. -/
def Orderly (b : Broker) (positions : List Position) : Prop :=
  positions.Pairwise fun j k => b.reaches k = true → b.reaches j = true

variable {b : Broker} {positions : List Position}

theorem attempted_congr (b' : Broker) (h : b'.failing = b.failing) (positions : List Position) :
    b'.attempted positions = b.attempted positions := by
  induction positions with
  | nil => rfl
  | cons k ks ih =>
    unfold attempted
    rw [ih, show b'.reaches k = b.reaches k by unfold reaches heeds; rw [h]]

/-- **The seeks that are made.** -/
theorem made_seekAll (positions : List Position) (b : Broker) :
    (seekAll positions b).2.made = b.made ++ seeks (b.attempted positions) := by
  induction positions generalizing b with
  | nil => simp [seekAll, attempted, seeks]
  | cons k ks ih =>
    unfold seekAll attempted
    cases hfault : b.failing (.seek k.part k.offset) with
    | none =>
      have hreaches : b.reaches k = true := by simp [reaches, heeds, hfault]
      simp only [perform, hfault, hreaches, if_true]
      rw [ih, attempted_congr (b := b) { b with made := b.made ++ [.seek k.part k.offset] } rfl ks,
        List.append_assoc]
      rfl
    | some f =>
      have hreaches : b.reaches k = false := by simp [reaches, heeds, hfault]
      simp [perform, hfault, hreaches, seeks]

/-- The seeks that work are those in front of the first one that does not. -/
theorem filter_attempted (b : Broker) (positions : List Position) :
    (b.attempted positions).filter b.reaches = positions.takeWhile b.reaches := by
  induction positions with
  | nil => rfl
  | cons k ks ih => cases hreaches : b.reaches k <;> simp [attempted, hreaches, ih]

theorem filter_seeks (b : Broker) (positions : List Position) :
    (seeks positions).filter b.heeds = seeks (positions.filter b.reaches) := by
  unfold seeks
  rw [List.filter_map]
  rfl

/-- In an orderly row all positions that can be reached are in front. -/
theorem Orderly.mem_takeWhile (h : b.Orderly positions) {k : Position} (hk : k ∈ positions)
    (hreaches : b.reaches k = true) : k ∈ positions.takeWhile b.reaches := by
  obtain ⟨before, after, rfl⟩ := List.append_of_mem hk
  have hbefore : ∀ j ∈ before, b.reaches j = true := fun j hj =>
    (List.pairwise_append.mp h).2.2 j hj k List.mem_cons_self hreaches
  rw [List.takeWhile_append_of_pos hbefore, List.takeWhile_cons_of_pos hreaches]
  exact List.mem_append_right _ List.mem_cons_self

/-- A row is orderly if all positions that can be reached are in front. -/
theorem orderly_of_mem_takeWhile (hnodup : positions.Nodup)
    (h : ∀ k ∈ positions, b.reaches k = true → k ∈ positions.takeWhile b.reaches) :
    b.Orderly positions := by
  induction positions with
  | nil => exact .nil
  | cons j ks ih =>
    obtain ⟨hj, hrest⟩ := List.nodup_cons.mp hnodup
    cases hreaches : b.reaches j with
    | true =>
      refine List.pairwise_cons.mpr ⟨fun k _ _ => hreaches, ih hrest fun k hk hk' => ?_⟩
      have hmem := h k (List.mem_cons_of_mem j hk) hk'
      rw [List.takeWhile_cons_of_pos hreaches] at hmem
      refine (List.mem_cons.mp hmem).resolve_left ?_
      rintro rfl
      exact hj hk
    | false =>
      -- Nothing is in front of the first position, so nothing behind it can be reached.
      have hnone : ∀ k ∈ ks, ¬ b.reaches k = true := by
        intro k hk hk'
        have hmem := h k (List.mem_cons_of_mem j hk) hk'
        rw [List.takeWhile_cons_of_neg (by simp [hreaches])] at hmem
        exact absurd hmem List.not_mem_nil
      refine List.pairwise_cons.mpr ⟨fun k hk hk' => absurd hk' (hnone k hk), ?_⟩
      exact List.pairwise_of_forall_mem_list fun i _ k hk hk' => absurd hk' (hnone k hk)

end Broker

end ChangeRules
