import ChangeRules.Proofs.Feed.AtLeastOnce
import Mathlib.Data.List.Nodup

/-!
# Rewinding with seeks that fail

When a message fails, the broker is told partition by partition where to go on: at that message, and
behind it where the partitions begin in the batch. The first of these seeks that fails is the last one
that is made. So a partition is rewound if its own seek works and those in front of it do too; all
partitions whose own seek works are rewound exactly if none of them stands behind one whose seek fails.
Where this is the case whenever a message of a batch fails, no commit passes a message of a partition
that was not handled, as long as the partition's own seeks work.

* `Session.SeeksBack`: what a rewinding should do.
* **`Session.seeksBack_iff`**: when all partitions are rewound that can be.
* **`rewound_iff_orderly`**: and what this is good for, in every run.
* **`not_rewound_pair`**: a partition that is passed because another one could not be sought.
-/

namespace ChangeRules

namespace Session

variable {process : Processor} {portions : List Portion}

/-- The broker was sent back to all positions that it can be sent to. -/
def SeeksBack (process : Processor) (portions : List Portion) (s : Session) : Prop :=
  ∀ k ∈ (handleBatch process portions s.feed.world).1, s.feed.broker.reaches k = true →
    .seek k.part k.offset ∈ s.heeded process portions

/-- **All partitions are rewound that can be** exactly if none of them stands behind one that cannot. -/
theorem seeksBack_iff (hnodup : (portions.map (·.part)).Nodup) (s : Session) :
    s.SeeksBack process portions ↔
      s.feed.broker.Orderly (handleBatch process portions s.feed.world).1 := by
  unfold SeeksBack
  rcases handleBatch_cases process portions s.feed.world with
    ⟨hnil, -⟩ | ⟨before, p, after, done, m, rest, xs, v, rfl, -, hpos, -⟩
  · rw [hnil]
    exact ⟨fun _ => .nil, fun _ k hk => absurd hk List.not_mem_nil⟩
  · have hdistinct := List.Nodup.of_map _ (nodup_resumption_of_distinct hnodup m)
    rw [heeded_of_resumed hpos, hpos]
    simp only [mem_seeks_iff]
    exact ⟨Broker.orderly_of_mem_takeWhile hdistinct,
      fun horderly k hk hreaches => horderly.mem_takeWhile hk hreaches⟩

end Session

/-- **A batch is rewound in all partitions that can be rewound exactly if none of them stands behind
one that cannot.** The batch is handled as a whole, or up to a message, where it is to go on, with the
partitions behind. If this goes well whenever a message fails, then in a partition whose own seeks work
nothing is passed: every message in front of its position was handled, and no commit goes beyond. -/
theorem rewound_iff_orderly (process : Processor) :
    (∀ (s : Session) (portions : List Portion), (portions.map (·.part)).Nodup →
      ((handleBatch process portions s.feed.world).1 = [] ∧
        (∃ xs, Handled process s.feed.world (deliveries portions) xs
          (s.feedAfter process portions).world) ∨
      ∃ before p after done m rest xs v, portions = before ++ p :: after ∧
        p.messages = done ++ m :: rest ∧
        (handleBatch process portions s.feed.world).1 = resumption p m after ∧
        Handled process s.feed.world (deliveries before ++ done.map fun m => ⟨p.part, m⟩) xs v ∧
        ¬ Handling.Succeeds process ⟨⟨p.part, m⟩, v⟩ ∧
        Handling.later process ⟨⟨p.part, m⟩, v⟩ = (s.feedAfter process portions).world) ∧
      (s.SeeksBack process portions ↔
        s.feed.broker.Orderly (handleBatch process portions s.feed.world).1)) ∧
    ∀ (q : Value) (s s' : Session) (es : List Episode), s.tracks.Rising →
      (s.tracks q).committed ≤ (s.tracks q).position →
      Session.Run process (Session.Spares process q) s es s' →
      ∃ xs, Told process s.feed.world es xs s'.feed.world ∧
        (s'.tracks q).messages = (s.tracks q).messages ∧
        (s'.tracks q).committed ≤ (s'.tracks q).position ∧
        ∀ m ∈ (s.tracks q).messages, (s.tracks q).position ≤ m.offset →
          m.offset < (s'.tracks q).position →
          ∃ x ∈ xs, x.toDelivered = ⟨q, m⟩ ∧ x.Succeeds process := by
  refine ⟨fun s portions hnodup => ⟨?_, Session.seeksBack_iff hnodup s⟩,
    fun q s s' es hr hc hrun => ?_⟩
  · rw [Session.world_feedAfter]
    exact handleBatch_cases process portions s.feed.world
  · obtain ⟨xs, htold⟩ := Session.exists_told hrun
    have hsound := Session.soundIn_of_run hr hc (fun t portions hspares => hspares) hrun htold
    exact ⟨xs, htold, hsound.messages q, hsound.committed, hsound.done⟩

/-! ## Two partitions, one of which cannot be sought -/

/-- The seeks of one partition fail. -/
def Broker.deaf (n : Int) : BrokerCall → Option Fault
  | .seek (.int k) _ => if k = n then some (Broker.fault "gone") else none
  | _ => none

/-- The session behind a batch of which the first message fails. -/
noncomputable def Session.pairAfter (n : Int) : Session :=
  (Session.pair 0 (Broker.deaf n)).after ({} : Engine).process (Portion.pair 0 1 0 1) (.pair 1 1)

/-- The session behind the next batch, with messages of the first partition. -/
noncomputable def Session.pairLater (n first : Int) : Session :=
  (Session.pairAfter n).after ({} : Engine).process (Portion.pair first 2 1 1) (.pair 2 1)

theorem positions_pair : (handleBatch ({} : Engine).process (Portion.pair 0 1 0 1) (.dark 0)).1 =
    [⟨.int 0, 0⟩, ⟨.int 1, 0⟩] := by rfl

theorem tracks_pairAfter_one : (Session.pairAfter 1).tracks = .pair 0 1 := by
  unfold Session.pairAfter
  rw [Session.tracks_after, Session.heeded_of_resumed positions_pair]
  have hreached : [⟨.int 0, 0⟩, ⟨.int 1, 0⟩].takeWhile
      (Session.pair 0 (Broker.deaf 1)).feed.broker.reaches = [⟨.int 0, 0⟩] := by rfl
  rw [hreached]
  funext q
  by_cases hq : q = .int 0
  · have hdistinct : ([(⟨.int 0, 0⟩ : Position)].map (·.part)).Nodup := List.nodup_singleton _
    rw [hq]
    exact foldl_seeks_of_mem hdistinct List.mem_cons_self _
  · rw [foldl_seeks_of_elsewhere fun p hp heq => hq (by rw [← heq, List.mem_singleton.mp hp])]
    simp only [Tracks.pair]
    split <;> first | rfl | exact absurd rfl hq

theorem tracks_pairAfter_zero : (Session.pairAfter 0).tracks = .pair 1 1 := by
  unfold Session.pairAfter
  rw [Session.tracks_after, Session.heeded_of_resumed positions_pair]
  rfl

theorem world_pairAfter (n : Int) : (Session.pairAfter n).feed.world =
    (handleBatch ({} : Engine).process (Portion.pair 0 1 0 1) (.dark 0)).2 :=
  Session.world_feedAfter _ _ _

theorem tracks_pairLater {n first : Int}
    (h : (handleBatch ({} : Engine).process (Portion.pair first 2 1 1)
      (handleBatch ({} : Engine).process (Portion.pair 0 1 0 1) (.dark 0)).2).1 = []) :
    (Session.pairLater n first).tracks = (Tracks.pair 2 1).obey .commit := by
  have hcommit : (Session.pairAfter n).feed.broker.failing .commit = none :=
    congrFun (Session.failing_feedAfter _ _ _) .commit
  unfold Session.pairLater
  rw [Session.tracks_after, Session.heeded_eq, world_pairAfter, h]
  simp [Broker.heeds, hcommit]

/-- The seek that works comes first. -/
theorem rewound_iff_orderly_pair :
    ((Portion.pair 0 1 0 1).map (·.part)).Nodup ∧
    (Session.pair 0 (Broker.deaf 1)).SeeksBack ({} : Engine).process (Portion.pair 0 1 0 1) ∧
    (Tracks.pair 0 0).Rising ∧
    (Tracks.pair 0 0 (.int 0)).committed ≤ (Tracks.pair 0 0 (.int 0)).position ∧
    Session.Run ({} : Engine).process (Session.Spares ({} : Engine).process (.int 0))
      (.pair 0 (Broker.deaf 1)) [.batch (Portion.pair 0 2 1 1), .batch (Portion.pair 0 1 0 1)]
      (.pairLater 1 0) ∧
    ((Session.pairLater 1 0).tracks (.int 0)).committed = 2 ∧
    ∃ xs, Told ({} : Engine).process (.dark 0)
        [.batch (Portion.pair 0 2 1 1), .batch (Portion.pair 0 1 0 1)] xs
        (Session.pairLater 1 0).feed.world ∧
      ∀ m ∈ [Message.created 0, .created 1],
        ∃ x ∈ xs, x.toDelivered = ⟨.int 0, m⟩ ∧ x.Succeeds ({} : Engine).process := by
  have hpolled : Polled (.pair 0 0) (Portion.pair 0 1 0 1) (.pair 1 1) :=
    polled_pair (by decide) (by decide)
  have horderly : (Session.pair 0 (Broker.deaf 1)).feed.broker.Orderly
      (handleBatch ({} : Engine).process (Portion.pair 0 1 0 1) (.dark 0)).1 := by
    rw [positions_pair]
    exact List.pairwise_pair.mpr fun _ => rfl
  have hdone : (handleBatch ({} : Engine).process (Portion.pair 0 2 1 1)
      (handleBatch ({} : Engine).process (Portion.pair 0 1 0 1) (.dark 0)).2).1 = [] := by
    decide +kernel
  have hagain : Polled (Session.pairAfter 1).tracks (Portion.pair 0 2 1 1) (.pair 2 1) := by
    rw [tracks_pairAfter_one]
    exact polled_pair (by decide) (by decide)
  have hspares : (Session.pairAfter 1).Spares ({} : Engine).process (.int 0)
      (Portion.pair 0 2 1 1) := by
    refine ⟨?_, fun offset => congrFun (Session.failing_feedAfter _ _ _) (.seek (.int 0) offset)⟩
    rw [world_pairAfter, hdone]
    exact .nil
  have hrun : Session.Run ({} : Engine).process (Session.Spares ({} : Engine).process (.int 0))
      (.pair 0 (Broker.deaf 1)) [.batch (Portion.pair 0 2 1 1), .batch (Portion.pair 0 1 0 1)]
      (.pairLater 1 0) :=
    (Session.Run.begin.batch hpolled ⟨horderly, fun _ => rfl⟩).batch hagain hspares
  have htracks := tracks_pairLater (n := 1) hdone
  obtain ⟨hsought, hkept⟩ := rewound_iff_orderly ({} : Engine).process
  obtain ⟨xs, htold, -, -, hhandled⟩ :=
    hkept (.int 0) _ _ _ (rising_pair 0 0) (Int.le_refl 0) hrun
  refine ⟨hpolled.distinct, (hsought _ _ hpolled.distinct).2.mpr horderly, rising_pair 0 0,
    Int.le_refl 0, hrun, ?_, xs, htold, fun m hm => hhandled m hm ?_ ?_⟩
  · rw [htracks]
    rfl
  · simp only [List.mem_cons, List.not_mem_nil, or_false] at hm
    rcases hm with rfl | rfl <;> decide
  · rw [htracks]
    simp only [List.mem_cons, List.not_mem_nil, or_false] at hm
    rcases hm with rfl | rfl <;> decide

/-- Where the seek that works comes second, it is not made. The next batch is committed, and with it the
second partition, of which nothing was even taken up. -/
theorem not_rewound_pair :
    Polled (Session.pair 0 (Broker.deaf 0)).tracks (Portion.pair 0 1 0 1) (.pair 1 1) ∧
    ¬ (Session.pair 0 (Broker.deaf 0)).SeeksBack ({} : Engine).process (Portion.pair 0 1 0 1) ∧
    Polled (Session.pairAfter 0).tracks (Portion.pair 1 2 1 1) (.pair 2 1) ∧
    (∀ offset, (Session.pair 0 (Broker.deaf 0)).feed.broker.reaches ⟨.int 1, offset⟩ = true) ∧
    ((Session.pairLater 0 1).tracks (.int 1)).committed = 1 ∧
    ∃ xs, Told ({} : Engine).process (.dark 0)
        [.batch (Portion.pair 1 2 1 1), .batch (Portion.pair 0 1 0 1)] xs
        (Session.pairLater 0 1).feed.world ∧
      ∀ x ∈ xs, x.part ≠ .int 1 := by
  have hdone : (handleBatch ({} : Engine).process (Portion.pair 1 2 1 1)
      (handleBatch ({} : Engine).process (Portion.pair 0 1 0 1) (.dark 0)).2).1 = [] := by
    decide +kernel
  have hpolled : Polled (.pair 0 0) (Portion.pair 0 1 0 1) (.pair 1 1) :=
    polled_pair (by decide) (by decide)
  have hagain : Polled (Session.pairAfter 0).tracks (Portion.pair 1 2 1 1) (.pair 2 1) := by
    rw [tracks_pairAfter_zero]
    exact polled_pair (by decide) (by decide)
  have hrun : Session.Run ({} : Engine).process (fun _ _ => True) (.pair 0 (Broker.deaf 0))
      [.batch (Portion.pair 1 2 1 1), .batch (Portion.pair 0 1 0 1)] (.pairLater 0 1) :=
    (Session.Run.begin.batch hpolled trivial).batch hagain trivial
  obtain ⟨xs, htold⟩ := Session.exists_told hrun
  refine ⟨hpolled, fun hsought => ?_, hagain, fun _ => rfl, ?_, xs, htold, ?_⟩
  · have hposition : (⟨.int 1, 0⟩ : Position) ∈
        (handleBatch ({} : Engine).process (Portion.pair 0 1 0 1) (.dark 0)).1 := by
      rw [positions_pair]
      exact List.mem_cons_of_mem _ List.mem_cons_self
    have hmem := hsought ⟨.int 1, 0⟩ hposition rfl
    rw [Session.heeded_of_resumed positions_pair] at hmem
    exact absurd hmem List.not_mem_nil
  · rw [tracks_pairLater hdone]
    rfl
  · -- The first batch takes up its first message and no other one, the second batch has one only.
    have hfails : ¬ Handling.Succeeds ({} : Engine).process ⟨⟨.int 0, .created 0⟩, .dark 0⟩ := by
      rw [succeeds_iff]
      rintro ⟨report, hok⟩
      have hfailed : (handleMessage ({} : Engine).process (.created 0) (.dark 0)).1.isOk = false := by
        decide +kernel
      rw [hok] at hfailed
      exact absurd hfailed Bool.noConfusion
    cases htold with
    | batch htold hsecond =>
      cases htold with
      | batch hbegun hfirst =>
        cases hbegun
        intro x hx
        rcases List.mem_append.mp hx with hx | hx
        · change TakesUp _ (.dark 0) [⟨.int 0, .created 0⟩, ⟨.int 1, .created 0⟩] _ _ at hfirst
          cases hfirst with
          | failed =>
            obtain rfl := List.mem_singleton.mp hx
            simp
          | handled hsucceeds => exact absurd hsucceeds hfails
        · have hmem := hsecond.delivered_prefix.subset (List.mem_map_of_mem hx)
          change x.toDelivered ∈ [⟨.int 0, .created 1⟩] at hmem
          rw [show x.part = .int 0 from congrArg Delivered.part (List.mem_singleton.mp hmem)]
          simp

end ChangeRules
