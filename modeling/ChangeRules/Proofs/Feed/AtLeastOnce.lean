import ChangeRules.Proofs.Feed.Session
import ChangeRules.Proofs.Matching

/-!
# Every message is handled

Where no seek and no commit fails, every batch spares every partition. So whatever becomes of the
events on the way, nothing in front of a position was left out, and what was taken up again and again
was taken up in order.

* **`at_least_once`**: every message in front of a position was handled, in order, in the world that
  the session had then.
* **`at_least_once_pair`**: two partitions, in which an event fails, is delivered again, and all is
  committed.
-/

namespace ChangeRules

/-- **Every message is handled at least once.** In a session in which seeks and commits work, every
message from the place where its partition began up to its position was handled, that is, passed over
or processed, and nothing is committed beyond a position. In a partition nothing is taken up before
all that comes earlier was handled. A batch is committed exactly if it is handled as a whole. All this
is read off what was taken up, in the worlds that the session itself went through. -/
theorem at_least_once {process : Processor} {s s' : Session} {es : List Episode}
    (hr : s.tracks.Rising) (hc : ∀ q, (s.tracks q).committed ≤ (s.tracks q).position)
    (h : Session.Run process (fun t _ => t.Works) s es s') :
    ∃ xs, Told process s.feed.world es xs s'.feed.world ∧
      (∀ q, (s'.tracks q).messages = (s.tracks q).messages ∧
        (s'.tracks q).committed ≤ (s'.tracks q).position) ∧
      (∀ q, ∀ m ∈ (s.tracks q).messages, (s.tracks q).position ≤ m.offset →
        m.offset < (s'.tracks q).position →
        ∃ x ∈ xs, x.toDelivered = ⟨q, m⟩ ∧ x.Succeeds process) ∧
      (∀ before x after, xs = before ++ x :: after →
        ∀ m ∈ (s.tracks x.part).messages, (s.tracks x.part).position ≤ m.offset →
          m.offset < x.message.offset →
          ∃ y ∈ before, y.toDelivered = ⟨x.part, m⟩ ∧ y.Succeeds process) ∧
      ∀ portions, .commit ∈ s'.calls process portions ↔
        ∃ new, Handled process s'.feed.world (deliveries portions) new
          (s'.feedAfter process portions).world := by
  obtain ⟨xs, htold⟩ := Session.exists_told h
  have hsound : ∀ q, Session.SoundIn process q s.tracks xs s' := fun q =>
    Session.soundIn_of_run hr (hc q) (fun t portions hworks => hworks.spares process q portions) h
      htold
  exact ⟨xs, htold, fun q => ⟨(hsound q).messages q, (hsound q).committed⟩, fun q => (hsound q).done,
    fun before x after heq => (hsound x.part).order before x after heq rfl,
    fun portions => s'.commit_mem_calls_iff process portions⟩

/-! ## Two partitions -/

/-- A message with an event. -/
def Message.created (offset : Int) : Message :=
  ⟨offset, .text "\x7b\"table\":\"t\",\"operation\":\"created\",\"tenantId\":\"a\"\x7d"⟩

/-- A partition with two events, and one with an event and a message without, read up to some
positions. -/
def Tracks.pair (first second : Int) : Tracks
  | .int 0 => ⟨[.created 0, .created 1], first, 0⟩
  | .int 1 => ⟨[.created 0, ⟨1, .empty⟩], second, 0⟩
  | _ => ⟨[], 0, 0⟩

/-- What a poll of these partitions delivers that goes on from some positions to others. -/
def Portion.pair (first first' second second' : Int) : List Portion :=
  [⟨.int 0, ((Tracks.pair first second (.int 0)).messages).filter fun m =>
      decide (first ≤ m.offset) && decide (m.offset < first')⟩,
    ⟨.int 1, ((Tracks.pair first second (.int 1)).messages).filter fun m =>
      decide (second ≤ m.offset) && decide (m.offset < second')⟩]

theorem polled_pair {first first' second second' : Int} (hfirst : first ≤ first')
    (hsecond : second ≤ second') :
    Polled (.pair first second) (Portion.pair first first' second second')
      (.pair first' second') where
  distinct := by simp [Portion.pair]
  next p hp := by
    rcases List.mem_cons.mp hp with rfl | hp
    · rfl
    · rw [List.mem_singleton.mp hp]
      rfl
  others q hq := by
    simp only [Tracks.pair]
    split
    · exact absurd rfl (hq _ List.mem_cons_self)
    · exact absurd rfl (hq _ (List.mem_cons_of_mem _ List.mem_cons_self))
    · rfl
  forth q := by
    simp only [Tracks.pair]
    split
    · exact hfirst
    · exact hsecond
    · exact Int.le_refl _
  messages q := by
    simp only [Tracks.pair]
    split <;> rfl
  committed q := by
    simp only [Tracks.pair]
    split <;> rfl

theorem rising_pair (first second : Int) : (Tracks.pair first second).Rising := by
  intro q
  simp only [Tracks.pair]
  split <;> simp [Message.created]

/-- The partitions when both were sought. -/
theorem foldl_seeks_pair (first second first' second' : Int) :
    (seeks [⟨.int 0, first'⟩, ⟨.int 1, second'⟩]).foldl Tracks.obey (.pair first second) =
      .pair first' second' := by
  have hnodup : ([(⟨.int 0, first'⟩ : Position), ⟨.int 1, second'⟩].map (·.part)).Nodup := by simp
  have hmem := fun p hp => foldl_seeks_of_mem hnodup (p := p) hp (.pair first second)
  funext q
  by_cases hzero : q = .int 0
  · rw [hzero]
    exact hmem _ List.mem_cons_self
  · by_cases hone : q = .int 1
    · rw [hone]
      exact hmem _ (List.mem_cons_of_mem _ List.mem_cons_self)
    · rw [foldl_seeks_of_elsewhere (by simp [Ne.symm hzero, Ne.symm hone])]
      simp only [Tracks.pair]

/-- A world in which rules can be listed a number of times before this fails once. -/
def World.dark (times : Nat) : World :=
  { World.plain [] with outages := fun c =>
      if c = .listActive then List.replicate times none ++ [some (.outside "OSError" "gone")] else [] }

/-- A session at the beginning of these partitions, in a world that goes dark, at a broker whose calls
fail in some way. -/
def Session.pair (times : Nat) (failing : BrokerCall → Option Fault) : Session where
  feed := { topic := "changes", broker := { failing }, world := .dark times }
  tracks := .pair 0 0

/-- The session behind a batch of which the second event fails. -/
noncomputable def Session.pairOnce : Session :=
  (Session.pair 1 fun _ => none).after ({} : Engine).process (Portion.pair 0 2 0 1) (.pair 2 1)

/-- The session when this event was delivered again, and with it all that was not handled. -/
noncomputable def Session.pairTwice : Session :=
  Session.pairOnce.after ({} : Engine).process (Portion.pair 1 2 0 2) (.pair 2 2)

theorem heeded_pair : (Session.pair 1 fun _ => none).heeded ({} : Engine).process
    (Portion.pair 0 2 0 1) = seeks [⟨.int 0, 1⟩, ⟨.int 1, 0⟩] := by
  have hpositions : (handleBatch ({} : Engine).process (Portion.pair 0 2 0 1) (.dark 1)).1 =
      [⟨.int 0, 1⟩, ⟨.int 1, 0⟩] := by
    with_unfolding_all rfl
  rw [Session.heeded_of_resumed hpositions]
  rfl

theorem tracks_pairOnce : Session.pairOnce.tracks = .pair 1 0 := by
  unfold Session.pairOnce
  rw [Session.tracks_after, heeded_pair]
  exact foldl_seeks_pair 2 1 1 0

theorem works_pairOnce : Session.pairOnce.Works := Session.Works.after (fun _ => rfl) _ _ _

theorem heeded_pairOnce :
    Session.pairOnce.heeded ({} : Engine).process (Portion.pair 1 2 0 2) = [.commit] := by
  have hdone : (handleBatch ({} : Engine).process (Portion.pair 1 2 0 2)
      (handleBatch ({} : Engine).process (Portion.pair 0 2 0 1) (.dark 1)).2).1 = [] := by
    decide +kernel
  have hworld : Session.pairOnce.feed.world =
      (handleBatch ({} : Engine).process (Portion.pair 0 2 0 1) (.dark 1)).2 :=
    Session.world_feedAfter _ _ _
  rw [Session.heeded_eq, hworld, hdone]
  simp [Broker.heeds, works_pairOnce .commit]

theorem tracks_pairTwice : Session.pairTwice.tracks = (Tracks.pair 2 2).obey .commit := by
  unfold Session.pairTwice
  rw [Session.tracks_after, heeded_pairOnce]
  rfl

/-- The event that fails is delivered again, and with it the other partition. All is handled then, and
committed. -/
theorem at_least_once_pair :
    (Tracks.pair 0 0).Rising ∧ (∀ q, (Tracks.pair 0 0 q).committed ≤ (Tracks.pair 0 0 q).position) ∧
    (Session.pair 1 fun _ => none).heeded ({} : Engine).process (Portion.pair 0 2 0 1) =
      seeks [⟨.int 0, 1⟩, ⟨.int 1, 0⟩] ∧
    Session.pairOnce.heeded ({} : Engine).process (Portion.pair 1 2 0 2) = [.commit] ∧
    Session.Run ({} : Engine).process (fun t _ => t.Works) (.pair 1 fun _ => none)
      [.batch (Portion.pair 1 2 0 2), .batch (Portion.pair 0 2 0 1)] .pairTwice ∧
    (Session.pairTwice.tracks (.int 0)).committed = 2 ∧
    (Session.pairTwice.tracks (.int 1)).committed = 2 ∧
    ∃ xs, Told ({} : Engine).process (.dark 1)
        [.batch (Portion.pair 1 2 0 2), .batch (Portion.pair 0 2 0 1)] xs
        Session.pairTwice.feed.world ∧
      (∀ m ∈ [Message.created 0, .created 1],
        ∃ x ∈ xs, x.toDelivered = ⟨.int 0, m⟩ ∧ x.Succeeds ({} : Engine).process) ∧
      ∀ m ∈ [Message.created 0, ⟨1, .empty⟩],
        ∃ x ∈ xs, x.toDelivered = ⟨.int 1, m⟩ ∧ x.Succeeds ({} : Engine).process := by
  have hbegins : ∀ q, (Tracks.pair 0 0 q).committed ≤ (Tracks.pair 0 0 q).position := by
    intro q
    simp only [Tracks.pair]
    split <;> exact Int.le_refl 0
  have hagain : Polled Session.pairOnce.tracks (Portion.pair 1 2 0 2) (.pair 2 2) := by
    rw [tracks_pairOnce]
    exact polled_pair (by decide) (by decide)
  have hrun : Session.Run ({} : Engine).process (fun t _ => t.Works) (.pair 1 fun _ => none)
      [.batch (Portion.pair 1 2 0 2), .batch (Portion.pair 0 2 0 1)] .pairTwice :=
    (Session.Run.begin.batch (polled_pair (by decide) (by decide)) fun _ => rfl).batch hagain
      works_pairOnce
  obtain ⟨xs, htold, -, hdone, -⟩ := at_least_once (rising_pair 0 0) hbegins hrun
  refine ⟨rising_pair 0 0, hbegins, heeded_pair, heeded_pairOnce, hrun, ?_, ?_, xs, htold,
    fun m hm => hdone (.int 0) m hm ?_ ?_, fun m hm => hdone (.int 1) m hm ?_ ?_⟩
  · rw [tracks_pairTwice]
    rfl
  · rw [tracks_pairTwice]
    rfl
  · simp only [List.mem_cons, List.not_mem_nil, or_false] at hm
    rcases hm with rfl | rfl <;> decide
  · rw [tracks_pairTwice]
    simp only [List.mem_cons, List.not_mem_nil, or_false] at hm
    rcases hm with rfl | rfl <;> decide
  · simp only [List.mem_cons, List.not_mem_nil, or_false] at hm
    rcases hm with rfl | rfl <;> decide
  · rw [tracks_pairTwice]
    simp only [List.mem_cons, List.not_mem_nil, or_false] at hm
    rcases hm with rfl | rfl <;> decide

end ChangeRules
