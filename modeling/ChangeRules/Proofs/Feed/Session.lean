import ChangeRules.Proofs.Feed.Seeking

/-!
# Sessions of a consumer

A consumer goes from batch to batch, and whatever else touches the world does so between them. Each
batch begins in the world that it finds and leaves another one behind; the calls that it makes, if they
do not fail, tell the broker where to go on. What was taken up in all this follows from the worlds.

* `Session`: a consumer and its partitions; `Session.after`: behind a batch.
* `Episode`: what happens in a session; `Session.Run`: a session, episode by episode.
* `Told`: all that was taken up in a row of episodes, given the world at the beginning.
* **`Session.exists_told`**: there is something to tell of every run, and it ends in the run's world.
* `Session.Spares`: a batch that is rewound in a partition if it has to be.
* **`Session.SoundIn.batch`**: such a batch leaves nothing of the partition out.
* **`Session.soundIn_of_run`**: nor does a run of them, and it takes up everything in order.

Out of scope: a batch that is cut short while it is handled.
-/

namespace ChangeRules

/-! ## Batches -/

/-- A consumer and the partitions that it reads. -/
structure Session where
  feed : Feed
  tracks : Tracks

namespace Session

variable {process : Processor} {portions : List Portion} {polled : Tracks} {s s' : Session}

/-- The consumer behind a batch. -/
def feedAfter (process : Processor) (portions : List Portion) (s : Session) : Feed :=
  (s.feed.processBatchBy process portions).2

/-- The calls that a batch makes. -/
def calls (process : Processor) (portions : List Portion) (s : Session) : List BrokerCall :=
  (s.feedAfter process portions).broker.made.drop s.feed.broker.made.length

/-- The calls of a batch that the broker heeds. -/
def heeded (process : Processor) (portions : List Portion) (s : Session) : List BrokerCall :=
  (s.calls process portions).filter s.feed.broker.heeds

/-- The session behind a batch, given the partitions behind the poll. A call that fails changes
nothing. -/
noncomputable def after (process : Processor) (portions : List Portion) (polled : Tracks)
    (s : Session) : Session where
  feed := s.feedAfter process portions
  tracks := (s.heeded process portions).foldl Tracks.obey polled

theorem tracks_after (process : Processor) (portions : List Portion) (polled : Tracks) (s : Session) :
    (s.after process portions polled).tracks = (s.heeded process portions).foldl Tracks.obey polled :=
  rfl

/-- A batch ends in the world that handling it leads to. -/
theorem world_feedAfter (process : Processor) (portions : List Portion) (s : Session) :
    (s.feedAfter process portions).world = (handleBatch process portions s.feed.world).2 := by
  unfold feedAfter Feed.processBatchBy
  rcases handleBatch process portions s.feed.world with ⟨_ | _, world⟩ <;> rfl

theorem failing_feedAfter (process : Processor) (portions : List Portion) (s : Session) :
    (s.feedAfter process portions).broker.failing = s.feed.broker.failing := by
  unfold feedAfter Feed.processBatchBy
  rcases handleBatch process portions s.feed.world with ⟨_ | ⟨k, ks⟩, world⟩
  · rfl
  · exact Broker.failing_seekAll (k :: ks) s.feed.broker

/-- A batch is committed, or it is to be resumed at several positions. -/
theorem calls_eq (process : Processor) (portions : List Portion) (s : Session) :
    s.calls process portions = match (handleBatch process portions s.feed.world).1 with
      | [] => [.commit]
      | k :: ks => seeks (s.feed.broker.attempted (k :: ks)) := by
  unfold calls feedAfter Feed.processBatchBy
  rcases handleBatch process portions s.feed.world with ⟨_ | ⟨k, ks⟩, world⟩
  · simp [Feed.perform, Broker.perform]
  · dsimp only
    rw [Broker.made_seekAll, List.drop_left]

/-- A batch is committed exactly if all of it is handled. -/
theorem commit_mem_calls_iff (process : Processor) (portions : List Portion) (s : Session) :
    .commit ∈ s.calls process portions ↔ ∃ xs, Handled process s.feed.world (deliveries portions) xs
      (s.feedAfter process portions).world := by
  rw [world_feedAfter, ← handleBatch_eq_nil_iff, calls_eq]
  cases (handleBatch process portions s.feed.world).1 with
  | nil => simp
  | cons k ks => simp [seeks]

/-- A batch is committed, or it is resumed at the positions in front of the first one that cannot be
reached. -/
theorem heeded_eq (process : Processor) (portions : List Portion) (s : Session) :
    s.heeded process portions = match (handleBatch process portions s.feed.world).1 with
      | [] => [.commit].filter s.feed.broker.heeds
      | k :: ks => seeks ((k :: ks).takeWhile s.feed.broker.reaches) := by
  unfold heeded
  rw [calls_eq]
  cases (handleBatch process portions s.feed.world).1 with
  | nil => rfl
  | cons k ks =>
    dsimp only
    rw [Broker.filter_seeks, Broker.filter_attempted]

theorem heeded_of_done (h : (handleBatch process portions s.feed.world).1 = []) :
    s.heeded process portions = [.commit] ∨ s.heeded process portions = [] := by
  rw [heeded_eq, h]
  cases hcommit : s.feed.broker.heeds .commit <;> simp [hcommit]

theorem heeded_of_resumed {k : Position} {ks : List Position}
    (h : (handleBatch process portions s.feed.world).1 = k :: ks) :
    s.heeded process portions = seeks ((k :: ks).takeWhile s.feed.broker.reaches) := by
  rw [heeded_eq, h]

/-! ## Runs -/

/-- The session when the world has become another one, and other calls of the broker fail. -/
def drifted (world : World) (failing : BrokerCall → Option Fault) (s : Session) : Session :=
  { s with feed := { s.feed with world, broker := { s.feed.broker with failing } } }

end Session

/-- What happens in a session. -/
inductive Episode where
  /-- Something else touches the world, and which calls of the broker fail may change. -/
  | drift (world : World) (failing : BrokerCall → Option Fault)
  /-- A poll delivers something, and this is handled. -/
  | batch (portions : List Portion)

/-- A session from its beginning on, with its episodes, the latest first. Every batch is such as it
should be. -/
inductive Session.Run (process : Processor) (ok : Session → List Portion → Prop) (s : Session) :
    List Episode → Session → Prop
  | begin : Run process ok s [] s
  | drift {es : List Episode} {t : Session} (h : Run process ok s es t) (world : World)
      (failing : BrokerCall → Option Fault) :
      Run process ok s (.drift world failing :: es) (t.drifted world failing)
  | batch {es : List Episode} {t : Session} {portions : List Portion} {polled : Tracks}
      (h : Run process ok s es t) (hpoll : Polled t.tracks portions polled) (hok : ok t portions) :
      Run process ok s (.batch portions :: es) (t.after process portions polled)

/-- All that was taken up in several episodes that led from one world to another: each batch is taken
up in the world that it finds. -/
inductive Told (process : Processor) (w : World) : List Episode → List Handling → World → Prop
  | begin : Told process w [] [] w
  | drift {es : List Episode} {xs : List Handling} {w' : World} (h : Told process w es xs w')
      (world : World) (failing : BrokerCall → Option Fault) :
      Told process w (.drift world failing :: es) xs world
  | batch {es : List Episode} {xs new : List Handling} {w' w'' : World} {portions : List Portion}
      (h : Told process w es xs w') (hnew : TakesUp process w' (deliveries portions) new w'') :
      Told process w (.batch portions :: es) (xs ++ new) w''

/-- What is told of episodes is determined by them. -/
theorem Told.deterministic {process : Processor} {w w' w'' : World} {es : List Episode}
    {xs ys : List Handling} (h : Told process w es xs w') (h' : Told process w es ys w'') :
    xs = ys ∧ w' = w'' := by
  induction h generalizing ys w'' with
  | begin =>
    cases h'
    exact ⟨rfl, rfl⟩
  | drift _ world failing ih =>
    cases h' with
    | drift h' => exact ⟨(ih h').1, rfl⟩
  | batch _ hnew ih =>
    cases h' with
    | batch h' hnew' =>
      obtain ⟨rfl, rfl⟩ := ih h'
      obtain ⟨rfl, rfl⟩ := hnew.deterministic hnew'
      exact ⟨rfl, rfl⟩

namespace Session

variable {process : Processor} {portions : List Portion} {polled : Tracks} {s s' : Session}
  {ok : Session → List Portion → Prop} {es : List Episode} {q : Value}

/-- **There is something to tell of every run**, and it ends in the world of the run. -/
theorem exists_told (h : Run process ok s es s') :
    ∃ xs, Told process s.feed.world es xs s'.feed.world := by
  induction h with
  | begin => exact ⟨[], .begin⟩
  | drift _ world failing ih =>
    obtain ⟨xs, htold⟩ := ih
    exact ⟨xs, htold.drift world failing⟩
  | @batch es t portions polled _ _ _ ih =>
    obtain ⟨xs, htold⟩ := ih
    obtain ⟨new, hnew⟩ := takesUp_handleBatch process portions t.feed.world
    rw [← world_feedAfter] at hnew
    exact ⟨xs ++ new, htold.batch hnew⟩

/-! ## What a batch makes of a partition -/

/-- A batch is rewound in order if it has to be, and the seeks of a partition work. -/
structure Spares (process : Processor) (q : Value) (s : Session) (portions : List Portion) : Prop where
  orderly : s.feed.broker.Orderly (handleBatch process portions s.feed.world).1
  own : ∀ offset, s.feed.broker.failing (.seek q offset) = none

/-- No call of the broker fails. -/
def Works (s : Session) : Prop := ∀ c, s.feed.broker.failing c = none

/-- Where no call fails, none does behind a batch. -/
theorem Works.after (h : s.Works) (process : Processor) (portions : List Portion) (polled : Tracks) :
    (s.after process portions polled).Works := fun c =>
  (congrFun (failing_feedAfter process portions s) c).trans (h c)

theorem Works.spares (h : s.Works) (process : Processor) (q : Value) (portions : List Portion) :
    s.Spares process q portions where
  orderly := List.pairwise_of_forall fun j _ _ => by
    simp [Broker.reaches, Broker.heeds, h (.seek j.part j.offset)]
  own offset := h (.seek q offset)

/-- What a batch makes of a partition: it goes on between the positions before and behind the poll, and
before all that is left. -/
structure ResumedIn (q : Value) (ts polled : Tracks) (left : List Delivered) (ts' : Tracks) : Prop where
  messages : ∀ p, (ts' p).messages = (ts p).messages
  forth : (ts q).position ≤ (ts' q).position
  back : (ts' q).position ≤ (polled q).position
  left : ∀ d ∈ left, d.part = q → (ts' q).position ≤ d.message.offset
  committed : (ts' q).committed = (ts q).committed ∨ (ts' q).committed = (ts' q).position

/-- A batch of which nothing is left, whether it could be committed or not. -/
theorem resumedIn_done {ts : Tracks} {calls : List BrokerCall} (hpoll : Polled ts portions polled)
    (h : calls = [.commit] ∨ calls = []) (q : Value) :
    ResumedIn q ts polled [] (calls.foldl Tracks.obey polled) := by
  have hnone : ∀ d ∈ ([] : List Delivered), d.part = q → (polled q).position ≤ d.message.offset :=
    fun d hd => absurd hd List.not_mem_nil
  rcases h with rfl | rfl
  · exact ⟨hpoll.messages, hpoll.forth q, Int.le_refl _, hnone, Or.inr rfl⟩
  · exact ⟨hpoll.messages, hpoll.forth q, Int.le_refl _, hnone, Or.inl (hpoll.committed q)⟩

/-- A batch that is resumed at some of the positions that it should be resumed at, the one in this
partition included. -/
theorem resumedIn_sought {ts : Tracks} {before after : List Portion} {p : Portion}
    {done rest : List Message} {m : Message} {front : List Position}
    (hpoll : Polled ts (before ++ p :: after) polled) (hr : ts.Rising)
    (hp : p.messages = done ++ m :: rest) (hfront : front.Sublist (resumption p m after))
    (hown : ∀ k ∈ resumption p m after, k.part = q → k ∈ front) :
    ResumedIn q ts polled (remainder p m rest after) ((seeks front).foldl Tracks.obey polled) := by
  have hm : m ∈ p.messages := by rw [hp]; simp
  have hnodup := (hpoll.nodup_resumption (m := m)).sublist (hfront.map (·.part))
  have hcases := foldl_seeks_cases hnodup polled
  refine ⟨fun t => ?_, ?_, ?_, fun d hd hpart => ?_, ?_⟩
  · rcases hcases t with ⟨k, -, -, heq⟩ | heq <;> rw [heq] <;> exact hpoll.messages t
  · rcases hcases q with ⟨k, hk, rfl, heq⟩ | heq <;> rw [heq]
    · exact (hpoll.bounds_resumption hm (hfront.subset hk)).1
    · exact hpoll.forth q
  · rcases hcases q with ⟨k, hk, rfl, heq⟩ | heq
    · rw [heq]
      exact (hpoll.bounds_resumption hm (hfront.subset hk)).2
    · exact Int.le_of_eq (congrArg Track.position heq)
  · obtain ⟨k, hk, hsame, hle⟩ := hpoll.left_resumption hr hp hd
    obtain rfl : k.part = q := hsame.trans hpart
    rw [foldl_seeks_of_mem hnodup (hown k hk rfl)]
    exact hle
  · rcases hcases q with ⟨k, -, -, heq⟩ | heq <;> rw [heq] <;> exact Or.inl (hpoll.committed q)

/-- **A partition that is spared is resumed no later than at what a batch left over of it.** -/
theorem resumedIn (hpoll : Polled s.tracks portions polled) (hr : s.tracks.Rising)
    (hspares : s.Spares process q portions) {new : List Handling}
    (hnew : TakesUp process s.feed.world (deliveries portions) new
      (s.feedAfter process portions).world) :
    ∃ ds left, deliveries portions = ds ++ left ∧
      (∀ d ∈ ds, ∃ x ∈ new, x.toDelivered = d ∧ x.Succeeds process) ∧
      ResumedIn q s.tracks polled left (s.after process portions polled).tracks := by
  rw [tracks_after]
  rw [world_feedAfter] at hnew
  have found : ∀ {v : World} {ds : List Delivered} {xs : List Handling},
      Handled process s.feed.world ds xs v → ∀ d ∈ ds, ∃ x ∈ xs, x.toDelivered = d ∧
        x.Succeeds process := by
    intro v ds xs hall d hd
    rw [← hall.delivered] at hd
    obtain ⟨x, hx, rfl⟩ := List.mem_map.mp hd
    exact ⟨x, hx, rfl, hall.succeeds x hx⟩
  rcases handleBatch_cases process portions s.feed.world with
    ⟨hnil, xs, hall⟩ | ⟨before, p, after, done, m, rest, xs, v, rfl, hp, hpos, hdone, hfails, -⟩
  · obtain ⟨rfl, -⟩ := hall.takesUp.deterministic hnew
    exact ⟨_, [], (List.append_nil _).symm, found hall, resumedIn_done hpoll (heeded_of_done hnil) q⟩
  · obtain ⟨rfl, -⟩ := (hdone.takesUp_failed hp hfails).deterministic hnew
    have horderly := hspares.orderly
    rw [hpos] at horderly
    rw [heeded_of_resumed hpos]
    refine ⟨_, _, deliveries_split hp, fun d hd => ?_, ?_⟩
    · obtain ⟨x, hx, hsame⟩ := found hdone d hd
      exact ⟨x, List.mem_append_left _ hx, hsame⟩
    · refine resumedIn_sought hpoll hr hp (List.takeWhile_sublist _) fun k hk hpart => ?_
      refine horderly.mem_takeWhile hk ?_
      unfold Broker.reaches Broker.heeds
      rw [hpart, hspares.own]
      rfl

/-! ## What becomes of a partition -/

/-- What became of a partition, given what it was at the beginning and all that was taken up. -/
structure SoundIn (process : Processor) (q : Value) (origin : Tracks) (xs : List Handling)
    (s : Session) : Prop where
  messages : ∀ p, (s.tracks p).messages = (origin p).messages
  forth : (origin q).position ≤ (s.tracks q).position
  committed : (s.tracks q).committed ≤ (s.tracks q).position
  /-- Everything before the position was handled. -/
  done : ∀ m ∈ (origin q).messages, (origin q).position ≤ m.offset →
    m.offset < (s.tracks q).position → ∃ x ∈ xs, x.toDelivered = ⟨q, m⟩ ∧ x.Succeeds process
  /-- Nothing was taken up before all that comes earlier was handled. -/
  order : ∀ before x after, xs = before ++ x :: after → x.part = q →
    ∀ m ∈ (origin q).messages, (origin q).position ≤ m.offset → m.offset < x.message.offset →
      ∃ y ∈ before, y.toDelivered = ⟨q, m⟩ ∧ y.Succeeds process

/-- What a batch takes up comes in the order of its partition, behind what was handled before. -/
theorem SoundIn.order_takesUp {origin : Tracks} {xs new before after : List Handling} {x : Handling}
    {w : World} (h : SoundIn process q origin xs s) (hr : s.tracks.Rising)
    (hpoll : Polled s.tracks portions polled)
    (hnew : TakesUp process s.feed.world (deliveries portions) new w) (hx : new = before ++ x :: after)
    (hpart : x.part = q) {m : Message} (hm : m ∈ (origin q).messages)
    (hlow : (origin q).position ≤ m.offset) (hlt : m.offset < x.message.offset) :
    ∃ y ∈ xs ++ before, y.toDelivered = ⟨q, m⟩ ∧ y.Succeeds process := by
  subst hx hpart
  by_cases hold : m.offset < (s.tracks x.part).position
  · obtain ⟨y, hy, hsame⟩ := h.done m hm hlow hold
    exact ⟨y, List.mem_append_left _ hy, hsame⟩
  · -- The message is delivered too, and not behind the other one.
    obtain ⟨left, hleft⟩ := hnew.delivered_prefix
    have hrise := hpoll.rising_deliveries hr
    rw [List.map_append, List.map_cons, List.append_assoc, List.cons_append] at hleft
    have hxmem : x.toDelivered ∈ deliveries portions := by rw [← hleft]; simp
    have hhigh := (hpoll.mem_deliveries_iff.mp hxmem).2.2
    have hmem : (⟨x.part, m⟩ : Delivered) ∈ deliveries portions := by
      refine hpoll.mem_deliveries_iff.mpr ⟨?_, ?_, ?_⟩
      · rw [h.messages]
        exact hm
      · dsimp only
        omega
      · dsimp only
        omega
    rw [← hleft] at hmem hrise
    rcases List.mem_append.mp hmem with hmem | hmem
    · obtain ⟨y, hy, hsame⟩ := List.mem_map.mp hmem
      exact ⟨y, List.mem_append_right _ hy, hsame, hnew.succeeds_before y hy⟩
    · exfalso
      rcases List.mem_cons.mp hmem with heq | hmem
      · have := congrArg (fun d : Delivered => d.message.offset) heq
        dsimp only at this
        omega
      · have hbehind := (List.pairwise_cons.mp (List.pairwise_append.mp hrise).2.1).1 _ hmem rfl
        dsimp only at hbehind
        omega

/-- **What was handled of a partition stays complete and in order with every batch that spares it.** -/
theorem SoundIn.batch {origin : Tracks} {xs new : List Handling} (h : SoundIn process q origin xs s)
    (hr : origin.Rising) (hpoll : Polled s.tracks portions polled)
    (hspares : s.Spares process q portions)
    (hnew : TakesUp process s.feed.world (deliveries portions) new
      (s.feedAfter process portions).world) :
    SoundIn process q origin (xs ++ new) (s.after process portions polled) := by
  have hr' : s.tracks.Rising := fun p => by rw [h.messages]; exact hr p
  obtain ⟨ds, left, hsplit, hdone, hres⟩ := resumedIn hpoll hr' hspares hnew
  refine ⟨fun p => (hres.messages p).trans (h.messages p), Int.le_trans h.forth hres.forth, ?_,
    fun m hm hlow hhigh => ?_, fun before x after heq hpart m hm hlow hlt => ?_⟩
  · rcases hres.committed with heq | heq
    · rw [heq]
      exact Int.le_trans h.committed hres.forth
    · exact Int.le_of_eq heq
  · by_cases hold : m.offset < (s.tracks q).position
    · obtain ⟨x, hx, hsame⟩ := h.done m hm hlow hold
      exact ⟨x, List.mem_append_left _ hx, hsame⟩
    · -- It was delivered, and it is not left.
      have hback := hres.back
      have hmem : (⟨q, m⟩ : Delivered) ∈ deliveries portions := by
        refine hpoll.mem_deliveries_iff.mpr ⟨?_, ?_, ?_⟩
        · rw [h.messages]
          exact hm
        · dsimp only
          omega
        · dsimp only
          omega
      rw [hsplit] at hmem
      rcases List.mem_append.mp hmem with hmem | hmem
      · obtain ⟨x, hx, hsame⟩ := hdone _ hmem
        exact ⟨x, List.mem_append_right _ hx, hsame⟩
      · have hleft := hres.left _ hmem rfl
        dsimp only at hleft
        omega
  · rcases List.append_eq_append_iff.mp heq with ⟨middle, rfl, hx⟩ | ⟨middle, rfl, hx⟩
    · exact h.order_takesUp hr' hpoll hnew hx hpart hm hlow hlt
    · cases middle with
      | nil =>
        have hall : new = [] ++ x :: after := hx.symm
        have hmem := h.order_takesUp hr' hpoll hnew hall hpart hm hlow hlt
        rwa [List.append_nil, List.append_nil] at hmem
      | cons y middle =>
        rw [List.cons_append, List.cons.injEq] at hx
        obtain ⟨rfl, -⟩ := hx
        exact h.order before x middle rfl hpart m hm hlow hlt

/-- **A partition that every batch spares loses nothing**, whatever else happens. -/
theorem soundIn_of_run (hr : s.tracks.Rising) (hc : (s.tracks q).committed ≤ (s.tracks q).position)
    (hok : ∀ t portions, ok t portions → t.Spares process q portions)
    (h : Run process ok s es s') {xs : List Handling}
    (htold : Told process s.feed.world es xs s'.feed.world) : SoundIn process q s.tracks xs s' := by
  induction h generalizing xs with
  | begin =>
    cases htold
    exact ⟨fun _ => rfl, Int.le_refl _, hc, fun m _ hlow hhigh => by omega,
      fun before x after heq => absurd heq (by simp)⟩
  | drift hrun world failing ih =>
    cases htold with
    | drift htold =>
      obtain ⟨ys, hys⟩ := exists_told hrun
      obtain ⟨rfl, rfl⟩ := htold.deterministic hys
      exact { ih htold with }
  | batch hrun hpoll hbatch ih =>
    cases htold with
    | batch htold hnew =>
      obtain ⟨ys, hys⟩ := exists_told hrun
      obtain ⟨rfl, rfl⟩ := htold.deterministic hys
      exact (ih htold).batch hr hpoll (hok _ _ hbatch) hnew

end Session

end ChangeRules
