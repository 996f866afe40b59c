import ChangeRules.Feed.Consumer

/-!
# What a batch takes up

A batch takes up its messages in the order in which they were delivered, each in the world that the
one before left behind, and ends with the first one that fails. A message is handled when nothing went
wrong with it: it holds no event, or its event was processed. What was not handled is to be delivered
again.

* `Delivered`, `deliveries`: what a poll delivers.
* `Handling.Succeeds`: whether a message is handled in a world.
* `TakesUp`: what a batch takes up, from one world to another; `Handled`: all of it is handled.
* **`TakesUp.deterministic`**: messages and a world leave one way only.
* **`takesUp_handleBatch`**: a batch takes up its messages, and ends in the world this leads to.
* **`handleBatch_cases`**: a batch is handled as a whole, or up to a message at which it is resumed.
-/

namespace ChangeRules

/-! ## Messages -/

/-- A message of a partition. -/
structure Delivered where
  part : Value
  message : Message

/-- The messages of a portion. -/
def Portion.deliveries (p : Portion) : List Delivered := p.messages.map fun m => ⟨p.part, m⟩

/-- The messages of a batch, in order. -/
def deliveries (portions : List Portion) : List Delivered := portions.flatMap Portion.deliveries

/-- A message and the world in which it is taken up. -/
structure Handling extends Delivered where
  world : World

namespace Handling

/-- The message holds no event, or its event is processed. -/
def Succeeds (process : Processor) (x : Handling) : Prop :=
  x.message.notice? = none ∨ ∃ event report,
    x.message.event? x.world.now x.world.freshId.1 = some event ∧
      (process event x.world.freshId.2).1 = .ok report

/-- The world that is left behind. -/
def later (process : Processor) (x : Handling) : World :=
  (handleMessage process x.message x.world).2

end Handling

/-- A batch takes up messages from one world to another: each in the world that the one before left
behind, up to the first one that fails. -/
inductive TakesUp (process : Processor) : World → List Delivered → List Handling → World → Prop
  | done (w : World) : TakesUp process w [] [] w
  | failed {d : Delivered} {w : World} (ds : List Delivered)
      (h : ¬ Handling.Succeeds process ⟨d, w⟩) :
      TakesUp process w (d :: ds) [⟨d, w⟩] (Handling.later process ⟨d, w⟩)
  | handled {d : Delivered} {w w' : World} {ds : List Delivered} {xs : List Handling}
      (h : Handling.Succeeds process ⟨d, w⟩)
      (rest : TakesUp process (Handling.later process ⟨d, w⟩) ds xs w') :
      TakesUp process w (d :: ds) (⟨d, w⟩ :: xs) w'

/-- A batch takes up messages that are all handled. -/
structure Handled (process : Processor) (w : World) (ds : List Delivered) (xs : List Handling)
    (w' : World) : Prop where
  takesUp : TakesUp process w ds xs w'
  succeeds : ∀ x ∈ xs, x.Succeeds process

section

variable {process : Processor} {w w' w'' : World} {d : Delivered} {ds ds' : List Delivered}
  {xs ys : List Handling}

/-! ## Taking up -/

namespace TakesUp

/-- **What is taken up is determined by the messages and the world.** -/
theorem deterministic (h : TakesUp process w ds xs w') (h' : TakesUp process w ds ys w'') :
    xs = ys ∧ w' = w'' := by
  induction h generalizing ys w'' with
  | done w =>
    cases h'
    exact ⟨rfl, rfl⟩
  | failed ds hfails =>
    cases h' with
    | failed => exact ⟨rfl, rfl⟩
    | handled hsucceeds => exact absurd hsucceeds hfails
  | handled hsucceeds rest ih =>
    cases h' with
    | failed _ hfails => exact absurd hsucceeds hfails
    | handled _ rest' =>
      obtain ⟨rfl, rfl⟩ := ih rest'
      exact ⟨rfl, rfl⟩

/-- The messages that are taken up are the first ones. -/
theorem delivered_prefix (h : TakesUp process w ds xs w') : xs.map (·.toDelivered) <+: ds := by
  induction h with
  | done w => exact List.prefix_rfl
  | failed ds _ => exact ⟨ds, rfl⟩
  | handled _ _ ih => exact (List.prefix_cons_inj _).mpr ih

/-- Everything in front of a message that is taken up was handled. -/
theorem succeeds_before {before after : List Handling} {x : Handling}
    (h : TakesUp process w ds (before ++ x :: after) w') : ∀ y ∈ before, y.Succeeds process := by
  induction before generalizing w ds with
  | nil => exact fun y hy => absurd hy List.not_mem_nil
  | cons z before ih =>
    intro y hy
    rw [List.cons_append] at h
    generalize hzs : before ++ x :: after = zs at h
    cases h with
    | failed => exact absurd hzs (by simp)
    | handled hsucceeds rest =>
      subst hzs
      rcases List.mem_cons.mp hy with rfl | hy
      · exact hsucceeds
      · exact ih rest y hy

end TakesUp

namespace Handled

theorem nil (w : World) : Handled process w [] [] w :=
  ⟨.done w, fun _ hx => absurd hx List.not_mem_nil⟩

theorem cons (h : Handling.Succeeds process ⟨d, w⟩)
    (rest : Handled process (Handling.later process ⟨d, w⟩) ds xs w') :
    Handled process w (d :: ds) (⟨d, w⟩ :: xs) w' :=
  ⟨.handled h rest.takesUp, List.forall_mem_cons.mpr ⟨h, rest.succeeds⟩⟩

/-- Messages that are handled are all taken up. -/
theorem delivered (h : Handled process w ds xs w') : xs.map (·.toDelivered) = ds := by
  obtain ⟨htakes, hall⟩ := h
  induction htakes with
  | done w => rfl
  | failed ds hfails => exact absurd (hall _ List.mem_cons_self) hfails
  | handled _ _ ih => rw [List.map_cons, ih fun x hx => hall x (List.mem_cons_of_mem _ hx)]

/-- Behind messages that are handled others are taken up, in the world that these left behind. -/
theorem takesUp_append (h : Handled process w ds xs w') (rest : TakesUp process w' ds' ys w'') :
    TakesUp process w (ds ++ ds') (xs ++ ys) w'' := by
  obtain ⟨htakes, hall⟩ := h
  induction htakes with
  | done w => exact rest
  | failed ds hfails => exact absurd (hall _ List.mem_cons_self) hfails
  | handled hsucceeds _ ih =>
    exact .handled hsucceeds (ih rest fun x hx => hall x (List.mem_cons_of_mem _ hx))

theorem append (h : Handled process w ds xs w') (rest : Handled process w' ds' ys w'') :
    Handled process w (ds ++ ds') (xs ++ ys) w'' :=
  ⟨h.takesUp_append rest.takesUp, fun x hx =>
    (List.mem_append.mp hx).elim (h.succeeds x) (rest.succeeds x)⟩

end Handled

/-! ## Batches -/

/-- The positions at which a batch is resumed that got as far as a message of a portion. -/
def resumption (p : Portion) (m : Message) (after : List Portion) : List Position :=
  ⟨p.part, m.offset⟩ :: Portion.starts after

/-- A message is handled exactly if nothing went wrong with it. -/
theorem succeeds_iff (process : Processor) (part : Value) (m : Message) (w : World) :
    Handling.Succeeds process ⟨⟨part, m⟩, w⟩ ↔
      ∃ report, (handleMessage process m w).1 = .ok report := by
  unfold Handling.Succeeds handleMessage Message.event?
  dsimp only
  cases m.notice? with
  | none => simp
  | some n =>
    dsimp only [Option.map_some]
    cases hp : (process (n.toEvent w.now w.freshId.1) w.freshId.2).1 <;> simp [hp, Except.map]

/-- The messages of a partition are all handled, or those before one that fails. -/
theorem handleMessages_cases (process : Processor) (part : Value) (ms : List Message) (w : World) :
    ((handleMessages process ms w).1 = none ∧ ∃ xs,
      Handled process w (ms.map fun m => ⟨part, m⟩) xs (handleMessages process ms w).2) ∨
    ∃ done m rest xs v, ms = done ++ m :: rest ∧ (handleMessages process ms w).1 = some m.offset ∧
      Handled process w (done.map fun m => ⟨part, m⟩) xs v ∧
      ¬ Handling.Succeeds process ⟨⟨part, m⟩, v⟩ ∧
      Handling.later process ⟨⟨part, m⟩, v⟩ = (handleMessages process ms w).2 := by
  induction ms generalizing w with
  | nil => exact Or.inl ⟨rfl, [], .nil w⟩
  | cons m ms ih =>
    have hiff := succeeds_iff process part m w
    have hlater : Handling.later process ⟨⟨part, m⟩, w⟩ = (handleMessage process m w).2 := rfl
    unfold handleMessages
    rcases hm : handleMessage process m w with ⟨fault | report, later⟩
    · rw [hm] at hiff hlater
      exact Or.inr ⟨[], m, ms, [], w, rfl, rfl, .nil w, by simp [hiff], hlater⟩
    · rw [hm] at hiff hlater
      have hsucceeds := hiff.mpr ⟨report, rfl⟩
      subst hlater
      rcases ih _ with ⟨hnone, xs, hall⟩ | ⟨done, k, rest, xs, v, rfl, hsome, hdone, hk⟩
      · exact Or.inl ⟨hnone, _, hall.cons hsucceeds⟩
      · exact Or.inr ⟨m :: done, k, rest, _, v, rfl, hsome, hdone.cons hsucceeds, hk⟩

/-- **A batch is handled as a whole**, or up to a message that fails; it is resumed at this one, and
the partitions behind it where they begin. -/
theorem handleBatch_cases (process : Processor) (portions : List Portion) (w : World) :
    ((handleBatch process portions w).1 = [] ∧ ∃ xs,
      Handled process w (deliveries portions) xs (handleBatch process portions w).2) ∨
    ∃ before p after done m rest xs v,
      portions = before ++ p :: after ∧ p.messages = done ++ m :: rest ∧
      (handleBatch process portions w).1 = resumption p m after ∧
      Handled process w (deliveries before ++ done.map fun m => ⟨p.part, m⟩) xs v ∧
      ¬ Handling.Succeeds process ⟨⟨p.part, m⟩, v⟩ ∧
      Handling.later process ⟨⟨p.part, m⟩, v⟩ = (handleBatch process portions w).2 := by
  induction portions generalizing w with
  | nil => exact Or.inl ⟨rfl, [], .nil w⟩
  | cons p ps ih =>
    unfold handleBatch
    have hcases := handleMessages_cases process p.part p.messages w
    rcases hm : handleMessages process p.messages w with ⟨failed, later⟩
    rw [hm] at hcases
    rcases hcases with ⟨rfl, xs, hall⟩ | ⟨done, m, rest, xs, v, hp, rfl, hdone, hm⟩
    · rcases ih later with ⟨hnil, ys, hrest⟩ |
        ⟨before, q, after, done, m, rest, ys, v, rfl, hq, hpos, hrest, hm⟩
      · exact Or.inl ⟨hnil, _, hall.append hrest⟩
      · refine Or.inr ⟨p :: before, q, after, done, m, rest, xs ++ ys, v, rfl, hq, hpos, ?_, hm⟩
        rw [show deliveries (p :: before) = p.deliveries ++ deliveries before from rfl,
          List.append_assoc]
        exact hall.append hrest
    · exact Or.inr ⟨[], p, ps, done, m, rest, xs, v, rfl, hp, rfl, hdone, hm⟩

/-- What a batch that is resumed at a message leaves over: this one and all behind it. -/
def remainder (p : Portion) (m : Message) (rest : List Message) (after : List Portion) :
    List Delivered :=
  ⟨p.part, m⟩ :: rest.map (fun m => ⟨p.part, m⟩) ++ deliveries after

theorem deliveries_split {before after : List Portion} {p : Portion} {done rest : List Message}
    {m : Message} (hp : p.messages = done ++ m :: rest) :
    deliveries (before ++ p :: after) =
      (deliveries before ++ done.map fun m => ⟨p.part, m⟩) ++ remainder p m rest after := by
  simp [deliveries, Portion.deliveries, remainder, hp]

/-- A batch takes up what is handled and the message that fails behind it. -/
theorem Handled.takesUp_failed {before after : List Portion} {p : Portion} {done rest : List Message}
    {m : Message} {v : World} (hp : p.messages = done ++ m :: rest)
    (hdone : Handled process w (deliveries before ++ done.map fun m => ⟨p.part, m⟩) xs v)
    (hfails : ¬ Handling.Succeeds process ⟨⟨p.part, m⟩, v⟩) :
    TakesUp process w (deliveries (before ++ p :: after)) (xs ++ [⟨⟨p.part, m⟩, v⟩])
      (Handling.later process ⟨⟨p.part, m⟩, v⟩) := by
  have hfailed : TakesUp process v (remainder p m rest after) [⟨⟨p.part, m⟩, v⟩]
      (Handling.later process ⟨⟨p.part, m⟩, v⟩) := .failed _ hfails
  rw [deliveries_split hp]
  exact hdone.takesUp_append hfailed

/-- **A batch takes up its messages**, and ends in the world that this leads to. -/
theorem takesUp_handleBatch (process : Processor) (portions : List Portion) (w : World) :
    ∃ xs, TakesUp process w (deliveries portions) xs (handleBatch process portions w).2 := by
  rcases handleBatch_cases process portions w with
    ⟨-, xs, hall⟩ | ⟨before, p, after, done, m, rest, xs, v, rfl, hp, -, hdone, hfails, hlater⟩
  · exact ⟨xs, hall.takesUp⟩
  · rw [← hlater]
    exact ⟨_, hdone.takesUp_failed hp hfails⟩

/-- **A batch is handled as a whole** exactly if there is nothing at which it is resumed. -/
theorem handleBatch_eq_nil_iff (process : Processor) (portions : List Portion) (w : World) :
    (handleBatch process portions w).1 = [] ↔ ∃ xs,
      Handled process w (deliveries portions) xs (handleBatch process portions w).2 := by
  rcases handleBatch_cases process portions w with
    ⟨hnil, hall⟩ | ⟨before, p, after, done, m, rest, xs, v, rfl, hp, hpos, hdone, hfails, -⟩
  · exact iff_of_true hnil hall
  · refine iff_of_false (by simp [hpos, resumption]) fun ⟨ys, hys⟩ => hfails ?_
    obtain ⟨rfl, -⟩ := (hdone.takesUp_failed hp hfails).deterministic hys.takesUp
    exact hys.succeeds _ (by simp)

end

end ChangeRules
