import ChangeRules.Proofs.Engine.Agreement
import ChangeRules.Proofs.Engine.Ledger

/-!
# Tenants apart

What an event leaves behind belongs to its tenant: logs of the tenant, for rules of the tenant, and
notes at these rules. What others have stays as it is. And since an event sees nothing of what others
have, it comes to the same whatever they have.

* `World.Confined`: what is changed belongs to a tenant.
* **`confined_of_run`**: every run of an event is confined to its tenant.
* **`tenants_apart`**: what an event does, it does in every world that is the same to its tenant.
-/

namespace ChangeRules

/-! ## Events that do not get to their firings -/

/-- An event that cannot be read is over with its first turn. -/
theorem EventRun.turn_of_unreadable {e : Engine} {event : Event}
    (hno : ¬ ∃ o : Occasion, o.Of event) (w : World) :
    (∃ outcome, (turn e { event } w).1.progress = .ended outcome) ∧ w.Kept (turn e { event } w).2 := by
  unfold turn arrive
  dsimp only
  split
  · exact ⟨⟨_, rfl⟩, World.Kept.refl w⟩
  · next operation hop =>
    split
    · exact ⟨⟨_, rfl⟩, ⟨⟨rfl, rfl⟩, rfl, fun h => ⟨h.outages, h.backend⟩⟩⟩
    · next recordId hid => exact absurd ⟨⟨event, operation, recordId⟩, hop, hid, rfl⟩ hno

/-- Of an event that cannot be read, nothing is stored. -/
theorem kept_of_unreadable {e : Engine} {event : Event} {start : World}
    (hno : ¬ ∃ o : Occasion, o.Of event) {p : EventRun × World} (h : Run e ({ event }, start) p) :
    (p.1 = { event } ∨ ∃ outcome, p.1.progress = .ended outcome) ∧ start.Kept p.2 := by
  induction h with
  | refl => exact ⟨Or.inl rfl, World.Kept.refl start⟩
  | @tail p q _ hstep ih =>
    obtain ⟨hr, hw⟩ := ih
    have hfiring : ∀ n fs, p.1.progress ≠ .firing n fs := by
      rcases hr with hr | ⟨outcome, hr⟩
      · rw [hr]
        simp
      · simp [hr]
    cases hstep with
    | drift r w now outlets => exact ⟨hr, hw.trans (World.kept_drift w now outlets)⟩
    | fire hprog => exact absurd hprog (hfiring _ _)
    | @turn r w =>
      rcases hr with rfl | ⟨outcome, hr⟩
      · obtain ⟨hended, hkept⟩ := EventRun.turn_of_unreadable (e := e) hno w
        exact ⟨Or.inr hended, hw.trans hkept⟩
      · have hover : r.outcome? = some outcome := by
          unfold EventRun.outcome?
          rw [hr]
        rw [EventRun.turn_of_outcome hover]
        exact ⟨Or.inr ⟨outcome, hr⟩, hw⟩

/-! ## What belongs to a tenant -/

/-- All that was changed belongs to a tenant: the new logs are of rules of the tenant, and the rules
of others are as they were. -/
structure World.Confined (tenant : Value) (start w : World) : Prop where
  logs : ∃ rows, w.logs = start.logs ++ rows ∧ ∀ row ∈ rows, row.tenant = tenant ∧
    ∃ r ∈ start.rules, r.tenant = tenant ∧ r.id = row.ruleId
  rules : List.Forall₂ (fun r r' => r'.id = r.id ∧ r'.tenant = r.tenant ∧
    (r.tenant ≠ tenant → r' = r)) start.rules w.rules

theorem World.Kept.confined {start w : World} (h : start.Kept w) (tenant : Value) :
    start.Confined tenant w where
  logs := ⟨[], by simp [h.logs], by simp⟩
  rules := by
    rw [h.rules]
    exact List.forall₂_same.mpr fun r _ => ⟨rfl, rfl, fun _ => rfl⟩

/-- Notes change neither the id nor the tenant of a rule. -/
theorem Rules.foldl_heed_same (notes : List Note) (r : Rule) :
    (notes.foldl (fun r n => n.heed r) r).id = r.id ∧
      (notes.foldl (fun r n => n.heed r) r).tenant = r.tenant := by
  induction notes generalizing r with
  | nil => exact ⟨rfl, rfl⟩
  | cons n notes ih =>
    have hn : (n.heed r).id = r.id ∧ (n.heed r).tenant = r.tenant := by
      unfold Note.heed
      split <;> exact ⟨rfl, rfl⟩
    exact ⟨(ih _).1.trans hn.1, (ih _).2.trans hn.2⟩

/-- Notes at rules of a tenant leave the rules of others alone. -/
theorem Rules.heed_confined {tenant : String} {notes : List Note}
    (h : ∀ n ∈ notes, n.rule.tenant = .text tenant) (rules : Rules) :
    List.Forall₂ (fun r r' => r'.id = r.id ∧ r'.tenant = r.tenant ∧
      (r.tenant ≠ .text tenant → r' = r)) rules (rules.heed notes) := by
  rw [heed_eq_map, List.forall₂_map_right_iff]
  refine List.forall₂_same.mpr fun r _ => ?_
  obtain ⟨hid, htenant⟩ := foldl_heed_same notes r
  refine ⟨hid, htenant, fun hother => foldl_heed_of_unconcerned fun n hn => ?_⟩
  rw [← Bool.not_eq_true, Note.concerns, isOf, h n hn, Bool.and_eq_true, Value.same_text]
  exact fun hc => hother hc.2

/-- A log that was appended for a firing is one that the firing writes. -/
theorem Account.Sound.writes {a : Account} {reliable : Prop} (h : a.Sound reliable)
    {log : ExecutionLog} (hlog : a.written = some log) : ∃ state, a.firing.Writes state log := by
  have blank : a.Blank → ∃ state, a.firing.Writes state log := fun hblank =>
    absurd (hlog.symm.trans hblank.1) (by simp)
  have own : ∀ {state l}, a.firing.Writes state l → a.written = some l →
      ∃ state, a.firing.Writes state log := by
    intro state l hwrites hwritten
    rw [hwritten, Option.some.injEq] at hlog
    exact ⟨state, hlog ▸ hwrites⟩
  unfold Sound at h
  split at h
  · exact blank h
  · exact blank h
  · exact blank h.2
  · exact blank h.2
  · exact blank h.2.2
  · exact own h.2.1 h.2.2.1
  · exact blank h.2.2.2
  · exact own h.2.1 h.2.2.1
  · exact own h.2.1 h.2.2.1
  · exact own h.2.2.2.1 h.2.2.2.2.1
  · obtain ⟨-, state, l, hwrites, hwritten, -⟩ := h
    exact own hwrites hwritten
  · rcases h with ⟨-, -, hblank⟩ | ⟨-, -, -, -, hall⟩
    · exact blank hblank
    · exact hall log hlog

/-- What the books hold of a tenant's event belongs to the tenant. -/
theorem Books.confined {start w : World} {o : Occasion} {inTurn : Prop} {as : List Account}
    {tenant : String} (ht : o.event.tenant = .text tenant) (h : Books start o inTurn as w) :
    start.Confined (.text tenant) w := by
  have hfound : ∀ a ∈ as, a.firing.rule ∈ start.rules ∧ a.firing.rule.tenant = .text tenant := by
    intro a ha
    have hmem : a.firing.found ∈ start.found o.event := by
      rw [← h.found]
      exact List.mem_map_of_mem ha
    exact ⟨World.mem_rules_of_mem_found hmem, World.tenant_of_mem_found_text ht hmem⟩
  obtain ⟨rows, hlogs, hrows, -⟩ := h.logs
  obtain ⟨notes, hrules, hnotes⟩ := h.rules
  constructor
  · refine ⟨rows, hlogs, fun row hrow => ?_⟩
    obtain ⟨a, ha, hwritten⟩ := List.mem_filterMap.mp (hrows.subset hrow)
    obtain ⟨state, ending, milliseconds, id, now, -, rfl⟩ := (h.sound a ha).writes hwritten
    obtain ⟨hmem, htenant⟩ := hfound a ha
    refine ⟨?_, a.firing.rule, hmem, htenant, rfl⟩
    rw [← ht, ← h.occasion a ha]
    rfl
  · rw [hrules]
    refine Rules.heed_confined (fun n hn => ?_) start.rules
    obtain ⟨a, ha, hnote⟩ := List.mem_filterMap.mp (hnotes.subset hn)
    obtain ⟨log, -, rfl⟩ := Option.map_eq_some_iff.mp hnote
    exact (hfound a ha).2

/-- **Every run of an event is confined to its tenant.** -/
theorem confined_of_run {e : Engine} {event : Event} {start : World} {tenant : String}
    (ht : event.tenant = .text tenant) {p : EventRun × World} (h : Run e ({ event }, start) p) :
    start.Confined (.text tenant) p.2 := by
  by_cases ho : ∃ o : Occasion, o.Of event
  · obtain ⟨o, ho⟩ := ho
    have hto : o.event.tenant = .text tenant := by rw [ho.event, ht]
    cases books_of_run ho h with
    | firing hbooks hopen =>
      obtain ⟨as, -, hb⟩ := hbooks
      exact hb.confined hto
    | ended hbooks hover =>
      obtain ⟨as, -, hb⟩ := hbooks
      exact hb.confined hto
    | arrived hw => exact hw.confined _
    | listing hw => exact hw.confined _
    | listed hw => exact hw.confined _
    | unlisted hw _ _ => exact hw.confined _
    | failed hw _ _ => exact hw.confined _
  · exact (kept_of_unreadable ho h).2.confined _

/-! ## Tenants apart -/

/-- **An event of one tenant has nothing to do with another one.** Whatever comes of it in a world
comes of it in every world that is the same to the tenant, up to identifiers: the same outcome, the
same calls of sinks, the same new logs; and what it changes belongs to its tenant. This holds of every
run and of what the engine does. -/
theorem tenants_apart {event : Event} {tenant : String} {w₁ w₂ : World}
    (ht : event.tenant = .text tenant) (hw : World.AgreeOn (.text tenant) w₁ w₂) (e : Engine) :
    (∀ p, Run e ({ event }, w₁) p → w₁.Confined (.text tenant) p.2 ∧
      ∃ p', Run e ({ event }, w₂) p' ∧ w₂.Confined (.text tenant) p'.2 ∧
        World.AgreeAfter (.text tenant) w₁ w₂ EventRun.Like p p') ∧
    w₁.Confined (.text tenant) (e.process event w₁).2 ∧
    w₂.Confined (.text tenant) (e.process event w₂).2 ∧
    World.AgreeAfter (.text tenant) w₁ w₂ (OutcomeLike EventReport.Like) (e.process event w₁)
      (e.process event w₂) := by
  refine ⟨fun p hp => ⟨confined_of_run ht hp, ?_⟩, ?_, ?_, agree_process e ht hw⟩
  · obtain ⟨p', hp', hlike⟩ := agree_of_run ht hw hp
    exact ⟨p', hp', confined_of_run ht hp', hlike⟩
  · obtain ⟨r, hrun, -⟩ := e.run_process event w₁
    exact confined_of_run ht hrun
  · obtain ⟨r, hrun, -⟩ := e.run_process event w₂
    exact confined_of_run ht hrun

/-- A rule like a plain one, of another tenant. -/
def Rule.foreign (id : String) (actions : Value) : Rule :=
  { Rule.plain id actions with tenant := .text "t2" }

/-- A world with a rule and a log of another tenant. -/
def World.foreign (rules : Rules) : World :=
  let rule := Rule.foreign "r2" (.list [])
  { World.plain (rule :: rules) with
    logs := [Firing.log ⟨⟨rule, none⟩, ⟨{ Event.plain with tenant := rule.tenant }, .created, none⟩, {},
      .ready⟩ (.ran []) .zero "log" default]
    ids := 1 }

theorem tenants_apart_foreign :
    Event.plain.tenant = .text "t1" ∧
    World.AgreeOn (.text "t1") (World.plain [.plain "r1" (.list [])])
      (World.foreign [.plain "r1" (.list [])]) ∧
    World.AgreeAfter (.text "t1") (World.plain [.plain "r1" (.list [])])
      (World.foreign [.plain "r1" (.list [])]) (OutcomeLike EventReport.Like)
      (Engine.process {} .plain (World.plain [.plain "r1" (.list [])]))
      (Engine.process {} .plain (World.foreign [.plain "r1" (.list [])])) := by
  have hagree : World.AgreeOn (.text "t1") (World.plain [.plain "r1" (.list [])])
      (World.foreign [.plain "r1" (.list [])]) := ⟨rfl, rfl, rfl, rfl, rfl, rfl⟩
  exact ⟨rfl, hagree, (tenants_apart rfl hagree {}).2.2.2⟩

end ChangeRules
