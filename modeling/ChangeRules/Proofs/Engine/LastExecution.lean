import ChangeRules.Proofs.Engine.Overlap
import ChangeRules.Proofs.Engine.Serialization

/-!
# When a rule was last executed

Every log that is appended is followed by one note at its rule, of the time in the log. Notes of
different firings may come in any order, and the clock may go backwards in between; a note of an
earlier time changes nothing. So once no firing is under way, a rule was last executed at the latest
of the times in its logs, or when it was before.

* `latest`: the latest of some times, as instants.
* `Rule.Tracked`: a rule's last execution and the notes still to be made come to its logs.
* `Overlap.Accounted`: what the last executions are, at any time of a run.
* **`accounted_of_overlap`**: so it is in every run of events that overlap.
-/

namespace ChangeRules

/-! ## The latest of some times -/

/-- Some time is not before an instant. -/
def Reaches (times : List DateTime) (n : Int) : Prop := ∃ t ∈ times, n ≤ t.instant

/-- The latest of some times as an instant, where a time without zone is read as UTC. -/
def latest (times : List DateTime) : Option Int := (times.map DateTime.instant).max?

theorem latest_eq_some_iff {times : List DateTime} {n : Int} :
    latest times = some n ↔ (∃ t ∈ times, t.instant = n) ∧ ∀ t ∈ times, t.instant ≤ n := by
  unfold latest
  rw [List.max?_eq_some_iff, List.mem_map, List.forall_mem_map]

theorem latest_eq_none_iff {times : List DateTime} : latest times = none ↔ times = [] := by
  unfold latest
  rw [List.max?_eq_none_iff, List.map_eq_nil_iff]

/-- Times that reach the same instants have the same latest one. -/
theorem latest_eq_of_reaches {times times' : List DateTime}
    (h : ∀ n, Reaches times n ↔ Reaches times' n) : latest times = latest times' := by
  cases hlatest : latest times with
  | none =>
    rw [latest_eq_none_iff] at hlatest
    refine (latest_eq_none_iff.mpr (List.eq_nil_iff_forall_not_mem.mpr fun t ht => ?_)).symm
    obtain ⟨t', ht', -⟩ := (h t.instant).mpr ⟨t, ht, Int.le_refl _⟩
    rw [hlatest] at ht'
    exact List.not_mem_nil ht'
  | some n =>
    obtain ⟨⟨t, ht, hn⟩, hall⟩ := latest_eq_some_iff.mp hlatest
    obtain ⟨u, hu, hle⟩ := (h n).mp ⟨t, ht, Int.le_of_eq hn.symm⟩
    have hbound : ∀ v ∈ times', v.instant ≤ n := by
      intro v hv
      obtain ⟨t', ht', hle'⟩ := (h v.instant).mpr ⟨v, hv, Int.le_refl _⟩
      exact Int.le_trans hle' (hall t' ht')
    exact (latest_eq_some_iff.mpr ⟨⟨u, hu, Int.le_antisymm (hbound u hu) hle⟩, hbound⟩).symm

theorem reaches_append {times times' : List DateTime} {n : Int} :
    Reaches (times ++ times') n ↔ Reaches times n ∨ Reaches times' n := by
  unfold Reaches
  simp only [List.mem_append, or_and_right, exists_or]

/-- A later execution reaches what the last one and the new time reach. -/
theorem reaches_laterExecution {last : Option DateTime} {time : DateTime} {n : Int} :
    Reaches (some (Rules.laterExecution last time)).toList n ↔
      Reaches last.toList n ∨ n ≤ time.instant := by
  cases last with
  | none => simp [Reaches, Rules.laterExecution]
  | some t =>
    by_cases hbefore : t.instant < time.instant
    · simp [Reaches, Rules.laterExecution, DateTime.isBefore, hbefore]
      omega
    · simp [Reaches, Rules.laterExecution, DateTime.isBefore, hbefore]
      omega

/-! ## Executions of one rule -/

namespace Rule

/-- A rule was last executed no earlier than before. -/
def NotEarlier (r r' : Rule) : Prop :=
  ∀ t, r.lastExecuted = some t → ∃ t', r'.lastExecuted = some t' ∧ t.instant ≤ t'.instant

/-- The last execution of a rule and the notes that are still to be made reach what its last execution
at the start and its logs since then reach. -/
structure Tracked (start : Rules) (rows : Logs) (notes : List Note) (r r' : Rule) : Prop where
  mem : r ∈ start
  core : r'.core = r.core
  reaches : ∀ n,
    (Reaches r'.lastExecuted.toList n ∨
      ∃ x ∈ notes, x.rule.id.same r.id = true ∧ n ≤ x.time.instant) ↔
    (Reaches r.lastExecuted.toList n ∨
      ∃ l ∈ rows, l.ruleId.same r.id = true ∧ n ≤ l.executedAt.instant)

variable {start : Rules} {rows : Logs} {notes notes' : List Note} {r r' : Rule} {time : DateTime}

theorem NotEarlier.refl (r : Rule) : r.NotEarlier r := fun t ht => ⟨t, ht, Int.le_refl _⟩

theorem notEarlier_noted (r : Rule) (time : DateTime) : r.NotEarlier (r.noted time) := by
  intro t ht
  refine ⟨Rules.laterExecution r.lastExecuted time, rfl, ?_⟩
  rw [ht]
  unfold Rules.laterExecution DateTime.isBefore
  dsimp only
  split
  · next hbefore => exact Int.le_of_lt (of_decide_eq_true hbefore)
  · exact Int.le_refl _

/-- The same rule in another state of activity. -/
theorem Tracked.of_same (h : r.Tracked start rows notes r') {s : Rule} (hcore : s.core = r'.core)
    (hlast : s.lastExecuted = r'.lastExecuted) (hn : ∀ x, x ∈ notes' ↔ x ∈ notes) :
    r.Tracked start rows notes' s where
  mem := h.mem
  core := hcore.trans h.core
  reaches n := by
    rw [hlast, ← h.reaches n]
    simp only [hn]

/-- A log is appended, and the note for it is still to be made. -/
theorem Tracked.append {log : ExecutionLog} {n : Note} (h : r.Tracked start rows notes r')
    (hrule : log.ruleId = n.rule.id) (htime : log.executedAt = n.time)
    (hn : n.Joins notes notes') : r.Tracked start (rows ++ [log]) notes' r' where
  mem := h.mem
  core := h.core
  reaches k := by
    have hnotes : (∃ x ∈ notes', x.rule.id.same r.id = true ∧ k ≤ x.time.instant) ↔
        (n.rule.id.same r.id = true ∧ k ≤ n.time.instant) ∨
          ∃ x ∈ notes, x.rule.id.same r.id = true ∧ k ≤ x.time.instant := by
      simp only [hn _, or_and_right, exists_or, exists_eq_left]
    have hrows : (∃ l ∈ rows ++ [log], l.ruleId.same r.id = true ∧ k ≤ l.executedAt.instant) ↔
        (∃ l ∈ rows, l.ruleId.same r.id = true ∧ k ≤ l.executedAt.instant) ∨
          (n.rule.id.same r.id = true ∧ k ≤ n.time.instant) := by
      simp only [List.mem_append, List.mem_singleton, or_and_right, exists_or, exists_eq_left, hrule,
        htime]
    rw [hnotes, hrows, or_left_comm, h.reaches k, or_comm, or_assoc]

/-- A note is made: at the rule that it is for. -/
theorem Tracked.touch {n : Note} (h : r.Tracked start rows notes r') (hn : n.Joins notes' notes)
    (hconcerns : n.concerns r' = true ↔ n.rule.id.same r.id = true) :
    r.Tracked start rows notes' (n.heed r') where
  mem := h.mem
  core := by
    rw [← h.core]
    unfold Note.heed
    split <;> rfl
  reaches k := by
    have hnotes : (∃ x ∈ notes, x.rule.id.same r.id = true ∧ k ≤ x.time.instant) ↔
        (n.rule.id.same r.id = true ∧ k ≤ n.time.instant) ∨
          ∃ x ∈ notes', x.rule.id.same r.id = true ∧ k ≤ x.time.instant := by
      simp only [hn _, or_and_right, exists_or, exists_eq_left]
    rw [← h.reaches k, hnotes, ← or_assoc]
    refine or_congr_left ?_
    unfold Note.heed
    by_cases hc : n.concerns r' = true
    · rw [if_pos hc, noted, reaches_laterExecution]
      simp [hconcerns.mp hc]
    · rw [if_neg hc]
      have hother : ¬ n.rule.id.same r.id = true := fun hsame => hc (hconcerns.mpr hsame)
      simp [hother]

end Rule

/-! ## Runs -/

/-- A log that a firing is about to append is for the rule of the firing. -/
def Firing.Marks (f : Firing) : Prop :=
  ∀ state log, f.progress = .logging state log → log.ruleId = f.rule.id

theorem Firing.steady_marks (rules : Rules) : Firing.Steady rules fun _ f => f.Marks where
  begin e f hf state log hp := by
    rw [hf] at hp
    exact absurd hp (by simp)
  step e event f f' w w' _ _ hstep state log hp := by
    have hmove := hstep.stepped.move
    rw [hp] at hmove
    rw [hstep.stepped.rule]
    cases hmove with
    | work _ _ hworking _ => exact hworking.elim
    | conclude _ _ hlog _ =>
      obtain ⟨ending, milliseconds, id, now, -, rfl⟩ := hlog
      rfl

/-- A firing that neither holds nor awaits its lock owes no note. -/
theorem Firing.pending?_of_not_wants {f : Firing} (h : f.wants = false) : f.pending? = none := by
  unfold wants at h
  refine pending?_eq_none (fun state log logId hp => ?_) fun state log hp => ?_
  · rw [hp] at h
    exact absurd h Bool.noConfusion
  · rw [hp] at h
    exact absurd h Bool.noConfusion

namespace Overlap

/-- No firing is in progress. -/
def Quiet (ps : List Processing) : Prop :=
  ∀ p ∈ ps, ∀ n fs, p.run.progress = .firing n fs → ∀ f ∈ fs, f.wants = false

theorem notes_of_quiet {ps : List Processing} (h : Quiet ps) : notes ps = [] := by
  refine List.flatMap_eq_nil_iff.mpr fun p hp => ?_
  unfold Processing.notes
  split
  · next n fs hfiring =>
    exact List.filterMap_eq_nil_iff.mpr fun f hf =>
      Firing.pending?_of_not_wants (h p hp n fs hfiring f hf)
  · rfl

/-- What is known of last executions: no step makes one earlier, and when no firing is in progress
each one is the latest of what it was at the start and of the times in the rule's logs since then. -/
structure Accounted (start : World) (ps : List Processing) (w : World) : Prop where
  forward : ∀ s, Overlap.Step (ps, w) s → List.Forall₂ Rule.NotEarlier w.rules s.2.rules
  settled : Quiet ps → ∃ rows, w.logs = start.logs ++ rows ∧
    List.Forall₂ (fun r r' => r'.core = r.core ∧ r'.lastExecuted.map DateTime.instant =
      latest (r.lastExecuted.toList ++
        (rows.filter fun l => l.ruleId.same r.id).map (·.executedAt))) start.rules w.rules

/-- The last executions and the notes that are still to be made come to the logs. -/
structure Tracks (start : World) (s : List Processing × World) : Prop where
  reliable : s.2.Reliable
  rows : ∃ rows, s.2.logs = start.logs ++ rows ∧
    List.Forall₂ (Rule.Tracked start.rules rows (notes s.1)) start.rules s.2.rules

variable {start : World} {P : Engine → Firing → Prop} {s s' : List Processing × World}

theorem tracks_start (hr : start.Reliable) : Tracks start ([], start) where
  reliable := hr
  rows := by
    refine ⟨[], by simp, List.forall₂_same.mpr fun r hmem => ⟨hmem, rfl, fun n => ?_⟩⟩
    simp [notes]

/-- A note of a firing is for the rule of the store with the firing's id. -/
theorem concerns_iff_same (hk : start.rules.Keyed) {event : Event} {f : Firing} {r r' : Rule}
    (hf : f.From start.rules event) (htext : ∃ name, event.tenant = .text name)
    (hmem : r ∈ start.rules) (hcore : r'.core = r.core) (time : DateTime) :
    Note.concerns ⟨f.rule, time⟩ r' = true ↔ f.rule.id.same r.id = true := by
  obtain ⟨s, hs, hsame⟩ := hf.known
  obtain ⟨name, hname⟩ := htext
  have hid := Rule.id_eq_of_core hsame
  have hid' := Rule.id_eq_of_core hcore
  simp only [Note.concerns, Rules.isOf, Rules.hasId, Bool.and_eq_true]
  rw [hid', ← hid]
  constructor
  · rintro ⟨hrs, -⟩
    obtain rfl := hk.eq_of_same hmem hs hrs
    exact hk.found r hmem
  · intro hsr
    obtain rfl := hk.eq_of_same hs hmem hsr
    refine ⟨hk.found s hs, ?_⟩
    rw [Rule.tenant_eq_of_core hcore, Rule.tenant_eq_of_core hsame, hf.tenant, hname,
      Value.same_text]

/-- **No step loses an execution.** -/
theorem Tracks.step (hk : start.rules.Keyed) (hs : Invariant start (fun _ f => f.Marks) s)
    (h : Tracks start s) (hleads : Leads start (fun _ f => f.Marks) s s') : Tracks start s' := by
  obtain ⟨rows, hlogs, hrules⟩ := h.rows
  refine ⟨hleads.reliable h.reliable, ?_⟩
  cases hleads.change with
  | keep hsame hn =>
    refine ⟨rows, hsame.logs.trans hlogs, ?_⟩
    rw [hsame.rules]
    exact hrules.imp fun r r' ht => ht.of_same rfl rfl hn
  | @append f state log hf hp hsame happend hn =>
    obtain ⟨p, -, -, hmarks⟩ := hf
    refine ⟨rows ++ [log], by rw [happend, hlogs, List.append_assoc], ?_⟩
    rw [hsame]
    exact hrules.imp fun r r' ht => ht.append (hmarks state log hp) rfl hn
  | @touch f time hf htouch hsame hn =>
    obtain ⟨p, hp, hfrom, -⟩ := hf
    refine ⟨rows, hsame.trans hlogs, ?_⟩
    -- The store looks at each rule, and changes the one that the note concerns.
    have hheed : s'.2.rules = s.2.rules.map (Note.heed ⟨f.rule, time⟩) := htouch
    rw [hheed, List.forall₂_map_right_iff]
    exact hrules.imp fun r r' ht => ht.touch hn
      (concerns_iff_same hk hfrom (hs.proper p hp).tenant ht.mem ht.core time)
  | @lose f time hf hsame hno hn =>
    -- Ids of the store can be looked up, and the store works.
    obtain ⟨p, hp, hfrom, -⟩ := hf
    obtain ⟨r, hr, hcore⟩ := hfrom.known
    have hchecked := hk.checked r hr
    rw [Rule.id_eq_of_core hcore] at hchecked
    exact absurd hchecked (hno h.reliable)
  | @setActive tenant id active hset hsame hn =>
    refine ⟨rows, hsame.trans hlogs, ?_⟩
    rw [hset]
    unfold Rules.setActive Rules.change
    rw [List.forall₂_map_right_iff]
    refine hrules.imp fun r r' ht => ?_
    split
    · exact ht.of_same rfl rfl hn
    · exact ht.of_same rfl rfl hn

theorem notEarlier_change {rules : Rules} {tenant id : Value} {f : Rule → Rule}
    (hf : ∀ r : Rule, r.NotEarlier (f r)) :
    List.Forall₂ Rule.NotEarlier rules (rules.change tenant id f) := by
  unfold Rules.change
  rw [List.forall₂_map_right_iff]
  refine List.forall₂_same.mpr fun r _ => ?_
  split
  · exact hf r
  · exact Rule.NotEarlier.refl r

/-- No change of the stores makes a last execution earlier. -/
theorem notEarlier_of_change {F : Firing → Prop} {w w' : World} {notes notes' : List Note}
    (h : World.Change F w notes w' notes') : List.Forall₂ Rule.NotEarlier w.rules w'.rules := by
  have hself : List.Forall₂ Rule.NotEarlier w.rules w.rules :=
    List.forall₂_same.mpr fun r _ => Rule.NotEarlier.refl r
  cases h with
  | keep hs _ | lose _ hs _ _ => rwa [hs.rules]
  | append _ _ hrules _ _ => rwa [hrules]
  | touch _ hrules _ _ =>
    rw [hrules]
    exact notEarlier_change fun r => Rule.notEarlier_noted r _
  | setActive hrules _ _ =>
    rw [hrules]
    exact notEarlier_change fun r t ht => ⟨t, ht, Int.le_refl _⟩

end Overlap

/-- **Last executions tell of the logs** in every run of events that overlap, if the stores work. -/
theorem accounted_of_overlap {start w : World} {ps : List Processing} (hk : start.rules.Keyed)
    (hr : start.Reliable) (h : Overlap.Run start (ps, w)) : Overlap.Accounted start ps w := by
  have hsteady := Firing.steady_marks start.rules
  obtain ⟨hinvariant, htracks⟩ := Overlap.Run.induct hsteady (Overlap.tracks_start hr)
    (fun s s' hs ht hleads => ht.step hk hs hleads) h
  refine ⟨fun s hstep => ?_, fun hquiet => ?_⟩
  · exact Overlap.notEarlier_of_change (Overlap.Step.leads hsteady hinvariant hstep).change
  · obtain ⟨rows, hlogs, hrules⟩ := htracks.rows
    refine ⟨rows, hlogs, hrules.imp fun r r' ht => ⟨ht.core, ?_⟩⟩
    have hreaches := ht.reaches
    rw [Overlap.notes_of_quiet hquiet] at hreaches
    have hlatest : latest r'.lastExecuted.toList = latest (r.lastExecuted.toList ++
        (rows.filter fun l => l.ruleId.same r.id).map (·.executedAt)) := by
      refine latest_eq_of_reaches fun n => ?_
      rw [reaches_append]
      simpa [Reaches, and_assoc] using hreaches n
    rw [← hlatest]
    cases r'.lastExecuted <;> rfl

/-- Of two events one is over, with the logs of two rules, and the other one is about to begin. -/
theorem accounted_of_overlap_unjudgedRules :
    (World.plain unjudgedRules).rules.Keyed ∧ (World.plain unjudgedRules).Reliable ∧
      ∃ ps w, Overlap.Run (World.plain unjudgedRules) (ps, w) ∧ ps.length = 2 ∧
        Overlap.Quiet ps ∧ w.logs ≠ [] ∧ Overlap.Accounted (World.plain unjudgedRules) ps w := by
  have hrest := World.atRest_unjudgedRules
  obtain ⟨ps, w, hrun, hlength, hquiet, hlogs⟩ := Overlap.exists_run_unjudgedRules
  exact ⟨hrest.keyed, hrest.reliable, ps, w, hrun, hlength,
    fun p hp n fs hfiring => absurd hfiring (hquiet p hp n fs), hlogs,
    accounted_of_overlap hrest.keyed hrest.reliable hrun⟩

end ChangeRules
