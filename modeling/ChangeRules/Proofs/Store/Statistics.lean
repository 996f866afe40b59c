import ChangeRules.Proofs.Store.Paging

/-!
# Statistics and pages

The statistics of a rule count the logs that one gets who asks for the logs of this rule: all of them,
the successful ones and the failed ones. They differ at one point. Whoever asks for the logs of the
rule with the empty text for an id asks for the logs of all rules, but the statistics count the logs
that have this text for the id of their rule.

* `LogQuery.ofRule`: the logs of a rule.
* **`Logs.page_all`**: a page that is large enough holds everything that is asked for.
* **`Logs.exists_stats`**: what the statistics tell.
* `Logs.Agree`: statistics and pages that tell the same.
* **`Logs.agree_iff`**: when they do.
-/

namespace ChangeRules

/-- The logs of a rule, or those of one outcome. -/
def LogQuery.ofRule (rule : Option String) (success : Option Bool) : LogQuery where
  ruleId := rule
  success := success

namespace LogQuery

variable {rule : Option String} {success : Option Bool} {l : ExecutionLog}

theorem fits_ofRule_none : (ofRule rule none).Fits l ↔
    ∀ s, rule = some s → s ≠ "" → l.ruleId = .text s := by
  refine ⟨fun h => h.rule, fun h => ⟨h, fun s heq => ?_, fun b heq => ?_⟩⟩
  · exact absurd heq (Option.some_ne_none s).symm
  · exact absurd heq (Option.some_ne_none b).symm

theorem fits_ofRule_some {b : Bool} : (ofRule rule (some b)).Fits l ↔
    (∀ s, rule = some s → s ≠ "" → l.ruleId = .text s) ∧ l.success = .bool b := by
  refine ⟨fun h => ⟨h.rule, h.success b rfl⟩, fun h => ⟨h.1, fun s heq => ?_, fun c heq => ?_⟩⟩
  · exact absurd heq (Option.some_ne_none s).symm
  · rw [← Option.some.inj heq]
    exact h.2

theorem finds_ofRule : (ofRule rule success).Finds l :=
  fun s heq => absurd heq (Option.some_ne_none s).symm

end LogQuery

namespace Logs

variable {logs : Logs} {tenant : String} {rule : Option String}

/-! ## What is asked for -/

/-- The logs of one outcome are some of all logs. -/
theorem asked_outcome (hl : ∀ l ∈ logs, l.Typed) (b : Bool) :
    logs.asked tenant (.ofRule rule (some b)) =
      (logs.asked tenant (.ofRule rule none)).filter (·.success.truthy == b) := by
  unfold asked
  rw [List.filter_filter]
  refine List.filter_congr fun l hmem => ?_
  obtain ⟨success, hsuccess⟩ := (hl l hmem).success
  rw [Bool.eq_iff_iff]
  simp only [LogQuery.fits_ofRule_none, LogQuery.fits_ofRule_some, LogQuery.finds_ofRule, hsuccess,
    Value.truthy, Bool.and_eq_true, decide_eq_true_eq, beq_iff_eq, Value.bool.injEq, and_true]
  constructor
  · rintro ⟨hown, hrule, houtcome⟩
    exact ⟨houtcome, hown, hrule⟩
  · rintro ⟨houtcome, hown, hrule⟩
    exact ⟨hown, hrule, houtcome⟩

/-- **A page that is large enough holds everything that is asked for.** -/
theorem page_all (hl : ∀ l ∈ logs, l.Typed) {q : LogQuery} (hq : q.search = none) {limit : Nat}
    (h : logs.length ≤ limit) : logs.page (.text tenant) (q.filter limit 0) =
      .ok (logs.asked tenant q).newestFirst := by
  have hselect : logs.select (.text tenant) (q.filter limit 0) = .ok (logs.asked tenant q) :=
    select_eq_asked hl (fun hsearch => absurd hsearch (LogQuery.not_searches_of_none hq)) limit 0
  have hlength : (logs.asked tenant q).newestFirst.length ≤ limit := by
    rw [(perm_newestFirst _).length_eq]
    exact Nat.le_trans (List.length_filter_le _ _) h
  rw [page_eq limit 0 rfl rfl hselect, List.drop_zero, List.take_of_length_le hlength]

/-! ## What is counted -/

/-- Nothing and a time can be added. -/
theorem zero_add_double (x : Double) :
    (Number.int 0).add (.double x) = .ok (.double (Double.zero.add x)) := by
  have hzero : Double.ofInt 0 = .zero := by decide +kernel
  unfold Number.add Number.combine
  dsimp only
  rw [Number.toDouble, hzero]
  rfl

/-- Times can be added up. -/
theorem exists_totalTime (hl : ∀ l ∈ logs, l.Typed) (x : Double) :
    ∃ sum, totalTime (.double x) logs = .ok sum := by
  induction logs generalizing x with
  | nil => exact ⟨_, rfl⟩
  | cons l logs ih =>
    obtain ⟨y, hy⟩ := (hl l List.mem_cons_self).milliseconds
    obtain ⟨sum, hsum⟩ := ih (fun k hk => hl k (List.mem_cons_of_mem l hk)) (x.add y)
    refine ⟨sum, ?_⟩
    unfold totalTime
    rw [hy]
    exact hsum

/-- **What the statistics tell.** -/
theorem exists_stats (hl : ∀ l ∈ logs, l.Typed) (tenant ruleId : Value) :
    ∃ stats, logs.stats tenant ruleId = .ok stats ∧
      stats.total = (logs.ofRule tenant ruleId).length ∧
      stats.successful = (logs.ofRule tenant ruleId).countP (·.success.truthy) ∧
      stats.failed = stats.total - stats.successful ∧
      (stats.averageMilliseconds = none ↔ logs.ofRule tenant ruleId = []) := by
  unfold stats
  dsimp only
  cases hcounted : logs.ofRule tenant ruleId with
  | nil => exact ⟨{}, rfl, rfl, rfl, rfl, by simp⟩
  | cons l rest =>
    have htyped : ∀ k ∈ l :: rest, k.Typed := fun k hk =>
      hl k (List.mem_of_mem_filter (hcounted ▸ hk))
    obtain ⟨x, hx⟩ := (htyped l List.mem_cons_self).milliseconds
    obtain ⟨sum, hsum⟩ := exists_totalTime (fun k hk => htyped k (List.mem_cons_of_mem l hk))
      (Double.zero.add x)
    have htotal : totalTime (.int 0) (l :: rest) = .ok sum := by
      unfold totalTime
      rw [hx, Value.number?]
      dsimp only
      rw [zero_add_double]
      exact hsum
    rw [htotal]
    exact ⟨_, rfl, rfl, rfl, rfl, by simp⟩

/-- The statistics count what is asked for, unless the rule has an empty id and others were logged. -/
theorem ofRule_eq_asked (h : rule = some "" → ∀ l ∈ logs, l.tenant = .text tenant →
    l.ruleId = .text "") :
    logs.ofRule (.text tenant) (.ofText? rule) = logs.asked tenant (.ofRule rule none) := by
  unfold ofRule asked
  refine List.filter_congr fun l hmem => ?_
  rw [Bool.eq_iff_iff]
  simp only [LogQuery.fits_ofRule_none, LogQuery.finds_ofRule, Bool.and_eq_true, decide_eq_true_eq,
    Value.same_text, Bool.or_eq_true, and_true]
  refine and_congr_right fun hown => ?_
  cases rule with
  | none => simp [Value.ofText?, Value.isNull]
  | some s =>
    constructor
    · rintro (hnull | hrule)
      · exact absurd hnull Bool.false_ne_true
      · intro s' heq _
        rw [← Option.some.inj heq]
        exact Value.same_text.mp hrule
    · intro hrule
      refine Or.inr (Value.same_text.mpr ?_)
      by_cases hs : s = ""
      · rw [hs] at h ⊢
        exact h rfl l hmem hown
      · exact hrule s rfl hs

/-- The statistics of the rule with the empty id leave the logs of other rules out. -/
theorem length_ofRule_lt {l : ExecutionLog} (hmem : l ∈ logs) (hown : l.tenant = .text tenant)
    (hrule : l.ruleId ≠ .text "") : (logs.ofRule (.text tenant) (.text "")).length <
      (logs.asked tenant (.ofRule (some "") none)).length := by
  have hall : ∀ k, (LogQuery.ofRule (some "") none).Fits k := fun k =>
    LogQuery.fits_ofRule_none.mpr fun s heq hs => absurd (Option.some.inj heq).symm hs
  have hsome : logs.ofRule (.text tenant) (.text "") =
      (logs.asked tenant (.ofRule (some "") none)).filter (·.ruleId.same (.text "")) := by
    unfold ofRule asked
    rw [List.filter_filter]
    refine List.filter_congr fun k _ => ?_
    rw [Bool.eq_iff_iff]
    simp only [hall, LogQuery.finds_ofRule, Value.isNull, Bool.false_or, Bool.and_eq_true,
      Value.same_text, decide_eq_true_eq, and_true]
    exact and_comm
  rw [hsome, List.length_filter_lt_length_iff_exists]
  exact ⟨l, mem_asked.mpr ⟨hmem, hown, hall l, LogQuery.finds_ofRule⟩,
    fun hsame => hrule (Value.same_text.mp hsame)⟩

/-! ## Agreement -/

/-- Statistics and the logs that one gets: all of them, the successful and the failed ones. -/
structure Agree (stats : ExecutionStats) (all successful failed : Logs) : Prop where
  total : stats.total = all.length
  successful : stats.successful = successful.length
  failed : stats.failed = failed.length
  average : stats.averageMilliseconds = none ↔ all = []

/-- **The statistics agree with the pages**, if these are large enough, exactly if one does not ask for
the rule with the empty id while the tenant has logs of other rules. -/
theorem agree_iff (hl : ∀ l ∈ logs, l.Typed) (tenant : String) (rule : Option String) :
    (∃ stats all successful failed, logs.stats (.text tenant) (.ofText? rule) = .ok stats ∧
      (∀ limit : Nat, logs.length ≤ limit →
        logs.page (.text tenant) ((LogQuery.ofRule rule none).filter limit 0) = .ok all ∧
        logs.page (.text tenant) ((LogQuery.ofRule rule (some true)).filter limit 0) =
          .ok successful ∧
        logs.page (.text tenant) ((LogQuery.ofRule rule (some false)).filter limit 0) =
          .ok failed) ∧
      Agree stats all successful failed) ↔
    (rule = some "" → ∀ l ∈ logs, l.tenant = .text tenant → l.ruleId = .text "") := by
  obtain ⟨stats, hstats, htotal, hsuccessful, hfailed, haverage⟩ :=
    exists_stats hl (.text tenant) (.ofText? rule)
  constructor
  · rintro ⟨stats', all, successful, failed, hstats', hpages, hagree⟩ rfl l hmem hown
    by_contra hrule
    obtain rfl : stats = stats' := Except.ok.inj (hstats.symm.trans hstats')
    obtain ⟨hall, -, -⟩ := hpages logs.length (Nat.le_refl _)
    rw [page_all hl rfl (Nat.le_refl _), Except.ok.injEq] at hall
    have hlength := (perm_newestFirst (logs.asked tenant (.ofRule (some "") none))).length_eq
    have hlt := length_ofRule_lt hmem hown hrule
    have heq := htotal.symm.trans hagree.total
    rw [← hall, hlength] at heq
    exact absurd (Int.ofNat.inj heq) (Nat.ne_of_lt hlt)
  · intro h
    refine ⟨stats, _, _, _, hstats, fun limit hlimit => ⟨page_all hl rfl hlimit,
      page_all hl rfl hlimit, page_all hl rfl hlimit⟩, ?_⟩
    rw [ofRule_eq_asked h] at htotal hsuccessful haverage
    have hlength := fun logs : Logs => (perm_newestFirst logs).length_eq
    have hboth := List.length_eq_countP_add_countP (·.success.truthy)
      (l := logs.asked tenant (.ofRule rule none))
    simp only [Bool.not_eq_true, Bool.decide_eq_false] at hboth
    constructor
    · rw [htotal, hlength]
    · rw [hsuccessful, hlength, asked_outcome hl, ← List.countP_eq_length_filter]
      simp only [beq_true]
    · rw [hfailed, htotal, hsuccessful, hlength, asked_outcome hl, ← List.countP_eq_length_filter]
      simp only [beq_false]
      omega
    · rw [haverage, ← List.length_eq_zero_iff, ← List.length_eq_zero_iff, hlength]

/-- The logs of a rule are asked for. -/
theorem agree_iff_noted : (∀ l ∈ Logs.noted, l.Typed) ∧
    ∃ stats all successful failed, Logs.stats (.text "t1") (.text "r1") .noted = .ok stats ∧
      Logs.page (.text "t1") ((LogQuery.ofRule (some "r1") none).filter 9 0) .noted = .ok all ∧
      Agree stats all successful failed := by
  obtain ⟨stats, all, successful, failed, hstats, hpages, hagree⟩ :=
    (agree_iff typed_noted "t1" (some "r1")).mpr fun heq => absurd (Option.some.inj heq) (by decide)
  exact ⟨typed_noted, stats, all, successful, failed, hstats, (hpages 9 (by decide)).1, hagree⟩

/-- Whoever asks for the rule with the empty id gets a log that the statistics do not count. -/
theorem not_agree_empty :
    let l : ExecutionLog := .noted "t1" (.list []) default
    l.Typed ∧ Logs.stats (.text "t1") (.text "") [l] = .ok {} ∧
    (∀ limit : Nat, 1 ≤ limit →
      Logs.page (.text "t1") ((LogQuery.ofRule (some "") none).filter limit 0) [l] = .ok [l]) ∧
    ∀ successful failed, ¬ Agree {} [l] successful failed := by
  intro l
  refine ⟨ExecutionLog.typed_noted _ _ _, rfl, fun limit hlimit => ?_, fun successful failed h => ?_⟩
  · have hselect : Logs.select (.text "t1") ((LogQuery.ofRule (some "") none).filter limit 0) [l] =
        .ok [l] := by rfl
    have hsorted : Logs.newestFirst [l] = [l] := List.mergeSort_singleton l
    rw [page_eq limit 0 rfl rfl hselect, hsorted, List.drop_zero, List.take_of_length_le hlimit]
  · exact absurd h.total (by decide)

end Logs

end ChangeRules
