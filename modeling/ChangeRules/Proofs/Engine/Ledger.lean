import ChangeRules.Proofs.Matching

/-!
# The ledger of an event

What the firings of an event leave in the stores is booked firing by firing: the log that each one
appended, and the execution that it noted at its rule. In every run the books agree with how far the
firings are, and with what the stores hold.

* `Account.Sound`: the entry of a firing agrees with how far the firing is.
* `Books`: the entries of all firings agree with the stores.
* **`Books.fire`**: no turn of a firing breaks the books.
* **`books_of_run`**: they are right in every run.
-/

namespace ChangeRules

/-! ## Entries -/

/-- A firing and what it left in the stores. -/
structure Account where
  firing : Firing
  /-- The log that was appended. -/
  written : Option ExecutionLog := none
  /-- The log whose time was noted at the rule. -/
  noted : Option ExecutionLog := none

namespace Account

/-- Nothing was left in the stores. -/
def Blank (a : Account) : Prop := a.written = none ∧ a.noted = none

/-- The note that was made at the rule. -/
def note? (a : Account) : Option Note := a.noted.map fun log => ⟨a.firing.rule, log.executedAt⟩

/-- The firing is over, and does not keep those behind it from beginning. -/
def Done (a : Account) : Prop :=
  ∃ outcome, a.firing.outcome? = some outcome ∧ EventRun.isFatal outcome = false

/-- The entry of a firing agrees with how far the firing is. Where the stores are reliable, only a
rule whose id cannot be looked up makes them fail. -/
def Sound (reliable : Prop) (a : Account) : Prop :=
  match a.firing.progress with
  | .ready | .queued => a.Blank
  | .acting _ _ _ | .acted _ _ _ => a.firing.Fireable ∧ a.Blank
  | .logging state log => a.firing.Fireable ∧ a.firing.Writes state log ∧ a.Blank
  | .logged state log (.ok _) => a.firing.Fireable ∧ a.firing.Writes state log ∧
      a.written = some log ∧ a.noted = none
  | .logged _ _ (.error fault) => a.firing.Fireable ∧ IsStoreFault fault ∧ ¬ reliable ∧ a.Blank
  | .touching state log => a.firing.Fireable ∧ a.firing.Writes state log ∧
      a.written = some log ∧ a.noted = none
  | .touched state log (.ok _) => a.firing.Fireable ∧ a.firing.Writes state log ∧
      a.written = some log ∧ a.noted = some log
  | .touched state log (.error fault) => a.firing.Fireable ∧ IsStoreFault fault ∧
      ¬ (reliable ∧ Rules.checkId a.firing.rule.id = .ok ()) ∧ a.firing.Writes state log ∧
      a.written = some log ∧ a.noted = none
  | .ended (.ok report) => a.firing.Fireable ∧ ∃ state log, a.firing.Writes state log ∧
      a.written = some log ∧ a.noted = some log ∧ report = a.firing.report state log
  | .ended (.error fault) =>
      (a.firing.found.error = none ∧ a.firing.actions = .error fault ∧ a.Blank) ∨
      (a.firing.Fireable ∧ IsStoreFault fault ∧
        ¬ (reliable ∧ Rules.checkId a.firing.rule.id = .ok ()) ∧ a.noted = none ∧
        ∀ log, a.written = some log → ∃ state, a.firing.Writes state log)

variable {a : Account} {reliable : Prop} {w w' : World} {f' : Firing}

/-- A firing that has no log yet left nothing in the stores. -/
theorem Sound.early (h : a.Sound reliable)
    (hf : a.firing.progress.IsWaiting ∨ a.firing.progress.IsWorking) :
    a.Blank ∧ (a.firing.progress.IsWorking → a.firing.Fireable) := by
  unfold Sound at h
  cases hp : a.firing.progress with
  | ready | queued =>
    rw [hp] at h
    exact ⟨h, fun hw => hw.elim⟩
  | acting _ _ _ | acted _ _ _ =>
    rw [hp] at h
    exact ⟨h.2, fun _ => h.1⟩
  | _ =>
    rw [hp] at hf
    exact (hf.elim id id).elim

/-! ## One turn -/

/-- What a turn changes: nothing in the stores, a log more, or a note more. -/
inductive Update (a : Account) (w : World) (a' : Account) (w' : World) : Prop
  | keep (hwritten : a'.written = a.written) (hnoted : a'.noted = a.noted) (hs : w.SameStores w')
  | write {log : ExecutionLog} (hnew : a.written = none) (hwritten : a'.written = some log)
      (hnoted : a'.noted = a.noted) (hrules : w'.rules = w.rules)
      (hlogs : w'.logs = w.logs ++ [log])
  | note {log : ExecutionLog} (hnew : a.noted = none) (hwritten : a'.written = a.written)
      (hnoted : a'.noted = some log)
      (hrules : w'.rules = w.rules.touch a.firing.rule.tenant a.firing.rule.id log.executedAt)
      (hlogs : w'.logs = w.logs)

/-- **A turn keeps the entry of a firing right.** -/
theorem Sound.update (h : a.Sound reliable) (hw : reliable → w.Reliable)
    (hs : a.firing.Stepped w f' w') :
    ∃ a', a'.firing = f' ∧ a'.Sound reliable ∧ a.Update w a' w' := by
  have hmove := hs.move
  generalize hp : f'.progress = p at hmove
  -- The entry is carried over unless the move says otherwise.
  have keep : Sound reliable ⟨f', a.written, a.noted⟩ → w.SameStores w' →
      ∃ a', a'.firing = f' ∧ a'.Sound reliable ∧ a.Update w a' w' :=
    fun hsound hsame => ⟨_, rfl, hsound, .keep rfl rfl hsame⟩
  have hsound := h
  unfold Sound at hsound
  cases hmove with
  | wait hf hsame =>
    refine keep ?_ hsame
    unfold Sound
    rw [hp]
    exact (h.early (Or.inl hf)).1
  | work hf hc hwork hsame =>
    have hearly := h.early hf
    have hfire := hs.fireable (hf.elim hc hearly.2)
    refine keep ?_ hsame
    unfold Sound
    rw [hp]
    cases p with
    | acting _ _ _ | acted _ _ _ => exact ⟨hfire, hearly.1⟩
    | _ => exact hwork.elim
  | conclude hf hc hlog hsame =>
    have hearly := h.early hf
    refine keep ?_ hsame
    unfold Sound
    rw [hp]
    exact ⟨hs.fireable (hf.elim hc hearly.2), hs.writes hlog, hearly.1⟩
  | refuse hf hjudged hactions hsame =>
    refine keep ?_ hsame
    unfold Sound
    rw [hp]
    exact Or.inl ⟨by rw [hs.found]; exact hjudged, by rw [hs.actions_eq]; exact hactions,
      (h.early (Or.inl hf)).1⟩
  | @append state log _ hf hrules hlogs =>
    rw [hf] at hsound
    obtain ⟨hc, hlog, hblank⟩ := hsound
    refine ⟨⟨f', some log, a.noted⟩, rfl, ?_, .write hblank.1 rfl rfl hrules hlogs⟩
    unfold Sound
    rw [hp]
    exact ⟨hs.fireable hc, hs.writes hlog, rfl, hblank.2⟩
  | appendFailed hf hfault hfail hsame =>
    rw [hf] at hsound
    refine keep ?_ hsame
    unfold Sound
    rw [hp]
    exact ⟨hs.fireable hsound.1, hfault, fun hr => hfail (hw hr), hsound.2.2⟩
  | goOn hf hsame =>
    rw [hf] at hsound
    obtain ⟨hc, hlog, hrest⟩ := hsound
    refine keep ?_ hsame
    unfold Sound
    rw [hp]
    exact ⟨hs.fireable hc, hs.writes hlog, hrest⟩
  | @touch state log _ hf hrules hlogs =>
    rw [hf] at hsound
    obtain ⟨hc, hlog, hwritten, hnoted⟩ := hsound
    refine ⟨⟨f', a.written, some log⟩, rfl, ?_, .note hnoted rfl rfl hrules hlogs⟩
    unfold Sound
    rw [hp]
    exact ⟨hs.fireable hc, hs.writes hlog, hwritten, rfl⟩
  | touchFailed hf hfault hfail hsame =>
    rw [hf] at hsound
    obtain ⟨hc, hlog, hwritten, hnoted⟩ := hsound
    refine keep ?_ hsame
    unfold Sound
    rw [hp]
    refine ⟨hs.fireable hc, hfault, fun hr => ?_, hs.writes hlog, hwritten, hnoted⟩
    rw [hs.rule] at hr
    exact hfail (hw hr.1) hr.2
  | giveUp hf hsame =>
    refine keep ?_ hsame
    unfold Sound
    rw [hp]
    rcases hf with hf | hf
    · rw [hf] at hsound
      obtain ⟨hc, hfault, hfail, hblank⟩ := hsound
      refine Or.inr ⟨hs.fireable hc, hfault, fun hr => hfail hr.1, hblank.2, fun log hlog => ?_⟩
      dsimp only at hlog
      rw [hblank.1] at hlog
      exact absurd hlog (by simp)
    · rw [hf] at hsound
      obtain ⟨hc, hfault, hfail, hlog, hwritten, hnoted⟩ := hsound
      rw [← hs.rule] at hfail
      refine Or.inr ⟨hs.fireable hc, hfault, hfail, hnoted, fun log hsome => ?_⟩
      dsimp only at hsome
      rw [hwritten, Option.some.injEq] at hsome
      rw [← hsome]
      exact ⟨_, hs.writes hlog⟩
  | @report state log _ hf hsame =>
    rw [hf] at hsound
    obtain ⟨hc, hlog, hwritten, hnoted⟩ := hsound
    refine keep ?_ hsame
    unfold Sound
    rw [hp]
    exact ⟨hs.fireable hc, state, log, hs.writes hlog, hwritten, hnoted, by rw [hs.report_eq]⟩
  | @rest outcome _ hf hsame =>
    rw [hf] at hsound
    refine keep ?_ hsame
    unfold Sound
    rw [hp]
    cases outcome with
    | ok report =>
      obtain ⟨hc, state, log, hlog, hwritten, hnoted, hreport⟩ := hsound
      exact ⟨hs.fireable hc, state, log, hs.writes hlog, hwritten, hnoted,
        by rw [hs.report_eq]; exact hreport⟩
    | error fault =>
      rcases hsound with ⟨hjudged, hactions, hblank⟩ | ⟨hc, hfault, hfail, hnoted, hlog⟩
      · exact Or.inl ⟨by rw [hs.found]; exact hjudged, by rw [hs.actions_eq]; exact hactions, hblank⟩
      · refine Or.inr ⟨hs.fireable hc, hfault, ?_, hnoted, fun log hsome => ?_⟩
        · dsimp only
          rw [hs.rule]
          exact hfail
        · obtain ⟨state, hwrites⟩ := hlog log hsome
          exact ⟨state, hs.writes hwrites⟩

end Account

/-! ## Rows of entries -/

section

variable {α β : Type} {g : α → Option β} {before behind : List α} {a a' : α} {b : β} {rows : List β}

/-- One entry of a row is replaced by another one that has a result, as the first one had not. -/
theorem perm_filterMap_replace (ha : g a = none) (ha' : g a' = some b)
    (h : rows.Perm ((before ++ a :: behind).filterMap g)) :
    (rows ++ [b]).Perm ((before ++ a' :: behind).filterMap g) := by
  simp only [List.filterMap_append, List.filterMap_cons, ha, ha'] at h ⊢
  exact (List.perm_append_singleton b rows).trans ((h.cons b).trans List.perm_middle.symm)

theorem filterMap_replace_same (h : g a' = g a) :
    (before ++ a' :: behind).filterMap g = (before ++ a :: behind).filterMap g := by
  simp only [List.filterMap_append, List.filterMap_cons, h]

end

/-! ## Books -/

/-- The entries of the firings of an event, in firing order, agree with what the stores hold beyond
what they held at the start. Firings that take turns begin one by one, and append in this order. -/
structure Books (start : World) (o : Occasion) (inTurn : Prop) (as : List Account) (w : World) :
    Prop where
  sound : ∀ a ∈ as, a.Sound start.Reliable
  found : as.map (·.firing.found) = start.found o.event
  occasion : ∀ a ∈ as, a.firing.occasion = o
  reliable : start.Reliable → w.Reliable
  logs : ∃ rows, w.logs = start.logs ++ rows ∧ rows.Perm (as.filterMap (·.written)) ∧
    (inTurn → rows = as.filterMap (·.written))
  rules : ∃ notes, w.rules = start.rules.heed notes ∧ notes.Perm (as.filterMap Account.note?)
  turns : inTurn → as.Pairwise fun a b => a.Done ∨ b.firing.progress = .ready

namespace Books

variable {start w w' : World} {o : Occasion} {inTurn : Prop} {as before behind : List Account}
  {a : Account} {f' : Firing}

/-- Nothing was done yet. -/
theorem begin (h : start.Kept w) : ∃ as, as.map (·.firing) = EventRun.firings o (start.listed o) ∧
    Books start o inTurn as w := by
  let entries := (EventRun.firings o (start.listed o)).map fun f => ({ firing := f } : Account)
  have hfirings : entries.map (·.firing) = EventRun.firings o (start.listed o) := by
    simp [entries, Function.comp_def]
  have hready : ∀ a ∈ entries, a.firing.progress = .ready ∧ a.firing.occasion = o ∧
      a.written = none ∧ a.noted = none := by
    intro a ha
    simp only [entries, EventRun.firings, List.map_map, List.mem_map] at ha
    obtain ⟨m, -, rfl⟩ := ha
    exact ⟨rfl, rfl, rfl, rfl⟩
  have hwritten : entries.filterMap (·.written) = [] :=
    List.filterMap_eq_nil_iff.mpr fun a ha => (hready a ha).2.2.1
  have hnoted : entries.filterMap Account.note? = [] :=
    List.filterMap_eq_nil_iff.mpr fun a ha => by simp [Account.note?, (hready a ha).2.2.2]
  refine ⟨entries, hfirings, ?_⟩
  exact {
    sound := fun a ha => by
      obtain ⟨hp, -, hw, hn⟩ := hready a ha
      unfold Account.Sound
      rw [hp]
      exact ⟨hw, hn⟩
    found := by
      rw [← map_found_firings, ← hfirings]
      simp
    occasion := fun a ha => (hready a ha).2.1
    reliable := h.reliable
    logs := ⟨[], by simp [h.logs], by rw [hwritten], fun _ => hwritten.symm⟩
    rules := ⟨[], by simp [h.rules, Rules.heed], by rw [hnoted]⟩
    turns := fun _ => List.pairwise_of_forall_mem_list fun a _ b hb => Or.inr (hready b hb).1 }

theorem keep (hb : Books start o inTurn as w) (h : w.Kept w') : Books start o inTurn as w' :=
  { hb with
    reliable := h.reliable ∘ hb.reliable
    logs := by rw [h.logs]; exact hb.logs
    rules := by rw [h.rules]; exact hb.rules }

/-- Behind a firing that is not over, nothing was written yet. -/
theorem written_behind (hb : Books start o inTurn (before ++ a :: behind) w) (hturn : inTurn)
    (ha : ¬ a.Done) : behind.filterMap (·.written) = [] := by
  refine List.filterMap_eq_nil_iff.mpr fun b hmem => ?_
  have hpair := (List.pairwise_append.mp (hb.turns hturn)).2.1
  have hready := ((List.pairwise_cons.mp hpair).1 b hmem).resolve_left ha
  have hsound := hb.sound b (by simp [hmem])
  unfold Account.Sound at hsound
  rw [hready] at hsound
  exact hsound.1

/-- The logs of a turn. -/
theorem logs_update {a' : Account} (hb : Books start o inTurn (before ++ a :: behind) w)
    (ha : ¬ a.Done) (h : a.Update w a' w') :
    ∃ rows, w'.logs = start.logs ++ rows ∧
      rows.Perm ((before ++ a' :: behind).filterMap (·.written)) ∧
      (inTurn → rows = (before ++ a' :: behind).filterMap (·.written)) := by
  obtain ⟨rows, hlogs, hperm, horder⟩ := hb.logs
  cases h with
  | keep hwritten hnoted hs =>
    refine ⟨rows, hs.logs.trans hlogs, ?_⟩
    rw [filterMap_replace_same (g := Account.written) hwritten]
    exact ⟨hperm, horder⟩
  | note hnew hwritten hnoted hrules hsame =>
    refine ⟨rows, hsame.trans hlogs, ?_⟩
    rw [filterMap_replace_same (g := Account.written) hwritten]
    exact ⟨hperm, horder⟩
  | @write log hnew hwritten hnoted hrules happend =>
    refine ⟨rows ++ [log], by rw [happend, hlogs, List.append_assoc],
      perm_filterMap_replace hnew hwritten hperm, fun hturn => ?_⟩
    have hbehind := hb.written_behind hturn ha
    rw [horder hturn]
    simp only [List.filterMap_append, List.filterMap_cons, hnew, hwritten, hbehind, List.append_nil]

/-- The notes of a turn. -/
theorem rules_update {a' : Account} (hb : Books start o inTurn (before ++ a :: behind) w)
    (hfound : a'.firing.found = a.firing.found) (h : a.Update w a' w') :
    ∃ notes, w'.rules = start.rules.heed notes ∧
      notes.Perm ((before ++ a' :: behind).filterMap Account.note?) := by
  obtain ⟨notes, hrules, hperm⟩ := hb.rules
  have hrule : a'.firing.rule = a.firing.rule := by unfold Firing.rule; rw [hfound]
  have same : a'.noted = a.noted → a'.note? = a.note? := fun hnoted => by
    unfold Account.note?
    rw [hnoted, hrule]
  cases h with
  | keep hwritten hnoted hs =>
    refine ⟨notes, hs.rules.trans hrules, ?_⟩
    rw [filterMap_replace_same (same hnoted)]
    exact hperm
  | write hnew hwritten hnoted hsame happend =>
    refine ⟨notes, hsame.trans hrules, ?_⟩
    rw [filterMap_replace_same (same hnoted)]
    exact hperm
  | @note log hnew hwritten hnoted htouch hsame =>
    refine ⟨notes ++ [⟨a.firing.rule, log.executedAt⟩], ?_, ?_⟩
    · rw [htouch, hrules, Rules.heed_append]
      rfl
    · refine perm_filterMap_replace (a := a) ?_ ?_ hperm
      · simp [Account.note?, hnew]
      · simp [Account.note?, hnoted, hrule]

/-- **No turn of a firing breaks the books.** -/
theorem fire (hb : Books start o inTurn (before ++ a :: behind) w)
    (ha : a.firing.outcome? = none) (hturn : inTurn → ∀ b ∈ before, b.Done)
    (hs : a.firing.Stepped w f' w') :
    ∃ a', a'.firing = f' ∧ Books start o inTurn (before ++ a' :: behind) w' := by
  obtain ⟨a', rfl, hsound, hupdate⟩ := (hb.sound a (by simp)).update hb.reliable hs
  have hopen : ¬ a.Done := by
    rintro ⟨outcome, ho, -⟩
    rw [ha] at ho
    exact absurd ho (by simp)
  refine ⟨a', rfl, ?_⟩
  exact {
    sound := forall_mem_replace hb.sound hsound
    found := by
      rw [← hb.found]
      simp [hs.found]
    occasion := forall_mem_replace hb.occasion (hs.occasion.trans (hb.occasion a (by simp)))
    reliable := hs.reliable ∘ hb.reliable
    logs := hb.logs_update hopen hupdate
    rules := hb.rules_update hs.found hupdate
    turns := fun hin => by
      obtain ⟨hbefore, hrest, -⟩ := List.pairwise_append.mp (hb.turns hin)
      obtain ⟨hready, hbehind⟩ := List.pairwise_cons.mp hrest
      refine List.pairwise_append.mpr ⟨hbefore, List.pairwise_cons.mpr
        ⟨fun b hmem => Or.inr ((hready b hmem).resolve_left hopen), hbehind⟩, fun b hmem c _ => ?_⟩
      exact Or.inl (hturn hin b hmem) }

end Books

/-- The books of some firings are right. -/
def Booked (start : World) (o : Occasion) (inTurn : Prop) (fs : List Firing) (w : World) : Prop :=
  ∃ as : List Account, as.map (·.firing) = fs ∧ Books start o inTurn as w

/-- **The books are right in every run.** -/
theorem books_of_run {e : Engine} {event : Event} {o : Occasion} {start : World} (ho : o.Of event)
    {p : EventRun × World} (h : Run e ({ event }, start) p) :
    Stage e start o (Booked start o (e.parallel = false)) p := by
  refine stage_of_run ho (fun w hw => Books.begin hw) ?_ ?_ h
  · rintro before f behind f' w w' ⟨as, hfs, hb⟩ hopen hf hturn hstep
    obtain ⟨front, rest, rfl, rfl, hrest⟩ := List.map_eq_append_iff.mp hfs
    obtain ⟨a, back, rfl, rfl, rfl⟩ := List.map_eq_cons_iff.mp hrest
    have hdone : e.parallel = false → ∀ b ∈ front, b.Done := by
      intro hseq b hb
      have hover := hturn.resolve_left (by simp [hseq]) b.firing (List.mem_map_of_mem hb)
      obtain ⟨outcome, ho⟩ := Option.isSome_iff_exists.mp hover
      have hmem : b.firing ∈ front.map (·.firing) ++ a.firing :: back.map (·.firing) :=
        List.mem_append_left _ (List.mem_map_of_mem hb)
      exact ⟨outcome, ho, Occasion.not_isFatal_of_open hseq hopen outcome
        (List.mem_filterMap.mpr ⟨b.firing, hmem, ho⟩)⟩
    obtain ⟨a', rfl, hb'⟩ := hb.fire hf hdone hstep.stepped
    exact ⟨front ++ a' :: back, by simp, hb'⟩
  · rintro fs w w' ⟨as, hfs, hb⟩ hw
    exact ⟨as, hfs, hb.keep hw⟩

end ChangeRules
