import ChangeRules.Proofs.Store.Keyed
import ChangeRules.Store.Logs

/-!
# Pages of logs

Whoever reads the logs of a tenant page by page gets the logs that were asked for, each of them once
and the newest first; logs of one instant come as they were appended. What is asked for is a rule, a
table, the successful or the failed logs, and a text that one of the logged texts holds. To search a
log its actions are gone through, so a search fails at a log whose details hold something else in
their place.

* `LogQuery.Fits`, `LogQuery.Finds`: what is asked for.
* `ExecutionLog.Typed`, `ExecutionLog.Searchable`: what logs hold.
* **`LogQuery.accepts_eq`**: a log is accepted exactly if it is asked for.
* **`Logs.select_eq_filter`**: logs that can be judged are filtered.
* **`Logs.filter_newestFirst`**: logs of one instant keep their order.
* **`Logs.select_eq_asked`**: selected are the logs that are asked for.
* `Logs.Read`, `Logs.Paged`: pages one after the other, and what they hold.
* **`Logs.read_iff`**: when all pages can be read.
-/

namespace ChangeRules

/-! ## Small letters -/

namespace Text

theorem lowerAfter_ne_nil (before : List Char) {cs : List Char} (h : cs ≠ []) :
    lowerAfter before cs ≠ [] := by
  obtain ⟨c, rest, rfl⟩ := List.exists_cons_of_ne_nil h
  have hc : lowerCharacter before c rest ≠ [] := by
    unfold lowerCharacter
    split_ifs <;> exact List.cons_ne_nil _ _
  unfold lowerAfter
  exact List.append_ne_nil_of_left_ne_nil hc _

/-- No text but the empty one occurs in the empty one, in small letters either. -/
theorem lower_ne_nil {s : String} (h : s ≠ "") : (lower s).toList ≠ [] := by
  unfold lower
  rw [String.toList_ofList]
  exact lowerAfter_ne_nil [] fun hnil => h (String.toList_eq_nil_iff.mp hnil)

theorem contains_iff {s part : String} : contains s part = true ↔ part.toList <:+: s.toList := by
  unfold contains
  rw [hasPart_iff]
  exact exists_congr fun before => exists_congr fun behind => eq_comm

end Text

/-! ## What logs hold -/

namespace ExecutionLog

/-- What is read of a log is of its kind. -/
structure Typed (l : ExecutionLog) : Prop where
  trigger : ∃ t, l.trigger = .text t
  table : ∃ t, l.table = .ofText? t
  error : ∃ t, l.error = .ofText? t
  details : ∃ fields, l.details = .object fields
  success : ∃ b, l.success = .bool b
  milliseconds : ∃ x, l.milliseconds = .double x

/-- The actions of a log list one of this type. -/
def Lists (l : ExecutionLog) (type : Value) : Prop :=
  ∃ details vs action, l.details = .object details ∧
    Fields.get? details "actions" = some (.list vs) ∧ .object action ∈ vs ∧
    Fields.get? action "type" = some type

/-- The texts of a log that are searched: its table, its trigger, its error, and the types of its
actions. -/
inductive Mentions (l : ExecutionLog) : String → Prop
  | table {t : String} (h : l.table = .text t) : Mentions l t
  | trigger {t : String} (h : l.trigger = .text t) : Mentions l t
  | error {t : String} (h : l.error = .text t) : Mentions l t
  | action {type : Value} (h : l.Lists type) : Mentions l type.display

/-- The actions of a log can be gone through, if there are any. -/
def Searchable (l : ExecutionLog) : Prop :=
  ∀ details v, l.details = .object details → Fields.get? details "actions" = some v →
    (∃ vs, v = .list vs) ∨ (∃ fs, v = .object fs) ∨ ∃ s, v = .text s

end ExecutionLog

/-- What is asked for of logs. An empty text asks for nothing. -/
structure LogQuery where
  ruleId : Option String := none
  table : Option String := none
  success : Option Bool := none
  search : Option String := none

namespace LogQuery

/-- The filter for a page. -/
def filter (q : LogQuery) (limit offset : Int) : LogFilter where
  ruleId := .ofText? q.ruleId
  table := .ofText? q.table
  success := (q.success.map .bool).getD .null
  search := .ofText? q.search
  limit := limit
  offset := offset

/-- A text is searched for. -/
def Searches (q : LogQuery) : Prop := ∃ s, q.search = some s ∧ s ≠ ""

theorem not_searches_of_none {q : LogQuery} (h : q.search = none) : ¬ q.Searches := by
  rintro ⟨s, hs, -⟩
  rw [h] at hs
  contradiction

/-- A log is of the rule, of the table and of the outcome that are asked for. -/
structure Fits (q : LogQuery) (l : ExecutionLog) : Prop where
  rule : ∀ s, q.ruleId = some s → s ≠ "" → l.ruleId = .text s
  table : ∀ s, q.table = some s → s ≠ "" → l.table = .text s
  success : ∀ b, q.success = some b → l.success = .bool b

/-- A log holds the text that is searched for, capital and small letters being the same. -/
def Finds (q : LogQuery) (l : ExecutionLog) : Prop :=
  ∀ s, q.search = some s → s ≠ "" →
    ∃ t, l.Mentions t ∧ (Text.lower s).toList <:+: (Text.lower t).toList

end LogQuery

/-! ## Searching -/

namespace LogFilter

variable {l : ExecutionLog} {vs : List Value}

/-- Texts are searched one after the other. -/
theorem occursIn_texts (needle : String) (texts : List String) :
    occursIn needle (texts.map .text) =
      .ok (texts.any fun t => Text.contains (Text.lower t) needle) := by
  induction texts with
  | nil => rfl
  | cons t ts ih =>
    rw [List.map_cons, occursIn, List.any_cons]
    change (if Text.contains (Text.lower t) needle then _ else _) = _
    cases hfound : Text.contains (Text.lower t) needle <;> simp [ih]

/-- The types of actions are texts. -/
theorem actionTypes_eq_texts (vs : List Value) : ∃ types : List String,
    actionTypes vs = types.map .text ∧ ∀ t, t ∈ types ↔ ∃ action : Fields,
      .object action ∈ vs ∧ ((Fields.get? action "type").getD (.text "")).display = t := by
  induction vs with
  | nil => exact ⟨[], rfl, by simp⟩
  | cons v vs ih =>
    obtain ⟨types, heq, hmem⟩ := ih
    cases v with
    | object action =>
      refine ⟨((Fields.get? action "type").getD (.text "")).display :: types,
        by rw [actionTypes, heq]; rfl, fun t => ?_⟩
      simp only [List.mem_cons, hmem, Value.object.injEq]
      constructor
      · rintro (rfl | ⟨action', hmem', heq'⟩)
        · exact ⟨action, Or.inl rfl, rfl⟩
        · exact ⟨action', Or.inr hmem', heq'⟩
      · rintro ⟨action', rfl | hmem', heq'⟩
        · exact Or.inl heq'.symm
        · exact Or.inr ⟨action', hmem', heq'⟩
    | _ => exact ⟨types, heq, by simp [hmem]⟩

theorem lists_iff {details : Fields} (hdetails : l.details = .object details) {type : Value} :
    l.Lists type ↔ ∃ vs action, Fields.get? details "actions" = some (.list vs) ∧
      .object action ∈ vs ∧ Fields.get? action "type" = some type := by
  constructor
  · rintro ⟨details', vs, action, hdetails', hrest⟩
    rw [hdetails, Value.object.injEq] at hdetails'
    subst hdetails'
    exact ⟨vs, action, hrest⟩
  · rintro ⟨vs, action, hrest⟩
    exact ⟨details, vs, action, hdetails, hrest⟩

/-- The actions of a log that can be searched have texts for types. -/
theorem loggedTypes_of_searchable (hl : l.Typed) (h : l.Searchable) : ∃ types : List String,
    loggedTypes l.details = .ok (types.map .text) ∧
    (∀ t ∈ types, t ≠ "" → l.Mentions t) ∧ ∀ type, l.Lists type → type.display ∈ types := by
  obtain ⟨details, hdetails⟩ := hl.details
  have hnone : (∀ vs, Fields.get? details "actions" ≠ some (.list vs)) →
      (∀ t ∈ ([] : List String), t ≠ "" → l.Mentions t) ∧
        ∀ type, l.Lists type → type.display ∈ ([] : List String) := by
    refine fun hno => ⟨by simp, fun type hlists => ?_⟩
    obtain ⟨vs, action, hactions, -⟩ := (lists_iff hdetails).mp hlists
    exact absurd hactions (hno vs)
  rw [hdetails, loggedTypes]
  cases hactions : Fields.get? details "actions" with
  | none => exact ⟨[], rfl, hnone (by simp [hactions])⟩
  | some v =>
    rcases h details v hdetails hactions with ⟨vs, rfl⟩ | ⟨fs, rfl⟩ | ⟨s, rfl⟩
    · obtain ⟨types, heq, hmem⟩ := actionTypes_eq_texts vs
      refine ⟨types, congrArg Except.ok heq, fun t ht hne => ?_, fun type hlists => ?_⟩
      · obtain ⟨action, haction, hshown⟩ := (hmem t).mp ht
        cases htype : Fields.get? action "type" with
        | none =>
          rw [htype] at hshown
          exact absurd hshown.symm hne
        | some type =>
          rw [htype] at hshown
          subst hshown
          exact .action ((lists_iff hdetails).mpr ⟨vs, action, hactions, haction, htype⟩)
      · obtain ⟨vs', action, hactions', haction, htype⟩ := (lists_iff hdetails).mp hlists
        rw [hactions, Option.some.injEq, Value.list.injEq] at hactions'
        subst hactions'
        exact (hmem _).mpr ⟨action, haction, by rw [htype]; rfl⟩
    · exact ⟨[], rfl, hnone (by simp [hactions])⟩
    · exact ⟨[], rfl, hnone (by simp [hactions])⟩

theorem loggedTypes_of_not_searchable (h : ¬ l.Searchable) :
    ∃ f, loggedTypes l.details = .error f := by
  unfold ExecutionLog.Searchable at h
  push Not at h
  obtain ⟨details, v, hdetails, hactions, hlist, hobject, htext⟩ := h
  rw [hdetails, loggedTypes, hactions]
  cases v with
  | list vs => exact absurd rfl (hlist vs)
  | object fs => exact absurd rfl (hobject fs)
  | text s => exact absurd rfl (htext s)
  | _ => exact ⟨_, rfl⟩

theorem orElse_ofText? (t : Option String) :
    (Value.ofText? t).orElse (.text "") = .text (t.getD "") := by
  cases t with
  | none => rfl
  | some s =>
    unfold Value.orElse
    by_cases hs : s = ""
    · subst hs
      rfl
    · simp [Value.ofText?, Value.truthy, hs]

/-- A text that is not empty stands for itself only, not for a text that is missing. -/
theorem eq_getD_iff {v : Value} {asked : Option String} (hv : v = .ofText? asked)
    {t : String} (hne : t ≠ "") : t = asked.getD "" ↔ v = .text t := by
  rw [hv]
  cases asked with
  | none => simp [Value.ofText?, hne]
  | some s => simp [Value.ofText?, eq_comm]

/-- The values of a log that are searched are texts, and all that it mentions is among them. -/
theorem searched_eq_texts (hl : l.Typed) (h : l.Searchable) :
    ∃ (types : List Value) (texts : List String), loggedTypes l.details = .ok types ∧
    [l.table.orElse (.text ""), l.trigger, l.error.orElse (.text "")] ++ types = texts.map .text ∧
    ∀ t, t ≠ "" → (t ∈ texts ↔ l.Mentions t) := by
  obtain ⟨types, htypes, hmentions, hlists⟩ := loggedTypes_of_searchable hl h
  obtain ⟨trigger, htrigger⟩ := hl.trigger
  obtain ⟨table, htable⟩ := hl.table
  obtain ⟨error, herror⟩ := hl.error
  refine ⟨_, table.getD "" :: trigger :: error.getD "" :: types, htypes, ?_, fun t hne => ?_⟩
  · rw [htable, htrigger, herror, orElse_ofText?, orElse_ofText?]
    rfl
  · rw [List.mem_cons, List.mem_cons, List.mem_cons, eq_getD_iff htable hne,
      eq_getD_iff herror hne]
    constructor
    · rintro (ht | rfl | ht | ht)
      · exact .table ht
      · exact .trigger htrigger
      · exact .error ht
      · exact hmentions t ht hne
    · intro ht
      cases ht with
      | table ht => exact Or.inl ht
      | trigger ht => exact Or.inr (Or.inl (Value.text.inj (ht.symm.trans htrigger)))
      | error ht => exact Or.inr (Or.inr (Or.inl ht))
      | action ht => exact Or.inr (Or.inr (Or.inr (hlists _ ht)))

/-- **A log is found exactly if one of its texts holds what is searched for.** -/
theorem finds_eq (hl : l.Typed) (h : l.Searchable) {s : String} (hs : s ≠ "") :
    ∃ found, finds (.text s) l = .ok found ∧ (found = true ↔
      ∃ t, l.Mentions t ∧ (Text.lower s).toList <:+: (Text.lower t).toList) := by
  obtain ⟨types, texts, htypes, htexts, hmentions⟩ := searched_eq_texts hl h
  have heq : finds (.text s) l = occursIn (Text.lower s) (texts.map .text) := by
    unfold finds
    rw [htypes, ← htexts]
    rfl
  rw [heq, occursIn_texts]
  refine ⟨_, rfl, ?_⟩
  rw [List.any_eq_true]
  refine exists_congr fun t => ?_
  rw [Text.contains_iff]
  -- Nothing is found in an empty text, whatever it stands for.
  refine and_congr_left fun hfound => hmentions t ?_
  rintro rfl
  exact Text.lower_ne_nil hs (List.infix_nil.mp hfound)

end LogFilter

/-! ## What is asked for -/

namespace LogQuery

variable {q : LogQuery} {l : ExecutionLog} {limit offset : Int}

/-- An empty text asks for nothing. -/
theorem refuses_text_iff {asked : Option String} {v : Value} :
    ((Value.ofText? asked).truthy && !v.same (.ofText? asked)) = true ↔
      ¬ ∀ s, asked = some s → s ≠ "" → v = .text s := by
  cases asked with
  | none => simp [Value.ofText?, Value.truthy]
  | some s => simp [Value.ofText?, Value.truthy, ← Value.same_text]

theorem refuses_success_iff (hl : l.Typed) {asked : Option Bool} :
    (!((asked.map Value.bool).getD .null).isNull &&
        !l.success.same ((asked.map .bool).getD .null)) = true ↔
      ¬ ∀ b, asked = some b → l.success = .bool b := by
  obtain ⟨success, hsuccess⟩ := hl.success
  rw [hsuccess]
  cases asked with
  | none => simp [Value.isNull]
  | some b =>
    cases b <;> cases success <;> simp [Value.isNull, Value.same, Value.sameScalar, Value.asInt?]

/-- A log that fits is accepted if what is searched for is found. -/
theorem accepts_of_fits (hl : l.Typed) (h : q.Fits l) : (q.filter limit offset).accepts l =
    if (Value.ofText? q.search).truthy then LogFilter.finds (.ofText? q.search) l else .ok true := by
  have hrule := mt refuses_text_iff.mp (not_not.mpr h.rule)
  have htable := mt refuses_text_iff.mp (not_not.mpr h.table)
  have hsuccess := mt (refuses_success_iff hl).mp (not_not.mpr h.success)
  unfold LogFilter.accepts filter
  dsimp only
  rw [if_neg hrule, if_neg htable, if_neg hsuccess]

theorem accepts_of_not_fits (hl : l.Typed) (h : ¬ q.Fits l) :
    (q.filter limit offset).accepts l = .ok false := by
  unfold LogFilter.accepts filter
  dsimp only
  split_ifs with hrule htable hsuccess <;> try rfl
  all_goals
    rw [refuses_text_iff, not_not] at hrule htable
    rw [refuses_success_iff hl, not_not] at hsuccess
    exact absurd ⟨hrule, htable, hsuccess⟩ h

theorem accepts_of_not_searches (hl : l.Typed) (h : q.Fits l) (hsearch : ¬ q.Searches) :
    (q.filter limit offset).accepts l = .ok true := by
  rw [accepts_of_fits hl h, if_neg]
  cases hq : q.search with
  | none => simp [Value.ofText?, Value.truthy]
  | some s =>
    have hs : s = "" := not_not.mp fun hne => hsearch ⟨s, hq, hne⟩
    simp [Value.ofText?, Value.truthy, hs]

theorem accepts_of_search (hl : l.Typed) (h : q.Fits l) {s : String} (hq : q.search = some s)
    (hs : s ≠ "") : (q.filter limit offset).accepts l = LogFilter.finds (.text s) l := by
  rw [accepts_of_fits hl h, hq, if_pos (by simp [Value.ofText?, Value.truthy, hs])]
  rfl

open Classical in
/-- **A log is accepted exactly if it is asked for**, as long as it can be searched. -/
theorem accepts_eq (hl : l.Typed) (h : q.Searches → q.Fits l → l.Searchable) :
    (q.filter limit offset).accepts l = .ok (decide (q.Fits l ∧ q.Finds l)) := by
  by_cases hfits : q.Fits l
  · by_cases hsearch : q.Searches
    · obtain ⟨s, hq, hs⟩ := hsearch
      obtain ⟨found, hfound, hiff⟩ := LogFilter.finds_eq hl (h ⟨s, hq, hs⟩ hfits) hs
      have hfinds : q.Finds l ↔ found = true := by
        rw [hiff]
        refine ⟨fun hf => hf s hq hs, fun hf s' hq' _ => ?_⟩
        rw [hq, Option.some.injEq] at hq'
        rwa [← hq']
      rw [accepts_of_search hl hfits hq hs, hfound]
      simp [hfits, hfinds]
    · have hfinds : q.Finds l := fun s hq hs => absurd ⟨s, hq, hs⟩ hsearch
      rw [accepts_of_not_searches hl hfits hsearch]
      simp [hfits, hfinds]
  · rw [accepts_of_not_fits hl hfits]
    simp [hfits]

/-- A log that cannot be searched cannot be judged. -/
theorem accepts_of_not_searchable (hl : l.Typed) (hfits : q.Fits l) (hsearch : q.Searches)
    (h : ¬ l.Searchable) (limit offset : Int) : ∃ f, (q.filter limit offset).accepts l = .error f := by
  obtain ⟨s, hq, hs⟩ := hsearch
  obtain ⟨f, hf⟩ := LogFilter.loggedTypes_of_not_searchable h
  refine ⟨f, ?_⟩
  rw [accepts_of_search hl hfits hq hs]
  unfold LogFilter.finds
  rw [hf]
  rfl

end LogQuery

/-! ## The store -/

namespace Logs

variable {logs : Logs} {tenant : Value} {f : LogFilter}

/-- **Logs that can be judged are filtered.** -/
theorem select_eq_filter {p : ExecutionLog → Bool}
    (h : ∀ l ∈ logs, l.tenant.same tenant = true → f.accepts l = .ok (p l)) :
    logs.select tenant f = .ok (logs.filter fun l => l.tenant.same tenant && p l) := by
  induction logs with
  | nil => rfl
  | cons l logs ih =>
    have hrest := ih fun k hk => h k (List.mem_cons_of_mem l hk)
    unfold select
    cases hown : l.tenant.same tenant with
    | false => simp [hown, hrest]
    | true =>
      rw [hrest, h l List.mem_cons_self hown]
      cases hp : p l <;> simp [hown, hp] <;> rfl

/-- Logs that are selected were all judged. -/
theorem accepts_of_select {selected : Logs} (h : logs.select tenant f = .ok selected)
    {l : ExecutionLog} (hl : l ∈ logs) (hown : l.tenant.same tenant = true) :
    ∃ accepted, f.accepts l = .ok accepted := by
  induction logs generalizing selected with
  | nil => exact absurd hl List.not_mem_nil
  | cons k logs ih =>
    unfold select at h
    split at h
    · cases haccepts : f.accepts k with
      | error fault =>
        rw [haccepts] at h
        contradiction
      | ok accepted =>
        cases hrest : select tenant f logs with
        | error fault =>
          rw [haccepts, hrest] at h
          contradiction
        | ok rest =>
          rcases List.mem_cons.mp hl with rfl | hl
          · exact ⟨accepted, haccepts⟩
          · exact ih hrest hl
    · next hother =>
      rcases List.mem_cons.mp hl with rfl | hl
      · exact absurd hown hother
      · exact ih h hl

/-- Whether a log comes before another one, or with it. -/
def newer (k l : ExecutionLog) : Bool := l.executedAt.instant ≤ k.executedAt.instant

theorem newer_trans (j k l : ExecutionLog) (hjk : newer j k = true) (hkl : newer k l = true) :
    newer j l = true := by
  simp only [newer, decide_eq_true_eq] at *
  omega

theorem newer_total (k l : ExecutionLog) : (newer k l || newer l k) = true := by
  simp only [newer, Bool.or_eq_true, decide_eq_true_eq]
  omega

theorem perm_newestFirst (logs : Logs) : logs.newestFirst.Perm logs := List.mergeSort_perm logs _

/-- The newest first. -/
theorem pairwise_newestFirst (logs : Logs) :
    logs.newestFirst.Pairwise fun k l => l.executedAt.instant ≤ k.executedAt.instant :=
  (List.pairwise_mergeSort newer_trans newer_total logs).imp of_decide_eq_true

/-- **Logs of one instant keep their order.** -/
theorem filter_newestFirst (logs : Logs) (t : Int) :
    logs.newestFirst.filter (fun l => l.executedAt.instant = t) =
      logs.filter fun l => l.executedAt.instant = t := by
  have hsame : (logs.filter fun l => l.executedAt.instant = t).Pairwise
      fun k l => newer k l = true := by
    refine List.pairwise_of_forall_mem_list fun k hk l hl => ?_
    have hk := of_decide_eq_true (List.mem_filter.mp hk).2
    have hl := of_decide_eq_true (List.mem_filter.mp hl).2
    simp only [newer, decide_eq_true_eq]
    omega
  have hsub : (logs.filter fun l => l.executedAt.instant = t).Sublist logs.newestFirst :=
    List.sublist_mergeSort newer_trans newer_total hsame List.filter_sublist
  have hfilter := hsub.filter fun l => decide (l.executedAt.instant = t)
  rw [List.filter_filter] at hfilter
  simp only [Bool.and_self] at hfilter
  exact (hfilter.eq_of_length ((perm_newestFirst logs).filter _).length_eq.symm).symm

/-- A page is a part of the row of logs, from the newest to the oldest. -/
theorem page_eq (size offset : Nat) (hsize : f.limit = size) (hoffset : f.offset = offset)
    {selected : Logs} (h : logs.select tenant f = .ok selected) :
    logs.page tenant f = .ok ((selected.newestFirst.drop offset).take size) := by
  have hstart : placeIn selected.newestFirst.length f.offset = offset := by
    unfold placeIn
    rw [hoffset, if_neg (by omega)]
    rfl
  have hstop : placeIn selected.newestFirst.length (f.offset + f.limit) = offset + size := by
    unfold placeIn
    rw [hoffset, hsize, if_neg (by omega)]
    rfl
  unfold page between
  rw [h]
  change Except.ok _ = _
  rw [hstart, hstop, List.drop_take, Nat.add_sub_cancel_left]

open Classical in
/-- The logs of a tenant that are asked for. -/
noncomputable def asked (tenant : String) (q : LogQuery) (logs : Logs) : Logs :=
  logs.filter fun l => l.tenant = .text tenant ∧ q.Fits l ∧ q.Finds l

theorem mem_asked {tenant : String} {q : LogQuery} {l : ExecutionLog} :
    l ∈ logs.asked tenant q ↔ l ∈ logs ∧ l.tenant = .text tenant ∧ q.Fits l ∧ q.Finds l := by
  classical
  unfold asked
  rw [List.mem_filter, decide_eq_true_iff]

/-- Logs are selected exactly if they are asked for, as long as they can be searched. -/
theorem select_eq_asked {tenant : String} {q : LogQuery} (hl : ∀ l ∈ logs, l.Typed)
    (h : q.Searches → ∀ l ∈ logs, l.tenant = .text tenant → q.Fits l → l.Searchable)
    (limit offset : Int) :
    logs.select (.text tenant) (q.filter limit offset) = .ok (logs.asked tenant q) := by
  rw [select_eq_filter fun l hmem hown => LogQuery.accepts_eq (hl l hmem) fun hsearch =>
    h hsearch l hmem (Value.same_text.mp hown)]
  refine congrArg Except.ok (List.filter_congr fun l _ => ?_)
  rw [Bool.eq_iff_iff]
  simp only [Bool.and_eq_true, Value.same_text, decide_eq_true_eq]

end Logs

/-! ## Reading page by page -/

/-- What one gets who reads page by page from a place on, until a page is empty. -/
inductive Logs.Read (tenant : Value) (q : LogQuery) (size : Nat) (logs : Logs) :
    Nat → List Logs → Prop
  | done {offset : Nat} (h : logs.page tenant (q.filter size offset) = .ok []) :
      Read tenant q size logs offset []
  | more {offset : Nat} {page : Logs} {pages : List Logs}
      (h : logs.page tenant (q.filter size offset) = .ok page) (hpage : page ≠ [])
      (hrest : Read tenant q size logs (offset + size) pages) :
      Read tenant q size logs offset (page :: pages)

/-- Pages that hold these logs, each of them once and the newest first; logs of one instant come in
their order. All pages but the last one are full. -/
structure Logs.Paged (size : Nat) (logs : Logs) (pages : List Logs) : Prop where
  each : pages.flatten.Perm logs
  newest : pages.flatten.Pairwise fun k l => l.executedAt.instant ≤ k.executedAt.instant
  ties : ∀ t, pages.flatten.filter (fun l => l.executedAt.instant = t) =
    logs.filter fun l => l.executedAt.instant = t
  full : ∀ page ∈ pages.dropLast, page.length = size

namespace Logs

variable {logs selected : Logs} {tenant : Value} {q : LogQuery} {size offset : Nat}

/-- There is one way to read the pages. -/
theorem Read.unique {pages pages' : List Logs} (h : Read tenant q size logs offset pages)
    (h' : Read tenant q size logs offset pages') : pages = pages' := by
  induction h generalizing pages' with
  | done h =>
    cases h' with
    | done => rfl
    | more h' hpage => exact absurd (Except.ok.inj (h.symm.trans h')).symm hpage
  | more h hpage _ ih =>
    cases h' with
    | done h' => exact absurd (Except.ok.inj (h.symm.trans h')) hpage
    | more h' _ hrest' =>
      rw [Except.ok.inj (h.symm.trans h'), ih hrest']

/-- Where a page can be read, the logs can be judged. -/
theorem Read.select {pages : List Logs} (h : Read tenant q size logs offset pages) :
    ∃ selected, logs.select tenant (q.filter size offset) = .ok selected := by
  obtain ⟨first, hfirst⟩ : ∃ first, logs.page tenant (q.filter size offset) = .ok first := by
    cases h with
    | done h => exact ⟨_, h⟩
    | more h => exact ⟨_, h⟩
  unfold page at hfirst
  cases hselect : logs.select tenant (q.filter size offset) with
  | error fault =>
    rw [hselect] at hfirst
    contradiction
  | ok selected => exact ⟨selected, rfl⟩

/-- The pages behind a place hold the row of logs behind this place. -/
theorem exists_read (hsize : 0 < size)
    (h : ∀ limit offset, logs.select tenant (q.filter limit offset) = .ok selected)
    (offset : Nat) : ∃ pages, Read tenant q size logs offset pages ∧
      pages.flatten = selected.newestFirst.drop offset ∧
      ∀ page ∈ pages.dropLast, page.length = size := by
  have hpage := page_eq size offset rfl rfl (h size offset)
  by_cases hend : selected.newestFirst.length ≤ offset
  · rw [List.drop_eq_nil_of_le hend, List.take_nil] at hpage
    exact ⟨[], .done hpage, (List.drop_eq_nil_of_le hend).symm, by simp⟩
  · obtain ⟨pages, hread, hflat, hfull⟩ := exists_read hsize h (offset + size)
    have hne : (selected.newestFirst.drop offset).take size ≠ [] := by
      rw [← List.length_pos_iff_ne_nil, List.length_take, List.length_drop]
      omega
    refine ⟨_, .more hpage hne hread, ?_, ?_⟩
    · rw [List.flatten_cons, hflat, ← List.drop_drop]
      exact List.take_append_drop _ _
    · cases hread with
      | done => simp
      | more _ hmore _ =>
        -- A page behind this one holds something, so this one is full.
        have hpos := List.length_pos_iff_ne_nil.mpr hmore
        have hlength := congrArg List.length hflat
        rw [List.flatten_cons, List.length_append, List.length_drop] at hlength
        rw [List.dropLast_cons_of_ne_nil (List.cons_ne_nil _ _)]
        intro k hk
        rcases List.mem_cons.mp hk with rfl | hk
        · rw [List.length_take, List.length_drop]
          omega
        · exact hfull k hk
termination_by selected.newestFirst.length - offset

/-- **All pages can be read, and they hold the logs that are asked for, exactly if each log that fits
can be searched** or no text is searched for. -/
theorem read_iff {tenant : String} (hl : ∀ l ∈ logs, l.Typed) (q : LogQuery) (hsize : 0 < size) :
    (∃ pages, Read (.text tenant) q size logs 0 pages ∧ Paged size (logs.asked tenant q) pages) ↔
    (q.Searches → ∀ l ∈ logs, l.tenant = .text tenant → q.Fits l → l.Searchable) := by
  constructor
  · rintro ⟨pages, hread, -⟩ hsearch l hmem hown hfits
    by_contra hl'
    obtain ⟨f, hf⟩ := LogQuery.accepts_of_not_searchable (hl l hmem) hfits hsearch hl' size (0 : Nat)
    obtain ⟨selected, hselect⟩ := hread.select
    obtain ⟨accepted, haccepts⟩ := accepts_of_select hselect hmem (Value.same_text.mpr hown)
    rw [hf] at haccepts
    contradiction
  · intro hsearchable
    obtain ⟨pages, hread, hflat, hfull⟩ := exists_read hsize (select_eq_asked hl hsearchable) 0
    rw [List.drop_zero] at hflat
    refine ⟨pages, hread, ?_, ?_, fun t => ?_, hfull⟩ <;> rw [hflat]
    · exact perm_newestFirst _
    · exact pairwise_newestFirst _
    · exact filter_newestFirst _ t

end Logs

/-- A log of an update, with what its details tell of actions. -/
def ExecutionLog.noted (tenant : String) (actions : Value) (executedAt : DateTime) :
    ExecutionLog where
  id := .text "l1"
  ruleId := .text "r1"
  tenant := .text tenant
  trigger := .text "record_updated"
  table := .null
  recordId := .null
  before := .null
  after := .null
  details := .object [("actions", actions)]
  success := .bool true
  error := .null
  milliseconds := .double .zero
  executedAt := executedAt

theorem ExecutionLog.typed_noted (tenant : String) (actions : Value) (executedAt : DateTime) :
    (noted tenant actions executedAt).Typed :=
  ⟨⟨_, rfl⟩, ⟨none, rfl⟩, ⟨none, rfl⟩, ⟨_, rfl⟩, ⟨_, rfl⟩, ⟨_, rfl⟩⟩

theorem ExecutionLog.searchable_noted {tenant : String} {actions : Value} {executedAt : DateTime}
    (h : (∃ vs, actions = .list vs) ∨ (∃ fs, actions = .object fs) ∨ ∃ s, actions = .text s) :
    (noted tenant actions executedAt).Searchable := by
  intro details v hdetails hactions
  cases hdetails
  cases hactions
  exact h

/-- A search for updates. -/
def LogQuery.updated : LogQuery := { search := some "UPDATED" }

theorem LogQuery.fits_updated (l : ExecutionLog) : updated.Fits l where
  rule s heq := absurd heq (Option.some_ne_none s).symm
  table s heq := absurd heq (Option.some_ne_none s).symm
  success b heq := absurd heq (Option.some_ne_none b).symm

theorem LogQuery.finds_updated (tenant : String) (actions : Value) (executedAt : DateTime) :
    updated.Finds (.noted tenant actions executedAt) := by
  intro s hs _
  cases hs
  exact ⟨"record_updated", .trigger rfl, Text.contains_iff.mp (by decide +kernel)⟩

/-- Two logs of one instant in different zones, a newer one, and one of another tenant that cannot be
searched. -/
def Logs.noted : Logs :=
  [.noted "t1" (.list []) ⟨⟨2024, 1, 1⟩, 0, none⟩,
    .noted "t1" (.text "none") ⟨⟨2024, 1, 1⟩, microsPerHour, some microsPerHour⟩,
    .noted "t1" (.list []) ⟨⟨2024, 1, 2⟩, 0, some 0⟩,
    .noted "t2" .null ⟨⟨2024, 1, 2⟩, 0, some 0⟩]

theorem Logs.typed_noted : ∀ l ∈ Logs.noted, l.Typed := by
  intro l hl
  simp only [Logs.noted, List.mem_cons, List.not_mem_nil, or_false] at hl
  rcases hl with rfl | rfl | rfl | rfl <;> exact ExecutionLog.typed_noted _ _ _

theorem Logs.searchable_noted {l : ExecutionLog} (hl : l ∈ Logs.noted)
    (hown : l.tenant = .text "t1") : l.Searchable := by
  simp only [Logs.noted, List.mem_cons, List.not_mem_nil, or_false] at hl
  rcases hl with rfl | rfl | rfl | rfl
  · exact ExecutionLog.searchable_noted (.inl ⟨_, rfl⟩)
  · exact ExecutionLog.searchable_noted (.inr (.inr ⟨_, rfl⟩))
  · exact ExecutionLog.searchable_noted (.inl ⟨_, rfl⟩)
  · exact absurd (Value.text.inj hown) (by decide)

theorem Logs.read_iff_noted : (∀ l ∈ Logs.noted, l.Typed) ∧ 0 < 2 ∧
    ∃ pages, Read (.text "t1") .updated 2 .noted 0 pages ∧
      Paged 2 (Logs.noted.asked "t1" .updated) pages :=
  ⟨Logs.typed_noted, by decide, (Logs.read_iff Logs.typed_noted .updated (by decide)).mpr
    fun _ _ hl hown _ => Logs.searchable_noted hl hown⟩

/-- A log whose details have null in the place of actions cannot be searched, and no page can be read. -/
theorem Logs.unread_null :
    let l : ExecutionLog := .noted "t1" .null default
    l.Typed ∧ LogQuery.updated.Fits l ∧ LogQuery.updated.Finds l ∧
    Logs.page (.text "t1") (LogQuery.updated.filter 1 0) [l] =
      .error (.misuse (.notIterable "NoneType")) ∧
    ¬ ∃ pages, Logs.Read (.text "t1") .updated 1 [l] 0 pages := by
  intro l
  have hpage : Logs.page (.text "t1") (LogQuery.updated.filter 1 0) [l] =
      .error (.misuse (.notIterable "NoneType")) := by rfl
  refine ⟨ExecutionLog.typed_noted _ _ _, LogQuery.fits_updated l,
    LogQuery.finds_updated _ _ _, hpage, ?_⟩
  rintro ⟨pages, hread⟩
  cases hread with
  | done h =>
    have := hpage.symm.trans h
    contradiction
  | more h =>
    have := hpage.symm.trans h
    contradiction

end ChangeRules
