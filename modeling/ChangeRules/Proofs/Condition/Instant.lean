import ChangeRules.Condition.Reading
import ChangeRules.Proofs.Time.Notation

/-!
# Instants that values denote

Conditions on dates and times see one instant behind every way of writing it. A value that denotes a
time is turned into that time in UTC unless the instant is off the calendar, and what comes out is
settled: written down again in any of the usual ways it is read as the same time.

* `Value.reading?`: the time that a value denotes, before it is turned into UTC.
* `DateTime.Spelling`: the texts that a time in UTC can be written as.
* **`Value.toInstant?_of_spelling`**: every one of them is read as that time.
* **`Value.canonical_of_possible`**: what a value denotes as an instant, and that it is settled.
-/

namespace ChangeRules

namespace DateTime

/-- The texts that a time in UTC can be written as: the standard form, in which a letter may stand for
the distance from UTC, with any blanks around it. -/
inductive Spelling (u : DateTime) : String → Prop
  | standard : Spelling u u.text
  | zulu {body letter : String} (h : u.text = body ++ "+00:00") (hletter : letter = "Z" ∨ letter = "z") :
    Spelling u (body ++ letter)
  | padded {before s behind : String} (h : Spelling u s)
      (hbefore : ∀ c ∈ before.toList, Text.isBlank c = true)
      (hbehind : ∀ c ∈ behind.toList, Text.isBlank c = true) : Spelling u (before ++ s ++ behind)

variable {u : DateTime}

theorem IsUtc.exists_body (h : u.IsUtc) : ∃ body, u.text = body ++ "+00:00" := by
  refine ⟨String.ofList (u.date.textChars ++ 'T' :: clockChars u.micros true), ?_⟩
  have hchars : u.textChars 'T' =
      (u.date.textChars ++ 'T' :: clockChars u.micros true) ++ "+00:00".toList := by
    rw [h.textChars_eq, List.append_assoc, List.cons_append]
    rfl
  rw [text, hchars, String.ofList_append, String.ofList_toList]

end DateTime

namespace Value

/-- The time that a value denotes, in its zone or in none. -/
def reading? : Value → Option DateTime
  | .time t => some t
  | .date d => some (.midnight d)
  | .text s => DateTime.ofIso? (String.ofList (spellZulu (Text.trimChars s.toList)))
  | _ => none

/-- Days and times that a value can be are those of the calendar. -/
def IsPossible : Value → Prop
  | .time t => t.IsPossible
  | .date d => d.isValid = true
  | _ => True

variable {v : Value} {t u : DateTime}

theorem toInstant?_eq (v : Value) : v.toInstant? = v.reading?.bind DateTime.toUtc? := by
  cases v <;> rfl

theorem isPossible_of_reading? (h : v.IsPossible) (ht : v.reading? = some t) : t.IsPossible := by
  cases v with
  | time t' =>
    obtain rfl := Option.some.inj ht
    exact h
  | date d =>
    obtain rfl := Option.some.inj ht
    exact DateTime.isPossible_midnight h
  | text s => exact DateTime.isPossible_of_ofIso? ht
  | _ => exact absurd ht (by simp [reading?])

/-! ## Spellings -/

theorem spellZulu_concat (body : List Char) (c : Char) : spellZulu (body ++ [c]) =
    if c = 'Z' ∨ c = 'z' then body ++ "+00:00".toList else body ++ [c] := by
  unfold spellZulu
  rw [List.reverse_concat]
  dsimp only
  rw [List.reverse_reverse]
  simp only [Bool.or_eq_true, decide_eq_true_eq]

/-- A text that ends in the distance from UTC ends in no letter. -/
theorem spellZulu_offset (body : List Char) :
    spellZulu (body ++ "+00:00".toList) = body ++ "+00:00".toList := by
  have hlast : body ++ "+00:00".toList = (body ++ "+00:0".toList) ++ ['0'] := by
    rw [List.append_assoc]
    rfl
  rw [hlast, spellZulu_concat, if_neg (by decide)]

/-- What is read of a text: the blanks around it are left out, and the letter at its end is replaced. -/
def readable (s : String) : String := String.ofList (spellZulu (Text.trimChars s.toList))

theorem readable_of_spelling (hu : u.IsUtc) {s : String} (h : u.Spelling s) : readable s = u.text := by
  obtain ⟨front, hfront⟩ := hu.exists_body
  have hvisible : ∀ c ∈ u.text.toList, Text.isVisible c = true := fun c hc => by
    rw [DateTime.text, String.toList_ofList] at hc
    exact hu.isVisible hc
  have htrim : ∀ {s : String}, (∀ c ∈ s.toList, Text.isVisible c = true) →
      Text.trimChars s.toList = s.toList := fun hs =>
    Text.trimWhile_eq_self fun c hc => Text.not_isBlank_of_isVisible (hs c hc)
  induction h with
  | standard =>
    rw [readable, htrim hvisible, hfront, String.toList_append, spellZulu_offset,
      ← String.toList_append, String.ofList_toList]
  | @zulu body letter h hletter =>
    have hchars : u.text.toList = body.toList ++ "+00:00".toList := by
      rw [h, String.toList_append]
    obtain ⟨c, hc, rfl⟩ : ∃ c, (c = 'Z' ∨ c = 'z') ∧ letter = String.singleton c := by
      rcases hletter with rfl | rfl
      · exact ⟨'Z', .inl rfl, rfl⟩
      · exact ⟨'z', .inr rfl, rfl⟩
    have hvisible' : ∀ d ∈ (body ++ String.singleton c).toList, Text.isVisible d = true := by
      rw [String.toList_append, String.toList_singleton]
      refine List.forall_mem_append.mpr ⟨fun d hd => hvisible d ?_, ?_⟩
      · rw [hchars]
        exact List.mem_append_left _ hd
      · refine List.forall_mem_singleton.mpr ?_
        rcases hc with rfl | rfl <;> rfl
    rw [readable, htrim hvisible', String.toList_append, String.toList_singleton, spellZulu_concat,
      if_pos hc, ← hchars, String.ofList_toList]
  | padded h hbefore hbehind ih =>
    rw [readable, String.toList_append, String.toList_append, Text.trimChars,
      Text.trimWhile_append _ hbefore hbehind]
    exact ih

/-- A time in UTC is itself in UTC. -/
theorem toUtc?_of_isUtc (hu : u.IsUtc) : u.toUtc? = some u :=
  (DateTime.toUtc?_eq_some_iff hu.isPossible).mpr ⟨hu, rfl⟩

/-- **Every spelling of a time in UTC is read as that time.** -/
theorem toInstant?_of_spelling (hu : u.IsUtc) {s : String} (h : u.Spelling s) :
    (Value.text s).toInstant? = some u := by
  rw [toInstant?_eq]
  show (DateTime.ofIso? (readable s)).bind DateTime.toUtc? = some u
  rw [readable_of_spelling hu h, DateTime.ofIso?_text hu, Option.bind_some, toUtc?_of_isUtc hu]

/-! ## Instants -/

/-- What a value denotes as an instant, and that this is settled. -/
structure Canonical (v : Value) : Prop where
  /-- The instant of the time that the value denotes, as a time in UTC. -/
  denoted : ∀ u, v.toInstant? = some u ↔ ∃ t, v.reading? = some t ∧ u.IsUtc ∧ u.instant = t.instant
  /-- Nothing is denoted only for want of a time, or of a place for it on the calendar. -/
  missing : v.toInstant? = none ↔ ∀ t, v.reading? = some t → ¬ DateTime.OnCalendar t.instant
  /-- The standard form ends in the distance from UTC. -/
  zone : ∀ u, v.toInstant? = some u → ∃ body, u.text = body ++ "+00:00"
  settled : ∀ u, v.toInstant? = some u → (Value.time u).toInstant? = some u
  spelled : ∀ u, v.toInstant? = some u → ∀ s, u.Spelling s → (Value.text s).toInstant? = some u

/-- **Instants are canonical.** Every value denotes one time in UTC or none, and none exactly if it
reads as no time or as one that is off the calendar in UTC. Whatever time it denotes is denoted by that
time itself and by all its spellings. -/
theorem canonical_of_possible (h : v.IsPossible) : v.Canonical := by
  have hdenoted : ∀ u, v.toInstant? = some u ↔
      ∃ t, v.reading? = some t ∧ u.IsUtc ∧ u.instant = t.instant := fun u => by
    rw [toInstant?_eq, Option.bind_eq_some_iff]
    refine exists_congr fun t => and_congr_right fun ht => ?_
    exact DateTime.toUtc?_eq_some_iff (isPossible_of_reading? h ht)
  have hutc : ∀ u, v.toInstant? = some u → u.IsUtc := fun u hu => by
    obtain ⟨t, -, hutc, -⟩ := (hdenoted u).mp hu
    exact hutc
  refine ⟨hdenoted, ?_, fun u hu => (hutc u hu).exists_body, fun u hu => toUtc?_of_isUtc (hutc u hu),
    fun u hu s hs => toInstant?_of_spelling (hutc u hu) hs⟩
  rw [toInstant?_eq, Option.bind_eq_none_iff]
  refine forall_congr' fun t => forall_congr' fun ht => ?_
  exact DateTime.toUtc?_eq_none_iff (isPossible_of_reading? h ht)

/-- The last microsecond of the calendar, five hours behind UTC. -/
theorem canonical_of_possible_lastMicrosecond :
    let v := Value.time ⟨⟨9999, 12, 31⟩, 68399999999, some (-18000000000)⟩
    let u : DateTime := ⟨⟨9999, 12, 31⟩, 86399999999, some 0⟩
    v.IsPossible ∧ v.Canonical ∧ v.toInstant? = some u ∧
      (Value.text "\t9999-12-31T23:59:59.999999z ").toInstant? = some u := by
  intro v u
  have hpossible : v.IsPossible := ⟨by decide, by decide⟩
  have hinstant : v.toInstant? = some u := by decide
  have htext : u.text = "9999-12-31T23:59:59.999999" ++ "+00:00" := by decide +kernel
  have htab : ∀ c ∈ "\t".toList, Text.isBlank c = true := List.forall_mem_singleton.mpr rfl
  have hspace : ∀ c ∈ " ".toList, Text.isBlank c = true := List.forall_mem_singleton.mpr rfl
  have hspelling : u.Spelling ("\t" ++ ("9999-12-31T23:59:59.999999" ++ "z") ++ " ") :=
    .padded (.zulu htext (.inr rfl)) htab hspace
  have hcanonical := canonical_of_possible hpossible
  exact ⟨hpossible, hcanonical, hinstant, hcanonical.spelled u hinstant _ hspelling⟩

end Value

end ChangeRules
