import ChangeRules.Time.DateTime
import Mathlib.Tactic.IntervalCases

/-!
# The calendar and the time line

Days are counted without gaps, from day 1 to the last day of the year 9999, and so a time is the same
instant in UTC exactly as long as that instant is on the calendar.

* `Date.daysBeforeMonth`, `Date.yearLength`: the parts that the count of a day is made of.
* **`Date.ordinal_inj`**: different days have different counts.
* **`Date.next?_eq_some_iff`**, **`Date.previous?_eq_some_iff`**: a neighbour is the day with the
  neighbouring count, if there is one.
* `DateTime.IsPossible`, `DateTime.IsUtc`: the times that there are, and those of UTC among them.
* **`DateTime.toUtc?_eq_some_iff`**, **`DateTime.toUtc?_eq_none_iff`**: a time in UTC is the one with the
  same instant, and there is none exactly for an instant that is off the calendar.
-/

namespace ChangeRules

namespace Date

/-! ## The count of a day -/

/-- The days of a year before a month. -/
def daysBeforeMonth (year month : Nat) : Nat :=
  ((monthLengths year).take (month - 1)).foldl Nat.add 0

/-- The days of a year. -/
def yearLength (year : Nat) : Nat := if isLeap year then 366 else 365

theorem ordinal_eq (d : Date) :
    d.ordinal = daysBeforeYear d.year + daysBeforeMonth d.year d.month + d.day := rfl

theorem isValid_iff {d : Date} : d.isValid = true ↔
    (1 ≤ d.year ∧ d.year ≤ 9999) ∧ (1 ≤ d.month ∧ d.month ≤ 12) ∧
      1 ≤ d.day ∧ d.day ≤ daysInMonth d.year d.month := by
  simp only [isValid, Bool.and_eq_true, decide_eq_true_eq, and_assoc]

theorem daysBeforeMonth_succ (year month : Nat) (hlow : 1 ≤ month) (hhigh : month ≤ 12) :
    daysBeforeMonth year (month + 1) = daysBeforeMonth year month + daysInMonth year month := by
  unfold daysBeforeMonth daysInMonth monthLengths
  cases isLeap year <;> interval_cases month <;> rfl

theorem daysBeforeMonth_one (year : Nat) : daysBeforeMonth year 1 = 0 := rfl

theorem daysBeforeMonth_thirteen (year : Nat) : daysBeforeMonth year 13 = yearLength year := by
  unfold daysBeforeMonth yearLength monthLengths
  cases isLeap year <;> rfl

theorem daysInMonth_pos (year month : Nat) (hlow : 1 ≤ month) (hhigh : month ≤ 12) :
    1 ≤ daysInMonth year month := by
  unfold daysInMonth monthLengths
  cases isLeap year <;> interval_cases month <;> decide

theorem isLeap_iff {year : Nat} :
    isLeap year = true ↔ 4 ∣ year ∧ (¬ 100 ∣ year ∨ 400 ∣ year) := by
  simp [isLeap, Nat.dvd_iff_mod_eq_zero]

theorem daysBeforeYear_succ {year : Nat} (h : 1 ≤ year) :
    daysBeforeYear (year + 1) = daysBeforeYear year + yearLength year := by
  obtain ⟨y, rfl⟩ : ∃ y, year = y + 1 := ⟨year - 1, by omega⟩
  have hyears : 400 ∣ y + 1 → 100 ∣ y + 1 := Nat.dvd_trans (by decide)
  have hcenturies : 100 ∣ y + 1 → 4 ∣ y + 1 := Nat.dvd_trans (by decide)
  have hle : y / 100 ≤ y / 4 := Nat.div_le_div_left (by decide) (by decide)
  unfold daysBeforeYear yearLength
  simp only [Nat.add_sub_cancel, isLeap_iff, Nat.succ_div]
  by_cases h4 : 4 ∣ y + 1
  · by_cases h100 : 100 ∣ y + 1
    · by_cases h400 : 400 ∣ y + 1
      · simp only [h4, h100, h400, if_true, not_true, or_true, and_true]
        omega
      · simp only [h4, h100, h400, if_true, if_false, not_true, or_false, and_false]
        omega
    · have h400 : ¬ 400 ∣ y + 1 := fun h => h100 (hyears h)
      simp only [h4, h100, h400, if_true, if_false, not_false_iff, true_or, and_true]
      omega
  · have h100 : ¬ 100 ∣ y + 1 := fun h => h4 (hcenturies h)
    have h400 : ¬ 400 ∣ y + 1 := fun h => h100 (hyears h)
    simp only [h4, h100, h400, if_false, false_and]
    omega

/-- A month begins behind every month before it. -/
theorem daysBeforeMonth_add_le (year : Nat) {month later : Nat} (hlow : 1 ≤ month)
    (hlt : month < later) (hhigh : later ≤ 13) :
    daysBeforeMonth year month + daysInMonth year month ≤ daysBeforeMonth year later := by
  induction later, hlt using Nat.le_induction with
  | base => rw [daysBeforeMonth_succ year month hlow (by omega)]
  | succ later hle ih =>
    rw [daysBeforeMonth_succ year later (by omega) (by omega)]
    have := ih (by omega)
    omega

/-- A year begins behind every year before it. -/
theorem daysBeforeYear_add_le {year later : Nat} (hlow : 1 ≤ year) (hlt : year < later) :
    daysBeforeYear year + yearLength year ≤ daysBeforeYear later := by
  induction later, hlt using Nat.le_induction with
  | base => rw [daysBeforeYear_succ hlow]
  | succ later hle ih =>
    rw [daysBeforeYear_succ (by omega)]
    omega

section

variable {d e : Date}

/-- A day is one of those of its year. -/
theorem day_le_yearLength (hd : d.isValid = true) :
    daysBeforeMonth d.year d.month + d.day ≤ yearLength d.year := by
  obtain ⟨-, ⟨hlow, hhigh⟩, -, hday⟩ := isValid_iff.mp hd
  have hle := daysBeforeMonth_add_le d.year hlow (Nat.lt_succ_of_le hhigh) (Nat.le_refl 13)
  rw [daysBeforeMonth_thirteen] at hle
  omega

theorem ordinal_pos (hd : d.isValid = true) : 1 ≤ d.ordinal := by
  obtain ⟨-, -, hday, -⟩ := isValid_iff.mp hd
  rw [ordinal_eq]
  omega

theorem ordinal_le_lastOrdinal (hd : d.isValid = true) : d.ordinal ≤ lastOrdinal := by
  obtain ⟨⟨hlow, hhigh⟩, -⟩ := isValid_iff.mp hd
  have hyear := daysBeforeYear_add_le hlow (Nat.lt_succ_of_le hhigh)
  have hlast : daysBeforeYear (Nat.succ 9999) = lastOrdinal := by decide
  have hday := day_le_yearLength hd
  rw [ordinal_eq]
  omega

/-- Days of a later year are counted later. -/
theorem ordinal_lt_of_year_lt (hd : d.isValid = true) (he : e.isValid = true)
    (hlt : d.year < e.year) : d.ordinal < e.ordinal := by
  obtain ⟨⟨hlow, -⟩, -⟩ := isValid_iff.mp hd
  obtain ⟨-, -, hday, -⟩ := isValid_iff.mp he
  have hyears := daysBeforeYear_add_le hlow hlt
  have hle := day_le_yearLength hd
  rw [ordinal_eq, ordinal_eq]
  omega

/-- Days of a later month of the same year are counted later. -/
theorem ordinal_lt_of_month_lt (hd : d.isValid = true) (he : e.isValid = true)
    (hyear : d.year = e.year) (hlt : d.month < e.month) : d.ordinal < e.ordinal := by
  obtain ⟨-, ⟨hlow, -⟩, -, hle⟩ := isValid_iff.mp hd
  obtain ⟨-, ⟨-, hhigh⟩, hday, -⟩ := isValid_iff.mp he
  have hmonths := daysBeforeMonth_add_le d.year hlow hlt (by omega)
  rw [ordinal_eq, ordinal_eq, ← hyear]
  omega

/-- **Different days have different counts.** -/
theorem ordinal_inj (hd : d.isValid = true) (he : e.isValid = true) :
    d.ordinal = e.ordinal ↔ d = e := by
  refine ⟨fun h => ?_, congrArg ordinal⟩
  have hyear : d.year = e.year := by
    rcases Nat.lt_trichotomy d.year e.year with hlt | heq | hlt
    · exact absurd h (Nat.ne_of_lt (ordinal_lt_of_year_lt hd he hlt))
    · exact heq
    · exact absurd h (Nat.ne_of_gt (ordinal_lt_of_year_lt he hd hlt))
  have hmonth : d.month = e.month := by
    rcases Nat.lt_trichotomy d.month e.month with hlt | heq | hlt
    · exact absurd h (Nat.ne_of_lt (ordinal_lt_of_month_lt hd he hyear hlt))
    · exact heq
    · exact absurd h (Nat.ne_of_gt (ordinal_lt_of_month_lt he hd hyear.symm hlt))
  have hday : d.day = e.day := by
    rw [ordinal_eq, ordinal_eq, hyear, hmonth] at h
    omega
  cases d
  cases e
  simp_all

/-! ## Neighbours -/

/-- The day behind a day has the next count. -/
theorem next?_sound (hd : d.isValid = true) (h : d.next? = some e) :
    e.isValid = true ∧ e.ordinal = d.ordinal + 1 := by
  obtain ⟨⟨hyear, hyear'⟩, ⟨hmonth, hmonth'⟩, hday, hday'⟩ := isValid_iff.mp hd
  have hstep := daysBeforeMonth_succ d.year d.month hmonth hmonth'
  unfold next? at h
  split at h
  · next hlt =>
    obtain rfl := Option.some.inj h
    exact ⟨isValid_iff.mpr ⟨⟨hyear, hyear'⟩, ⟨hmonth, hmonth'⟩, by dsimp only; omega, hlt⟩, rfl⟩
  · next hlast =>
    split at h
    · next hlt =>
      obtain rfl := Option.some.inj h
      have hpos := daysInMonth_pos d.year (d.month + 1) (by omega) hlt
      refine ⟨isValid_iff.mpr ⟨⟨hyear, hyear'⟩, ⟨by dsimp only; omega, hlt⟩, Nat.le_refl 1, hpos⟩, ?_⟩
      rw [ordinal_eq, ordinal_eq]
      dsimp only
      omega
    · next hdecember =>
      obtain hmonth : d.month = 12 := by omega
      split at h
      · next hlt =>
        obtain rfl := Option.some.inj h
        have hpos := daysInMonth_pos (d.year + 1) 1 (by omega) (by omega)
        refine ⟨isValid_iff.mpr ⟨⟨by dsimp only; omega, hlt⟩, ⟨Nat.le_refl 1, by dsimp only; omega⟩,
          Nat.le_refl 1, hpos⟩, ?_⟩
        have hnew := daysBeforeYear_succ hyear
        rw [hmonth] at hstep hlast hday'
        rw [daysBeforeMonth_thirteen] at hstep
        rw [ordinal_eq, ordinal_eq, hmonth]
        dsimp only
        rw [daysBeforeMonth_one]
        omega
      · exact absurd h (by simp)

/-- The last day of the calendar alone has no day behind it. -/
theorem ordinal_of_next?_eq_none (hd : d.isValid = true) (h : d.next? = none) :
    d.ordinal = lastOrdinal := by
  obtain ⟨⟨-, hyear⟩, ⟨-, hmonth⟩, -, hday⟩ := isValid_iff.mp hd
  unfold next? at h
  split at h
  · exact absurd h (by simp)
  · next hlast =>
    split at h
    · exact absurd h (by simp)
    · next hdecember =>
      split at h
      · exact absurd h (by simp)
      · next hend =>
        obtain ⟨year, month, day⟩ := d
        obtain rfl : year = 9999 := by dsimp only at *; omega
        obtain rfl : month = 12 := by dsimp only at *; omega
        obtain rfl : day = 31 := Nat.le_antisymm hday (Nat.le_of_not_lt hlast)
        decide

/-- The day before a day has the count before. -/
theorem previous?_sound (hd : d.isValid = true) (h : d.previous? = some e) :
    e.isValid = true ∧ e.ordinal + 1 = d.ordinal := by
  obtain ⟨⟨hyear, hyear'⟩, ⟨hmonth, hmonth'⟩, hday, hday'⟩ := isValid_iff.mp hd
  unfold previous? at h
  split at h
  · next hlt =>
    obtain rfl := Option.some.inj h
    refine ⟨isValid_iff.mpr ⟨⟨hyear, hyear'⟩, ⟨hmonth, hmonth'⟩, by dsimp only; omega,
      by dsimp only; omega⟩, ?_⟩
    rw [ordinal_eq, ordinal_eq]
    dsimp only
    omega
  · next hfirst =>
    split at h
    · next hlt =>
      obtain rfl := Option.some.inj h
      have hpos := daysInMonth_pos d.year (d.month - 1) (by omega) (by omega)
      have hstep := daysBeforeMonth_succ d.year (d.month - 1) (by omega) (by omega)
      rw [Nat.sub_add_cancel hmonth] at hstep
      refine ⟨isValid_iff.mpr ⟨⟨hyear, hyear'⟩, ⟨by dsimp only; omega, by dsimp only; omega⟩, hpos,
        Nat.le_refl _⟩, ?_⟩
      rw [ordinal_eq, ordinal_eq]
      dsimp only
      omega
    · next hjanuary =>
      obtain hmonth : d.month = 1 := by omega
      split at h
      · next hlt =>
        obtain rfl := Option.some.inj h
        refine ⟨isValid_iff.mpr ⟨⟨by dsimp only; omega, by dsimp only; omega⟩,
          ⟨by dsimp only; omega, Nat.le_refl 12⟩, by dsimp only; omega, Nat.le_refl 31⟩, ?_⟩
        have hnew : daysBeforeYear (d.year - 1 + 1) = _ := daysBeforeYear_succ (by omega)
        have hstep := daysBeforeMonth_succ (d.year - 1) 12 (by decide) (by decide)
        rw [Nat.sub_add_cancel hyear] at hnew
        rw [daysBeforeMonth_thirteen] at hstep
        have hdecember : daysInMonth (d.year - 1) 12 = 31 := rfl
        rw [ordinal_eq, ordinal_eq, hmonth, daysBeforeMonth_one]
        dsimp only
        omega
      · exact absurd h (by simp)

/-- The first day of the calendar alone has no day before it. -/
theorem ordinal_of_previous?_eq_none (hd : d.isValid = true) (h : d.previous? = none) :
    d.ordinal = 1 := by
  obtain ⟨⟨hyear, -⟩, ⟨hmonth, -⟩, hday, -⟩ := isValid_iff.mp hd
  unfold previous? at h
  split at h
  · exact absurd h (by simp)
  · split at h
    · exact absurd h (by simp)
    · split at h
      · exact absurd h (by simp)
      · obtain ⟨year, month, day⟩ := d
        obtain rfl : year = 1 := by dsimp only at *; omega
        obtain rfl : month = 1 := by dsimp only at *; omega
        obtain rfl : day = 1 := by dsimp only at *; omega
        rfl

/-- **The day behind a day is the one with the next count.** -/
theorem next?_eq_some_iff (hd : d.isValid = true) :
    d.next? = some e ↔ e.isValid = true ∧ e.ordinal = d.ordinal + 1 := by
  refine ⟨next?_sound hd, fun ⟨he, hcount⟩ => ?_⟩
  cases hnext : d.next? with
  | none =>
    have hlast := ordinal_of_next?_eq_none hd hnext
    have hle := ordinal_le_lastOrdinal he
    omega
  | some f =>
    obtain ⟨hf, hcount'⟩ := next?_sound hd hnext
    rw [(ordinal_inj hf he).mp (hcount'.trans hcount.symm)]

/-- **The day before a day is the one with the count before.** -/
theorem previous?_eq_some_iff (hd : d.isValid = true) :
    d.previous? = some e ↔ e.isValid = true ∧ e.ordinal + 1 = d.ordinal := by
  refine ⟨previous?_sound hd, fun ⟨he, hcount⟩ => ?_⟩
  cases hprevious : d.previous? with
  | none =>
    have hfirst := ordinal_of_previous?_eq_none hd hprevious
    have hpos := ordinal_pos he
    omega
  | some f =>
    obtain ⟨hf, hcount'⟩ := previous?_sound hd hprevious
    have hsame : f.ordinal = e.ordinal := by omega
    rw [(ordinal_inj hf he).mp hsame]

/-- Every count is that of a day. -/
theorem exists_ordinal {n : Nat} (hlow : 1 ≤ n) (hhigh : n ≤ lastOrdinal) :
    ∃ d : Date, d.isValid = true ∧ d.ordinal = n := by
  induction n, hlow using Nat.le_induction with
  | base => exact ⟨⟨1, 1, 1⟩, rfl, rfl⟩
  | succ n hlow ih =>
    obtain ⟨d, hd, hcount⟩ := ih (by omega)
    cases hnext : d.next? with
    | none =>
      have hlast := ordinal_of_next?_eq_none hd hnext
      omega
    | some e =>
      obtain ⟨he, hcount'⟩ := next?_sound hd hnext
      exact ⟨e, he, by omega⟩

end

end Date

/-! ## Instants -/

namespace DateTime

theorem microsPerDay_eq : microsPerDay = 86400000000 := rfl

/-- A time on the calendar, in a zone that is less than a day from UTC or in none. -/
structure IsPossible (t : DateTime) : Prop where
  valid : t.isValid = true
  offset : (t.offset.getD 0).natAbs < microsPerDay

/-- A time on the calendar, in UTC. -/
structure IsUtc (t : DateTime) : Prop where
  valid : t.isValid = true
  offset : t.offset = some 0

variable {t u : DateTime}

theorem isValid_iff : t.isValid = true ↔ t.date.isValid = true ∧ t.micros < microsPerDay := by
  simp only [isValid, Bool.and_eq_true, decide_eq_true_eq]

theorem IsUtc.isPossible (h : u.IsUtc) : u.IsPossible where
  valid := h.valid
  offset := by
    rw [h.offset]
    decide

/-- A day and a time of it in UTC, as a time. -/
theorem isUtc_mk {d : Date} {micros : Nat} :
    (⟨d, micros, some 0⟩ : DateTime).IsUtc ↔ d.isValid = true ∧ micros < microsPerDay :=
  ⟨fun h => isValid_iff.mp h.valid, fun h => ⟨isValid_iff.mpr h, rfl⟩⟩

theorem IsUtc.eq_mk (h : u.IsUtc) : u = ⟨u.date, u.micros, some 0⟩ := by
  rw [← h.offset]

theorem isPossible_midnight {d : Date} (h : d.isValid = true) : (midnight d).IsPossible where
  valid := isValid_iff.mpr ⟨h, (by decide : 0 < microsPerDay)⟩
  offset := (by decide : 0 < microsPerDay)

theorem instant_eq (t : DateTime) :
    t.instant = (t.date.ordinal * microsPerDay + t.micros : Nat) - t.offset.getD 0 := rfl

theorem IsUtc.instant_eq (h : u.IsUtc) :
    u.instant = (u.date.ordinal * microsPerDay + u.micros : Nat) := by
  rw [DateTime.instant_eq, h.offset]
  simp

/-- Microseconds of a day and the count of the day are read off an instant. -/
theorem IsUtc.instant_eq_iff (h : u.IsUtc) {ordinal : Int} {micros : Nat}
    (hmicros : micros < microsPerDay) :
    u.instant = ordinal * microsPerDay + micros ↔ u.date.ordinal = ordinal ∧ u.micros = micros := by
  have hle := (isValid_iff.mp h.valid).2
  rw [h.instant_eq]
  rw [microsPerDay_eq] at *
  omega

/-- A day that is found by its count, with a time of it, is a time that is found by its instant. -/
theorem map_mk_eq_some_iff {found : Option Date} {ordinal : Int} {micros : Nat}
    (hmicros : micros < microsPerDay)
    (hfound : ∀ e, found = some e ↔ e.isValid = true ∧ e.ordinal = ordinal) :
    found.map (fun d => (⟨d, micros, some 0⟩ : DateTime)) = some u ↔
      u.IsUtc ∧ u.instant = ordinal * microsPerDay + micros := by
  rw [Option.map_eq_some_iff]
  constructor
  · rintro ⟨e, he, rfl⟩
    obtain ⟨hvalid, hcount⟩ := (hfound e).mp he
    have hutc := isUtc_mk.mpr ⟨hvalid, hmicros⟩
    exact ⟨hutc, (hutc.instant_eq_iff hmicros).mpr ⟨hcount, rfl⟩⟩
  · rintro ⟨hutc, hinstant⟩
    obtain ⟨hcount, hsame⟩ := (hutc.instant_eq_iff hmicros).mp hinstant
    refine ⟨u.date, (hfound u.date).mpr ⟨(isValid_iff.mp hutc.valid).1, hcount⟩, ?_⟩
    rw [← hsame]
    exact hutc.eq_mk.symm

/-- **A time in UTC is the one with the same instant.** -/
theorem toUtc?_eq_some_iff (ht : t.IsPossible) :
    t.toUtc? = some u ↔ u.IsUtc ∧ u.instant = t.instant := by
  obtain ⟨hdate, hmicros⟩ := isValid_iff.mp ht.valid
  have hoffset := ht.offset
  have hinstant := instant_eq t
  rw [microsPerDay_eq] at *
  unfold toUtc?
  dsimp only
  rw [microsPerDay_eq]
  generalize hshift : (t.micros : Int) - t.offset.getD 0 = shifted
  -- The time is moved by less than a day: its day stays the same one or becomes a neighbour.
  by_cases hbefore : shifted < 0
  · have hfound : ∀ e, t.date.previous? = some e ↔
        e.isValid = true ∧ (e.ordinal : Int) = t.date.ordinal - 1 := fun e => by
      rw [Date.previous?_eq_some_iff hdate]
      exact and_congr_right fun _ => by omega
    rw [if_pos hbefore, map_mk_eq_some_iff (by rw [microsPerDay_eq]; omega) hfound, microsPerDay_eq]
    exact and_congr_right fun _ => by omega
  rw [if_neg hbefore]
  by_cases hbehind : ((86400000000 : Nat) : Int) ≤ shifted
  · have hfound : ∀ e, t.date.next? = some e ↔
        e.isValid = true ∧ (e.ordinal : Int) = t.date.ordinal + 1 := fun e => by
      rw [Date.next?_eq_some_iff hdate]
      exact and_congr_right fun _ => by omega
    rw [if_pos hbehind, map_mk_eq_some_iff (by rw [microsPerDay_eq]; omega) hfound, microsPerDay_eq]
    exact and_congr_right fun _ => by omega
  · have hfound : ∀ e, some t.date = some e ↔
        e.isValid = true ∧ (e.ordinal : Int) = t.date.ordinal := fun e => by
      constructor
      · intro h
        obtain rfl := Option.some.inj h
        exact ⟨hdate, rfl⟩
      · rintro ⟨he, hcount⟩
        rw [(Date.ordinal_inj he hdate).mp (by omega)]
    rw [if_neg hbehind, ← Option.map_some (f := fun d => (⟨d, shifted.toNat, some 0⟩ : DateTime)),
      map_mk_eq_some_iff (by rw [microsPerDay_eq]; omega) hfound, microsPerDay_eq]
    exact and_congr_right fun _ => by omega

/-- An instant between the first and the last midnight of the calendar. -/
def OnCalendar (instant : Int) : Prop :=
  microsPerDay ≤ instant ∧ instant < (Date.lastOrdinal + 1) * microsPerDay

/-- The times in UTC have exactly the instants of the calendar. -/
theorem onCalendar_iff {n : Int} : OnCalendar n ↔ ∃ u : DateTime, u.IsUtc ∧ u.instant = n := by
  have hlast : Date.lastOrdinal = 3652059 := rfl
  unfold OnCalendar
  rw [hlast, microsPerDay_eq]
  constructor
  · rintro ⟨hlow, hhigh⟩
    obtain ⟨d, hd, hcount⟩ := Date.exists_ordinal (n := (n / 86400000000).toNat) (by omega)
      (by rw [hlast]; omega)
    have hmicros : (n % 86400000000).toNat < microsPerDay := by
      rw [microsPerDay_eq]
      omega
    have hutc : (⟨d, (n % 86400000000).toNat, some 0⟩ : DateTime).IsUtc := isUtc_mk.mpr ⟨hd, hmicros⟩
    refine ⟨_, hutc, ?_⟩
    rw [hutc.instant_eq, microsPerDay_eq]
    dsimp only
    omega
  · rintro ⟨u, hutc, rfl⟩
    obtain ⟨hdate, hmicros⟩ := isValid_iff.mp hutc.valid
    have hlow := Date.ordinal_pos hdate
    have hhigh := Date.ordinal_le_lastOrdinal hdate
    rw [hutc.instant_eq]
    rw [microsPerDay_eq] at *
    omega

/-- **A time is lost in UTC exactly if its instant is off the calendar.** -/
theorem toUtc?_eq_none_iff (ht : t.IsPossible) : t.toUtc? = none ↔ ¬ OnCalendar t.instant := by
  rw [onCalendar_iff, Option.eq_none_iff_forall_ne_some, not_exists]
  exact forall_congr' fun u => not_congr (toUtc?_eq_some_iff ht)

end DateTime

end ChangeRules
