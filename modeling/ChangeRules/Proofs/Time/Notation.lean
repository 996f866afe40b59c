import ChangeRules.Proofs.Number.Reading
import ChangeRules.Proofs.Text.Utf
import ChangeRules.Proofs.Time.Calendar
import ChangeRules.Time.Iso
import Mathlib.Data.Nat.Digits.Defs

/-!
# Times that are written and read

A time in UTC that is written in the standard form is read as that time again, down to the
microsecond. And whatever else a text denotes is a time that there is: a day of the calendar, a time of
the day, and a zone that is less than a day from UTC.

* `Iso.bytesOf_of_isAscii`: a text of ASCII is read as it stands.
* `Iso.digits?_padded`: digits of a fixed width are read as the number that was written.
* **`DateTime.ofIso?_text`**: a time in UTC that was written is read.
* **`DateTime.isPossible_of_ofIso?`**: a time that was read is possible.
-/

namespace ChangeRules

open Text

/-! ## Bytes -/

namespace Iso

theorem byte_of_isAscii {c : Char} (h : isAscii c = true) :
    (String.utf8EncodeChar c).map (fun b => Char.ofNat b.toNat) = [c] := by
  have hlt : c.toNat < 128 := of_decide_eq_true h
  have hsize : c.utf8Size = 1 := by
    have hle : c.val ≤ 127 := UInt32.le_iff_toNat_le.mpr (Nat.le_of_lt_succ hlt)
    simp [Char.utf8Size, hle]
  have hbyte : c.val.toUInt8.toNat = c.toNat := by
    rw [UInt32.toNat_toUInt8]
    exact Nat.mod_eq_of_lt (Nat.lt_trans hlt (by decide))
  rw [String.utf8EncodeChar_eq_singleton hsize, List.map_singleton, hbyte, Char.ofNat_toNat]

theorem isAscii_of_isVisible {c : Char} (h : isVisible c = true) : isAscii c = true := by
  simp only [isVisible, Bool.and_eq_true, decide_eq_true_eq] at h
  exact decide_eq_true (by omega)

/-- A text of ASCII is read as it stands. -/
theorem bytesOf_of_isAscii {cs : List Char} (h : ∀ c ∈ cs, isAscii c = true) :
    bytesOf (String.ofList cs) = cs := by
  rw [bytesOf, toUTF8_toList]
  induction cs with
  | nil => rfl
  | cons c cs ih =>
    obtain ⟨hc, hcs⟩ := List.forall_mem_cons.mp h
    rw [List.flatMap_cons, List.map_append, byte_of_isAscii hc, ih hcs]
    rfl

/-! ## Digits of a fixed width -/

section

variable {width n : Nat}

theorem isDigit_of_mem_padded {c : Char} (h : c ∈ Date.padded width n) : c.isDigit = true := by
  rcases List.mem_append.mp h with hzero | hdigit
  · rw [List.eq_of_mem_replicate hzero]
    rfl
  · exact Nat.isDigit_of_mem_toDigits (by decide) (by decide) hdigit

theorem length_padded (hwidth : 0 < width) (h : n < 10 ^ width) :
    (Date.padded width n).length = width := by
  have hle := Nat.toDigits_length 10 n width hwidth h
  rw [Date.padded, List.length_append, List.length_replicate]
  omega

theorem digitsValue_replicate (k : Nat) : digitsValue (List.replicate k '0') = 0 := by
  induction k with
  | zero => rfl
  | succ k ih =>
    rw [List.replicate_succ', digitsValue_append, ih]
    rfl

theorem digitsValue_padded (width n : Nat) : digitsValue (Date.padded width n) = n := by
  rw [Date.padded, digitsValue_append, digitsValue_replicate, digitsValue_toDigits, Nat.zero_mul,
    Nat.zero_add]

/-- Digits of a fixed width are read as the number that was written. -/
theorem digits?_padded (hwidth : 0 < width) (h : n < 10 ^ width) (rest : List Char) :
    digits? width (Date.padded width n ++ rest) = some (n, rest) := by
  have hlength := length_padded hwidth h
  have hdigits : (Date.padded width n).all isAsciiDigit = true :=
    List.all_eq_true.mpr fun c hc => isAsciiDigit_of_isDigit (isDigit_of_mem_padded hc)
  unfold digits?
  dsimp only
  rw [List.take_left' hlength, List.drop_left' hlength, digitsValue_padded]
  exact if_pos ⟨hlength, hdigits⟩

theorem isDigit_front_padded (hwidth : 0 < width) (h : n < 10 ^ width) (rest : List Char) :
    (front (Date.padded width n ++ rest)).isDigit = true := by
  cases hpadded : Date.padded width n with
  | nil =>
    have hlength := length_padded hwidth h
    rw [hpadded] at hlength
    exact absurd hlength (Nat.ne_of_lt hwidth)
  | cons c cs => exact isDigit_of_mem_padded (hpadded ▸ List.mem_cons_self)

end

/-! ## Days -/

section

variable {d : Date}

theorem le_of_mem_monthLengths {year length : Nat} (h : length ∈ Date.monthLengths year) :
    length ≤ 31 := by
  have hall : ∀ leap : Bool, ∀ l ∈ [31, if leap then 29 else 28, 31, 30, 31, 30, 31, 31, 30, 31, 30, 31],
      l ≤ 31 := by decide
  exact hall (Date.isLeap year) length h

theorem daysInMonth_le (year month : Nat) : Date.daysInMonth year month ≤ 31 := by
  unfold Date.daysInMonth
  split
  · exact Nat.zero_le 31
  · cases hlength : (Date.monthLengths year)[month - 1]? with
    | none => exact Nat.zero_le 31
    | some length => exact le_of_mem_monthLengths (List.mem_of_getElem? hlength)

/-- The parts of a day, each in its digits. -/
theorem textChars_append (d : Date) (rest : List Char) : d.textChars ++ rest =
    Date.padded 4 d.year ++ '-' :: (Date.padded 2 d.month ++ '-' :: (Date.padded 2 d.day ++ rest)) := by
  simp only [Date.textChars, List.append_assoc, List.cons_append]

theorem widths_of_isValid (hd : d.isValid = true) :
    d.year < 10 ^ 4 ∧ d.month < 10 ^ 2 ∧ d.day < 10 ^ 2 := by
  obtain ⟨hyear, hmonth, hday⟩ := Date.isValid_iff.mp hd
  have hle := daysInMonth_le d.year d.month
  omega

theorem length_textChars (hd : d.isValid = true) : d.textChars.length = 10 := by
  obtain ⟨hyear, hmonth, hday⟩ := widths_of_isValid hd
  simp only [Date.textChars, List.length_append, List.length_cons,
    length_padded (Nat.succ_pos _) hyear, length_padded (Nat.succ_pos _) hmonth,
    length_padded (Nat.succ_pos _) hday]

/-- A day that was written takes ten characters, whatever stands behind it. -/
theorem dateLength?_textChars (hd : d.isValid = true) (rest : List Char) :
    dateLength? (d.textChars ++ rest) = some 10 := by
  obtain ⟨hyear, hmonth, -⟩ := widths_of_isValid hd
  have hlength : (d.textChars ++ rest).length = 10 + rest.length := by
    rw [List.length_append, length_textChars hd]
  have hhyphen : (d.textChars ++ rest)[4]?.getD '\x00' = '-' := by
    rw [textChars_append, List.getElem?_append_right (length_padded (by decide) hyear).le,
      length_padded (by decide) hyear]
    rfl
  have hmonths : ((d.textChars ++ rest)[5]?.getD '\x00').isDigit = true := by
    rw [textChars_append, List.getElem?_append_right (by rw [length_padded (by decide) hyear]; decide),
      length_padded (by decide) hyear]
    have hdigit := isDigit_front_padded (by decide) hmonth ('-' :: (Date.padded 2 d.day ++ rest))
    rwa [front, List.headD_eq_head?_getD, List.head?_eq_getElem?] at hdigit
  have hweek : (d.textChars ++ rest)[5]?.getD '\x00' ≠ 'W' := fun h => by
    rw [h] at hmonths
    exact absurd hmonths (by decide)
  unfold dateLength?
  dsimp only
  rw [hlength, if_neg (by omega), if_neg (by omega), if_pos hhyphen, if_neg hweek]

/-- A day that was written is read. -/
theorem date?_textChars (hd : d.isValid = true) (rest : List Char) :
    date? 10 (d.textChars ++ rest) = some d := by
  obtain ⟨hyear, hmonth, hday⟩ := widths_of_isValid hd
  have hdigit := isDigit_front_padded (by decide) hmonth ('-' :: (Date.padded 2 d.day ++ rest))
  have hweek : front (Date.padded 2 d.month ++ '-' :: (Date.padded 2 d.day ++ rest)) ≠ 'W' := fun h => by
    rw [h] at hdigit
    exact absurd hdigit (by decide)
  have hof : Date.of? d.year d.month d.day = some d := if_pos hd
  unfold date?
  rw [textChars_append, digits?_padded (by decide) hyear]
  simp only [Option.bind_eq_bind, Option.bind_some, front, List.headD_cons, beq_self_eq_true, if_true,
    List.tail_cons] at hweek ⊢
  rw [if_neg hweek, digits?_padded (by decide) hmonth]
  simp only [Option.bind_some, skipHyphen?, front, List.headD_cons, Bool.not_true, if_true,
    List.tail_cons, Bool.false_eq_true, if_false]
  rw [digits?_padded (by decide) hday]
  exact hof

end

/-! ## Times of day -/

section

variable {value before index : Nat} {parts : List Nat} {colons : Bool} {rest : List Char}

/-- A part of a clock with a colon behind it, which the first part may announce. -/
theorem parts?_colon (hvalue : value < 10 ^ 2) (hbefore : 3 < before)
    (hcolons : parts = [] ∨ colons = true) :
    parts? colons parts (index + 1) before (Date.padded 2 value ++ ':' :: rest) =
      parts? true (parts ++ [value]) index (before - 3) rest := by
  have hannounced : (if (parts ++ [value]).length = 1 then true else colons) = true := by
    rcases hcolons with rfl | rfl
    · rfl
    · split <;> rfl
  rw [parts?, digits?_padded (by decide) hvalue]
  simp only [Option.bind_eq_bind, Option.bind_some, front, List.headD_cons, beq_self_eq_true,
    hannounced, Bool.and_self, if_true, List.tail_cons]
  rw [if_neg (by omega)]

/-- The last part of a clock. -/
theorem parts?_last (hvalue : value < 10 ^ 2) :
    parts? colons parts (index + 1) 2 (Date.padded 2 value ++ rest) =
      some (parts ++ [value], 0, front rest != '\x00') := by
  rw [parts?, digits?_padded (by decide) hvalue]
  simp only [Option.bind_eq_bind, Option.bind_some]
  rw [if_pos (by decide)]

/-- The seconds with the parts of a second behind them. -/
theorem parts?_fraction {micro : Nat} (hvalue : value < 10 ^ 2) (hmicro : micro < 10 ^ 6)
    (hrest : isAsciiDigit (front rest) = false) :
    parts? colons parts (index + 1) 9 (Date.padded 2 value ++ '.' :: (Date.padded 6 micro ++ rest)) =
      some (parts ++ [value], micro, front rest != '\x00') := by
  have hbehind : rest.dropWhile isAsciiDigit = rest := by
    cases rest with
    | nil => rfl
    | cons c cs => exact List.dropWhile_cons_of_neg (by simpa [front] using hrest)
  have hfraction : fraction? 6 (Date.padded 6 micro ++ rest) = some (micro, front rest != '\x00') := by
    have hscale : micro * Nat.pow 10 (6 - 6) = micro := Nat.mul_one micro
    unfold fraction?
    simp only [Nat.min_self, digits?_padded (by decide : 0 < 6) hmicro, Option.bind_eq_bind,
      Option.bind_some, hbehind, hscale]
  have hpoint : ('.' == ':') = false := rfl
  rw [parts?, digits?_padded (by decide) hvalue]
  simp only [Option.bind_eq_bind, Option.bind_some, front, List.headD_cons, List.tail_cons, hpoint,
    Bool.and_false, beq_self_eq_true, Bool.true_or, Bool.false_eq_true, if_false, if_true] at hfraction ⊢
  rw [if_neg (by decide), hfraction]
  rfl

end

/-- The clock that a time of day is written as. -/
def Clock.ofMicros (micros : Nat) : Clock where
  hour := micros / microsPerHour
  minute := micros / microsPerMinute % 60
  second := micros / microsPerSecond % 60
  micro := micros % microsPerSecond

/-- The parts of a clock fit into their digits. -/
theorem Clock.ofMicros_lt {micros : Nat} (h : micros < microsPerDay) :
    (ofMicros micros).hour < 24 ∧ (ofMicros micros).minute < 60 ∧ (ofMicros micros).second < 60 ∧
      (ofMicros micros).micro < 10 ^ 6 := by
  simp only [ofMicros, microsPerDay, microsPerHour, microsPerMinute, microsPerSecond] at *
  omega

/-- A time of day is the sum of its parts. -/
theorem timeOfDay?_ofMicros {micros : Nat} (h : micros < microsPerDay) :
    DateTime.timeOfDay? (Clock.ofMicros micros).hour (Clock.ofMicros micros).minute
      (Clock.ofMicros micros).second (Clock.ofMicros micros).micro = some micros := by
  obtain ⟨hhour, hminute, hsecond, -⟩ := Clock.ofMicros_lt h
  rw [DateTime.timeOfDay?, if_pos ⟨hhour, hminute, hsecond⟩]
  refine congrArg some ?_
  simp only [Clock.ofMicros, microsPerHour, microsPerMinute, microsPerSecond]
  omega

section

variable {micros : Nat}

/-- A time of day in digits, with the parts of a second only when there are any. -/
theorem clockChars_eq (micros : Nat) : DateTime.clockChars micros true =
    Date.padded 2 (Clock.ofMicros micros).hour ++ ':' ::
      (Date.padded 2 (Clock.ofMicros micros).minute ++ ':' ::
        (Date.padded 2 (Clock.ofMicros micros).second ++
          if (Clock.ofMicros micros).micro = 0 then []
          else '.' :: Date.padded 6 (Clock.ofMicros micros).micro)) := by
  have hfraction : (if micros % microsPerSecond != 0 then
      '.' :: Date.padded 6 (micros % microsPerSecond) else []) =
      if micros % microsPerSecond = 0 then [] else '.' :: Date.padded 6 (micros % microsPerSecond) := by
    by_cases hzero : micros % microsPerSecond = 0
    · rw [if_pos hzero, hzero]
      rfl
    · rw [if_neg hzero, if_pos (bne_iff_ne.mpr hzero)]
  unfold DateTime.clockChars
  dsimp only
  rw [Bool.true_or, Bool.true_or, if_pos rfl, hfraction]
  simp only [List.append_assoc, List.cons_append]
  rfl

/-- A time of day that was written is read, with no digit behind it. -/
theorem clock?_clockChars (h : micros < microsPerDay) {rest : List Char}
    (hrest : isAsciiDigit (front rest) = false) :
    clock? (DateTime.clockChars micros true).length (DateTime.clockChars micros true ++ rest) =
      some (Clock.ofMicros micros, front rest != '\x00') := by
  obtain ⟨hhour, hminute, hsecond, hmicro⟩ := Clock.ofMicros_lt h
  have hhour : (Clock.ofMicros micros).hour < 10 ^ 2 := by omega
  have hminute : (Clock.ofMicros micros).minute < 10 ^ 2 := by omega
  have hsecond : (Clock.ofMicros micros).second < 10 ^ 2 := by omega
  have hwidths := And.intro (length_padded (by decide) hhour)
    (And.intro (length_padded (by decide) hminute) (length_padded (by decide) hsecond))
  unfold clock?
  rw [clockChars_eq]
  simp only [List.append_assoc, List.cons_append, List.length_append, List.length_cons, hwidths]
  by_cases hzero : (Clock.ofMicros micros).micro = 0
  · rw [if_pos hzero, List.length_nil, List.nil_append, parts?_colon hhour (by decide) (.inl rfl),
      parts?_colon hminute (by decide) (.inr rfl), parts?_last hsecond]
    have hclock : (⟨(Clock.ofMicros micros).hour, (Clock.ofMicros micros).minute,
        (Clock.ofMicros micros).second, 0⟩ : Clock) = Clock.ofMicros micros := by
      rw [← hzero]
    exact congrArg (fun clock => some (clock, front rest != '\x00')) hclock
  · rw [if_neg hzero, List.length_cons, length_padded (by decide) hmicro, List.cons_append,
      parts?_colon hhour (by decide) (.inl rfl), parts?_colon hminute (by decide) (.inr rfl),
      parts?_fraction hsecond hmicro hrest]
    rfl

theorem mem_clockChars {c : Char} (h : c ∈ DateTime.clockChars micros true) :
    c.isDigit = true ∨ c = ':' ∨ c = '.' := by
  rw [clockChars_eq] at h
  simp only [List.mem_append, List.mem_cons] at h
  rcases h with h | rfl | h | rfl | h | h
  · exact .inl (isDigit_of_mem_padded h)
  · exact .inr (.inl rfl)
  · exact .inl (isDigit_of_mem_padded h)
  · exact .inr (.inl rfl)
  · exact .inl (isDigit_of_mem_padded h)
  · split at h
    · exact absurd h List.not_mem_nil
    · rcases List.mem_cons.mp h with rfl | h
      · exact .inr (.inr rfl)
      · exact .inl (isDigit_of_mem_padded h)

/-- No zone starts within a time of day. -/
theorem not_startsZone_of_mem_clockChars {c : Char} (h : c ∈ DateTime.clockChars micros true) :
    startsZone c = false := by
  rcases mem_clockChars h with hdigit | rfl | rfl
  · simp only [startsZone, Bool.or_eq_false_iff, beq_eq_false_iff_ne]
    refine ⟨⟨?_, ?_⟩, ?_⟩ <;> rintro rfl <;> exact absurd hdigit (by decide)
  · rfl
  · rfl

/-- A time of day in UTC that was written is read. -/
theorem time?_clockChars (h : micros < microsPerDay) :
    time? (DateTime.clockChars micros true ++ DateTime.offsetChars (some 0)) =
      some (Clock.ofMicros micros, some 0) := by
  have hzone : ∀ c ∈ DateTime.clockChars micros true, (!startsZone c) = true := fun c hc => by
    rw [not_startsZone_of_mem_clockChars hc]
    rfl
  have hclock : (DateTime.clockChars micros true ++ DateTime.offsetChars (some 0)).takeWhile
      (!startsZone ·) = DateTime.clockChars micros true := by
    rw [List.takeWhile_append_of_pos hzone]
    exact List.append_nil _
  have hlength : 1 ≤ (DateTime.clockChars micros true).length := by
    rw [clockChars_eq]
    simp only [List.length_append, List.length_cons]
    omega
  have hread := clock?_clockChars h
    (by decide : isAsciiDigit (front (DateTime.offsetChars (some 0))) = false)
  unfold time?
  simp only [hclock, Nat.max_eq_left hlength, hread, Option.bind_eq_bind, Option.bind_some,
    List.drop_left]
  rfl

end

end Iso

/-! ## What is read -/

namespace Iso

section

variable {n value before micro : Nat} {cs rest : List Char} {more : Bool}

theorem digits?_lt (h : digits? n cs = some (value, rest)) : value < 10 ^ n := by
  unfold digits? at h
  dsimp only at h
  split at h
  · next hdigits =>
    have hvalue : digitsValue (cs.take n) = value := congrArg Prod.fst (Option.some.inj h)
    have hlt : digitsValue (cs.take n) < 10 ^ (cs.take n).length := digitsValue_lt (cs.take n)
    rwa [hdigits.1, hvalue] at hlt
  · exact absurd h (by simp)

/-- The parts of a second are less than a second. -/
theorem fraction?_lt (h : fraction? before cs = some (micro, more)) : micro < microsPerSecond := by
  unfold fraction? at h
  obtain ⟨⟨value, rest⟩, hdigits, h⟩ := Option.bind_eq_some_iff.mp h
  have hmicro : value * Nat.pow 10 (6 - Nat.min before 6) = micro :=
    congrArg Prod.fst (Option.some.inj h)
  have hpos : 0 < Nat.pow 10 (6 - Nat.min before 6) := Nat.pow_pos (by decide)
  calc micro = value * 10 ^ (6 - Nat.min before 6) := hmicro.symm
    _ < 10 ^ Nat.min before 6 * 10 ^ (6 - Nat.min before 6) :=
      Nat.mul_lt_mul_of_pos_right (digits?_lt hdigits) hpos
    _ = microsPerSecond := by
      rw [← Nat.pow_add, Nat.add_sub_of_le (Nat.min_le_right before 6)]
      rfl

/-- So they are behind any parts of a clock. -/
theorem parts?_lt {colons : Bool} {parts parts' : List Nat} {index : Nat}
    (h : parts? colons parts index before cs = some (parts', micro, more)) :
    micro < microsPerSecond := by
  induction index generalizing colons parts before cs with
  | zero =>
    obtain ⟨⟨micro', more'⟩, hfraction, h⟩ := Option.bind_eq_some_iff.mp h
    obtain ⟨-, rfl, -⟩ : parts = parts' ∧ micro' = micro ∧ more' = more := by simpa using h
    exact fraction?_lt hfraction
  | succ index ih =>
    rw [parts?] at h
    obtain ⟨⟨value, rest⟩, -, h⟩ := Option.bind_eq_some_iff.mp h
    dsimp only at h
    generalize (if (parts ++ [value]).length = 1 then front rest == ':' else colons) = announced at h
    split at h
    · obtain ⟨-, rfl, -⟩ : _ ∧ 0 = micro ∧ _ := by simpa using h
      decide
    · split at h
      · exact ih h
      · split at h
        · obtain ⟨⟨micro', more'⟩, hfraction, h⟩ := Option.bind_eq_some_iff.mp h
          obtain ⟨-, rfl, -⟩ : _ ∧ micro' = micro ∧ _ := by simpa using h
          exact fraction?_lt hfraction
        · split at h
          · exact ih h
          · exact absurd h (by simp)

theorem clock?_lt {length : Nat} {c : Clock} (h : clock? length cs = some (c, more)) :
    c.micro < microsPerSecond := by
  obtain ⟨⟨parts, micro, more'⟩, hparts, h⟩ := Option.bind_eq_some_iff.mp h
  obtain ⟨rfl, -⟩ : _ = c ∧ _ := by simpa using h
  exact parts?_lt hparts

/-- A zone is less than a day from UTC. -/
theorem offset?_lt {o : Int} (h : offset? cs = some o) : o.natAbs < microsPerDay := by
  unfold offset? at h
  split at h
  · split at h
    · obtain rfl := Option.some.inj h
      decide
    · exact absurd h (by simp)
  · next sign rest _ =>
    obtain ⟨⟨c, more⟩, -, h⟩ := Option.bind_eq_some_iff.mp h
    dsimp only at h
    split at h
    · exact absurd h (by simp)
    · split at h
      · obtain rfl := Option.some.inj h
        decide
      · split at h
        · next hlt =>
          obtain rfl := Option.some.inj h
          split
          · rwa [Int.natAbs_neg, Int.natAbs_natCast]
          · rwa [Int.natAbs_natCast]
        · exact absurd h (by simp)
  · exact absurd h (by simp)

theorem time?_lt {c : Clock} {o : Option Int} (h : time? cs = some (c, o)) :
    c.micro < microsPerSecond ∧ (o.getD 0).natAbs < microsPerDay := by
  obtain ⟨⟨c', more⟩, hclock, h⟩ := Option.bind_eq_some_iff.mp h
  dsimp only at h
  split at h
  · split at h
    · exact absurd h (by simp)
    · obtain ⟨rfl, rfl⟩ : c' = c ∧ none = o := by simpa using h
      exact ⟨clock?_lt hclock, by decide⟩
  · obtain ⟨offset, hoffset, h⟩ := Option.map_eq_some_iff.mp h
    obtain ⟨rfl, rfl⟩ : c' = c ∧ some offset = o := by simpa using h
    exact ⟨clock?_lt hclock, offset?_lt hoffset⟩

theorem isValid_of_ofWeek? {year week day : Nat} {d : Date} (h : Date.ofWeek? year week day = some d) :
    d.isValid = true := by
  unfold Date.ofWeek? at h
  dsimp only at h
  split at h
  · split at h
    · next hvalid =>
      obtain rfl := Option.some.inj h
      exact hvalid
    · exact absurd h (by simp)
  · exact absurd h (by simp)

/-- A day that was read is on the calendar. -/
theorem isValid_of_date? {length : Nat} {d : Date} (h : date? length cs = some d) :
    d.isValid = true := by
  obtain ⟨⟨year, rest⟩, -, h⟩ := Option.bind_eq_some_iff.mp h
  dsimp only at h
  generalize (if (front rest == '-') = true then rest.tail else rest) = behind at h
  by_cases hweek : front behind = 'W'
  · rw [if_pos hweek] at h
    obtain ⟨⟨week, rest⟩, -, h⟩ := Option.bind_eq_some_iff.mp h
    split at h
    · obtain ⟨rest, -, h⟩ := Option.bind_eq_some_iff.mp h
      obtain ⟨⟨day, rest⟩, -, h⟩ := Option.bind_eq_some_iff.mp h
      exact isValid_of_ofWeek? h
    · exact isValid_of_ofWeek? h
  · rw [if_neg hweek] at h
    obtain ⟨⟨month, rest⟩, -, h⟩ := Option.bind_eq_some_iff.mp h
    obtain ⟨rest, -, h⟩ := Option.bind_eq_some_iff.mp h
    obtain ⟨⟨day, rest⟩, -, h⟩ := Option.bind_eq_some_iff.mp h
    exact Date.isValid_of? h

end

end Iso

/-! ## Times -/

namespace DateTime

variable {t u : DateTime}

/-- The standard form of a time in UTC: a day, a time of day and the distance zero from UTC. -/
theorem IsUtc.textChars_eq (h : u.IsUtc) : u.textChars 'T' =
    u.date.textChars ++ 'T' :: (clockChars u.micros true ++ offsetChars (some 0)) := by
  rw [textChars, h.offset]
  simp only [List.append_assoc, List.cons_append]

/-- A time in UTC is written in visible characters. -/
theorem IsUtc.isVisible (h : u.IsUtc) {c : Char} (hc : c ∈ u.textChars 'T') : isVisible c = true := by
  rw [h.textChars_eq, Iso.textChars_append] at hc
  simp only [List.mem_append, List.mem_cons] at hc
  rcases hc with hc | rfl | hc | rfl | hc | rfl | hc | hc
  · exact isVisible_of_isDigit (Iso.isDigit_of_mem_padded hc)
  · decide
  · exact isVisible_of_isDigit (Iso.isDigit_of_mem_padded hc)
  · decide
  · exact isVisible_of_isDigit (Iso.isDigit_of_mem_padded hc)
  · decide
  · rcases Iso.mem_clockChars hc with hdigit | rfl | rfl
    · exact isVisible_of_isDigit hdigit
    · decide
    · decide
  · exact List.all_eq_true.mp (by decide : (offsetChars (some 0)).all Text.isVisible = true) c hc

/-- **A time in UTC that was written is read.** -/
theorem ofIso?_text (h : u.IsUtc) : ofIso? u.text = some u := by
  obtain ⟨hdate, hmicros⟩ := isValid_iff.mp h.valid
  have hbytes : Iso.bytesOf u.text = u.textChars 'T' :=
    Iso.bytesOf_of_isAscii fun c hc => Iso.isAscii_of_isVisible (h.isVisible hc)
  have hseparator : Iso.skipSeparator ('T' :: (clockChars u.micros true ++ offsetChars (some 0))) =
      clockChars u.micros true ++ offsetChars (some 0) := rfl
  unfold ofIso?
  simp only [hbytes, h.textChars_eq, Iso.dateLength?_textChars hdate, Iso.date?_textChars hdate,
    Option.bind_eq_bind, Option.bind_some, List.drop_left' (Iso.length_textChars hdate),
    List.isEmpty_cons, Bool.false_eq_true, if_false, hseparator, Iso.time?_clockChars hmicros,
    Iso.timeOfDay?_ofMicros hmicros]
  rw [← h.eq_mk]

theorem timeOfDay?_lt {hour minute second micro micros : Nat} (hmicro : micro < microsPerSecond)
    (h : timeOfDay? hour minute second micro = some micros) : micros < microsPerDay := by
  unfold timeOfDay? at h
  split at h
  · have hsum := Option.some.inj h
    simp only [microsPerDay, microsPerHour, microsPerMinute, microsPerSecond] at *
    omega
  · exact absurd h (by simp)

/-- **A time that was read is possible.** -/
theorem isPossible_of_ofIso? {s : String} (h : ofIso? s = some t) : t.IsPossible := by
  obtain ⟨length, -, h⟩ := Option.bind_eq_some_iff.mp h
  obtain ⟨date, hdate, h⟩ := Option.bind_eq_some_iff.mp h
  have hvalid := Iso.isValid_of_date? hdate
  dsimp only at h
  split at h
  · obtain rfl := Option.some.inj h
    exact isPossible_midnight hvalid
  · obtain ⟨⟨clock, offset⟩, htime, h⟩ := Option.bind_eq_some_iff.mp h
    obtain ⟨micros, hmicros, h⟩ := Option.bind_eq_some_iff.mp h
    obtain rfl := Option.some.inj h
    obtain ⟨hmicro, hoffset⟩ := Iso.time?_lt htime
    exact ⟨isValid_iff.mpr ⟨hvalid, timeOfDay?_lt hmicro hmicros⟩, hoffset⟩

end DateTime

end ChangeRules
