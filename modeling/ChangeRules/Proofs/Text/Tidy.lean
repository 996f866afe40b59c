import ChangeRules.Text.Blank
import ChangeRules.Value.Text

/-!
# Tidy texts

A tidy text has characters, and no blanks around them. The text of a number is tidy, and whatever
counts as true has a text at all.

* `Text.IsTidy`: a text that is not empty and that trimming leaves as it is.
* **`isTidy_trim`**: what is left of a text by trimming is tidy, if anything is.
* **`isTidy_int`**, **`Double.isTidy_double`**: the texts of numbers.
* **`Value.display_ne_empty`**: the text of what counts as true.
-/

namespace ChangeRules

namespace Text

/-- A text with characters, and without blanks around them. -/
structure IsTidy (s : String) : Prop where
  ne_empty : s ≠ ""
  trim_eq : trim s = s

theorem trim_trim (s : String) : trim (trim s) = trim s := by
  unfold trim
  rw [String.toList_ofList, trimChars_trimChars]

theorem isTidy_trim {s : String} (h : trim s ≠ "") : IsTidy (trim s) := ⟨h, trim_trim s⟩

/-- A visible character of ASCII. -/
def isVisible (c : Char) : Bool := 33 ≤ c.toNat && c.toNat ≤ 126

theorem not_isBlank_of_isVisible {c : Char} (h : isVisible c = true) : isBlank c = false := by
  simp only [isVisible, Bool.and_eq_true, decide_eq_true_eq] at h
  simp only [isBlank, Bool.or_eq_false_iff, Bool.and_eq_false_iff, decide_eq_false_iff_not,
    beq_eq_false_iff_ne]
  omega

theorem trimWhile_eq_self {p : Char → Bool} {cs : List Char} (h : ∀ c ∈ cs, p c = false) :
    trimWhile p cs = cs := by
  have hkeep : ∀ {ds : List Char}, (∀ c ∈ ds, p c = false) → ds.dropWhile p = ds :=
    fun {ds} hds => dropWhile_eq_self_of_head p ds fun c hc => hds c (List.mem_of_mem_head? hc)
  rw [trimWhile, hkeep h, hkeep fun c hc => h c (List.mem_reverse.mp hc), List.reverse_reverse]

/-- What is left of a text stood in it. -/
theorem trimWhile_part (p : Char → Bool) (cs : List Char) : trimWhile p cs <:+: cs := by
  have hfront : trimWhile p cs <+: cs.dropWhile p := by
    rw [trimWhile, ← List.reverse_suffix, List.reverse_reverse]
    exact List.dropWhile_suffix p
  exact hfront.isInfix.trans (List.dropWhile_suffix p).isInfix

/-- What stands around a text and is trimmed anyway makes no difference. -/
theorem trimWhile_append {p : Char → Bool} {before behind : List Char} (cs : List Char)
    (hbefore : ∀ c ∈ before, p c = true) (hbehind : ∀ c ∈ behind, p c = true) :
    trimWhile p (before ++ cs ++ behind) = trimWhile p cs := by
  have hfront : (before ++ cs ++ behind).dropWhile p = (cs ++ behind).dropWhile p := by
    rw [List.append_assoc, List.dropWhile_append_of_pos hbefore]
  have hreverse : ∀ c ∈ behind.reverse, p c = true := fun c hc => hbehind c (List.mem_reverse.mp hc)
  rw [trimWhile, trimWhile, hfront, List.dropWhile_append]
  cases hkept : cs.dropWhile p with
  | nil =>
    have hnothing : behind.dropWhile p = [] := by
      rw [← List.append_nil behind, List.dropWhile_append_of_pos hbehind]
      rfl
    rw [List.isEmpty_nil, if_pos rfl, hnothing]
  | cons c rest =>
    rw [List.isEmpty_cons, if_neg Bool.false_ne_true, List.reverse_append,
      List.dropWhile_append_of_pos hreverse]

theorem ofList_ne_empty {cs : List Char} (h : cs ≠ []) : String.ofList cs ≠ "" := by
  intro hempty
  have hchars := congrArg String.toList hempty
  rw [String.toList_ofList] at hchars
  exact h hchars

/-- A text of visible characters is tidy. -/
theorem isTidy_ofList {cs : List Char} (hne : cs ≠ []) (h : ∀ c ∈ cs, isVisible c = true) :
    IsTidy (String.ofList cs) where
  ne_empty := ofList_ne_empty hne
  trim_eq := by
    unfold trim trimChars
    rw [String.toList_ofList, trimWhile_eq_self fun c hc => not_isBlank_of_isVisible (h c hc)]

end Text

/-! ## Numbers -/

open Text

theorem isVisible_of_isDigit {c : Char} (h : c.isDigit = true) : isVisible c = true := by
  simp only [Char.isDigit, Bool.and_eq_true, decide_eq_true_eq] at h
  have hlow : '0'.val.toNat ≤ c.val.toNat := UInt32.le_iff_toNat_le.mp h.1
  have hhigh : c.val.toNat ≤ '9'.val.toNat := UInt32.le_iff_toNat_le.mp h.2
  simp only [isVisible, Char.toNat, Bool.and_eq_true, decide_eq_true_eq]
  exact ⟨Nat.le_trans (by decide) hlow, Nat.le_trans hhigh (by decide)⟩

theorem isVisible_digits {n : Nat} {c : Char} (h : c ∈ Nat.toDigits 10 n) : isVisible c = true :=
  isVisible_of_isDigit (Nat.isDigit_of_mem_toDigits (by decide) (by decide) h)

theorem not_mem_toDigits {c : Char} (h : c.isDigit = false) (n : Nat) : c ∉ Nat.toDigits 10 n :=
  fun hc => absurd (Nat.isDigit_of_mem_toDigits (by decide) (by decide) hc) (by simp [h])

/-- The characters of an integer: its digits, behind a sign if it is negative. -/
theorem toList_int (n : Int) : (toString n).toList =
    if n < 0 then '-' :: Nat.toDigits 10 n.natAbs else Nat.toDigits 10 n.natAbs := by
  cases n with
  | ofNat m =>
    rw [if_neg (by simp)]
    exact Nat.toList_repr
  | negSucc m =>
    have htext : toString (Int.negSucc m) = "-" ++ (m + 1).repr := rfl
    rw [if_pos (Int.negSucc_lt_zero m), htext, String.toList_append, Nat.toList_repr]
    rfl

/-- The text of an integer is tidy. -/
theorem isTidy_int (n : Int) : IsTidy (toString n) := by
  have hdigits : ∀ c ∈ Nat.toDigits 10 n.natAbs, isVisible c = true := fun c hc => isVisible_digits hc
  rw [← String.ofList_toList (s := toString n), toList_int]
  split
  · exact isTidy_ofList (List.cons_ne_nil _ _) (List.forall_mem_cons.mpr ⟨by decide, hdigits⟩)
  · exact isTidy_ofList Nat.toDigits_ne_nil hdigits

namespace Layout

theorem isVisible_dropTrailingZeros {ds : List Char} (h : ∀ c ∈ ds, isVisible c = true) :
    ∀ c ∈ dropTrailingZeros ds, isVisible c = true := by
  intro c hc
  have hsub := List.dropWhile_sublist (fun d => d == '0') (l := ds.reverse)
  exact h c (List.mem_reverse.mp (hsub.subset (List.mem_reverse.mp hc)))

theorem isVisible_exponentText (e : Int) : ∀ c ∈ exponentText e, isVisible c = true := by
  unfold exponentText digitsOf
  refine List.forall_mem_cons.mpr ⟨by decide, List.forall_mem_cons.mpr ⟨by split <;> decide, ?_⟩⟩
  split
  · exact List.forall_mem_cons.mpr ⟨by decide, fun c hc => isVisible_digits hc⟩
  · exact fun c hc => isVisible_digits hc

theorem isVisible_positional (keepsPoint : Bool) {ds : List Char} (lead : Int)
    (h : ∀ c ∈ ds, isVisible c = true) :
    ∀ c ∈ positional keepsPoint ds lead, isVisible c = true := by
  have hzeros : ∀ n, ∀ c ∈ List.replicate n '0', isVisible c = true := fun n c hc => by
    rw [List.eq_of_mem_replicate hc]
    decide
  unfold positional
  split
  · refine List.forall_mem_cons.mpr ⟨by decide, List.forall_mem_cons.mpr ⟨by decide, ?_⟩⟩
    exact List.forall_mem_append.mpr ⟨hzeros _, h⟩
  · have hfront : ∀ c ∈ ds.take (lead.toNat + 1) ++
        List.replicate (lead.toNat + 1 - ds.length) '0', isVisible c = true :=
      List.forall_mem_append.mpr ⟨fun c hc => h c (List.mem_of_mem_take hc), hzeros _⟩
    dsimp only
    split
    · refine List.forall_mem_append.mpr ⟨hfront, ?_⟩
      split <;> exact List.all_eq_true.mp (by decide)
    · refine List.forall_mem_append.mpr ⟨hfront, List.forall_mem_cons.mpr ⟨by decide, ?_⟩⟩
      exact fun c hc => h c (List.mem_of_mem_drop hc)

theorem positional_ne_nil (keepsPoint : Bool) (ds : List Char) (lead : Int) :
    positional keepsPoint ds lead ≠ [] := by
  unfold positional
  split
  · exact List.cons_ne_nil _ _
  · have hfront : ds.take (lead.toNat + 1) ++
        List.replicate (lead.toNat + 1 - ds.length) '0' ≠ [] := by
      intro hnil
      have hlen := congrArg List.length hnil
      simp only [List.length_append, List.length_take, List.length_replicate, List.length_nil] at hlen
      omega
    dsimp only
    split
    · exact List.append_ne_nil_of_left_ne_nil hfront _
    · exact List.append_ne_nil_of_left_ne_nil hfront _

theorem isVisible_write (layout : Layout) {ds : List Char} (lead : Int)
    (h : ∀ c ∈ ds, isVisible c = true) : ∀ c ∈ layout.write ds lead, isVisible c = true := by
  unfold write
  split
  · exact isVisible_positional _ lead h
  · split
    · exact List.all_eq_true.mp (by decide)
    · exact List.forall_mem_cons.mpr ⟨h _ (by simp), isVisible_exponentText lead⟩
    · next d rest _ =>
      obtain ⟨hd, hrest⟩ := List.forall_mem_cons.mp h
      refine List.forall_mem_cons.mpr ⟨hd, List.forall_mem_cons.mpr ⟨by decide, ?_⟩⟩
      exact List.forall_mem_append.mpr ⟨hrest, isVisible_exponentText lead⟩

theorem write_ne_nil (layout : Layout) (ds : List Char) (lead : Int) :
    layout.write ds lead ≠ [] := by
  unfold write
  split
  · exact positional_ne_nil _ ds lead
  · split <;> exact List.cons_ne_nil _ _

end Layout

namespace Double

theorem isVisible_shortestDigits (units : Nat) :
    ∀ c ∈ (shortestDigits units).1, isVisible c = true :=
  Layout.isVisible_dropTrailingZeros fun _ hc => isVisible_digits hc

/-- The text of a double is tidy. -/
theorem isTidy_double (x : Double) : IsTidy x.text := by
  -- A finite double is written as visible characters behind a sign, if it has one.
  have hfinite : ∀ (body : List Char), body ≠ [] → (∀ c ∈ body, isVisible c = true) →
      IsTidy (String.ofList (if x.isNegative then '-' :: body else body)) := by
    intro body hne hbody
    split
    · exact isTidy_ofList (List.cons_ne_nil _ _) (List.forall_mem_cons.mpr ⟨by decide, hbody⟩)
    · exact isTidy_ofList hne hbody
  unfold text written
  split
  · exact ⟨by decide, by decide⟩
  · split <;> exact ⟨by decide, by decide⟩
  · refine hfinite _ ?_ ?_
    · split
      · split <;> decide
      · exact Layout.write_ne_nil _ _ _
    · split
      · split <;> exact List.all_eq_true.mp (by decide)
      · exact Layout.isVisible_write _ _ (isVisible_shortestDigits _)

end Double

/-! ## Values -/

namespace Value

theorem append_ne_empty {s t : String} (h : s ≠ "") : s ++ t ≠ "" := by
  intro hempty
  have hchars := congrArg String.toList hempty
  rw [String.toList_append] at hchars
  have hs : s.toList = [] := (List.append_eq_nil_iff.mp hchars).1
  exact h (String.toList_inj.mp hs)

/-- Whatever counts as true has a text. -/
theorem display_ne_empty {v : Value} (h : v.truthy = true) : v.display ≠ "" := by
  cases v with
  | null => exact absurd h (by decide)
  | bool b => cases b <;> decide
  | int n => exact (isTidy_int n).ne_empty
  | double x => exact x.isTidy_double.ne_empty
  | text s =>
    intro hempty
    simp only [display] at hempty
    rw [hempty] at h
    exact absurd h (by decide)
  | list items => exact append_ne_empty (append_ne_empty (by decide))
  | object fields => exact append_ne_empty (append_ne_empty (by decide))
  | date d => exact ofList_ne_empty (by simp [Date.textChars])
  | time t => exact ofList_ne_empty (by simp [DateTime.textChars])

end Value

end ChangeRules
