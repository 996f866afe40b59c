import ChangeRules.Proofs.Text.Utf
import ChangeRules.Sink.Address

/-!
# Names and their segments

A name becomes a segment of an address byte by byte: a byte stands for itself or is escaped. Whoever
resolves the escapes finds the bytes of the name again, and these are the bytes of one text only.
No delimiter of an address stands in a segment, and a percent sign only where an escape begins.

* `Percent.Escaped`: characters that stand for themselves, and escapes.
* **`Address.bytes_segment`**, **`Address.decode_segment`**: what a segment denotes.
* **`Address.escaped_segment`**: what it is written in.
-/

namespace ChangeRules

/-! ## Escapes -/

namespace Percent

/-- Delimiters of addresses that a segment must not hold. -/
def isDelimiter (c : Char) : Bool := c == '/' || c == '?' || c == '#'

/-- Characters that stand for themselves, none of them a delimiter or a percent sign, and escapes. -/
inductive Escaped : List Char → Prop
  | nil : Escaped []
  | plain {c : Char} {cs : List Char} (hc : isDelimiter c = false) (hpercent : c ≠ '%')
      (h : Escaped cs) : Escaped (c :: cs)
  | escape {x y : Char} {cs : List Char} (hx : (digit? x).isSome = true)
      (hy : (digit? y).isSome = true) (h : Escaped cs) : Escaped ('%' :: x :: y :: cs)

theorem Escaped.append {cs ds : List Char} (h : Escaped cs) (h' : Escaped ds) :
    Escaped (cs ++ ds) := by
  induction h with
  | nil => exact h'
  | plain hc hpercent _ ih => exact .plain hc hpercent ih
  | escape hx hy _ ih => exact .escape hx hy ih

theorem isDelimiter_of_digit {x : Char} (h : (digit? x).isSome = true) : isDelimiter x = false := by
  rw [← Bool.not_eq_true]
  intro hx
  simp only [isDelimiter, Bool.or_eq_true, beq_iff_eq] at hx
  rcases hx with (rfl | rfl) | rfl <;> exact absurd h (by decide)

/-- **No delimiter stands among characters and escapes.** -/
theorem Escaped.isDelimiter_eq_false {cs : List Char} (h : Escaped cs) :
    ∀ c ∈ cs, isDelimiter c = false := by
  induction h with
  | nil => exact fun c hc => absurd hc List.not_mem_nil
  | plain hc _ _ ih => exact List.forall_mem_cons.mpr ⟨hc, ih⟩
  | escape hx hy _ ih =>
    exact List.forall_mem_cons.mpr ⟨by decide, List.forall_mem_cons.mpr
      ⟨isDelimiter_of_digit hx, List.forall_mem_cons.mpr ⟨isDelimiter_of_digit hy, ih⟩⟩⟩

/-- The digit that is written for a number is read as that number. -/
theorem digit?_digitChar : ∀ n < 16, digit? (Nat.digitChar n).toUpper = some n := by decide

theorem bytes_escape {x y : Char} {m n : Nat} (hx : digit? x = some m) (hy : digit? y = some n)
    (rest : List Char) : bytes ('%' :: x :: y :: rest) = (m * 16 + n) :: bytes rest := by
  simp [bytes, bytesFrom, byte?, hx, hy]

theorem bytes_plain {c : Char} (hc : c ≠ '%') (rest : List Char) :
    bytes (c :: rest) = characterBytes c ++ bytes rest := by
  simp [bytes, bytesFrom, hc]

end Percent

/-! ## Segments -/

namespace Address

open Percent

theorem isUnreserved_ne {c d : Char} (h : isUnreserved c = true) (hd : isUnreserved d = false) :
    c ≠ d := by
  rintro rfl
  rw [hd] at h
  exact Bool.noConfusion h

theorem isDelimiter_of_unreserved {c : Char} (h : isUnreserved c = true) : isDelimiter c = false := by
  simp [isDelimiter, isUnreserved_ne (d := '/') h (by decide),
    isUnreserved_ne (d := '?') h (by decide), isUnreserved_ne (d := '#') h (by decide)]

/-- A byte is read back from what it is written as. -/
theorem bytes_escapeByte {n : Nat} (hn : n < 256) (rest : List Char) :
    bytes (escapeByte n ++ rest) = n :: bytes rest := by
  unfold escapeByte
  dsimp only
  split
  · next hplain =>
    obtain ⟨hascii, hunreserved⟩ := by simpa using hplain
    have hbyte : ∀ m < 128, characterBytes (Char.ofNat m) = [m] := by decide
    rw [List.cons_append, List.nil_append, bytes_plain (isUnreserved_ne hunreserved (by decide)),
      hbyte n hascii]
    rfl
  · rw [List.cons_append, List.cons_append, List.cons_append, List.nil_append,
      bytes_escape (digit?_digitChar (n / 16) (by omega)) (digit?_digitChar (n % 16) (by omega)),
      Nat.div_add_mod']

theorem escaped_escapeByte {n : Nat} (hn : n < 256) : Escaped (escapeByte n) := by
  unfold escapeByte
  dsimp only
  split
  · next hplain =>
    obtain ⟨-, hunreserved⟩ := by simpa using hplain
    exact .plain (isDelimiter_of_unreserved hunreserved) (isUnreserved_ne hunreserved (by decide)) .nil
  · refine .escape ?_ ?_ .nil
    · rw [digit?_digitChar (n / 16) (by omega)]
      rfl
    · rw [digit?_digitChar (n % 16) (by omega)]
      rfl

theorem lt_of_mem_bytesOf {c : Char} {n : Nat} (h : n ∈ bytesOf c) : n < 256 := by
  obtain ⟨b, -, rfl⟩ := List.mem_map.mp h
  exact b.toNat_lt

theorem bytes_flatMap_escapeByte {ns : List Nat} (h : ∀ n ∈ ns, n < 256) (rest : List Char) :
    bytes (ns.flatMap escapeByte ++ rest) = ns ++ bytes rest := by
  induction ns with
  | nil => rfl
  | cons n ns ih =>
    obtain ⟨hn, hns⟩ := List.forall_mem_cons.mp h
    rw [List.flatMap_cons, List.append_assoc, bytes_escapeByte hn, ih hns, List.cons_append]

theorem escaped_flatMap_escapeByte {ns : List Nat} (h : ∀ n ∈ ns, n < 256) :
    Escaped (ns.flatMap escapeByte) := by
  induction ns with
  | nil => exact .nil
  | cons n ns ih =>
    obtain ⟨hn, hns⟩ := List.forall_mem_cons.mp h
    exact (escaped_escapeByte hn).append (ih hns)

/-- A character is read back as its bytes. -/
theorem bytes_escapeChar (c : Char) (rest : List Char) :
    bytes (escape c ++ rest) = characterBytes c ++ bytes rest := by
  unfold escape
  split
  · next hunreserved => exact bytes_plain (isUnreserved_ne hunreserved (by decide)) rest
  · exact bytes_flatMap_escapeByte (fun n => lt_of_mem_bytesOf) rest

theorem escaped_escape (c : Char) : Escaped (escape c) := by
  unfold escape
  split
  · next hunreserved =>
    exact .plain (isDelimiter_of_unreserved hunreserved) (isUnreserved_ne hunreserved (by decide)) .nil
  · exact escaped_flatMap_escapeByte fun n => lt_of_mem_bytesOf

theorem bytes_flatMap_escape (cs : List Char) :
    bytes (cs.flatMap escape) = cs.flatMap characterBytes := by
  induction cs with
  | nil => rfl
  | cons c cs ih => rw [List.flatMap_cons, bytes_escapeChar, ih, List.flatMap_cons]

/-- **A segment denotes the bytes of the name.** -/
theorem bytes_segment (s : String) : bytes (segment s).toList = Text.utf8Bytes s := by
  rw [segment, String.toList_ofList, bytes_flatMap_escape, Text.utf8Bytes_eq_flatMap]

/-- **A name is read back from its segment.** -/
theorem decode_segment (s : String) : decode (segment s) = s := by
  rw [decode, bytes_segment, Text.utf8Bytes_eq_flatMap, Text.decodeLossy_flatMap,
    String.ofList_toList]

/-- **A segment is written in characters that stand for themselves, and escapes.** -/
theorem escaped_segment (s : String) : Escaped (segment s).toList := by
  rw [segment, String.toList_ofList]
  induction s.toList with
  | nil => exact .nil
  | cons c cs ih => exact (escaped_escape c).append ih

end Address

end ChangeRules
