import ChangeRules.Text.Percent
import Mathlib.Logic.Function.Basic

/-!
# Texts and their bytes

The bytes of a text are those of its characters, one after the other. A character is found at the
first of its bytes and takes up the others, so the characters are read back from the bytes, and texts
with the same bytes are the same.

* `Text.toUTF8_toList`, `Text.utf8Bytes_eq_flatMap`: the bytes of a text.
* `Text.exists_characterAt`: a character in front of other bytes.
* **`Text.decodeLossy_flatMap`**: characters are read back from their bytes.
-/

namespace ChangeRules

namespace Text

open Percent (characterBytes)

/-! ## The bytes of a text -/

/-- The loop that lists bytes, with `left` of them before it. -/
theorem toList_loop {bytes : ByteArray} {left i : Nat} (h : i + left = bytes.data.toList.length)
    (before : List UInt8) :
    ByteArray.toList.loop bytes i before = before.reverse ++ bytes.data.toList.drop i := by
  have hsize : bytes.size = bytes.data.toList.length := Array.length_toList.symm
  induction left generalizing i before with
  | zero =>
    rw [ByteArray.toList.loop, if_neg (by omega), List.drop_eq_nil_of_le (by omega),
      List.append_nil]
  | succ left ih =>
    have hlt : i < bytes.data.toList.length := by omega
    have hbyte : bytes.get! i = bytes.data.toList[i] := by
      rw [Array.getElem_toList]
      exact getElem!_pos bytes.data i hlt
    rw [ByteArray.toList.loop, if_pos (by omega), ih (by omega), hbyte,
      List.drop_eq_getElem_cons hlt, List.reverse_cons, List.append_assoc]
    rfl

theorem toUTF8_toList (cs : List Char) :
    (String.ofList cs).toUTF8.toList = cs.flatMap String.utf8EncodeChar := by
  have hlist : (String.ofList cs).toUTF8.data.toList = cs.flatMap String.utf8EncodeChar := by
    rw [String.toUTF8, String.toByteArray_ofList, List.utf8Encode, List.toList_data_toByteArray]
  rw [ByteArray.toList, toList_loop (Nat.zero_add _), hlist]
  rfl

/-- The bytes of a text are those of its characters. -/
theorem utf8Bytes_eq_flatMap (s : String) : utf8Bytes s = s.toList.flatMap characterBytes := by
  have hbytes := toUTF8_toList s.toList
  rw [String.ofList_toList] at hbytes
  rw [utf8Bytes, hbytes, List.map_flatMap]
  rfl

/-! ## Characters in front of other bytes -/

/-- The bytes that go on with a character, one by one. -/
theorem takeFollowers_cons {count low high b : Nat} {bs : List Nat} (h : low ≤ b ∧ b ≤ high) :
    takeFollowers (count + 1) low high (b :: bs) = b :: takeFollowers count 0x80 0xBF bs := by
  rw [takeFollowers, if_pos h]

theorem takeFollowers_zero (low high : Nat) (bs : List Nat) : takeFollowers 0 low high bs = [] := by
  cases bs <;> rfl

/-- A code point is not half of a pair. -/
theorem codePoint_cases (c : Char) : c.toNat < 0xD800 ∨ 0xDFFF < c.toNat ∧ c.toNat < 0x110000 :=
  c.valid

/-- A character whose first byte says which others follow, and whose bits they have. -/
theorem characterAt_of_taken {c : Char} {b count low high : Nat} {taken rest : List Nat}
    (hb : 0x80 ≤ b) (hfollowers : followers? b = some (count, low, high))
    (htaken : takeFollowers count low high rest = taken) (hcount : taken.length = count)
    (hbits : taken.foldl (fun n x => n * 64 + (x - 0x80)) (leadingBits b count) = c.toNat) :
    characterAt b rest = (c, count) := by
  unfold characterAt
  rw [if_neg (by omega), hfollowers]
  dsimp only
  rw [htaken, if_pos hcount, hbits, Char.ofNat_toNat]

/-- A character that two bytes stand for. -/
theorem characterAt_two {c : Char} (h : 0x80 ≤ c.toNat) (h' : c.toNat < 0x800) (rest : List Nat) :
    characterAt (c.toNat / 64 + 0xC0) ((c.toNat % 64 + 0x80) :: rest) = (c, 1) := by
  have hfollowers : followers? (c.toNat / 64 + 0xC0) = some (1, 0x80, 0xBF) := by
    unfold followers?
    rw [if_pos (by omega)]
  refine characterAt_of_taken (by omega) hfollowers
    ((takeFollowers_cons (by omega)).trans (by rw [takeFollowers_zero])) rfl ?_
  simp only [List.foldl_cons, List.foldl_nil, leadingBits, if_true]
  omega

/-- A character that three bytes stand for. -/
theorem characterAt_three {c : Char} (h : 0x800 ≤ c.toNat) (h' : c.toNat < 0x10000)
    (rest : List Nat) :
    characterAt (c.toNat / 4096 + 0xE0)
      ((c.toNat / 64 % 64 + 0x80) :: (c.toNat % 64 + 0x80) :: rest) = (c, 2) := by
  -- The shortest form and the gap of the pairs bound the second byte for two of the first ones.
  obtain ⟨low, high, hfollowers, hlow, hhigh⟩ : ∃ low high,
      followers? (c.toNat / 4096 + 0xE0) = some (2, low, high) ∧
        low ≤ c.toNat / 64 % 64 + 0x80 ∧ c.toNat / 64 % 64 + 0x80 ≤ high := by
    have hvalid := codePoint_cases c
    unfold followers?
    rw [if_neg (by omega)]
    split
    · exact ⟨_, _, rfl, by omega, by omega⟩
    · split
      · exact ⟨_, _, rfl, by omega, by omega⟩
      · rw [if_pos (by omega)]
        exact ⟨_, _, rfl, by omega, by omega⟩
  refine characterAt_of_taken (by omega) hfollowers ((takeFollowers_cons ⟨hlow, hhigh⟩).trans
    (by rw [takeFollowers_cons (by omega), takeFollowers_zero])) rfl ?_
  simp only [List.foldl_cons, List.foldl_nil, leadingBits, Nat.reduceEqDiff, if_false, if_true]
  omega

/-- A character that four bytes stand for. -/
theorem characterAt_four {c : Char} (h : 0x10000 ≤ c.toNat) (rest : List Nat) :
    characterAt (c.toNat / 262144 + 0xF0) ((c.toNat / 4096 % 64 + 0x80) ::
      (c.toNat / 64 % 64 + 0x80) :: (c.toNat % 64 + 0x80) :: rest) = (c, 3) := by
  have hvalid := codePoint_cases c
  obtain ⟨low, high, hfollowers, hlow, hhigh⟩ : ∃ low high,
      followers? (c.toNat / 262144 + 0xF0) = some (3, low, high) ∧
        low ≤ c.toNat / 4096 % 64 + 0x80 ∧ c.toNat / 4096 % 64 + 0x80 ≤ high := by
    unfold followers?
    rw [if_neg (by omega), if_neg (by omega), if_neg (by omega), if_neg (by omega)]
    split
    · exact ⟨_, _, rfl, by omega, by omega⟩
    · split
      · exact ⟨_, _, rfl, by omega, by omega⟩
      · rw [if_pos (by omega)]
        exact ⟨_, _, rfl, by omega, by omega⟩
  refine characterAt_of_taken (by omega) hfollowers ((takeFollowers_cons ⟨hlow, hhigh⟩).trans
    (by rw [takeFollowers_cons (by omega), takeFollowers_cons (by omega), takeFollowers_zero])) rfl ?_
  simp only [List.foldl_cons, List.foldl_nil, leadingBits, Nat.reduceEqDiff, if_false]
  omega

theorem toNat_byte {n : Nat} (h : n < 256) : (UInt8.ofNat n).toNat = n :=
  UInt8.toNat_ofNat_of_lt' h

/-- A character is found at the first of its bytes, and takes up the others. -/
theorem exists_characterAt (c : Char) : ∃ b bs, characterBytes c = b :: bs ∧
    ∀ rest, characterAt b (bs ++ rest) = (c, bs.length) := by
  have hvalid := codePoint_cases c
  have hval : c.val.toNat = c.toNat := rfl
  unfold characterBytes String.utf8EncodeChar
  rw [hval]
  dsimp only
  split
  · refine ⟨c.toNat, [], ?_, fun rest => ?_⟩
    · rw [List.map_cons, List.map_nil, toNat_byte (by omega)]
    · rw [characterAt, if_pos (by omega), Char.ofNat_toNat]
      rfl
  · split
    · refine ⟨c.toNat / 64 + 0xC0, [c.toNat % 64 + 0x80], ?_, fun rest => ?_⟩
      · rw [List.map_cons, List.map_cons, List.map_nil, toNat_byte (by omega),
          toNat_byte (by omega), Nat.mod_eq_of_lt (by omega)]
      · exact characterAt_two (by omega) (by omega) rest
    · split
      · refine ⟨c.toNat / 4096 + 0xE0, [c.toNat / 64 % 64 + 0x80, c.toNat % 64 + 0x80], ?_,
          fun rest => ?_⟩
        · simp only [List.map_cons, List.map_nil]
          rw [toNat_byte (by omega), toNat_byte (by omega), toNat_byte (by omega),
            Nat.mod_eq_of_lt (by omega : c.toNat / 4096 < 16)]
        · exact characterAt_three (by omega) (by omega) rest
      · refine ⟨c.toNat / 262144 + 0xF0, [c.toNat / 4096 % 64 + 0x80, c.toNat / 64 % 64 + 0x80,
          c.toNat % 64 + 0x80], ?_, fun rest => ?_⟩
        · simp only [List.map_cons, List.map_nil]
          rw [toNat_byte (by omega), toNat_byte (by omega), toNat_byte (by omega),
            toNat_byte (by omega), Nat.mod_eq_of_lt (by omega : c.toNat / 262144 < 8)]
        · exact characterAt_four (by omega) rest

/-- Bytes that belong to the character before are passed over. -/
theorem decodeLossyFrom_append (bs rest : List Nat) :
    decodeLossyFrom bs.length (bs ++ rest) = decodeLossyFrom 0 rest := by
  induction bs with
  | nil => rfl
  | cons b bs ih =>
    rw [List.length_cons, List.cons_append, decodeLossyFrom, if_pos (Nat.succ_pos _)]
    exact ih

/-- **Characters are read back from their bytes.** -/
theorem decodeLossy_flatMap (cs : List Char) : decodeLossy (cs.flatMap characterBytes) = cs := by
  induction cs with
  | nil => rfl
  | cons c cs ih =>
    obtain ⟨b, bs, hbytes, hat⟩ := exists_characterAt c
    rw [List.flatMap_cons, hbytes, List.cons_append, decodeLossy, decodeLossyFrom,
      if_neg (Nat.lt_irrefl 0), hat]
    dsimp only
    rw [decodeLossyFrom_append]
    exact congrArg (c :: ·) ih

/-- Texts with the same bytes are the same. -/
theorem utf8Bytes_injective : Function.Injective utf8Bytes := by
  intro s t h
  rw [utf8Bytes_eq_flatMap, utf8Bytes_eq_flatMap] at h
  rw [← String.toList_inj, ← decodeLossy_flatMap s.toList, h, decodeLossy_flatMap]

end Text

end ChangeRules
