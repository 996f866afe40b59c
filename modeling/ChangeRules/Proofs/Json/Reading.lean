import ChangeRules.Json.Reader
import ChangeRules.Value.Text

/-!
# What is read of JSON can be written

An integer literal with more digits than integers are written with is not JSON to the reader. So no
value that it makes has an integer like that inside, however deep, and all of them can be written.

* `isWritable_of_readNumber`, `isWritable_of_readAtom`: what has no parts.
* **`readable_of_steps`**: values, items and fields, by induction on the steps of the reader.
* **`isWritable_of_read`**, **`isWritable_of_readBytes`**: the value of a text and of bytes.
-/

namespace ChangeRules

namespace Fields

/-- Fields that can be written stay so when one more such field is set. -/
theorem writable_set {fields : Fields} {key : String} {v : Value}
    (h : ∀ f ∈ fields, f.2.isWritable = true) (hv : v.isWritable = true) :
    ∀ f ∈ fields.set key v, f.2.isWritable = true := by
  intro f hf
  unfold set at hf
  split at hf
  · obtain ⟨g, hg, rfl⟩ := List.mem_map.mp hf
    split
    · exact hv
    · exact h g hg
  · rcases List.mem_append.mp hf with hf | hf
    · exact h f hf
    · rw [List.mem_singleton.mp hf]
      exact hv

theorem writable_ofPairs {pairs : List (String × Value)}
    (h : ∀ p ∈ pairs, p.2.isWritable = true) : ∀ f ∈ ofPairs pairs, f.2.isWritable = true := by
  -- The fields set so far can be written, whatever pairs are still to come.
  have hset : ∀ fields : Fields, (∀ f ∈ fields, f.2.isWritable = true) →
      ∀ f ∈ pairs.foldl (fun fields p => fields.set p.1 p.2) fields, f.2.isWritable = true := by
    induction pairs with
    | nil => exact fun fields hfields => hfields
    | cons p pairs ih =>
      obtain ⟨hp, hpairs⟩ := List.forall_mem_cons.mp h
      exact fun fields hfields => ih hpairs _ (writable_set hfields hp)
  exact hset [] (by simp)

end Fields

namespace Json

open Text

variable {r rest : Rest} {v : Value}

/-- A number of no more digits than integers are written with is written. -/
theorem isWritable_digitsValue {cs : List Char} (h : cs.length ≤ integerDigits) (negative : Bool) :
    (Value.int (if negative then -(digitsValue cs : Int) else digitsValue cs)).isWritable = true := by
  have hvalue : digitsValue cs < 10 ^ cs.length := digitsValue_lt cs
  have hlimit : digitsValue cs < 10 ^ integerDigits :=
    Nat.lt_of_lt_of_le hvalue (Nat.pow_le_pow_right (by decide) h)
  have habs : (if negative then -(digitsValue cs : Int) else digitsValue cs).natAbs =
      digitsValue cs := by
    cases negative <;> simp
  rw [Value.isWritable, habs]
  exact decide_eq_true ((Nat.length_toDigits_le_iff (by decide) (by decide)).mpr hlimit)

theorem isWritable_of_readNumber (h : readNumber r = .ok (v, rest)) : v.isWritable = true := by
  unfold readNumber at h
  extract_lets negative body whole at h
  split at h
  · exact absurd h (by simp)
  · split at h
    · split at h
      · exact absurd h (by simp)
      · next hdigits =>
        obtain ⟨rfl, -⟩ := Prod.mk.inj (Except.ok.inj h)
        refine isWritable_digitsValue (Nat.le_trans ?_ (Nat.le_of_not_lt hdigits)) _
        rw [List.length_take]
        exact Nat.min_le_left _ _
    · obtain ⟨rfl, -⟩ := Prod.mk.inj (Except.ok.inj h)
      rfl

theorem isWritable_of_readAtom (h : readAtom r = .ok (v, rest)) : v.isWritable = true := by
  unfold readAtom at h
  split at h
  · next name w hname =>
    obtain ⟨rfl, -⟩ := Prod.mk.inj (Except.ok.inj h)
    have hnames : ∀ n ∈ names, n.2.isWritable = true := by decide
    exact hnames (name, w) (List.mem_of_find?_eq_some hname)
  · exact isWritable_of_readNumber h

/-- What is read after something else is read once this has been read. -/
theorem exists_of_bind {α β : Type} {outcome : Except Error α} {next : α → Except Error β} {b : β}
    (h : outcome >>= next = .ok b) : ∃ a, outcome = .ok a ∧ next a = .ok b := by
  cases outcome with
  | error e => exact absurd h (by simp [bind, Except.bind])
  | ok a => exact ⟨a, rfl, h⟩

/-- What the reader makes in a number of steps can be written: values, items of lists, fields. -/
structure Readable (fuel : Nat) : Prop where
  value : ∀ r v rest, readValue fuel r = .ok (v, rest) → v.isWritable = true
  items : ∀ r vs rest, readItems fuel r = .ok (vs, rest) → ∀ v ∈ vs, v.isWritable = true
  fields : ∀ r pairs rest, readFields fuel r = .ok (pairs, rest) →
    ∀ p ∈ pairs, p.2.isWritable = true

namespace Readable

variable {fuel : Nat}

theorem zero : Readable 0 where
  value r v rest h := absurd h (by simp [readValue])
  items r vs rest h := absurd h (by simp [readItems])
  fields r pairs rest h := absurd h (by simp [readFields])

theorem step_value (h : Readable fuel) (hread : readValue (fuel + 1) r = .ok (v, rest)) :
    v.isWritable = true := by
  rw [readValue] at hread
  split at hread
  · obtain ⟨read, -, hread⟩ := exists_of_bind hread
    obtain ⟨rfl, -⟩ := Prod.mk.inj (Except.ok.inj hread)
    rfl
  · dsimp only at hread
    split at hread
    · obtain ⟨rfl, -⟩ := Prod.mk.inj (Except.ok.inj hread)
      rfl
    · obtain ⟨read, hitems, hread⟩ := exists_of_bind hread
      obtain ⟨rfl, -⟩ := Prod.mk.inj (Except.ok.inj hread)
      rw [Value.isWritable, Value.areWritable_iff]
      exact h.items _ _ _ hitems
  · dsimp only at hread
    split at hread
    · obtain ⟨rfl, -⟩ := Prod.mk.inj (Except.ok.inj hread)
      rfl
    · obtain ⟨read, hfields, hread⟩ := exists_of_bind hread
      obtain ⟨rfl, -⟩ := Prod.mk.inj (Except.ok.inj hread)
      rw [Value.isWritable, Value.fieldsWritable_iff]
      exact Fields.writable_ofPairs (h.fields _ _ _ hfields)
  · exact isWritable_of_readAtom hread

theorem step_items {vs : List Value} (h : Readable fuel)
    (hread : readItems (fuel + 1) r = .ok (vs, rest)) : ∀ v ∈ vs, v.isWritable = true := by
  rw [readItems] at hread
  obtain ⟨⟨v, r₁⟩, hvalue, hread⟩ := exists_of_bind hread
  have hfirst := h.value _ _ _ hvalue
  dsimp only at hread
  split at hread
  · obtain ⟨rfl, -⟩ := Prod.mk.inj (Except.ok.inj hread)
    exact List.forall_mem_singleton.mpr hfirst
  · obtain ⟨⟨tail, r₂⟩, htail, hread⟩ := exists_of_bind hread
    obtain ⟨rfl, -⟩ := Prod.mk.inj (Except.ok.inj hread)
    exact List.forall_mem_cons.mpr ⟨hfirst, h.items _ _ _ htail⟩
  · exact absurd hread (by simp)

theorem step_fields {pairs : List (String × Value)} (h : Readable fuel)
    (hread : readFields (fuel + 1) r = .ok (pairs, rest)) :
    ∀ p ∈ pairs, p.2.isWritable = true := by
  rw [readFields] at hread
  split at hread
  · exact absurd hread (by simp [bind, Except.bind])
  · obtain ⟨⟨key, r₁⟩, -, hread⟩ := exists_of_bind hread
    dsimp only at hread
    split at hread
    · exact absurd hread (by simp [bind, Except.bind])
    · obtain ⟨⟨v, r₂⟩, hvalue, hread⟩ := exists_of_bind hread
      have hfirst := h.value _ _ _ hvalue
      dsimp only at hread
      split at hread
      · obtain ⟨rfl, -⟩ := Prod.mk.inj (Except.ok.inj hread)
        exact List.forall_mem_singleton.mpr hfirst
      · obtain ⟨⟨tail, r₃⟩, htail, hread⟩ := exists_of_bind hread
        obtain ⟨rfl, -⟩ := Prod.mk.inj (Except.ok.inj hread)
        exact List.forall_mem_cons.mpr ⟨hfirst, h.fields _ _ _ htail⟩
      · exact absurd hread (by simp)

end Readable

/-- **Whatever the reader makes can be written**, in any number of steps. -/
theorem readable_of_steps (fuel : Nat) : Readable fuel := by
  induction fuel with
  | zero => exact .zero
  | succ fuel ih =>
    exact ⟨fun _ _ _ => ih.step_value, fun _ _ _ => ih.step_items, fun _ _ _ => ih.step_fields⟩

theorem isWritable_of_readDocument {cs : List Char} (h : readDocument cs = .ok v) :
    v.isWritable = true := by
  unfold readDocument at h
  obtain ⟨⟨w, rest⟩, hvalue, h⟩ := exists_of_bind h
  dsimp only at h
  split at h
  · rw [← Except.ok.inj h]
    exact (readable_of_steps _).value _ _ _ hvalue
  · exact absurd h (by simp)

/-- **The value of a JSON text can be written.** -/
theorem isWritable_of_read {s : String} (h : read s = .ok v) : v.isWritable = true := by
  unfold read at h
  dsimp only at h
  split at h
  · exact absurd h (by simp)
  · exact isWritable_of_readDocument h

/-- **The value of bytes of JSON can be written.** -/
theorem isWritable_of_readBytes {bytes : List Nat} (h : readBytes bytes = some (.ok v)) :
    v.isWritable = true := by
  obtain ⟨cs, -, hread⟩ := Option.map_eq_some_iff.mp h
  exact isWritable_of_readDocument hread

end Json

end ChangeRules
