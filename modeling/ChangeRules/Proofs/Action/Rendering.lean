import Mathlib.Data.List.Forall2
import ChangeRules.Proofs.Action.Placeholder

/-!
# Values with placeholders filled in

Filling in goes through a value once. Objects keep their names and lists their length and order, and
whatever is no text stays what it is. A text that is one placeholder between blanks becomes the value
that is found in the record; any other text is cut at its placeholders, and the texts of the values
found take their places, whatever these contain.

* `Template.Holds`: what a record holds at a path with dots.
* `Template.Rendered`: what a value becomes.
* `Template.Mentions`: the placeholders in a value.
* `Template.CutOnce`, `Template.OnePass`: what is said of every text, and of every value and record.
* **`Template.render_onePass`**: filling in is what `Rendered` says, and depends on nothing but what is
  found for the placeholders of the value.
-/

namespace ChangeRules

/-! ## Values by their parts -/

namespace Value

/-- Neither a text nor a list nor an object. -/
def IsAtom : Value → Prop
  | .text _ | .list _ | .object _ => False
  | _ => True

/-- What holds of atoms and texts, and of lists and objects if it holds of all that they hold, holds
of every value. -/
@[elab_as_elim]
theorem induction {motive : Value → Prop} (atom : ∀ v : Value, v.IsAtom → motive v)
    (text : ∀ s, motive (.text s)) (list : ∀ vs : List Value, (∀ v ∈ vs, motive v) → motive (.list vs))
    (object : ∀ fields : Fields, (∀ f ∈ fields, motive f.2) → motive (.object fields)) (v : Value) :
    motive v := by
  match v with
  | .null | .bool _ | .int _ | .double _ | .date _ | .time _ => exact atom _ trivial
  | .text s => exact text s
  | .list vs =>
    exact list vs fun v hv => induction atom text list object v
  | .object fields =>
    exact object fields fun f hf => induction atom text list object f.2
termination_by sizeOf v
decreasing_by
  · have hlt := List.sizeOf_lt_of_mem hv
    simp only [Value.list.sizeOf_spec]
    omega
  · have hlt := List.sizeOf_lt_of_mem hf
    obtain ⟨name, w⟩ := f
    simp only [Prod.mk.sizeOf_spec, Value.object.sizeOf_spec] at hlt ⊢
    omega

end Value

namespace Text

/-! ## Pieces between dots -/

theorem splitAt_eq_splitOn (separator : Char) (cs : List Char) :
    splitAt separator cs = cs.splitOn separator := by
  induction cs with
  | nil => rfl
  | cons c cs ih =>
    rw [splitAt, List.splitOn_cons_eq_if_modifyHead, ih]
    by_cases h : c = separator
    · rw [if_pos h, if_pos (beq_iff_eq.mpr h)]
    · rw [if_neg h, if_neg fun heq => h (beq_iff_eq.mp heq)]
      cases hsplit : cs.splitOn separator with
      | nil => exact absurd hsplit (List.splitOn_ne_nil separator cs)
      | cons piece pieces => rfl

theorem not_mem_of_mem_splitAt {separator : Char} {cs piece : List Char}
    (h : piece ∈ splitAt separator cs) : separator ∉ piece := by
  induction cs generalizing piece with
  | nil =>
    rw [List.mem_singleton.mp h]
    exact List.not_mem_nil
  | cons c cs ih =>
    rw [splitAt] at h
    by_cases hc : c = separator
    · rw [if_pos hc] at h
      rcases List.mem_cons.mp h with rfl | hpiece
      · exact List.not_mem_nil
      · exact ih hpiece
    · rw [if_neg hc] at h
      have hne : separator ≠ c := Ne.symm hc
      cases hsplit : splitAt separator cs with
      | nil => exact absurd hsplit (splitAt_ne_nil separator cs)
      | cons first more =>
        rw [hsplit] at h ih
        obtain ⟨hfirst, hmore⟩ : separator ∉ first ∧ ∀ piece ∈ more, separator ∉ piece :=
          List.forall_mem_cons.mp fun piece hpiece => ih hpiece
        rcases List.mem_cons.mp h with rfl | hpiece
        · exact List.not_mem_cons_of_ne_of_not_mem hne hfirst
        · exact hmore piece hpiece

end Text

namespace Cut

open Template

variable {c : Cut} {m : Placeholder × List Char}

theorem part_of_mem (h : m ∈ c.more) : m.1.chars <:+: c.chars := by
  obtain ⟨before, behind, hmore⟩ := List.append_of_mem h
  have hchars : c.chars = (Cut.mk c.first before).chars ++ m.1.chars ++
      (m.2 ++ behind.flatMap fun m => m.1.chars ++ m.2) := by
    simp [chars, hmore]
  exact ⟨_, _, hchars.symm⟩

/-- Records in which the same is found for every placeholder fill in the same. -/
theorem filled_congr {record record' : Value} (h : ∀ m ∈ c.more, value record m.1 = value record' m.1) :
    c.filled record = c.filled record' := by
  unfold filled shown
  rw [List.flatMap_congr fun m hm => by rw [h m hm]]

end Cut

namespace Template

/-! ## Paths -/

/-- The names that the dots of a path divide. -/
structure Dotted (path : List Char) (names : List String) : Prop where
  ne_nil : names ≠ []
  undotted : ∀ name ∈ names, '.' ∉ name.toList
  joined : ['.'].intercalate (names.map String.toList) = path

/-- The value at the end of a path of names. -/
inductive Reaches : Value → List String → Value → Prop
  | here (v : Value) : Reaches v [] v
  | field {fields : Fields} {name : String} {names : List String} {v w : Value}
      (hfield : Fields.get? fields name = some v) (h : Reaches v names w) :
      Reaches (.object fields) (name :: names) w

variable {record record' v w : Value} {names : List String} {s : String} {p : Placeholder}

/-- The names of a path are those that it is looked up by. -/
theorem dotted_iff {path : List Char} : Dotted path names ↔ names = steps path := by
  unfold steps
  constructor
  · rintro ⟨hne, hundotted, rfl⟩
    have hsplit : Text.splitAt '.' (['.'].intercalate (names.map String.toList)) =
        names.map String.toList := by
      rw [Text.splitAt_eq_splitOn]
      refine List.splitOn_intercalate '.' (List.forall_mem_map.mpr hundotted) ?_
      exact fun hnil => hne (List.map_eq_nil_iff.mp hnil)
    have hsame : String.ofList ∘ String.toList = id := funext fun name => String.ofList_toList
    rw [hsplit, List.map_map, hsame, List.map_id]
  · rintro rfl
    refine ⟨fun hnil => Text.splitAt_ne_nil _ _ (List.map_eq_nil_iff.mp hnil), ?_, ?_⟩
    · refine List.forall_mem_map.mpr fun piece hpiece => ?_
      rw [String.toList_ofList]
      exact Text.not_mem_of_mem_splitAt hpiece
    · have hsame : String.toList ∘ String.ofList = id := funext fun piece => String.toList_ofList
      rw [List.map_map, hsame, List.map_id, Text.splitAt_eq_splitOn, List.intercalate_splitOn]

theorem lookUp_null (names : List String) : lookUp .null names = .null := by
  cases names <;> rfl

theorem lookUp_of_reaches (h : Reaches v names w) : lookUp v names = w := by
  induction h with
  | here v => rfl
  | field hfield h ih =>
    rw [lookUp, Value.get, hfield]
    exact ih

theorem lookUp_of_not_reaches (h : ∀ w, ¬ Reaches v names w) : lookUp v names = .null := by
  induction names generalizing v with
  | nil => exact absurd (.here v) (h v)
  | cons name names ih =>
    cases v with
    | object fields =>
      cases hfield : Fields.get? fields name with
      | none =>
        rw [lookUp, Value.get, hfield]
        exact lookUp_null names
      | some v =>
        rw [lookUp, Value.get, hfield]
        exact ih fun w hw => h w (.field hfield hw)
    | _ => rfl

/-- What is found along a path of names: the value at its end, or null if it ends nowhere. -/
theorem lookUp_eq_iff :
    lookUp v names = w ↔ Reaches v names w ∨ w = .null ∧ ∀ u, ¬ Reaches v names u := by
  constructor
  · rintro rfl
    by_cases h : ∃ u, Reaches v names u
    · obtain ⟨u, hu⟩ := h
      rw [lookUp_of_reaches hu]
      exact Or.inl hu
    · have hnone : ∀ u, ¬ Reaches v names u := fun u hu => h ⟨u, hu⟩
      exact Or.inr ⟨lookUp_of_not_reaches hnone, hnone⟩
  · rintro (h | ⟨rfl, h⟩)
    · exact lookUp_of_reaches h
    · exact lookUp_of_not_reaches h

/-- What a record holds at a path: the value at its end, or null if it ends nowhere. -/
def Holds (record : Value) (path : List Char) (w : Value) : Prop :=
  ∃ names, Dotted path names ∧ (Reaches record names w ∨ w = .null ∧ ∀ u, ¬ Reaches record names u)

/-- **A placeholder stands for what the record holds at its path.** -/
theorem value_eq_iff : value record p = w ↔ Holds record p.path w := by
  unfold value Holds
  rw [lookUp_eq_iff]
  constructor
  · exact fun h => ⟨steps p.path, dotted_iff.mpr rfl, h⟩
  · rintro ⟨names, hnames, h⟩
    rwa [dotted_iff.mp hnames] at h

/-! ## What values become -/

/-- What a value becomes with its placeholders filled in from a record. -/
inductive Rendered (record : Value) : Value → Value → Prop
  /-- One placeholder between blanks becomes what is found, of whatever type it is. -/
  | whole {s : String} {p : Placeholder} (hp : p.WellFormed)
      (h : Text.trimChars s.toList = p.chars) : Rendered record (.text s) (value record p)
  /-- Any other text is cut clean, and the texts of what is found take the places of the
  placeholders. -/
  | mixed {s : String} {c : Cut}
      (h : ∀ p : Placeholder, p.WellFormed → Text.trimChars s.toList ≠ p.chars)
      (hclean : c.Clean) (hchars : c.chars = s.toList) :
      Rendered record (.text s) (.text (String.ofList (c.filled record)))
  | list {vs ws : List Value} (h : List.Forall₂ (Rendered record) vs ws) :
      Rendered record (.list vs) (.list ws)
  | object {fs gs : Fields} (hnames : fs.map Prod.fst = gs.map Prod.fst)
      (h : List.Forall₂ (Rendered record) (fs.map Prod.snd) (gs.map Prod.snd)) :
      Rendered record (.object fs) (.object gs)
  | atom {v : Value} (h : v.IsAtom) : Rendered record v v

/-- The placeholders that occur in the texts of a value. -/
inductive Mentions (p : Placeholder) : Value → Prop
  | text {s : String} (h : p.chars <:+: s.toList) : Mentions p (.text s)
  | item {vs : List Value} {v : Value} (hv : v ∈ vs) (h : Mentions p v) : Mentions p (.list vs)
  | field {fields : Fields} {f : String × Value} (hf : f ∈ fields) (h : Mentions p f.2) :
      Mentions p (.object fields)

/-! ## Texts -/

theorem fillText_of_whole (record : Value) (hp : p.WellFormed)
    (h : Text.trimChars s.toList = p.chars) : fillText record s = value record p := by
  have hfront : Placeholder.front? (Text.trimChars s.toList) = some (p, []) := by
    rw [Placeholder.front?_eq_some_iff, h, List.append_nil]
    exact ⟨hp, rfl⟩
  unfold fillText
  rw [hfront]

theorem fillText_of_mixed (record : Value) {c : Cut}
    (h : ∀ p : Placeholder, p.WellFormed → Text.trimChars s.toList ≠ p.chars) (hclean : c.Clean)
    (hchars : c.chars = s.toList) : fillText record s = .text (String.ofList (c.filled record)) := by
  unfold fillText
  split
  · next p hfront =>
    obtain ⟨hp, hwhole⟩ := Placeholder.front?_eq_some_iff.mp hfront
    rw [List.append_nil] at hwhole
    exact absurd hwhole.symm (h p hp)
  · rw [← hchars, Cut.filled_of_clean hclean]

/-- A text is one placeholder between blanks, or else there is a clean cut of it. -/
theorem whole_or_mixed (s : String) :
    (∃ p : Placeholder, p.WellFormed ∧ Text.trimChars s.toList = p.chars) ∨
      (∀ p : Placeholder, p.WellFormed → Text.trimChars s.toList ≠ p.chars) ∧
        ∃ c : Cut, c.Clean ∧ c.chars = s.toList := by
  by_cases h : ∃ p : Placeholder, p.WellFormed ∧ Text.trimChars s.toList = p.chars
  · exact Or.inl h
  · exact Or.inr ⟨fun p hp hwhole => h ⟨p, hp, hwhole⟩, (Cut.existsUnique_clean s.toList).exists⟩

theorem mentions_of_whole (h : Text.trimChars s.toList = p.chars) : Mentions p (.text s) := by
  refine .text ?_
  rw [← h]
  exact Text.trimWhile_part _ _

/-! ## Lists and objects -/

theorem renderItems_eq_map (record : Value) (vs : List Value) :
    renderItems record vs = vs.map (render record) := by
  induction vs with
  | nil => rfl
  | cons v vs ih => rw [renderItems, ih, List.map_cons]

theorem renderFields_eq_map (record : Value) (fields : Fields) :
    renderFields record fields = fields.map fun f => (f.1, render record f.2) := by
  induction fields with
  | nil => rfl
  | cons f fields ih => rw [renderFields, ih, List.map_cons]

theorem render_list (record : Value) (vs : List Value) :
    render record (.list vs) = .list (vs.map (render record)) := by
  rw [render, renderItems_eq_map]

theorem render_object (record : Value) (fields : Fields) :
    render record (.object fields) = .object (fields.map fun f => (f.1, render record f.2)) := by
  rw [render, renderFields_eq_map]

theorem render_atom (record : Value) (h : v.IsAtom) : render record v = v := by
  cases v with
  | text s => exact absurd h id
  | list vs => exact absurd h id
  | object fields => exact absurd h id
  | _ => rfl

/-- A relation that is a function on the members of a list is that function on the list. -/
theorem forall₂_iff_eq_map {α β : Type} {R : α → β → Prop} {f : α → β} {as : List α} {bs : List β}
    (h : ∀ a ∈ as, ∀ b, R a b ↔ b = f a) : List.Forall₂ R as bs ↔ bs = as.map f := by
  induction as generalizing bs with
  | nil => rw [List.forall₂_nil_left_iff, List.map_nil]
  | cons a as ih =>
    obtain ⟨ha, has⟩ := List.forall_mem_cons.mp h
    rw [List.forall₂_cons_left_iff, List.map_cons]
    constructor
    · rintro ⟨b, rest, hb, hrest, rfl⟩
      rw [(ha b).mp hb, (ih has).mp hrest]
    · rintro rfl
      exact ⟨f a, as.map f, (ha (f a)).mpr rfl, (ih has).mpr rfl, rfl⟩

/-! ## Filling in -/

/-- **What a value becomes is what filling in makes of it.** -/
theorem rendered_iff (record v w : Value) : Rendered record v w ↔ w = render record v := by
  induction v using Value.induction generalizing w with
  | atom v hv =>
    rw [render_atom record hv]
    constructor
    · intro h
      cases h with
      | atom _ => rfl
      | _ => exact absurd hv id
    · rintro rfl
      exact .atom hv
  | text s =>
    rw [render]
    constructor
    · intro h
      cases h with
      | whole hp h => exact (fillText_of_whole record hp h).symm
      | mixed h hclean hchars => exact (fillText_of_mixed record h hclean hchars).symm
      | atom hv => exact absurd hv id
    · rintro rfl
      rcases whole_or_mixed s with ⟨p, hp, h⟩ | ⟨h, c, hclean, hchars⟩
      · rw [fillText_of_whole record hp h]
        exact .whole hp h
      · rw [fillText_of_mixed record h hclean hchars]
        exact .mixed h hclean hchars
  | list vs ih =>
    rw [render_list]
    constructor
    · intro h
      cases h with
      | list h => rw [(forall₂_iff_eq_map fun v hv w => ih v hv w).mp h]
      | atom hv => exact absurd hv id
    · rintro rfl
      exact .list ((forall₂_iff_eq_map fun v hv w => ih v hv w).mpr rfl)
  | object fields ih =>
    have hvalue : ∀ v ∈ fields.map Prod.snd, ∀ w, Rendered record v w ↔ w = render record v :=
      List.forall_mem_map.mpr fun f hf w => ih f hf w
    have hzip : fields.map (fun f => (f.1, render record f.2)) =
        (fields.map Prod.fst).zip ((fields.map Prod.snd).map (render record)) :=
      List.zip_of_prod (by simp) (by simp)
    rw [render_object]
    constructor
    · intro h
      cases h with
      | object hnames h =>
        rw [List.zip_of_prod hnames.symm ((forall₂_iff_eq_map hvalue).mp h), hzip]
      | atom hv => exact absurd hv id
    · rintro rfl
      refine .object (by simp) ((forall₂_iff_eq_map hvalue).mpr ?_)
      simp

/-- A value without placeholders stays what it is. -/
theorem render_of_not_mentions (record : Value)
    (h : ∀ p : Placeholder, p.WellFormed → ¬ Mentions p v) : render record v = v := by
  induction v using Value.induction with
  | atom v hv => exact render_atom record hv
  | text s =>
    have hplain : Plain s.toList := fun p hp hpart => h p hp (.text hpart)
    have hclean : (Cut.mk s.toList []).Clean := ⟨hplain, fun m hm => absurd hm List.not_mem_nil⟩
    have hmixed : ∀ p : Placeholder, p.WellFormed → Text.trimChars s.toList ≠ p.chars :=
      fun p hp hwhole => h p hp (mentions_of_whole hwhole)
    have hfilled : (Cut.mk s.toList []).filled record = s.toList := List.append_nil _
    rw [render, fillText_of_mixed record hmixed hclean (List.append_nil _), hfilled,
      String.ofList_toList]
  | list vs ih =>
    rw [render_list, List.map_congr_left fun v hv => ih v hv fun p hp hv' => h p hp (.item hv hv'),
      List.map_id']
  | object fields ih =>
    have hfields : fields.map (fun f => (f.1, render record f.2)) = fields.map id :=
      List.map_congr_left fun f hf =>
        Prod.ext rfl (ih f hf fun p hp hf' => h p hp (.field hf hf'))
    rw [render_object, hfields, List.map_id]

/-- Records in which the same is found for every placeholder of a value make the same of it. -/
theorem render_congr
    (h : ∀ p : Placeholder, p.WellFormed → Mentions p v → value record p = value record' p) :
    render record v = render record' v := by
  induction v using Value.induction with
  | atom v hv => rw [render_atom record hv, render_atom record' hv]
  | text s =>
    rw [render, render]
    rcases whole_or_mixed s with ⟨p, hp, hwhole⟩ | ⟨hmixed, c, hclean, hchars⟩
    · rw [fillText_of_whole record hp hwhole, fillText_of_whole record' hp hwhole]
      exact h p hp (mentions_of_whole hwhole)
    · have hvalues : ∀ m ∈ c.more, value record m.1 = value record' m.1 := fun m hm => by
        refine h m.1 (hclean.more m hm).1 (.text ?_)
        rw [← hchars]
        exact Cut.part_of_mem hm
      rw [fillText_of_mixed record hmixed hclean hchars,
        fillText_of_mixed record' hmixed hclean hchars, Cut.filled_congr hvalues]
  | list vs ih =>
    rw [render_list, render_list,
      List.map_congr_left fun v hv => ih v hv fun p hp hv' => h p hp (.item hv hv')]
  | object fields ih =>
    have hfields : fields.map (fun f => (f.1, render record f.2)) =
        fields.map fun f => (f.1, render record' f.2) :=
      List.map_congr_left fun f hf =>
        Prod.ext rfl (ih f hf fun p hp hf' => h p hp (.field hf hf'))
    rw [render_object, render_object, hfields]

/-- How a text is cut: in one way that leaves no placeholder, and at every placeholder that occurs. -/
structure CutOnce (cs : List Char) : Prop where
  unique : ∃! c : Cut, c.Clean ∧ c.chars = cs
  every : ∀ (c : Cut) (p : Placeholder) (front rest : List Char), c.Clean → c.chars = cs →
    p.WellFormed → cs = front ++ p.chars ++ rest →
      ∃ before literal behind, c.more = before ++ (p, literal) :: behind ∧
        front = (Cut.mk c.first before).chars ∧ rest = (Cut.mk literal behind).chars

/-- What filling in from a record makes of a value. -/
structure OnePass (record v : Value) : Prop where
  /-- The value is gone through by its parts, each text on its own. -/
  rendered : ∀ w, Rendered record v w ↔ w = render record v
  /-- A placeholder stands for what the record holds at its path. -/
  found : ∀ p w, value record p = w ↔ Holds record p.path w
  unchanged : (∀ p : Placeholder, p.WellFormed → ¬ Mentions p v) → render record v = v
  agreement : ∀ record',
    (∀ p : Placeholder, p.WellFormed → Mentions p v → value record p = value record' p) →
      render record v = render record' v

/-- **Placeholders are filled in once, and nothing else changes.** Every text is cut at its placeholders
in one way, and every value becomes what its parts become; what was put in is not looked at again, and
only what is found for the placeholders of the value matters. -/
theorem render_onePass : (∀ cs, CutOnce cs) ∧ ∀ record v, OnePass record v := by
  constructor
  · intro cs
    refine ⟨Cut.existsUnique_clean cs, ?_⟩
    rintro c p front rest hclean rfl hp h
    exact Cut.mem_of_clean hclean hp h
  · intro record v
    constructor
    · exact fun w => rendered_iff record v w
    · exact fun p w => value_eq_iff
    · exact fun h => render_of_not_mentions record h
    · exact fun record' h => render_congr h

-- The first brace belongs to no placeholder, and the placeholder that is put in stays one.
example : render (.object [("a", .text "\x7b\x7bb\x7d\x7d"), ("b", .int 1)])
    (.text "\x7b\x7b\x7ba\x7d\x7d") = .text "\x7b\x7b\x7bb\x7d\x7d" := by cbv

end Template

end ChangeRules
