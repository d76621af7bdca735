import OneApi.Proofs.DocumentReading

/-! Places in documents. A place is the way from a document down to one of its values. Every text of a
document can be cut at a place into the text of the value there and what stands before and behind it;
with a text of any other value between these, it is a text of the document with that value. -/

namespace OneApi.Json

/-- One step up, from a value to the object or array that holds it. -/
inductive Around where
  | member (before after : List (Option String × Json)) (key : Option String)
  | item (before after : List Json)

def Around.put : Around → Json → Json
  | member before after key, v => .object (before ++ (key, v) :: after)
  | item before after, v => .array (before ++ v :: after)

/-- The way to a value, from the outermost step. -/
abbrev Place := List Around

def Place.put (place : Place) (v : Json) : Json := place.foldr Around.put v

@[simp]
theorem Place.put_nil (v : Json) : Place.put [] v = v := rfl

@[simp]
theorem Place.put_cons (step : Around) (place : Place) (v : Json) :
    Place.put (step :: place) v = step.put (place.put v) := rfl

/-- A text of a document with a gap at a place. -/
structure Gap (place : Place) where
  front : List Char
  back : List Char
  spells {text : List Char} {v : Json} :
    Spells text v → SpellsDocument (front ++ (text ++ back)) (place.put v)

def Gap.fill {place : Place} (gap : Gap place) (text : List Char) : String :=
  String.ofList (gap.front ++ (text ++ gap.back))

/-! ## Cutting -/

/-- What stands behind a part, each further part with its comma. -/
def following (parts : List (List Char)) : List Char := (parts.map (',' :: ·)).flatten

theorem intercalate_cons (part : List Char) (parts : List (List Char)) :
    [','].intercalate (part :: parts) = part ++ following parts := by
  induction parts generalizing part with
  | nil => simp [following]
  | cons next parts ih =>
    rw [List.intercalate_cons_cons, ih]
    simp [following]

theorem intercalate_around (before after : List (List Char)) (part : List Char) :
    [','].intercalate (before ++ part :: after) = commas before ++ (part ++ following after) := by
  induction before with
  | nil => exact intercalate_cons part after
  | cons first before ih =>
    obtain ⟨next, rest, hcons⟩ : ∃ next rest, before ++ part :: after = next :: rest := by
      cases before <;> simp
    rw [List.cons_append, hcons, List.intercalate_cons_cons, ← hcons, ih]
    simp [commas]

theorem forall_mem_around {α : Type} {p : α → Prop} {before after : List α} {a : α} :
    (∀ x ∈ before ++ a :: after, p x) ↔ p a ∧ (∀ x ∈ before, p x) ∧ ∀ x ∈ after, p x := by
  rw [List.forall_mem_append, List.forall_mem_cons]
  exact and_left_comm

/-- A text is cut around the text of a value, which any other value can stand for. -/
structure Cuts (s front text back : List Char) (put : Json → Json) (v : Json) : Prop where
  split : s = front ++ (text ++ back)
  spells : Spells text v
  refill {other : List Char} {w : Json} : Spells other w → Spells (front ++ (other ++ back)) (put w)

theorem Spells.cut_item {s : List Char} {before after : List Json} {v : Json}
    (h : Spells s (.array (before ++ v :: after))) :
    ∃ front text back, Cuts s front text back (Around.item before after).put v := by
  generalize hvalue : Json.array (before ++ v :: after) = whole at h
  cases h with
  | @array gap es hgap hspaced hspells =>
    obtain ⟨bs, rest, rfl, rfl, hrest⟩ := List.map_eq_append_iff.mp (Json.array.inj hvalue).symm
    obtain ⟨e, as, rfl, rfl, rfl⟩ := List.map_eq_cons_iff.mp hrest
    obtain ⟨hspaced, hspacedRest⟩ := forall_mem_around.mp hspaced
    obtain ⟨hspells, hspellsRest⟩ := forall_mem_around.mp hspells
    refine ⟨'[' :: (commas (bs.map Element.chars) ++ e.before), e.text,
      e.after ++ (following (as.map Element.chars) ++ (gap ++ [']'])), ?_, hspells, ?_⟩
    · simp [intercalate_around, Element.chars]
    · intro other w hother
      let filled : Element := { e with text := other, value := w }
      have hfilled : Spells _ (.array ((bs ++ filled :: as).map Element.value)) :=
        .array hgap (forall_mem_around.mpr ⟨⟨hspaced.before, hspaced.after⟩, hspacedRest⟩)
          (forall_mem_around.mpr ⟨hother, hspellsRest⟩)
      simpa [intercalate_around, Element.chars, Around.put, filled] using hfilled
  | _ => cases hvalue

theorem Spells.cut_member {s : List Char} {before after : List (Option String × Json)}
    {key : Option String} {v : Json} (h : Spells s (.object (before ++ (key, v) :: after))) :
    ∃ front text back, Cuts s front text back (Around.member before after key).put v := by
  generalize hvalue : Json.object (before ++ (key, v) :: after) = whole at h
  cases h with
  | @object gap ms hgap hspaced hspells =>
    obtain ⟨bs, rest, rfl, rfl, hrest⟩ := List.map_eq_append_iff.mp (Json.object.inj hvalue).symm
    obtain ⟨m, as, rfl, hentry, rfl⟩ := List.map_eq_cons_iff.mp hrest
    cases hentry
    obtain ⟨hspaced, hspacedRest⟩ := forall_mem_around.mp hspaced
    obtain ⟨hspells, hspellsRest⟩ := forall_mem_around.mp hspells
    refine ⟨'\x7b' :: (commas (bs.map Member.chars) ++
        (m.before ++ (m.keyText ++ (m.after ++ ':' :: m.element.before)))), m.element.text,
      m.element.after ++ (following (as.map Member.chars) ++ (gap ++ ['\x7d'])), ?_, hspells, ?_⟩
    · simp [intercalate_around, Member.chars, Element.chars]
    · intro other w hother
      let filled : Member := { m with element := { m.element with text := other, value := w } }
      have hfilledSpaced : filled.Spaced :=
        ⟨hspaced.before, hspaced.after, hspaced.key, hspaced.element.before, hspaced.element.after⟩
      have hfilled : Spells _ (.object ((bs ++ filled :: as).map Member.entry)) :=
        .object hgap (forall_mem_around.mpr ⟨hfilledSpaced, hspacedRest⟩)
          (forall_mem_around.mpr ⟨hother, hspellsRest⟩)
      simpa [intercalate_around, Member.chars, Member.entry, Element.chars, Around.put, filled]
        using hfilled
  | _ => cases hvalue

/-- A text of a value can be cut at each of its places. -/
theorem Spells.cut {place : Place} {s : List Char} {v : Json} (h : Spells s (place.put v)) :
    ∃ front text back, Cuts s front text back place.put v := by
  -- from the outermost step, whose part is the text that the rest of the way goes through
  induction place generalizing s with
  | nil =>
    refine ⟨[], s, [], by simp, h, ?_⟩
    intro other w hother
    simpa using hother
  | cons step place ih =>
    have hstep : ∃ front text back, Cuts s front text back step.put (Place.put place v) := by
      cases step with
      | member before after key => exact Spells.cut_member h
      | item before after => exact Spells.cut_item h
    obtain ⟨front, text, back, rfl, hinner, hrefill⟩ := hstep
    obtain ⟨left, part, right, rfl, hpart, hrefillPart⟩ := ih hinner
    refine ⟨front ++ left, part, right ++ back, by simp, hpart, ?_⟩
    intro other w hother
    have hfilled := hrefill (hrefillPart hother)
    simpa using hfilled

/-- Every text of a document with a value at a place is a text with a gap there, and a text of the
value in it. -/
theorem exists_gap {place : Place} {s : String} {v : Json}
    (h : SpellsDocument s.toList (place.put v)) :
    ∃ gap : Gap place, ∃ text, Spells text v ∧ s = gap.fill text := by
  generalize hvalue : place.put v = whole at h
  generalize hs : s.toList = chars at h
  obtain ⟨hspaced, hspells⟩ := h
  rename_i e
  rw [← hvalue] at hspells
  obtain ⟨front, text, back, hsplit, hv, hrefill⟩ := hspells.cut
  let gap : Gap place :=
    { front := e.before ++ front
      back := back ++ e.after
      spells := by
        intro other w hother
        have hdocument := SpellsDocument.intro
          (e := { e with text := front ++ (other ++ back), value := place.put w })
          ⟨hspaced.before, hspaced.after⟩ (hrefill hother)
        simpa [Element.chars] using hdocument }
  refine ⟨gap, text, hv, ?_⟩
  rw [← String.toList_inj, hs, Gap.fill, String.toList_ofList]
  simp [gap, Element.chars, hsplit]

end OneApi.Json
