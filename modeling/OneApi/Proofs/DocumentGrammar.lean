import OneApi.Proofs.WrittenWord

/-! The grammar of documents. A text spells a document when it has its words in order, with any
white space between them; words have several spellings too. Each text of a value is read as one
step, whatever stands around it, so each text of a document is read as this document. Values may be
nested to any depth. -/

namespace OneApi.Json

/-- A value of an array or an object, with the white space around it. -/
structure Element where
  before : List Char
  text : List Char
  after : List Char
  value : Json

/-- A member of an object, with the white space around its key. -/
structure Member where
  before : List Char
  keyText : List Char
  after : List Char
  key : Option String
  element : Element

def Element.chars (e : Element) : List Char := e.before ++ (e.text ++ e.after)

def Member.chars (m : Member) : List Char :=
  m.before ++ (m.keyText ++ (m.after ++ ':' :: m.element.chars))

def Member.entry (m : Member) : Option String × Json := (m.key, m.element.value)

structure Element.Spaced (e : Element) : Prop where
  before : Blank e.before
  after : Blank e.after

structure Member.Spaced (m : Member) : Prop where
  before : Blank m.before
  after : Blank m.after
  key : StringSpells m.keyText m.key
  element : m.element.Spaced

/-- The texts of values: literals, words, and arrays and objects with commas between their parts. -/
inductive Spells : List Char → Json → Prop
  | null : Spells "null".toList .null
  | true : Spells "true".toList (.bool true)
  | false : Spells "false".toList (.bool false)
  | number {s : List Char} {n : Numeral} : n.Spells s → Spells s (.number n)
  | string {s : List Char} {t : Option String} : StringSpells s t → Spells s (.string t)
  | array {gap : List Char} {es : List Element} : Blank gap → (∀ e ∈ es, e.Spaced) →
    (∀ e ∈ es, Spells e.text e.value) →
    Spells ('[' :: ([','].intercalate (es.map Element.chars) ++ (gap ++ [']'])))
      (.array (es.map Element.value))
  | object {gap : List Char} {ms : List Member} : Blank gap → (∀ m ∈ ms, m.Spaced) →
    (∀ m ∈ ms, Spells m.element.text m.element.value) →
    Spells ('\x7b' :: ([','].intercalate (ms.map Member.chars) ++ (gap ++ ['\x7d'])))
      (.object (ms.map Member.entry))

/-- The texts of documents: those of a value, with white space around it. -/
inductive SpellsDocument : List Char → Json → Prop
  | intro {e : Element} : e.Spaced → Spells e.text e.value → SpellsDocument e.chars e.value

/-! ## Reading -/

namespace State

variable {s gap rest : List Char} {v : Json} {stack : List Frame}

/-- A text is read as a value, wherever a value may stand. -/
def Reads (s : List Char) (v : Json) : Prop :=
  ∀ first stack rest, Stops rest →
    (State.value first stack).run (s ++ rest) = (State.done v stack).run rest

theorem stops_blanks (h : Blank gap) (hrest : Stops rest) : Stops (gap ++ rest) := by
  cases gap with
  | nil => exact hrest
  | cons c gap =>
    have hblank := h c List.mem_cons_self
    simp only [isBlank, Bool.or_eq_true, beq_iff_eq] at hblank
    obtain ((rfl | rfl) | rfl) | rfl := hblank <;> exact stops_cons rfl _

theorem run_element {e : Element} (hspaced : e.Spaced) (h : Reads e.text e.value) (first : Bool)
    (stack : List Frame) (hrest : Stops rest) :
    (State.value first stack).run (e.chars ++ rest) = (State.done e.value stack).run rest := by
  rw [Element.chars, List.append_assoc, List.append_assoc, run_blanks hspaced.before,
    h first stack _ (stops_blanks hspaced.after hrest), run_blanks hspaced.after]

/-- What is left of an array, up to its bracket. -/
theorem run_elements {es : List Element} (hne : es ≠ []) (hspaced : ∀ e ∈ es, e.Spaced)
    (h : ∀ e ∈ es, Reads e.text e.value) (hgap : Blank gap) (first : Bool) (items : List Json) :
    (State.value first (.array items :: stack)).run
        ([','].intercalate (es.map Element.chars) ++ (gap ++ ']' :: rest)) =
      (State.done (.array (items.reverse ++ es.map Element.value)) stack).run rest := by
  -- on the elements left to read; those that were read move to the frame, last first
  induction es generalizing first items with
  | nil => contradiction
  | cons e es ih =>
    obtain ⟨hsp, hspaced⟩ := List.forall_mem_cons.mp hspaced
    obtain ⟨he, h⟩ := List.forall_mem_cons.mp h
    cases es with
    | nil =>
      rw [List.map_singleton, List.intercalate_singleton,
        run_element hsp he first _ (stops_blanks hgap (stops_cons rfl rest)), run_blanks hgap,
        run_token (t := .closeArray) rfl]
      show (State.done (.array (e.value :: items).reverse) stack).run rest = _
      rw [List.reverse_cons]
      rfl
    | cons next es =>
      rw [List.map_cons, List.map_cons, List.intercalate_cons_cons, List.append_assoc,
        List.append_assoc, List.singleton_append, run_element hsp he first _ (stops_cons rfl _),
        run_token (t := .comma) rfl]
      show (State.value .false (.array (e.value :: items) :: stack)).run _ = _
      rw [← List.map_cons, ih (by simp) hspaced h, List.reverse_cons, List.append_assoc]
      rfl

theorem step_key_string (first : Bool) (members : List (Option String × Json)) (k : Option String) :
    (State.key first members stack).step (.string k) = some (.colon members k stack) := by
  cases first <;> rfl

theorem run_member {m : Member} (hspaced : m.Spaced) (h : Reads m.element.text m.element.value)
    (first : Bool) (members : List (Option String × Json)) (hrest : Stops rest) :
    (State.key first members stack).run (m.chars ++ rest) =
      (State.done m.element.value (.object members m.key :: stack)).run rest := by
  simp only [Member.chars, List.append_assoc, List.cons_append]
  rw [run_blanks hspaced.before, run_token (hspaced.key.readToken_eq _)]
  rw [step_key_string]
  show (State.colon members m.key stack).run _ = _
  rw [run_blanks hspaced.after, run_token (t := .colon) rfl]
  exact run_element hspaced.element h .false _ hrest

/-- What is left of an object, up to its brace. -/
theorem run_members {ms : List Member} (hne : ms ≠ []) (hspaced : ∀ m ∈ ms, m.Spaced)
    (h : ∀ m ∈ ms, Reads m.element.text m.element.value) (hgap : Blank gap) (first : Bool)
    (members : List (Option String × Json)) :
    (State.key first members stack).run
        ([','].intercalate (ms.map Member.chars) ++ (gap ++ '\x7d' :: rest)) =
      (State.done (.object (members.reverse ++ ms.map Member.entry)) stack).run rest := by
  induction ms generalizing first members with
  | nil => contradiction
  | cons m ms ih =>
    obtain ⟨hsp, hspaced⟩ := List.forall_mem_cons.mp hspaced
    obtain ⟨hm, h⟩ := List.forall_mem_cons.mp h
    cases ms with
    | nil =>
      rw [List.map_singleton, List.intercalate_singleton,
        run_member hsp hm first _ (stops_blanks hgap (stops_cons rfl rest)), run_blanks hgap,
        run_token (t := .closeObject) rfl]
      show (State.done (.object (m.entry :: members).reverse) stack).run rest = _
      rw [List.reverse_cons]
      rfl
    | cons next ms =>
      rw [List.map_cons, List.map_cons, List.intercalate_cons_cons, List.append_assoc,
        List.append_assoc, List.singleton_append, run_member hsp hm first _ (stops_cons rfl _),
        run_token (t := .comma) rfl]
      show (State.key .false (m.entry :: members) stack).run _ = _
      rw [← List.map_cons, ih (by simp) hspaced h, List.reverse_cons, List.append_assoc]
      rfl

end State

open State

theorem Spells.reads {s : List Char} {v : Json} (h : Spells s v) : Reads s v := by
  induction h with
  | null =>
    intro first stack rest _
    exact run_token (t := .null) rfl _
  | true =>
    intro first stack rest _
    exact run_token (t := .bool .true) rfl _
  | false =>
    intro first stack rest _
    exact run_token (t := .bool .false) rfl _
  | number h =>
    intro first stack rest hrest
    exact run_token (readToken_number h hrest) _
  | string h =>
    intro first stack rest _
    exact run_token (h.readToken_eq rest) _
  | @array gap es hgap hspaced _ ih =>
    intro first stack rest _
    rw [List.cons_append, run_token (t := .openArray) rfl]
    show (State.value .true (.array [] :: stack)).run _ = _
    rw [List.append_assoc, List.append_assoc]
    by_cases hes : es = []
    · subst hes
      rw [List.map_nil, List.intercalate_nil, List.nil_append, run_blanks hgap]
      exact run_token (t := .closeArray) rfl _
    · exact run_elements hes hspaced ih hgap .true []
  | @object gap ms hgap hspaced _ ih =>
    intro first stack rest _
    rw [List.cons_append, run_token (t := .openObject) rfl]
    show (State.key .true [] stack).run _ = _
    rw [List.append_assoc, List.append_assoc]
    by_cases hms : ms = []
    · subst hms
      rw [List.map_nil, List.intercalate_nil, List.nil_append, run_blanks hgap]
      exact run_token (t := .closeObject) rfl _
    · exact run_members hms hspaced ih hgap .true []

/-- Every text of a document is read as the document. -/
theorem SpellsDocument.parse_eq {s : List Char} {v : Json} (h : SpellsDocument s v) :
    parse s = some v := by
  obtain ⟨hspaced, h⟩ := h
  have hstops : Stops [] := by rintro c ⟨⟩
  have hrun := run_element hspaced h.reads .false [] hstops
  rw [List.append_nil] at hrun
  rw [State.parse_eq, start, hrun, run_nil]
  rfl

end OneApi.Json
