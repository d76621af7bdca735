import OneApi.Proofs.DocumentGrammar

/-! Written documents. What is written of a document whose strings have a text and whose numerals are
literals is one of its texts, in one line or indented, and so it is read back. -/

namespace OneApi.Json

/-- What a document holds that was made by writing: no broken string, no numeral out of form. -/
inductive Regular : Json → Prop where
  | null : Regular .null
  | bool (b : Bool) : Regular (.bool b)
  | number {n : Numeral} (h : n.IsLiteral) : Regular (.number n)
  | string (s : String) : Regular (.string (some s))
  | array {items : List Json} (h : ∀ v ∈ items, Regular v) : Regular (.array items)
  | object {members : List (Option String × Json)} (hkeys : ∀ m ∈ members, m.1.isSome = true)
      (hvalues : ∀ m ∈ members, Regular m.2) : Regular (.object members)

/-! ## Writing -/

section

variable {pretty : Bool} {depth : Nat}

theorem blank_gap (pretty : Bool) (depth : Nat) : Blank (gap pretty depth) := by
  cases pretty with
  | false => exact List.forall_mem_nil _
  | true =>
    refine List.forall_mem_cons.mpr ⟨rfl, fun c hc => ?_⟩
    rw [List.eq_of_mem_replicate hc]
    rfl

/-- An item as it is written. -/
def itemElement (pretty : Bool) (depth : Nat) (v : Json) : Element :=
  ⟨gap pretty depth, write pretty depth v, [], v⟩

def memberOf (pretty : Bool) (depth : Nat) (m : Option String × Json) : Member :=
  ⟨gap pretty depth, stringText m.1, [], m.1,
    ⟨(separator pretty).tail, write pretty depth m.2, [], m.2⟩⟩

theorem spaced_itemElement (v : Json) : (itemElement pretty depth v).Spaced :=
  ⟨blank_gap pretty depth, List.forall_mem_nil _⟩

theorem spaced_memberOf {m : Option String × Json} (hkey : m.1.isSome = true) :
    (memberOf pretty depth m).Spaced := by
  obtain ⟨key, v⟩ := m
  obtain ⟨name, rfl⟩ := Option.isSome_iff_exists.mp hkey
  refine ⟨blank_gap pretty depth, List.forall_mem_nil _, stringSpells_stringText name, ?_,
    List.forall_mem_nil _⟩
  cases pretty with
  | false => exact List.forall_mem_nil _
  | true => exact List.forall_mem_singleton.mpr rfl

theorem intercalate_items (v : Json) (vs : List Json) :
    [','].intercalate (((v :: vs).map (itemElement pretty depth)).map Element.chars) =
      gap pretty depth ++ (write pretty depth v ++ writeItems pretty depth vs) := by
  induction vs generalizing v with
  | nil => simp [writeItems, itemElement, Element.chars]
  | cons next vs ih =>
    have hnext := ih next
    rw [List.map_cons, List.map_cons] at hnext
    rw [List.map_cons, List.map_cons, List.map_cons, List.map_cons, List.intercalate_cons_cons, hnext,
      writeItems]
    simp [itemElement, Element.chars]

theorem intercalate_members (m : Option String × Json) (ms : List (Option String × Json)) :
    [','].intercalate (((m :: ms).map (memberOf pretty depth)).map Member.chars) =
      gap pretty depth ++ (stringText m.1 ++ (separator pretty ++ (write pretty depth m.2 ++
        writeMembers pretty depth ms))) := by
  induction ms generalizing m with
  | nil => cases pretty <;> simp [writeMembers, memberOf, Member.chars, Element.chars, separator]
  | cons next ms ih =>
    have hnext := ih next
    rw [List.map_cons, List.map_cons] at hnext
    rw [List.map_cons, List.map_cons, List.map_cons, List.map_cons, List.intercalate_cons_cons, hnext,
      writeMembers]
    cases pretty <;> simp [memberOf, Member.chars, Element.chars, separator]

end

/-- What is written of a regular document is one of its texts. -/
theorem Regular.spells_write {v : Json} (h : Regular v) (pretty : Bool) (depth : Nat) :
    Spells (write pretty depth v) v := by
  induction h generalizing depth with
  | null =>
    rw [write]
    exact .null
  | bool b =>
    rw [write]
    cases b with
    | false => exact .false
    | true => exact .true
  | number h =>
    rw [write]
    exact .number h.spells_text
  | string s =>
    rw [write]
    exact .string (stringSpells_stringText s)
  | @array items _ ih =>
    have hspells : Spells _ (.array ((items.map (itemElement pretty (depth + 1))).map _)) :=
      .array (blank_gap pretty depth) (List.forall_mem_map.mpr fun v _ => spaced_itemElement v)
        (List.forall_mem_map.mpr fun v hv => ih v hv (depth + 1))
    have hvalues : (items.map (itemElement pretty (depth + 1))).map Element.value = items := by
      rw [List.map_map]
      exact List.map_id items
    rw [hvalues] at hspells
    cases items with
    | nil => exact @Spells.array [] [] blank_nil (by simp) (by simp)
    | cons v vs =>
      rw [intercalate_items] at hspells
      simpa only [write, List.cons_append, List.append_assoc, List.nil_append] using hspells
  | @object members hkeys _ ih =>
    have hspells : Spells _ (.object ((members.map (memberOf pretty (depth + 1))).map _)) :=
      .object (blank_gap pretty depth)
        (List.forall_mem_map.mpr fun m hm => spaced_memberOf (hkeys m hm))
        (List.forall_mem_map.mpr fun m hm => ih m hm (depth + 1))
    have hentries : (members.map (memberOf pretty (depth + 1))).map Member.entry = members := by
      rw [List.map_map]
      exact List.map_id members
    rw [hentries] at hspells
    cases members with
    | nil => exact @Spells.object [] [] blank_nil (by simp) (by simp)
    | cons m ms =>
      rw [intercalate_members] at hspells
      simpa only [write, List.cons_append, List.append_assoc, List.nil_append] using hspells

/-- Writing and reading gives the document back, with blanks behind it as well. -/
theorem Regular.parse_write_append {v : Json} (h : Regular v) (pretty : Bool) {rest : List Char}
    (hrest : ∀ c ∈ rest, isBlank c = true) : parse (write pretty 0 v ++ rest) = some v := by
  have hspaced : (Element.mk [] (write pretty 0 v) rest v).Spaced := ⟨blank_nil, hrest⟩
  exact (SpellsDocument.intro hspaced (h.spells_write pretty 0)).parse_eq

theorem Regular.parse_write {v : Json} (h : Regular v) (pretty : Bool) :
    parse (write pretty 0 v) = some v := by
  rw [← h.parse_write_append pretty (List.forall_mem_nil _), List.append_nil]

end OneApi.Json
