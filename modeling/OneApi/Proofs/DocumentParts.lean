import OneApi.Proofs.DocumentPlaces
import OneApi.Proofs.KnownMembers

/-! Parts of what is read. A part of a value can be replaced without touching the rest. It is read from a
place in documents when the value there decides this part and nothing else; so are the fields of
records, the items of lists, and the parts of such parts. -/

namespace OneApi

open Json

/-- A part that a value may have, and the value with another one in its place. -/
structure Component (α β : Type) where
  get? : α → Option β
  put : β → α → α
  get?_put {a : α} {x : β} (y : β) : get? a = some x → get? (put y a) = some y
  put_put (x y : β) (a : α) : put y (put x a) = put y a
  put_self {a : α} {x : β} : get? a = some x → put x a = a

namespace Component

variable {α β γ : Type}

/-- A part that every value has. -/
def always (get : α → β) (put : β → α → α) (get_put : ∀ y a, get (put y a) = y)
    (put_put : ∀ x y a, put y (put x a) = put y a) (put_self : ∀ a, put (get a) a = a) :
    Component α β where
  get? a := some (get a)
  put := put
  get?_put y _ := congrArg some (get_put y _)
  put_put := put_put
  put_self h := Option.some.inj h ▸ put_self _

def item (i : Nat) : Component (List β) β where
  get? items := items[i]?
  put x items := items.set i x
  get?_put y h := by
    obtain ⟨hlt, _⟩ := List.getElem?_eq_some_iff.mp h
    exact List.getElem?_set_self hlt
  put_put _ _ _ := List.set_set _
  put_self h := by
    obtain ⟨hlt, hx⟩ := List.getElem?_eq_some_iff.mp h
    rw [← hx]
    exact List.set_getElem_self hlt

/-- A part of a part. -/
def within (outer : Component α β) (inner : Component β γ) : Component α γ where
  get? a := (outer.get? a).bind inner.get?
  put z a :=
    match outer.get? a with
    | none => a
    | some x => outer.put (inner.put z x) a
  get?_put {a z} y h := by
    obtain ⟨x, hx, hz⟩ := Option.bind_eq_some_iff.mp h
    simp only [hx, outer.get?_put _ hx, Option.bind_some]
    exact inner.get?_put y hz
  put_put y z a := by
    cases hx : outer.get? a with
    | none => simp only [hx]
    | some x => simp only [outer.get?_put _ hx, inner.put_put, outer.put_put]
  put_self {a z} h := by
    obtain ⟨x, hx, hz⟩ := Option.bind_eq_some_iff.mp h
    simp only [hx, inner.put_self hz, outer.put_self hx]

end Component

/-- Of what is read of a document, a part is read from a place, and nothing else is. -/
structure ReadsPart {α β : Type} (read : Json → Option α) (place : Place)
    (readPart : Json → Option β) (part : Component α β) : Prop where
  get {v : Json} {a : α} : read (place.put v) = some a →
    ∃ x, part.get? a = some x ∧ readPart v = some x
  put {v w : Json} {a : α} {y : β} : read (place.put v) = some a → readPart w = some y →
    read (place.put w) = some (part.put y a)

section

variable {α β γ : Type} {read : Json → Option α} {outer inner : Place}
  {readPart : Json → Option β} {readInner : Json → Option γ} {part : Component α β}
  {innerPart : Component β γ}

theorem ReadsPart.within (h : ReadsPart read outer readPart part)
    (hinner : ReadsPart readPart inner readInner innerPart) :
    ReadsPart read (outer ++ inner) readInner (part.within innerPart) := by
  have happend (v : Json) : Place.put (outer ++ inner) v = Place.put outer (Place.put inner v) :=
    List.foldr_append
  constructor
  · intro v a hread
    rw [happend] at hread
    obtain ⟨x, hx, hpart⟩ := h.get hread
    obtain ⟨z, hz, hv⟩ := hinner.get hpart
    exact ⟨z, Option.bind_eq_some_iff.mpr ⟨x, hx, hz⟩, hv⟩
  · intro v w a z hread hw
    rw [happend] at hread ⊢
    obtain ⟨x, hx, hpart⟩ := h.get hread
    rw [h.put hread (hinner.put hpart hw)]
    simp only [Component.within, hx]

end

/-! ## Items of lists -/

theorem Json.readsPart_item {β : Type} (read : Json → Option β) (before after : List Json) :
    ReadsPart (list? read) [.item before after] read (.item before.length) := by
  have hlist (v : Json) (as : List β) : list? read (Place.put [.item before after] v) = some as ↔
      ∃ bs x cs, before.mapM read = some bs ∧ read v = some x ∧ after.mapM read = some cs ∧
        as = bs ++ x :: cs := by
    show (before ++ v :: after).mapM read = some as ↔ _
    simp only [List.mapM_append, List.mapM_cons, Option.bind_eq_bind, Option.bind_eq_some_iff,
      Option.pure_def, Option.some.injEq]
    constructor
    · intro h
      obtain ⟨bs, hbs, _, ⟨x, hx, cs, hcs, rfl⟩, rfl⟩ := h
      exact ⟨bs, x, cs, hbs, hx, hcs, rfl⟩
    · intro h
      obtain ⟨bs, x, cs, hbs, hx, hcs, rfl⟩ := h
      exact ⟨bs, hbs, _, ⟨x, hx, cs, hcs, rfl⟩, rfl⟩
  have hlength {bs : List β} (h : before.mapM read = some bs) : bs.length = before.length := by
    have h : list? read (.array before) = some bs := h
    obtain ⟨_, ⟨⟩, hitems⟩ := forall₂_of_list? h
    exact hitems.length_eq.symm
  constructor
  · intro v as h
    obtain ⟨bs, x, cs, hbs, hx, _, rfl⟩ := (hlist v as).mp h
    refine ⟨x, ?_, hx⟩
    simp [Component.item, ← hlength hbs]
  · intro v w as y h hw
    obtain ⟨bs, x, cs, hbs, hx, hcs, rfl⟩ := (hlist v as).mp h
    refine (hlist w _).mpr ⟨bs, y, cs, hbs, hw, hcs, ?_⟩
    simp [Component.item, ← hlength hbs]

/-! ## Fields of records -/

namespace Json

/-- The steps to the value of a field: to the member with its key, or to the item of an array that
stands where the field does. -/
inductive FieldStep (keys : List String) (key : String) : Around → Prop
  | member (before after : Members) : FieldStep keys key (.member before after (some key))
  | item {before : List Json} (after : List Json) : keys[before.length]? = some key →
    FieldStep keys key (.item before after)

variable {keys : List String} {key : String} {step : Around} {fs : Fields} {v : Json}

/-- The fields of a record, of which one is read from the value at a step. -/
structure Leads (keys : List String) (key : String) (step : Around) (fs : Fields) (v : Json)
    (before after : Fields) : Prop where
  split : fs = before ++ (key, v) :: after
  first : key ∉ before.map Prod.fst
  replace (w : Json) : fields? keys (step.put w) = some (before ++ (key, w) :: after)

theorem known_around (hkey : key ∈ keys) (before after : Fields) (v : Json) :
    known keys (before ++ (key, v) :: after) = known keys before ++ (key, v) :: known keys after := by
  have hrest : known keys ((key, v) :: after) = (key, v) :: known keys after :=
    List.filter_cons_of_pos (List.contains_iff_mem.mpr hkey)
  rw [known, List.filter_append, ← known, ← known, hrest]

theorem leads_member {before after : Members} (hkey : key ∈ keys)
    (hfs : fields? keys ((Around.member before after (some key)).put v) = some fs) :
    ∃ bs as, Leads keys key (.member before after (some key)) fs v bs as := by
  obtain ⟨all, hall, _⟩ : ∃ all, named? (before ++ (some key, v) :: after) = some all ∧ _ :=
    Option.bind_eq_some_iff.mp hfs
  have hmap := (named?_eq_some_iff.mp hall).symm
  obtain ⟨bs, rest, rfl, rfl, hrest⟩ := List.map_eq_append_iff.mp hmap
  obtain ⟨m, as, rfl, hm, rfl⟩ := List.map_eq_cons_iff.mp hrest
  cases hm
  -- the keys do not depend on the value, so neither does it whether one is repeated
  have hnames (w : Json) : (known keys (bs ++ (m.1, w) :: as)).map Prod.fst =
      (known keys bs).map Prod.fst ++ m.1 :: (known keys as).map Prod.fst := by
    rw [known_around hkey, List.map_append, List.map_cons]
  have hfields (w : Json) :
      fields? keys ((Around.member (bs.map named) (as.map named) (some m.1)).put w) =
        if ((known keys bs).map Prod.fst ++ m.1 :: (known keys as).map Prod.fst).Nodup then
          some (known keys bs ++ (m.1, w) :: known keys as) else none := by
    have hobject := fields?_object keys (bs ++ (m.1, w) :: as)
    rw [hnames, known_around hkey, List.map_append, List.map_cons] at hobject
    exact hobject
  rw [hfields] at hfs
  split at hfs
  · rename_i hnodup
    cases hfs
    refine ⟨_, _, rfl, fun hmem => ?_, fun w => (hfields w).trans (if_pos hnodup)⟩
    exact (List.nodup_cons.mp (List.nodup_middle.mp hnodup)).1 (List.mem_append_left _ hmem)
  · cases hfs

theorem leads_item {before after : List Json} (hkeys : keys.Nodup)
    (hkey : keys[before.length]? = some key)
    (hfs : fields? keys ((Around.item before after).put v) = some fs) :
    ∃ bs as, Leads keys key (.item before after) fs v bs as := by
  obtain ⟨hlt, hget⟩ := List.getElem?_eq_some_iff.mp hkey
  have hdrop : keys.drop before.length = key :: keys.drop (before.length + 1) := by
    rw [List.drop_eq_getElem_cons hlt, hget]
  have hsplit : keys.take before.length ++ key :: keys.drop (before.length + 1) = keys := by
    rw [← hdrop, List.take_append_drop]
  have hlength : (keys.take before.length).length = before.length :=
    List.length_take_of_le (Nat.le_of_lt hlt)
  have hzip (w : Json) : keys.zip (before ++ w :: after) =
      (keys.take before.length).zip before ++
        (key, w) :: (keys.drop (before.length + 1)).zip after := by
    rw [← List.zip_cons_cons, ← List.zip_append hlength, hsplit]
  have hfields (w : Json) : fields? keys ((Around.item before after).put w) =
      if before.length + (after.length + 1) ≤ keys.length then
        some ((keys.take before.length).zip before ++
          (key, w) :: (keys.drop (before.length + 1)).zip after) else none := by
    rw [← hzip, ← List.length_cons, ← List.length_append]
    rfl
  rw [hfields] at hfs
  split at hfs
  · rename_i hle
    cases hfs
    refine ⟨_, _, rfl, fun hmem => ?_, fun w => (hfields w).trans (if_pos hle)⟩
    rw [List.map_fst_zip (Nat.le_of_eq hlength)] at hmem
    rw [← hsplit] at hkeys
    exact (List.nodup_cons.mp (List.nodup_middle.mp hkeys)).1 (List.mem_append_left _ hmem)
  · cases hfs

theorem FieldStep.exists_leads (hstep : FieldStep keys key step) (hkeys : keys.Nodup)
    (hkey : key ∈ keys) (hfs : fields? keys (step.put v) = some fs) :
    ∃ before after, Leads keys key step fs v before after := by
  cases hstep with
  | member _ _ => exact leads_member hkey hfs
  | item _ hplace => exact leads_item hkeys hplace hfs

variable {α : Type}

theorem field_middle {missing : Option α} {before : Fields} (h : key ∉ before.map Prod.fst)
    (after : Fields) (v : Json) (read : Json → Option α) :
    field (before ++ (key, v) :: after) key missing read = read v := by
  have hnone : before.lookup key = none := by
    rw [List.lookup_eq_none_iff]
    intro m hm
    rw [bne_iff_ne]
    intro heq
    exact h (heq ▸ List.mem_map_of_mem hm)
  rw [field, List.lookup_append, hnone, List.lookup_cons_self]
  rfl

theorem field_of_ne {missing : Option α} {other : String} (h : other ≠ key) (before after : Fields)
    (v w : Json) (read : Json → Option α) :
    field (before ++ (key, v) :: after) other missing read =
      field (before ++ (key, w) :: after) other missing read := by
  have hne : (other == key) = false := beq_eq_false_iff_ne.mpr h
  simp only [field, List.lookup_append, List.lookup_cons, hne]

end Json

/-- A part of a record that is one of its fields and leaves the others alone. -/
structure IsField {α : Type} (record : List (RecordField α)) (f : RecordField α)
    (part : Component α f.Value) : Prop where
  mem : f ∈ record
  get? (a : α) : part.get? a = some (f.get a)
  put_of_ne : ∀ g ∈ record, g.key ≠ f.key → ∀ (y : f.Value) (a : α),
    g.get (part.put y a) = g.get a

theorem Json.ReadsFields.readsPart {α : Type} [Document α] {record : List (RecordField α)}
    (h : ReadsFields α record) (hkeys : (record.map RecordField.key).Nodup) {f : RecordField α}
    {part : Component α f.Value} (hf : IsField record f part) {step : Around}
    (hstep : FieldStep (record.map RecordField.key) f.key step) :
    ReadsPart Document.ofJson [step] f.read part := by
  have hkey : f.key ∈ record.map RecordField.key := List.mem_map_of_mem hf.mem
  constructor
  · intro v a hread
    obtain ⟨fs, hfs, hfields⟩ := (h.ofJson_eq_some_iff (step.put v) a).mp hread
    obtain ⟨before, after, rfl, hfirst, _⟩ := hstep.exists_leads hkeys hkey hfs
    have hvalue := hfields f hf.mem
    rw [field_middle hfirst] at hvalue
    exact ⟨f.get a, hf.get? a, hvalue⟩
  · intro v w a y hread hw
    obtain ⟨fs, hfs, hfields⟩ := (h.ofJson_eq_some_iff (step.put v) a).mp hread
    obtain ⟨before, after, rfl, hfirst, hreplace⟩ := hstep.exists_leads hkeys hkey hfs
    refine (h.ofJson_eq_some_iff _ _).mpr ⟨_, hreplace w, ?_⟩
    intro g hg
    by_cases hne : g.key = f.key
    · obtain rfl := List.inj_on_of_nodup_map hkeys hg hf.mem hne
      have hput := part.get?_put y (hf.get? a)
      rw [hf.get?] at hput
      rw [field_middle hfirst, hput, hw]
    · rw [field_of_ne hne before after w v, hfields g hg, hf.put_of_ne g hg hne]

end OneApi
