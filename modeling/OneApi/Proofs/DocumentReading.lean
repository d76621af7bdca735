import OneApi.Proofs.DocumentGrammar

/-! What is read as a document is a text of it. Behind every text from which reading can go on, the
state tells what stands in the text: what is still open, with the parts that are complete. A word
keeps this true, so a text is read to its end only if it spells the document that is read. -/

namespace OneApi.Json

/-- Parts with a comma behind each of them. -/
def commas (parts : List (List Char)) : List Char := (parts.map (· ++ [','])).flatten

theorem commas_concat (parts : List (List Char)) (part : List Char) :
    commas (parts ++ [part]) = commas parts ++ (part ++ [',']) := by
  simp [commas]

theorem intercalate_concat (parts : List (List Char)) (part : List Char) :
    [','].intercalate (parts ++ [part]) = commas parts ++ part := by
  induction parts with
  | nil => simp [commas]
  | cons first parts ih =>
    obtain ⟨next, rest, hcons⟩ : ∃ next rest, parts ++ [part] = next :: rest := by
      cases parts <;> simp
    rw [List.cons_append, hcons, List.intercalate_cons_cons, ← hcons, ih]
    simp [commas]

/-- Values of an array, each complete. -/
structure Elements (es : List Element) : Prop where
  spaced : ∀ e ∈ es, e.Spaced
  spells : ∀ e ∈ es, Spells e.text e.value

/-- Members of an object, each complete. -/
structure Entries (ms : List Member) : Prop where
  spaced : ∀ m ∈ ms, m.Spaced
  spells : ∀ m ∈ ms, Spells m.element.text m.element.value

/-- The text up to a place where a part of the innermost frame may begin. -/
inductive Opened : List Char → List Frame → Prop
  | nil : Opened [] []
  | array {p gap : List Char} {stack : List Frame} {es : List Element} : Opened p stack →
    Blank gap → Elements es → Opened (p ++ (gap ++ '[' :: commas (es.map Element.chars)))
      (.array (es.map Element.value).reverse :: stack)
  | object {p gap before keyText after : List Char} {stack : List Frame} {ms : List Member}
    {key : Option String} : Opened p stack → Blank gap → Entries ms → Blank before →
    StringSpells keyText key → Blank after →
    Opened (p ++ (gap ++ '\x7b' :: (commas (ms.map Member.chars) ++
        (before ++ (keyText ++ (after ++ [':']))))))
      (.object (ms.map Member.entry).reverse key :: stack)

/-- The texts behind which a state is reached. -/
inductive Reaches : List Char → State → Prop
  | value {p gap : List Char} {first : Bool} {stack : List Frame} : Opened p stack → Blank gap →
    (first = true → ∃ rest, stack = .array [] :: rest) → Reaches (p ++ gap) (.value first stack)
  | key {p gap after : List Char} {first : Bool} {stack : List Frame} {ms : List Member} :
    Opened p stack → Blank gap → Entries ms → Blank after → (first = true → ms = []) →
    Reaches (p ++ (gap ++ '\x7b' :: (commas (ms.map Member.chars) ++ after)))
      (.key first (ms.map Member.entry).reverse stack)
  | colon {p gap before keyText after : List Char} {stack : List Frame} {ms : List Member}
    {key : Option String} : Opened p stack → Blank gap → Entries ms → Blank before →
    StringSpells keyText key → Blank after →
    Reaches (p ++ (gap ++ '\x7b' :: (commas (ms.map Member.chars) ++
        (before ++ (keyText ++ after)))))
      (.colon (ms.map Member.entry).reverse key stack)
  | done {p : List Char} {stack : List Frame} {e : Element} : Opened p stack → e.Spaced →
    Spells e.text e.value → Reaches (p ++ e.chars) (.done e.value stack)

variable {p w gap : List Char} {state next : State} {t : Token} {stack : List Frame}

theorem Reaches.blank (h : Reaches p state) (hgap : Blank gap) : Reaches (p ++ gap) state := by
  cases h with
  | value hopen hbefore hfirst =>
    rw [List.append_assoc]
    exact .value hopen (hbefore.append hgap) hfirst
  | key hopen hbefore hms hafter hfirst =>
    have h := Reaches.key hopen hbefore hms (hafter.append hgap) hfirst
    simpa using h
  | colon hopen hbefore hms hspace hkey hafter =>
    have h := Reaches.colon hopen hbefore hms hspace hkey (hafter.append hgap)
    simpa using h
  | @done _ _ e hopen hspaced hspells =>
    have h := Reaches.done (e := { e with after := e.after ++ gap }) hopen
      ⟨hspaced.before, hspaced.after.append hgap⟩ hspells
    simpa [Element.chars] using h

/-! ## One word -/

theorem elements_nil : Elements [] := ⟨by simp, by simp⟩

theorem entries_nil : Entries [] := ⟨by simp, by simp⟩

theorem Elements.concat {es : List Element} {e : Element} (hes : Elements es) (hspaced : e.Spaced)
    (hspells : Spells e.text e.value) : Elements (es ++ [e]) := by
  constructor
  · exact List.forall_mem_append.mpr ⟨hes.spaced, List.forall_mem_singleton.mpr hspaced⟩
  · exact List.forall_mem_append.mpr ⟨hes.spells, List.forall_mem_singleton.mpr hspells⟩

theorem Entries.concat {ms : List Member} {m : Member} (hms : Entries ms) (hspaced : m.Spaced)
    (hspells : Spells m.element.text m.element.value) : Entries (ms ++ [m]) := by
  constructor
  · exact List.forall_mem_append.mpr ⟨hms.spaced, List.forall_mem_singleton.mpr hspaced⟩
  · exact List.forall_mem_append.mpr ⟨hms.spells, List.forall_mem_singleton.mpr hspells⟩

theorem Opened.exists_elements {items : List Json} (h : Opened p (.array items :: stack)) :
    ∃ q gap es, Opened q stack ∧ Blank gap ∧ Elements es ∧
      items = (es.map Element.value).reverse ∧
      p = q ++ (gap ++ '[' :: commas (es.map Element.chars)) := by
  cases h with
  | array hopen hgap hes => exact ⟨_, _, _, hopen, hgap, hes, rfl, rfl⟩

variable {v : Json}

theorem Reaches.complete (hopen : Opened p stack) (hgap : Blank gap) (hw : Spells w v) :
    Reaches (p ++ (gap ++ w)) (.done v stack) := by
  have h := Reaches.done (e := ⟨gap, w, [], v⟩) hopen ⟨hgap, blank_nil⟩ hw
  simpa [Element.chars] using h

theorem begin_reaches {first : Bool} (hopen : Opened p stack) (hgap : Blank gap)
    (hfirst : first = true → ∃ rest, stack = .array [] :: rest) (ht : t.Spells w)
    (h : State.begin first stack t = some next) : Reaches (p ++ (gap ++ w)) next := by
  cases ht with
  | openArray =>
    cases h
    have h : Reaches _ (.value true (.array [] :: stack)) :=
      .value (.array hopen hgap elements_nil) blank_nil fun _ => ⟨stack, rfl⟩
    simpa [commas] using h
  | openObject =>
    cases h
    have h : Reaches _ (.key true [] stack) :=
      .key hopen hgap entries_nil blank_nil fun _ => rfl
    simpa [commas] using h
  | closeArray =>
    cases first with
    | false => cases h
    | true =>
      -- right after its bracket, so the frame is empty and no comma was read
      obtain ⟨rest, rfl⟩ := hfirst rfl
      cases h
      obtain ⟨q, before, es, houter, hbefore, hes, hitems, rfl⟩ := hopen.exists_elements
      obtain rfl : es = [] := by simpa using hitems
      have h := Reaches.complete houter hbefore (.array hgap hes.spaced hes.spells)
      simpa [commas] using h
  | null =>
    cases h
    exact .complete hopen hgap .null
  | true =>
    cases h
    exact .complete hopen hgap .true
  | false =>
    cases h
    exact .complete hopen hgap .false
  | number hn =>
    cases h
    exact .complete hopen hgap (.number hn)
  | string hs =>
    cases h
    exact .complete hopen hgap (.string hs)
  | closeObject => cases h
  | comma => cases h
  | colon => cases h

theorem proceed_reaches {e : Element} (hopen : Opened p stack) (hspaced : e.Spaced)
    (hspells : Spells e.text e.value) (ht : t.Spells w)
    (h : State.proceed e.value stack t = some next) : Reaches (p ++ (e.chars ++ w)) next := by
  cases hopen with
  | nil => cases ht <;> cases h
  | @array q before stack es hopen hbefore hes =>
    have hall := hes.concat hspaced hspells
    cases ht with
    | comma =>
      cases h
      have h : Reaches _ (.value false (.array ((es ++ [e]).map Element.value).reverse :: stack)) :=
        .value (.array hopen hbefore hall) blank_nil (by simp)
      simpa [commas_concat] using h
    | closeArray =>
      cases h
      have h := Reaches.complete hopen hbefore (.array blank_nil hall.spaced hall.spells)
      simpa [intercalate_concat] using h
    | _ => cases h
  | @object q gap before keyText after stack ms key hopen hgap hms hspace hkey hafter =>
    have hall : Entries (ms ++ [⟨before, keyText, after, key, e⟩]) :=
      hms.concat ⟨hspace, hafter, hkey, hspaced⟩ hspells
    cases ht with
    | comma =>
      cases h
      have h : Reaches _ (.key false ((ms ++ [_]).map Member.entry).reverse stack) :=
        .key hopen hgap hall blank_nil (by simp)
      simpa [commas_concat, Member.chars, Member.entry] using h
    | closeObject =>
      cases h
      have h := Reaches.complete hopen hgap (.object blank_nil hall.spaced hall.spells)
      simpa [intercalate_concat, Member.chars, Member.entry] using h
    | _ => cases h

theorem Reaches.step (h : Reaches p state) (ht : t.Spells w) (hstep : state.step t = some next) :
    Reaches (p ++ w) next := by
  cases h with
  | value hopen hgap hfirst =>
    rw [List.append_assoc]
    exact begin_reaches hopen hgap hfirst ht hstep
  | @key q gap after first stack ms hopen hgap hms hafter hfirst =>
    cases ht with
    | string hs =>
      rw [State.step_key_string] at hstep
      cases hstep
      have h := Reaches.colon hopen hgap hms hafter hs blank_nil
      simpa using h
    | closeObject =>
      cases first with
      | false => cases hstep
      | true =>
        cases hstep
        obtain rfl := hfirst rfl
        have h := Reaches.complete hopen hgap (.object hafter hms.spaced hms.spells)
        simpa [commas] using h
    | _ => cases first <;> cases hstep
  | colon hopen hgap hms hspace hkey hafter =>
    cases ht with
    | colon =>
      cases hstep
      have h : Reaches _ (.value false _) :=
        .value (.object hopen hgap hms hspace hkey hafter) blank_nil (by simp)
      simpa using h
    | _ => cases hstep
  | done hopen hspaced hspells =>
    rw [List.append_assoc]
    exact proceed_reaches hopen hspaced hspells ht hstep

/-! ## Whole texts -/

theorem Reaches.run {s : List Char} {final : State} (h : Reaches p state)
    (hrun : state.run s = some final) : Reaches (p ++ s) final := by
  -- on the words that are left; what was read moves to the text behind which the state is reached
  fun_induction tokens s generalizing p state with
  | case1 =>
    rw [State.run_nil] at hrun
    cases hrun
    simpa using h
  | case2 c s hblank ih =>
    rw [State.run_blank hblank] at hrun
    simpa using ih (h.blank (List.forall_mem_singleton.mpr hblank)) hrun
  | case3 c s hblank hread =>
    rw [State.run, tokens, if_neg hblank] at hrun
    split at hrun
    · contradiction
    · rename_i hsome
      rw [hread] at hsome
      contradiction
  | case4 c s hblank t rest hread ih =>
    rw [State.run_token hread] at hrun
    obtain ⟨next, hstep, hrun⟩ := Option.bind_eq_some_iff.mp hrun
    obtain ⟨w, ht, heq⟩ := exists_spells_of_readToken hread
    rw [heq, ← List.append_assoc]
    exact ih (h.step ht hstep) hrun

/-- The grammar is exact: a text is read as a document if and only if it spells it. -/
theorem parse_eq_some_iff {s : List Char} {v : Json} : parse s = some v ↔ SpellsDocument s v := by
  constructor
  · intro h
    rw [State.parse_eq] at h
    obtain ⟨final, hrun, hresult⟩ := Option.bind_eq_some_iff.mp h
    have hstart : Reaches [] State.start := .value .nil blank_nil (by simp)
    have hfinal := hstart.run hrun
    cases hfinal with
    | done hopen hspaced hspells =>
      cases hopen with
      | nil =>
        cases hresult
        exact .intro hspaced hspells
      | _ => cases hresult
    | _ => cases hresult
  · exact SpellsDocument.parse_eq

end OneApi.Json
