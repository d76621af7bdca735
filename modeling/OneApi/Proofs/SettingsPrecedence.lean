import OneApi.Command.Execution
import OneApi.Proofs.EnvironmentOverrides
import OneApi.Proofs.ValidSettings

/-! Where settings come from. Switches go over the environment, the environment goes over the file, and
the file goes over the defaults. The file is read first; the switches come last, so they do not
help against a file or an environment that cannot be read. -/

namespace OneApi

open Yaml Transport

/-! ## Files -/

/-- What a record has under a key: nothing, or what its value is read as. -/
def Yaml.Tree.Holds {α : Type} (fields : Fields) (key : String) (read : Node → Option α)
    (x : Option α) : Prop :=
  Option.Rel (fun v a => read v = some a) (fields.lookup key) x

theorem Yaml.Tree.field_eq_some_iff {α : Type} {fields : Fields} {key : String} {missing a : α}
    {read : Node → Option α} :
    field fields key missing read = some a ↔ ∃ x, Holds fields key read x ∧ a = x.getD missing := by
  unfold field Holds
  cases fields.lookup key with
  | none =>
    constructor
    · intro h
      exact ⟨none, .none, (Option.some.inj h).symm⟩
    · rintro ⟨_, ⟨⟩, rfl⟩
      rfl
  | some v =>
    constructor
    · intro h
      exact ⟨some a, .some h, rfl⟩
    · rintro ⟨_, ⟨⟩, rfl⟩
      assumption

namespace Settings

/-- The record of a document under its keys. A key that is null is no key. -/
structure Part.Recorded (p : Part) (d : Tree) (fields : Tree.Fields) : Prop where
  apiKey : ∃ k, Tree.Holds fields "api_key" d.optionalText? k ∧ p.apiKey = k.join
  baseUrl : Tree.Holds fields "base_url" d.text? p.baseUrl
  timeoutSeconds : Tree.Holds fields "timeout_seconds" d.count64? p.timeoutSeconds
  maxRetries : Tree.Holds fields "max_retries" d.count32? p.maxRetries
  backoff : Tree.Holds fields "retry_backoff" (BackoffSettings.ofNode d) p.backoff

/-- What a document says: nothing if there is nothing in it, else what its record holds. -/
inductive Part.Described (d : Tree) : Part → Prop
  | nothing : d.root = none → Described d {}
  | record {v : Node} {fields : Tree.Fields} {p : Part} :
    d.root = some v → d.fields? keys v = some fields → p.Recorded d fields → Described d p

theorem ofNode_eq_some_iff {d : Tree} {v : Node} {s : Settings} :
    ofNode d v = some s ↔
      ∃ fields p, d.fields? keys v = some fields ∧ Part.Recorded p d fields ∧ s = p.onto {} := by
  have hjoin (k : Option (Option String)) : k.getD none = (k.join <|> none) := by
    cases k with
    | none => rfl
    | some k =>
      cases k with
      | none => rfl
      | some k => rfl
  unfold ofNode
  simp only [Option.bind_eq_bind, Option.bind_eq_some_iff, Tree.field_eq_some_iff, Option.pure_def,
    Option.some.injEq]
  constructor
  · rintro ⟨fields, hfields, _, ⟨k, hkey, rfl⟩, _, ⟨url, hurl, rfl⟩, _, ⟨seconds, hseconds, rfl⟩, _,
      ⟨retries, hretries, rfl⟩, _, ⟨backoff, hbackoff, rfl⟩, hs⟩
    refine ⟨fields, ⟨k.join, url, seconds, retries, backoff⟩, hfields,
      ⟨⟨k, hkey, rfl⟩, hurl, hseconds, hretries, hbackoff⟩, ?_⟩
    rw [← hs, Part.onto, hjoin]
  · rintro ⟨fields, ⟨_, url, seconds, retries, backoff⟩, hfields,
      ⟨⟨k, hkey, hk⟩, hurl, hseconds, hretries, hbackoff⟩, hs⟩
    dsimp only at hk
    refine ⟨fields, hfields, _, ⟨k, hkey, rfl⟩, _, ⟨url, hurl, rfl⟩, _, ⟨seconds, hseconds, rfl⟩, _,
      ⟨retries, hretries, rfl⟩, _, ⟨backoff, hbackoff, rfl⟩, ?_⟩
    rw [hs, hk, Part.onto, hjoin]

theorem ofDocument_eq_some_iff {d : Tree} {s : Settings} :
    ofDocument d = some s ↔ ∃ p, Part.Described d p ∧ s = p.onto {} := by
  unfold ofDocument
  split
  · rename_i hroot
    constructor
    · intro h
      exact ⟨{}, .nothing hroot, (Option.some.inj h).symm⟩
    · intro h
      obtain ⟨p, hp, hs⟩ := h
      cases hp with
      | nothing _ => exact congrArg some hs.symm
      | record hv _ _ => rw [hroot] at hv; cases hv
  · rename_i v hroot
    rw [ofNode_eq_some_iff]
    constructor
    · intro h
      obtain ⟨fields, p, hfields, hrecorded, hs⟩ := h
      exact ⟨p, .record hroot hfields hrecorded, hs⟩
    · intro h
      obtain ⟨p, hp, hs⟩ := h
      cases hp with
      | nothing hnone => rw [hroot] at hnone; cases hnone
      | record hv hfields hrecorded =>
        cases hroot.symm.trans hv
        exact ⟨_, p, hfields, hrecorded, hs⟩

theorem ofText_eq_ok_iff {text : String} {s : Settings} :
    ofText text = .ok s ↔ ∃ d p, Tree.parse text.toList = some d ∧ Part.Described d p ∧
      s = p.onto {} := by
  have hread : (Tree.parse text.toList).bind ofDocument = some s ↔
      ∃ d p, Tree.parse text.toList = some d ∧ Part.Described d p ∧ s = p.onto {} := by
    simp only [Option.bind_eq_some_iff, ofDocument_eq_some_iff, exists_and_left]
  rw [← hread, ofText]
  cases (Tree.parse text.toList).bind ofDocument with
  | none => simp
  | some t => simp

theorem ofFile_eq_ok_iff {content : ByteArray} {s : Settings} :
    ofFile content = .ok s ↔ ∃ text, String.fromUTF8? content = some text ∧ ofText text = .ok s := by
  unfold ofFile
  cases String.fromUTF8? content with
  | none => simp
  | some text => simp

end Settings

/-! ## Command lines -/

namespace Command.Invocation

open Settings

theorem during_eq_ok_iff {α : Type} {c : Circumstance} {r : Except Error α} {a : α} :
    during c r = .ok a ↔ r = .ok a := by
  unfold during
  cases r with
  | error e => simp
  | ok b => simp

/-- What the switches say. -/
def switches (i : Invocation) : Part where
  apiKey := i.apiKey
  baseUrl := i.baseUrl

/-- What the file says: nothing if no file is named, else what its document says. -/
inductive Loads (i : Invocation) (file : String → Option ByteArray) : Part → Prop
  | unnamed : i.config = none → Loads i file {}
  | read {path : String} {content : ByteArray} {text : String} {d : Tree} {p : Part} :
    i.config = some path → file path = some content → String.fromUTF8? content = some text →
      Tree.parse text.toList = some d → p.Described d → Loads i file p

variable {i : Invocation} {file : String → Option ByteArray} {lookup : Variable → Option String}

theorem Loads.fileSettings_eq {p : Part} (h : i.Loads file p) :
    i.fileSettings file = .ok (p.onto {}) := by
  cases h with
  | unnamed hconfig =>
    rw [fileSettings, hconfig]
    rfl
  | read hconfig hfile htext hd hp =>
    have hread := ofFile_eq_ok_iff.mpr ⟨_, htext, ofText_eq_ok_iff.mpr ⟨_, p, hd, hp, rfl⟩⟩
    rw [fileSettings, hconfig]
    dsimp only
    rw [hfile, during_eq_ok_iff]
    exact hread

theorem loads_of_fileSettings {s : Settings} (h : i.fileSettings file = .ok s) :
    ∃ p, i.Loads file p ∧ s = p.onto {} := by
  unfold fileSettings at h
  split at h
  · rename_i hconfig
    exact ⟨{}, .unnamed hconfig, (Except.ok.inj h).symm⟩
  · rename_i path hconfig
    rw [during_eq_ok_iff] at h
    split at h
    · cases h
    · rename_i content hfile
      obtain ⟨text, htext, hread⟩ := ofFile_eq_ok_iff.mp h
      obtain ⟨d, p, hd, hp, hs⟩ := ofText_eq_ok_iff.mp hread
      exact ⟨p, .read hconfig hfile htext hd hp, hs⟩

theorem fileSettings_error {f : Failure} (h : i.fileSettings file = .error f) :
    ∃ path e, i.config = some path ∧ f = ⟨.loading path, e⟩ := by
  unfold fileSettings at h
  split at h
  · cases h
  · rename_i path hconfig
    unfold during at h
    split at h
    · cases h
    · rename_i e _
      exact ⟨path, e, hconfig, (Except.error.inj h).symm⟩

/-- A file that does not load is reported whatever the environment is. -/
theorem settings_of_not_loads (h : ¬ ∃ p, i.Loads file p) :
    ∃ path e, i.config = some path ∧
      ∀ lookup, i.settings file lookup = .error ⟨.loading path, e⟩ := by
  cases hfile : i.fileSettings file with
  | ok s =>
    obtain ⟨p, hp, _⟩ := loads_of_fileSettings hfile
    exact absurd ⟨p, hp⟩ h
  | error f =>
    obtain ⟨path, e, hconfig, rfl⟩ := fileSettings_error hfile
    refine ⟨path, e, hconfig, ?_⟩
    intro lookup
    rw [settings, hfile]
    rfl

theorem settings_of_loads {document : Part} (h : i.Loads file document)
    (lookup : Variable → Option String) :
    (∃ environment : Part, environment.Overrides lookup ∧ i.settings file lookup =
        .ok (i.switches.onto (environment.onto (document.onto {})))) ∨
      ∃ v raw, Unreadable lookup v raw ∧
        i.settings file lookup = .error ⟨.overriding, notACount v raw⟩ := by
  unfold settings
  rw [h.fileSettings_eq]
  obtain ⟨environment, henvironment, hover⟩ | ⟨v, raw, t, hraw, hover⟩ :=
    overridden_cases lookup (document.onto {})
  · refine .inl ⟨environment, henvironment, ?_⟩
    simp only [bind, Except.bind, hover]
    rfl
  · refine .inr ⟨v, raw, hraw, ?_⟩
    simp only [bind, Except.bind, hover]
    rfl

/-- **Switches go over the environment, the environment over the file, and the file over the
defaults.** There are no settings exactly when the file does not load or a variable that is set
and not blank is no count of its width, whatever the switches are; if the file does not load, the
environment is not looked at. Clients that are built from the settings send their key, without the
spaces around it. -/
theorem settings_precedence [Url.DomainNames] (i : Invocation)
    (file : String → Option ByteArray) (lookup : Variable → Option String) :
    (∀ s, i.settings file lookup = .ok s →
      s.ClientsSign ∧ ∃ document environment : Part, i.Loads file document ∧
        environment.Overrides lookup ∧ s = i.switches.onto (environment.onto (document.onto {}))) ∧
    ((∃ f, i.settings file lookup = .error f) ↔
      (¬ ∃ document, i.Loads file document) ∨ ∃ v raw, Unreadable lookup v raw) ∧
    ((¬ ∃ document, i.Loads file document) → ∃ path e, i.config = some path ∧
      ∀ other, i.settings file other = .error ⟨.loading path, e⟩) := by
  have hread : ∀ s, i.settings file lookup = .ok s → ∃ document environment : Part,
      i.Loads file document ∧ environment.Overrides lookup ∧
        s = i.switches.onto (environment.onto (document.onto {})) := by
    intro s hs
    by_cases hloads : ∃ document, i.Loads file document
    · obtain ⟨document, hdocument⟩ := hloads
      obtain ⟨environment, henvironment, h⟩ | ⟨v, raw, _, h⟩ := settings_of_loads hdocument lookup
      · exact ⟨document, environment, hdocument, henvironment, Except.ok.inj (hs.symm.trans h)⟩
      · cases hs.symm.trans h
    · obtain ⟨path, e, _, h⟩ := settings_of_not_loads hloads
      cases hs.symm.trans (h lookup)
  refine ⟨fun s hs => ⟨s.clients_sign, hread s hs⟩, ⟨?_, ?_⟩, settings_of_not_loads⟩
  · intro hfails
    obtain ⟨f, hf⟩ := hfails
    by_cases hloads : ∃ document, i.Loads file document
    · obtain ⟨document, hdocument⟩ := hloads
      obtain ⟨_, _, h⟩ | ⟨v, raw, hraw, _⟩ := settings_of_loads hdocument lookup
      · cases hf.symm.trans h
      · exact .inr ⟨v, raw, hraw⟩
    · exact .inl hloads
  · intro hrefused
    cases hsettings : i.settings file lookup with
    | error f => exact ⟨f, rfl⟩
    | ok s =>
      obtain ⟨document, environment, hdocument, henvironment, _⟩ := hread s hsettings
      obtain hloads | ⟨v, raw, hraw⟩ := hrefused
      · exact absurd ⟨document, hdocument⟩ hloads
      · exact absurd hraw (henvironment.not_unreadable v raw)

/-- A key from the environment over the one of the file, the base address of a switch, and a wait
that only the file gives, as the variable for it is blank. -/
theorem settings_precedence_sources :
    letI := Url.DomainNames.ascii
    let i : Invocation :=
      { config := some "lotr.yaml", apiKey := none, baseUrl := some "http://localhost/v2"
        format := .lines, verbose := false, task := .quote "5cd96e05" }
    let file : String → Option ByteArray := fun _ =>
      some "api_key: file\nmax_retries: 7\ntimeout_seconds: 30".toUTF8
    let lookup : Variable → Option String
      | .apiKey => some " env\n"
      | .baseUrl => some "http://localhost"
      | .timeoutSeconds => some " "
      | .maxRetries => some "+02"
    let s : Settings :=
      { apiKey := some "env", baseUrl := "http://localhost/v2", timeoutSeconds := 30, maxRetries := 2 }
    i.settings file lookup = .ok s ∧ s.ClientsSign ∧ ∃ document environment : Part,
      i.Loads file document ∧ environment.Overrides lookup ∧
        s = i.switches.onto (environment.onto (document.onto {})) := by
  let names := Url.DomainNames.ascii
  intro i file lookup s
  have hsettings : i.settings file lookup = .ok s := by decide +kernel
  obtain ⟨hsign, hsources⟩ := (settings_precedence i file lookup).1 s hsettings
  exact ⟨hsettings, hsign, hsources⟩

end Command.Invocation

end OneApi
