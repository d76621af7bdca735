import OneApi.Proofs.CountText
import OneApi.Settings

/-! Overrides by environment variables. A variable counts when it is set and not blank. The variables
that count make up settings with open places, which go over the settings that are overridden; a
variable that is no count of its width stops the overriding. -/

namespace OneApi

/-- The text of a variable, if it is set and not blank. -/
def given? (lookup : Variable → Option String) (v : Variable) : Option String :=
  (lookup v).filter fun raw => !Text.isBlank raw.toList

/-- The bound of a variable that must be a count. -/
def Variable.bound? : Variable → Option Nat
  | apiKey => none
  | baseUrl => none
  | timeoutSeconds => some UInt64.size
  | maxRetries => some UInt32.size

/-- A text that is given for a variable but is no count of its width. -/
structure Unreadable (lookup : Variable → Option String) (v : Variable) (raw : String) : Prop where
  given : given? lookup v = some raw
  no_count : ∃ bound, v.bound? = some bound ∧ ∀ n, ¬ Text.Counts bound raw n

namespace Settings

/-- Settings some of which may be left open. -/
structure Part where
  apiKey : Option String := none
  baseUrl : Option String := none
  timeoutSeconds : Option UInt64 := none
  maxRetries : Option UInt32 := none
  backoff : Option BackoffSettings := none

/-- What is open stays as it was. -/
def Part.onto (p : Part) (s : Settings) : Settings where
  apiKey := p.apiKey <|> s.apiKey
  baseUrl := p.baseUrl.getD s.baseUrl
  timeoutSeconds := p.timeoutSeconds.getD s.timeoutSeconds
  maxRetries := p.maxRetries.getD s.maxRetries
  backoff := p.backoff.getD s.backoff

/-- What an environment says: the key without the spaces around it, the base address as it is, and
the counts that the texts stand for. -/
structure Part.Overrides (p : Part) (lookup : Variable → Option String) : Prop where
  apiKey : p.apiKey = (given? lookup .apiKey).map Text.trim
  baseUrl : p.baseUrl = given? lookup .baseUrl
  timeoutSeconds : Option.Rel (fun raw n => Text.Counts UInt64.size raw n.toNat)
    (given? lookup .timeoutSeconds) p.timeoutSeconds
  maxRetries : Option.Rel (fun raw n => Text.Counts UInt32.size raw n.toNat)
    (given? lookup .maxRetries) p.maxRetries
  backoff : p.backoff = none

variable {lookup : Variable → Option String}

theorem exists_of_rel_some {α β : Type} {R : α → β → Prop} {a : α} {x : Option β}
    (h : Option.Rel R (some a) x) : ∃ b, R a b := by
  cases h with
  | some hab => exact ⟨_, hab⟩

theorem Part.Overrides.not_unreadable {p : Part} (h : p.Overrides lookup) (v : Variable)
    (raw : String) : ¬ Unreadable lookup v raw := by
  intro hunreadable
  obtain ⟨hgiven, bound, hbound, hno⟩ := hunreadable
  cases v with
  | apiKey => cases hbound
  | baseUrl => cases hbound
  | timeoutSeconds =>
    cases hbound
    obtain ⟨n, hcounts⟩ := exists_of_rel_some (hgiven ▸ h.timeoutSeconds)
    exact hno _ hcounts
  | maxRetries =>
    cases hbound
    obtain ⟨n, hcounts⟩ := exists_of_rel_some (hgiven ▸ h.maxRetries)
    exact hno _ hcounts

theorem setAll_cons (v : Variable) (vs : List Variable) (s : Settings) :
    setAll lookup (v :: vs) s =
      match given? lookup v with
      | none => setAll lookup vs s
      | some raw =>
        match s.set v raw with
        | .ok t => setAll lookup vs t
        | .error e => (s, some e) := by
  rw [setAll, given?]
  cases lookup v with
  | none => rfl
  | some raw =>
    rw [Option.filter_some]
    dsimp only
    cases Text.isBlank raw.toList with
    | true => rfl
    | false => rfl

theorem setAll_apiKey (vs : List Variable) (s : Settings) :
    setAll lookup (.apiKey :: vs) s =
      setAll lookup vs { s with apiKey := (given? lookup .apiKey).map Text.trim <|> s.apiKey } := by
  rw [setAll_cons]
  cases given? lookup .apiKey with
  | none => rfl
  | some raw => rfl

theorem setAll_baseUrl (vs : List Variable) (s : Settings) :
    setAll lookup (.baseUrl :: vs) s =
      setAll lookup vs { s with baseUrl := (given? lookup .baseUrl).getD s.baseUrl } := by
  rw [setAll_cons]
  cases given? lookup .baseUrl with
  | none => rfl
  | some raw => rfl

theorem set_timeoutSeconds (s : Settings) (raw : String) :
    (∃ n, Text.Counts UInt64.size raw n.toNat ∧
      s.set .timeoutSeconds raw = .ok { s with timeoutSeconds := n }) ∨
    (∀ n, ¬ Text.Counts UInt64.size raw n) ∧
      s.set .timeoutSeconds raw = .error (notACount .timeoutSeconds raw) := by
  unfold set
  dsimp only
  cases hread : Text.readCount64 (Text.strip raw.toList) with
  | none => exact .inr ⟨Text.readCount64_eq_none_iff.mp hread, rfl⟩
  | some n => exact .inl ⟨n, Text.readCount64_eq_some_iff.mp hread, rfl⟩

theorem set_maxRetries (s : Settings) (raw : String) :
    (∃ n, Text.Counts UInt32.size raw n.toNat ∧
      s.set .maxRetries raw = .ok { s with maxRetries := n }) ∨
    (∀ n, ¬ Text.Counts UInt32.size raw n) ∧
      s.set .maxRetries raw = .error (notACount .maxRetries raw) := by
  unfold set
  dsimp only
  cases hread : Text.readCount32 (Text.strip raw.toList) with
  | none => exact .inr ⟨Text.readCount32_eq_none_iff.mp hread, rfl⟩
  | some n => exact .inl ⟨n, Text.readCount32_eq_some_iff.mp hread, rfl⟩

/-- A variable that must be a count is read as one, or stops the overriding. -/
theorem setAll_count (lookup : Variable → Option String) {W : Type} {v : Variable} {bound : Nat}
    {toNat : W → Nat} {put : Settings → W → Settings} (hbound : v.bound? = some bound)
    (hset : ∀ (s : Settings) (raw : String),
      (∃ n, Text.Counts bound raw (toNat n) ∧ s.set v raw = .ok (put s n)) ∨
      (∀ n, ¬ Text.Counts bound raw n) ∧ s.set v raw = .error (notACount v raw))
    (vs : List Variable) (s : Settings) :
    (∃ n, Option.Rel (fun raw n => Text.Counts bound raw (toNat n)) (given? lookup v) n ∧
      setAll lookup (v :: vs) s = setAll lookup vs (n.elim s (put s))) ∨
    ∃ raw, Unreadable lookup v raw ∧ setAll lookup (v :: vs) s = (s, some (notACount v raw)) := by
  rw [setAll_cons]
  cases hgiven : given? lookup v with
  | none => exact .inl ⟨none, .none, rfl⟩
  | some raw =>
    dsimp only
    obtain ⟨n, hn, hok⟩ | ⟨hnone, herror⟩ := hset s raw
    · rw [hok]
      exact .inl ⟨some n, .some hn, rfl⟩
    · rw [herror]
      exact .inr ⟨raw, ⟨hgiven, bound, hbound, hnone⟩, rfl⟩

/-- Either all variables that count are readable and go over the settings, or one of them is not. -/
theorem overridden_cases (lookup : Variable → Option String) (s : Settings) :
    (∃ p : Part, p.Overrides lookup ∧ s.overridden lookup = (p.onto s, none)) ∨
      ∃ v raw t, Unreadable lookup v raw ∧ s.overridden lookup = (t, some (notACount v raw)) := by
  rw [overridden, Variable.all, setAll_apiKey, setAll_baseUrl]
  generalize hstart : ({ s with
    apiKey := (given? lookup .apiKey).map Text.trim <|> s.apiKey
    baseUrl := (given? lookup .baseUrl).getD s.baseUrl } : Settings) = start
  obtain ⟨seconds, hseconds, h⟩ | ⟨raw, hraw, h⟩ :=
    setAll_count lookup rfl set_timeoutSeconds [.maxRetries] start
  · obtain ⟨retries, hretries, h'⟩ | ⟨raw, hraw, h'⟩ :=
      setAll_count lookup rfl set_maxRetries []
        (seconds.elim start fun n => { start with timeoutSeconds := n })
    · let key := (given? lookup .apiKey).map Text.trim
      refine .inl ⟨⟨key, given? lookup .baseUrl, seconds, retries, none⟩, ?_, ?_⟩
      · exact ⟨rfl, rfl, hseconds, hretries, rfl⟩
      · subst hstart
        rw [h, h', setAll]
        cases seconds with
        | none =>
          cases retries with
          | none => rfl
          | some r => rfl
        | some n =>
          cases retries with
          | none => rfl
          | some r => rfl
    · exact .inr ⟨_, raw, _, hraw, h.trans h'⟩
  · exact .inr ⟨_, raw, _, hraw, h⟩

end Settings

end OneApi
