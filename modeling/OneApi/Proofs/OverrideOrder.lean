import OneApi.Proofs.EnvironmentOverrides

/-! The order of overrides. Variables are applied one after the other up to the first that is no
count, so what was applied is a prefix of them. Each changes its own field, whatever the others
hold; the fields of the variables behind the prefix keep what they had, and so a second pass over
the same environment finds everything as it leaves it. -/

namespace OneApi

namespace Settings

/-- The field of a variable is the same in both settings. -/
def SameAt (v : Variable) (s t : Settings) : Prop :=
  match v with
  | .apiKey => t.apiKey = s.apiKey
  | .baseUrl => t.baseUrl = s.baseUrl
  | .timeoutSeconds => t.timeoutSeconds = s.timeoutSeconds
  | .maxRetries => t.maxRetries = s.maxRetries

/-- The field of a variable has the value that a text gives it. -/
def HasFrom (v : Variable) (raw : String) (t : Settings) : Prop :=
  match v with
  | .apiKey => t.apiKey = some (Text.trim raw)
  | .baseUrl => t.baseUrl = raw
  | .timeoutSeconds => Text.Counts UInt64.size raw t.timeoutSeconds.toNat
  | .maxRetries => Text.Counts UInt32.size raw t.maxRetries.toNat

/-- A fault of the configuration whose message names a variable and quotes its text. -/
structure Blames (e : Error) (v : Variable) (raw : String) : Prop where
  fault : e = .config (.notACount v raw)
  message : ∀ complaint, ∃ m, e.message? complaint = some m ∧ v.name.toList <:+: m.toList ∧
    raw.toList <:+: m.toList

/-- Why overriding ends before the given variables: there are none left, or the first of them is no
count. -/
inductive Stops (lookup : Variable → Option String) : List Variable → Option Error → Prop
  | finished : Stops lookup [] none
  | unreadable {v : Variable} {raw : String} {e : Error} (vs : List Variable) :
    Unreadable lookup v raw → Blames e v raw → Stops lookup (v :: vs) (some e)

/-- What overriding leaves behind when some variables were applied and the others not reached. -/
structure Applies (lookup : Variable → Option String) (done rest : List Variable) (s t : Settings)
    (e : Option Error) : Prop where
  readable : ∀ v ∈ done, ∀ raw, ¬ Unreadable lookup v raw
  stops : Stops lookup rest e
  given : ∀ v ∈ done, ∀ raw, given? lookup v = some raw → t.HasFrom v raw
  blank : ∀ v ∈ done, given? lookup v = none → SameAt v s t
  behind : ∀ v, v ∉ done → SameAt v s t
  backoff : t.backoff = s.backoff

variable {lookup : Variable → Option String} {v : Variable} {raw : String} {s t u : Settings}

/-! ## One variable -/

theorem SameAt.refl (v : Variable) (s : Settings) : SameAt v s s := by
  cases v <;> rfl

theorem SameAt.trans (h : SameAt v s t) (k : SameAt v t u) : SameAt v s u := by
  cases v <;> exact Eq.trans k h

theorem HasFrom.of_same (h : s.HasFrom v raw) (k : SameAt v s t) : t.HasFrom v raw := by
  cases v with
  | apiKey | baseUrl => exact Eq.trans k h
  | timeoutSeconds | maxRetries =>
    simp only [SameAt, HasFrom] at h k ⊢
    rwa [k]

theorem blames_notACount (v : Variable) (raw : String) : Blames (notACount v raw) v raw := by
  have hmessage (complaint : String → String) : (notACount v raw).message? complaint =
      some ("Configuration error: " ++
        (v.name ++ " must be a non-negative integer, got '" ++ raw ++ "'")) := rfl
  refine ⟨rfl, fun complaint => ⟨_, hmessage complaint, ?_, ?_⟩⟩
  · refine ⟨"Configuration error: ".toList,
      " must be a non-negative integer, got '".toList ++ (raw.toList ++ "'".toList), ?_⟩
    simp only [String.toList_append, List.append_assoc]
  · refine ⟨"Configuration error: ".toList ++ (v.name.toList ++
      " must be a non-negative integer, got '".toList), "'".toList, ?_⟩
    simp only [String.toList_append, List.append_assoc]

/-- A text either gives the field of its variable a value and leaves all others alone, or is no
count, whatever the settings are. -/
theorem set_cases (s : Settings) (v : Variable) (raw : String) :
    (∃ t, s.set v raw = .ok t ∧ t.HasFrom v raw ∧ (∀ w, w ≠ v → SameAt w s t) ∧
      t.backoff = s.backoff) ∨
    (∃ bound, v.bound? = some bound ∧ ∀ n, ¬ Text.Counts bound raw n) ∧
      s.set v raw = .error (notACount v raw) := by
  cases v with
  | apiKey =>
    refine .inl ⟨_, rfl, rfl, ?_, rfl⟩
    intro w hw
    cases w with
    | apiKey => exact absurd rfl hw
    | _ => rfl
  | baseUrl =>
    refine .inl ⟨_, rfl, rfl, ?_, rfl⟩
    intro w hw
    cases w with
    | baseUrl => exact absurd rfl hw
    | _ => rfl
  | timeoutSeconds =>
    obtain ⟨n, hn, hset⟩ | ⟨hnone, hset⟩ := set_timeoutSeconds s raw
    · refine .inl ⟨_, hset, hn, ?_, rfl⟩
      intro w hw
      cases w with
      | timeoutSeconds => exact absurd rfl hw
      | _ => rfl
    · exact .inr ⟨⟨_, rfl, hnone⟩, hset⟩
  | maxRetries =>
    obtain ⟨n, hn, hset⟩ | ⟨hnone, hset⟩ := set_maxRetries s raw
    · refine .inl ⟨_, hset, hn, ?_, rfl⟩
      intro w hw
      cases w with
      | maxRetries => exact absurd rfl hw
      | _ => rfl
    · exact .inr ⟨⟨_, rfl, hnone⟩, hset⟩

theorem HasFrom.set_eq (h : t.HasFrom v raw) : t.set v raw = .ok t := by
  obtain ⟨key, url, seconds, retries, backoff⟩ := t
  cases v with
  | apiKey | baseUrl =>
    cases h
    rfl
  | timeoutSeconds =>
    have hread : Text.readCount64 (Text.strip raw.toList) = some seconds :=
      Text.readCount64_eq_some_iff.mpr h
    unfold set
    dsimp only
    rw [hread]
  | maxRetries =>
    have hread : Text.readCount32 (Text.strip raw.toList) = some retries :=
      Text.readCount32_eq_some_iff.mpr h
    unfold set
    dsimp only
    rw [hread]

theorem set_of_unreadable (h : Unreadable lookup v raw) (s : Settings) :
    s.set v raw = .error (notACount v raw) := by
  obtain ⟨t, _, hfrom, _⟩ | ⟨_, hset⟩ := set_cases s v raw
  · obtain ⟨_, bound, hbound, hno⟩ := h
    cases v with
    | apiKey | baseUrl => cases hbound
    | timeoutSeconds | maxRetries =>
      cases hbound
      exact absurd hfrom (hno _)
  · exact hset

/-! ## All variables -/

theorem Applies.skip {done rest : List Variable} {e : Option Error}
    (h : Applies lookup done rest s t e) (hv : v ∉ done) (hnone : given? lookup v = none) :
    Applies lookup (v :: done) rest s t e := by
  refine ⟨?_, h.stops, ?_, ?_, ?_, h.backoff⟩
  · refine List.forall_mem_cons.mpr ⟨fun raw hraw => ?_, h.readable⟩
    cases hnone.symm.trans hraw.given
  · refine List.forall_mem_cons.mpr ⟨fun raw hraw => ?_, h.given⟩
    cases hnone.symm.trans hraw
  · exact List.forall_mem_cons.mpr ⟨fun _ => h.behind v hv, h.blank⟩
  · exact fun w hw => h.behind w (fun hdone => hw (List.mem_cons_of_mem v hdone))

theorem Applies.put {done rest : List Variable} {e : Option Error}
    (h : Applies lookup done rest u t e) (hv : v ∉ done) (hgiven : given? lookup v = some raw)
    (hset : s.set v raw = .ok u) : Applies lookup (v :: done) rest s t e := by
  obtain ⟨u', hset', hfrom, hothers, hbackoff⟩ | ⟨_, herror⟩ := set_cases s v raw
  · cases hset.symm.trans hset'
    refine ⟨?_, h.stops, ?_, ?_, ?_, h.backoff.trans hbackoff⟩
    · refine List.forall_mem_cons.mpr ⟨fun other hother => ?_, h.readable⟩
      cases hgiven.symm.trans hother.given
      cases hset.symm.trans (set_of_unreadable hother s)
    · refine List.forall_mem_cons.mpr ⟨fun other hother => ?_, h.given⟩
      cases hgiven.symm.trans hother
      exact hfrom.of_same (h.behind v hv)
    · refine List.forall_mem_cons.mpr ⟨fun hnone => ?_, fun w hw hnone => ?_⟩
      · cases hgiven.symm.trans hnone
      · exact (hothers w fun he => hv (he ▸ hw)).trans (h.blank w hw hnone)
    · intro w hw
      obtain ⟨hne, hdone⟩ := not_or.mp (mt List.mem_cons.mpr hw)
      exact (hothers w hne).trans (h.behind w hdone)
  · cases hset.symm.trans herror

theorem exists_applies (lookup : Variable → Option String) {vs : List Variable} (hvs : vs.Nodup)
    (s : Settings) :
    ∃ done rest, vs = done ++ rest ∧
      Applies lookup done rest s (setAll lookup vs s).1 (setAll lookup vs s).2 := by
  induction vs generalizing s with
  | nil =>
    refine ⟨[], [], rfl, ?_, .finished, ?_, ?_, fun v _ => .refl v s, rfl⟩
    all_goals simp
  | cons v vs ih =>
    obtain ⟨hv, hvs⟩ := List.nodup_cons.mp hvs
    rw [setAll_cons]
    cases hgiven : given? lookup v with
    | none =>
      obtain ⟨done, rest, rfl, h⟩ := ih hvs s
      exact ⟨v :: done, rest, rfl, h.skip (fun hd => hv (List.mem_append_left _ hd)) hgiven⟩
    | some raw =>
      dsimp only
      cases hset : s.set v raw with
      | ok u =>
        obtain ⟨done, rest, rfl, h⟩ := ih hvs u
        exact ⟨v :: done, rest, rfl, h.put (fun hd => hv (List.mem_append_left _ hd)) hgiven hset⟩
      | error e =>
        obtain ⟨t, hok, _⟩ | ⟨hno, herror⟩ := set_cases s v raw
        · cases hset.symm.trans hok
        · cases hset.symm.trans herror
          refine ⟨[], v :: vs, rfl, by simp, ?_, by simp, by simp, fun w _ => .refl w s, rfl⟩
          exact .unreadable vs ⟨hgiven, hno⟩ (blames_notACount v raw)

/-- Settings that have what the variables say already are left as they are. -/
theorem setAll_of_applied {done rest : List Variable} {e : Option Error}
    (hdone : ∀ v ∈ done, ∀ raw, given? lookup v = some raw → t.HasFrom v raw)
    (hrest : Stops lookup rest e) : setAll lookup (done ++ rest) t = (t, e) := by
  induction done with
  | nil =>
    cases hrest with
    | finished => rfl
    | unreadable vs hv hblames =>
      rw [List.nil_append, setAll_cons, hv.given]
      dsimp only
      rw [set_of_unreadable hv, hblames.fault]
      rfl
  | cons v done ih =>
    obtain ⟨hv, hdone⟩ := List.forall_mem_cons.mp hdone
    rw [List.cons_append, setAll_cons]
    cases hgiven : given? lookup v with
    | none => exact ih hdone
    | some raw =>
      dsimp only
      rw [(hv raw hgiven).set_eq]
      exact ih hdone

/-- **Overrides are applied as a prefix of the variables**, which stops at the first that is given
but no count. The fields of the prefix have what its variables say, and all other fields stay as
they were, also when the overriding fails. A second pass over the same environment changes nothing
and ends as the first did; a pass over an environment that gives nothing changes nothing. -/
theorem overrides_apply_prefix (s : Settings) (lookup : Variable → Option String) :
    (∃ done rest, [.apiKey, .baseUrl, .timeoutSeconds, .maxRetries] = done ++ rest ∧
      Applies lookup done rest s (s.overridden lookup).1 (s.overridden lookup).2) ∧
    (s.overridden lookup).1.overridden lookup = s.overridden lookup ∧
    ((∀ v, given? lookup v = none) → s.overridden lookup = (s, none)) := by
  have hnodup : Variable.all.Nodup := by decide
  obtain ⟨done, rest, hall, happlies⟩ := exists_applies lookup hnodup s
  refine ⟨⟨done, rest, hall, happlies⟩, ?_, ?_⟩
  · have hagain := setAll_of_applied happlies.given happlies.stops
    rwa [← hall] at hagain
  · intro hnone
    have hdone : ∀ v ∈ Variable.all, ∀ raw, given? lookup v = some raw → s.HasFrom v raw := by
      intro v _ raw hraw
      cases (hnone v).symm.trans hraw
    exact setAll_of_applied hdone .finished

end Settings

end OneApi
