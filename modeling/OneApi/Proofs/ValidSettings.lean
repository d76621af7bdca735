import OneApi.Proofs.NotedRequests
import OneApi.Settings

/-! From settings to a client. What the check of the settings refuses, the builder refuses with the
same error. What it lets through gives a client whenever requests can be joined to the base
address; the check does not look at this address, which is first read when the client is built. -/

namespace OneApi

open Transport

variable {σ : Type}

namespace Settings

variable {s : Settings}

theorem key_of_validate (h : s.validate = .ok ()) :
    ∃ k, s.apiKey = some k ∧ Text.isBlank k.toList = false := by
  unfold validate at h
  split at h
  · cases h
  · rename_i trimmed hkey
    obtain ⟨htrimmed, hne⟩ := Option.filter_eq_some_iff.mp hkey
    obtain ⟨k, hk, rfl⟩ := Option.map_eq_some_iff.mp htrimmed
    refine ⟨k, hk, ?_⟩
    rw [Bool.eq_false_iff]
    intro hblank
    have hnil : Text.strip k.toList = [] := (Text.strip_eq_nil_iff k.toList).mpr hblank
    simp [Text.trim, hnil] at hne

/-- The builder takes over the key without the spaces around it. -/
theorem builder_ok {b : Builder σ} (h : s.builder = .ok b) :
    s.validate = .ok () ∧ b.apiKey = s.apiKey.map Text.trim ∧ b.baseUrl = s.baseUrl := by
  obtain ⟨_, hvalid, hb⟩ := exists_of_bind_ok h
  cases hb
  exact ⟨hvalid, rfl, rfl⟩

/-- Every client that can be built from the settings, on any transport or on the network, signs its
requests with their key, without the spaces around it. -/
def ClientsSign [Url.DomainNames] (s : Settings) : Prop :=
  ∀ {σ : Type} (b : Builder σ), s.builder = .ok b → ∀ (custom : Option (Transport σ))
    (send : Network → Transport σ) (pause : UInt32 → Span → StateM σ Unit)
    (c : Client (σ × List Request)),
    ({ b with transport := custom } : Builder σ).noted.build (fun n => (send n).noted)
      (besideNotes pause) = .ok c →
    ∃ k, s.apiKey = some k ∧ c.Signs (Text.trim k)

theorem clients_sign [Url.DomainNames] (s : Settings) : s.ClientsSign := by
  intro σ b hb custom send pause c hc
  obtain ⟨_, hkey, _⟩ := builder_ok hb
  obtain ⟨key, hbuilt, hsigns⟩ := Builder.signs_of_build hc
  rw [show b.apiKey = some key from hbuilt] at hkey
  obtain ⟨k, hk, rfl⟩ := Option.map_eq_some_iff.mp hkey.symm
  rw [Text.trim_trim] at hsigns
  exact ⟨k, hk, hsigns⟩

/-- **Settings that pass the check give a client**, on any transport, if and only if requests can be
joined to their base address. The requests of this client carry the key without the spaces around
it. Settings that fail the check give no builder, for the same reason. -/
theorem valid_settings_build [Url.DomainNames] (s : Settings) (t : Transport σ)
    (send : Network → Transport σ) (pause : UInt32 → Span → StateM σ Unit) :
    match s.validate with
    | .error e => (s.builder : Except Error (Builder σ)) = .error e
    | .ok () => ∃ (b : Builder σ) (k : String), s.builder = .ok b ∧ s.apiKey = some k ∧
      let built := ({ b with transport := some t } : Builder σ).noted.build
        (fun n => (send n).noted) (besideNotes pause)
      (Joinable s.baseUrl → ∃ c, built = .ok c ∧ c.Signs (Text.trim k)) ∧
        (¬ Joinable s.baseUrl → ∃ e, built = .error e ∧ BaseFault s.baseUrl e) := by
  cases hvalid : s.validate with
  | error e =>
    show (s.builder : Except Error (Builder σ)) = .error e
    rw [builder, hvalid]
    rfl
  | ok _ =>
    obtain ⟨k, hk, hblank⟩ := key_of_validate hvalid
    obtain ⟨b, hb⟩ : ∃ b : Builder σ, s.builder = .ok b := by
      rw [builder, hvalid]
      exact ⟨_, rfl⟩
    obtain ⟨_, hkey, hbase⟩ := builder_ok hb
    rw [hk, Option.map_some] at hkey
    let custom : Builder (σ × List Request) := ({ b with transport := some t } : Builder σ).noted
    have hconnect : custom.build (fun n => (send n).noted) (besideNotes pause) =
        (Connection.connect b.baseUrl (Text.trim (Text.trim k)) t.noted).map Client.ofConnection :=
      Builder.build_with_stack hkey (by rwa [Text.isBlank_trim]) rfl
    refine ⟨b, k, hb, hk, ?_, ?_⟩
    · intro hjoinable
      obtain ⟨base, hread⟩ := Connection.connect_of_joinable hjoinable t.noted
      rw [hbase, hread] at hconnect
      obtain ⟨_, hk', hsigns⟩ := clients_sign s b hb (some t) send pause _ hconnect
      cases hk.symm.trans hk'
      exact ⟨_, hconnect, hsigns⟩
    · intro hnot
      obtain ⟨e, hfault, hread⟩ := Connection.connect_of_not_joinable hnot t.noted
      rw [hbase, hread] at hconnect
      exact ⟨e, hconnect, hfault⟩

/-- A key with spaces around it, on the base address of the service. -/
theorem valid_settings_build_spaces :
    letI := Url.DomainNames.ascii
    let s : Settings := { apiKey := some " elanor\n" }
    s.validate = .ok () ∧ Joinable s.baseUrl ∧
      ∃ (b : Builder Script) (c : Client (Script × List Request)), s.builder = .ok b ∧
        ({ b with transport := some Script.transport } : Builder Script).noted.build
          (fun _ => Script.transport.noted) (besideNotes Script.pause) = .ok c ∧
        c.Signs "elanor" := by
  let names := Url.DomainNames.ascii
  intro s
  have hvalid : s.validate = .ok () := by decide
  obtain ⟨b, k, hb, hk, hbuilt, _⟩ :=
    valid_settings_build s Script.transport (fun _ => Script.transport) Script.pause
  obtain ⟨c, hc, hsigns⟩ := hbuilt Service.joinable
  cases hk
  exact ⟨hvalid, Service.joinable, b, c, hb, hc, hsigns⟩

/-- The check lets a base address through that is no address at all. -/
theorem unreadable_base_is_valid :
    letI := Url.DomainNames.ascii
    let s : Settings := { apiKey := some "key", baseUrl := "nope" }
    s.validate = .ok () ∧ ∃ b : Builder Script, s.builder = .ok b ∧
      ({ b with transport := some Script.transport } : Builder Script).build
        (fun _ => Script.transport) Script.pause = .error (.invalidUrl .missingScheme) := by
  let names := Url.DomainNames.ascii
  intro s
  have hparse : Url.parse s.baseUrl.toList = .error .missingScheme := by decide +kernel
  refine ⟨rfl, _, rfl, ?_⟩
  rw [Builder.build_with_stack rfl (by decide) rfl]
  unfold Connection.connect
  rw [hparse]
  rfl

end Settings

end OneApi
