import Mathlib.Data.List.TakeDrop
import OneApi.Client
import OneApi.Proofs.PlainDomains

/-! Building a client. A base address is accepted when requests can be joined to it, whatever the key
and the transport are. A builder whose key is not blank depends on its key for the credential
alone, so what is left to be refused is the network and the base address. -/

namespace OneApi

variable {σ : Type}

theorem exists_of_bind_ok {ε α β : Type} {x : Except ε α} {f : α → Except ε β} {b : β}
    (h : x >>= f = .ok b) : ∃ a, x = .ok a ∧ f a = .ok b := by
  cases x with
  | error e => cases h
  | ok a => exact ⟨a, rfl, h⟩

/-! ## Base addresses -/

section

variable [Url.DomainNames]

/-- Requests can be joined to this base address. -/
def Joinable (text : String) : Prop :=
  ∃ base guarded segments, Url.parse text.toList = .ok base ∧
    base.path = .hierarchical guarded segments

/-- Why no request can be joined to a base address. -/
inductive BaseFault (text : String) : Error → Prop
  | unreadable {fault : Url.Fault} :
    Url.parse text.toList = .error fault → BaseFault text (.invalidUrl fault)
  | rootless {base : Url} {rest : List Char} :
    Url.parse text.toList = .ok base → base.path = .rootless rest →
      BaseFault text (.config (.opaqueBase (toString base)))

/-- The address of the service, read. -/
def Service.url : Url :=
  ⟨"https".toList, some ⟨[], [], .name "the-one-api.dev".toList, none⟩,
    .hierarchical false ["v2".toList], none, none⟩

theorem Service.parse_baseUrl : Url.parse baseUrl.toList = .ok url :=
  Url.parse_of_ascii (by decide +kernel)

theorem Service.joinable : Joinable baseUrl := ⟨url, _, _, parse_baseUrl, rfl⟩

namespace Connection

variable {text key : String} {transport : Transport σ} {c : Connection σ}

theorem connect_ok (h : connect text key transport = .ok c) :
    Url.parse text.toList = .ok c.base ∧ c.key = key ∧ c.transport = transport := by
  unfold connect at h
  split at h
  · cases h
  · rename_i base hbase
    split at h
    · cases h
    · cases h
      exact ⟨hbase, rfl, rfl⟩

theorem path_of_connect (h : connect text key transport = .ok c) :
    ∃ guarded segs, c.base.path = .hierarchical guarded segs := by
  unfold connect at h
  split at h
  · cases h
  · split at h
    · cases h
    · rename_i guarded segs hp
      cases h
      exact ⟨guarded, segs, hp⟩

theorem connect_of_joinable (h : Joinable text) (t : Transport σ) :
    ∃ base, ∀ key, connect text key t = .ok ⟨base, key, t⟩ := by
  obtain ⟨base, guarded, segments, hparse, hpath⟩ := h
  refine ⟨base, fun key => ?_⟩
  unfold connect
  rw [hparse]
  dsimp only
  rw [hpath]

theorem connect_of_not_joinable (h : ¬ Joinable text) (t : Transport σ) :
    ∃ e, BaseFault text e ∧ ∀ key, connect text key t = .error e := by
  unfold connect
  cases hparse : Url.parse text.toList with
  | error fault => exact ⟨_, .unreadable hparse, fun _ => rfl⟩
  | ok base =>
    dsimp only
    cases hpath : base.path with
    | rootless rest => exact ⟨_, .rootless hparse hpath, fun _ => rfl⟩
    | hierarchical guarded segments => exact absurd ⟨base, guarded, segments, hparse, hpath⟩ h

/-- Whether a base address is accepted does not depend on the key. -/
theorem connect_cases (text : String) (t : Transport σ) :
    (∃ e, ∀ key, connect text key t = .error e) ∨
      ∃ base, ∀ key, connect text key t = .ok ⟨base, key, t⟩ := by
  by_cases h : Joinable text
  · exact .inr (connect_of_joinable h t)
  · obtain ⟨e, _, hconnect⟩ := connect_of_not_joinable h t
    exact .inl ⟨e, hconnect⟩

end Connection

end

/-! ## Builders -/

namespace Builder

variable {b : Builder σ} {t : Transport σ} {key : String} {send : Network → Transport σ}
  {pause : UInt32 → Span → StateM σ Unit}

theorem key_ok (h : b.key = .ok key) :
    ∃ k, b.apiKey = some k ∧ Text.isBlank k.toList = false ∧ key = Text.trim k := by
  unfold Builder.key at h
  split at h
  · cases h
  · rename_i k hk
    split at h
    · cases h
    · rename_i hblank
      cases h
      exact ⟨k, hk, by simpa using hblank, rfl⟩

theorem build_ok [Url.DomainNames] {c : Client σ} (h : b.build send pause = .ok c) :
    ∃ key t base, b.key = .ok key ∧ b.stack send pause = .ok t ∧
      Connection.connect b.baseUrl key t = .ok ⟨base, key, t⟩ ∧ c = .ofConnection ⟨base, key, t⟩ := by
  obtain ⟨key, hkey, hafter⟩ := exists_of_bind_ok h
  obtain ⟨t, hstack, hlast⟩ := exists_of_bind_ok hafter
  obtain ⟨connection, hconnect, hc⟩ := exists_of_bind_ok hlast
  obtain ⟨base, key', t'⟩ := connection
  obtain ⟨_, rfl, rfl⟩ := Connection.connect_ok hconnect
  exact ⟨_, _, base, hkey, hstack, hconnect, (Except.ok.inj hc).symm⟩

theorem build_with_key [Url.DomainNames] (hkey : b.apiKey = some key)
    (hblank : Text.isBlank key.toList = false) :
    b.build send pause =
      (do
        let t ← b.stack send pause
        return .ofConnection (← Connection.connect b.baseUrl (Text.trim key) t)) := by
  have hread : b.key = .ok (Text.trim key) := by
    rw [Builder.key, hkey]
    exact if_neg (by simp [hblank])
  rw [build, hread]
  rfl

/-- With a key and a transport, a builder can still fail for its base address alone. -/
theorem build_with_stack [Url.DomainNames] (hkey : b.apiKey = some key)
    (hblank : Text.isBlank key.toList = false) (hstack : b.stack send pause = .ok t) :
    b.build send pause =
      (Connection.connect b.baseUrl (Text.trim key) t).map Client.ofConnection := by
  rw [build_with_key hkey hblank, hstack]
  rfl

end Builder

end OneApi
