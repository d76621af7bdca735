import OneApi.Proofs.Building
import OneApi.Proofs.LayerAgreement

/-! Clients whose requests are noted. The note is taken where the requests go out, below all retrying
layers, so it holds every request that is made. All of them carry the key of the builder, without
the spaces around it, whatever the session is and however the transport is put together. -/

namespace OneApi

variable {σ : Type} {t : Transport σ} {u : Transport (σ × List Request)}

namespace Transport

/-- The transport with a note of every request. -/
def noted (t : Transport σ) : Transport (σ × List Request) := fun request s =>
  ((t request s.1).1, (t request s.1).2, s.2 ++ [request])

/-- A pause that leaves the notes alone. -/
def besideNotes (pause : UInt32 → Span → StateM σ Unit) :
    UInt32 → Span → StateM (σ × List Request) Unit := fun attempt wait s =>
  ((), (pause attempt wait s.1).2, s.2)

/-- A transport whose requests are noted, behind any number of retrying layers. -/
inductive Stacked (t : Transport σ) : Transport (σ × List Request) → Prop
  | bare : Stacked t t.noted
  | layer {u : Transport (σ × List Request)} (policy : RetryPolicy)
      (pause : UInt32 → Span → StateM σ Unit) :
      Stacked t u → Stacked t (Retry.layer policy (besideNotes pause) u)

/-- What a request keeps without layers, it keeps with them. -/
theorem Stacked.agree {R : σ × List Request → σ × List Request → Prop} {request : Request}
    (h : Stacked t u) (hbare : Agree R Eq (t.noted request) (t.noted request))
    (hpause : ∀ pause attempt wait,
      Agree R Eq (besideNotes pause attempt wait) (besideNotes pause attempt wait)) :
    Agree R Eq (u request) (u request) := by
  induction h with
  | bare => exact hbare
  | layer policy pause _ ih => exact Retry.agree_layer (hpause pause) ih policy

end Transport

open Transport

/-! ## Credentials -/

/-- Every request of every session is sent with this credential. -/
def Client.Signs (key : String) (c : Client (σ × List Request)) : Prop :=
  ∀ (calls : List Call) (s : σ),
    ∀ request ∈ (c.calls calls { state := (s, []) }).2.state.2, request.credential = key

/-- The same state, in which all requests so far carry the key. -/
def Signed (key : String) (s v : σ × List Request) : Prop :=
  s = v ∧ ∀ request ∈ s.2, request.credential = key

theorem agree_signed (h : Stacked t u) (url key : String) :
    Agree (Signed key) Eq (u ⟨url, key⟩) (u ⟨url, key⟩) := by
  refine h.agree ?_ ?_
  · rintro s _ ⟨rfl, hs⟩
    refine ⟨rfl, rfl, ?_⟩
    simpa [noted, or_imp, forall_and] using hs
  · rintro pause attempt wait s _ ⟨rfl, hs⟩
    exact ⟨rfl, rfl, hs⟩

theorem Client.signs_of_stacked (h : Stacked t u) (base : Url) (key : String) :
    (ofConnection ⟨base, key, u⟩).Signs key := by
  intro calls s
  have hagree := Connection.agree_of_transports (fun url => agree_signed h url key) base
  have hstart : Session.Related (Signed key) { state := (s, []) } { state := (s, []) } :=
    ⟨rfl, rfl, by simp⟩
  obtain ⟨_, _, _, hsigned⟩ := hagree.calls calls _ _ hstart
  exact hsigned

/-! ## Builders -/

namespace Builder

/-- The builder with the requests of its own transport noted. -/
def noted (b : Builder σ) : Builder (σ × List Request) :=
  { b with transport := b.transport.map Transport.noted }

theorem stacked_of_stack {b : Builder σ} {send : Network → Transport σ}
    {pause : UInt32 → Span → StateM σ Unit}
    (h : b.noted.stack (fun n => (send n).noted) (besideNotes pause) = .ok u) :
    ∃ t, Stacked t u := by
  unfold stack at h
  split at h
  · rename_i custom hcustom
    cases h
    obtain ⟨t, _, rfl⟩ := Option.map_eq_some_iff.mp hcustom
    exact ⟨t, .bare⟩
  · split at h
    · cases h
    · split at h
      · cases h
        exact ⟨_, .bare⟩
      · cases h
        exact ⟨_, .layer _ pause .bare⟩

/-- A client signs its requests with the key of its builder, without the spaces around it. -/
theorem signs_of_build [Url.DomainNames] {b : Builder σ} {send : Network → Transport σ}
    {pause : UInt32 → Span → StateM σ Unit} {c : Client (σ × List Request)}
    (h : b.noted.build (fun n => (send n).noted) (besideNotes pause) = .ok c) :
    ∃ k, b.apiKey = some k ∧ c.Signs (Text.trim k) := by
  obtain ⟨key, u, base, hkey, hstack, _, rfl⟩ := build_ok h
  obtain ⟨k, hk, _, rfl⟩ := key_ok hkey
  obtain ⟨t, hstacked⟩ := stacked_of_stack hstack
  exact ⟨k, hk, Client.signs_of_stacked hstacked base (Text.trim k)⟩

end Builder

end OneApi
