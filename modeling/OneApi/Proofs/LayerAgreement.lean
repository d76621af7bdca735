import OneApi.Proofs.RetriedSession

/-! Agreement from the transports up. Two transports that agree still agree behind retrying layers with
the same policy, and connections over them agree on every page. -/

namespace OneApi

variable {σ τ : Type} {R : σ → τ → Prop} {t : Transport σ} {u : Transport τ}

/-- The layer decides by the answers alone. -/
theorem Retry.agree_sendFrom {policy : RetryPolicy} {pause : UInt32 → Span → StateM σ Unit}
    {otherPause : UInt32 → Span → StateM τ Unit} {p q : Request}
    (hpause : ∀ attempt wait, Agree R Eq (pause attempt wait) (otherPause attempt wait))
    (h : Agree R Eq (t p) (u q)) (remaining : Nat) (attempt : UInt32) :
    Agree R Eq (sendFrom policy pause t p remaining attempt)
      (sendFrom policy otherPause u q remaining attempt) := by
  induction remaining generalizing attempt with
  | zero =>
    intro a b hab
    obtain ⟨hanswer, hstates⟩ := h a b hab
    rw [sendFrom_zero, sendFrom_zero]
    exact ⟨congrArg (verdict policy.maxRetries) hanswer, hstates⟩
  | succ left ih =>
    intro a b hab
    obtain ⟨hanswer, hstates⟩ := h a b hab
    by_cases hfinal : Final (t p a).1
    · rw [sendFrom_of_final hfinal, sendFrom_of_final (hanswer ▸ hfinal)]
      exact ⟨congrArg (verdict policy.maxRetries) hanswer, hstates⟩
    · rw [sendFrom_succ hfinal, sendFrom_succ (hanswer ▸ hfinal)]
      exact ih (attempt + 1) _ _ (hpause attempt _ _ _ hstates).2

theorem Retry.agree_layer {pause : UInt32 → Span → StateM σ Unit}
    {otherPause : UInt32 → Span → StateM τ Unit} {p q : Request}
    (hpause : ∀ attempt wait, Agree R Eq (pause attempt wait) (otherPause attempt wait))
    (h : Agree R Eq (t p) (u q)) (policy : RetryPolicy) :
    Agree R Eq (layer policy pause t p) (layer policy otherPause u q) :=
  agree_sendFrom hpause h policy.maxRetries.toNat 0

/-- The addresses do not depend on the key or the transport, so connections with the same base
address get the same pages if their transports agree on every address. -/
theorem Connection.agree_of_transports {k l : String}
    (h : ∀ url, OneApi.Agree R Eq (t ⟨url, k⟩) (u ⟨url, l⟩)) (base : Url) :
    (Connection.mk base k t).Agree R Eq (Connection.mk base l u) := by
  refine ⟨fun _ => rfl, ?_⟩
  intro α _ path segments o a b hab
  let url := toString (base.endpoint path.toList (segments.map String.toList) o.query)
  obtain ⟨hanswer, hstates⟩ := h url a b hab
  rw [page_eq, page_eq]
  refine ⟨?_, hstates⟩
  show Alike Eq (Answer.page (t ⟨url, k⟩ a).1) (Answer.page (u ⟨url, l⟩ b).1)
  rw [hanswer]
  exact .refl (fun _ => rfl) _

end OneApi
