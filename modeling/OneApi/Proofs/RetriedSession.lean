import OneApi.Proofs.Agreement
import OneApi.Proofs.RetriedWalk

/-! Errors through a retrying layer. An answer is classified once by the layer and once by its
status, and both come to an error of the same kind, with the same window. So a call through the
layer comes to what its last answer alone would have come to. Where no answer says that the rate
limit was hit, a whole session is the same with the layer as without it; and a layer without
retries never sends anything of its own. -/

namespace OneApi

open Retry

/-- Equal errors, or two refusals with the same window that may be worded differently. -/
inductive Error.SameKind : Error → Error → Prop
  | same (e : Error) : SameKind e e
  | refusals (f g : LimitFault) (w : RateWindow) : SameKind (.rateLimited f w) (.rateLimited g w)

theorem Error.SameKind.status?_eq {e f : Error} (h : SameKind e f) : e.status? = f.status? := by
  cases h <;> rfl

variable {σ α : Type} [Document α]

/-! ## Classification -/

/-- The page in an answer, or the error it means. -/
def Answer.page : Answer → Except Error (Page α)
  | .error e => .error e
  | .ok r => r.page

theorem Connection.page_eq (c : Connection σ) (path : String) (segments : List String) (o : Options)
    (s : σ) : c.page path segments o s =
      (Answer.page (α := α) (c.transport (c.request path segments o) s).1,
        (c.transport (c.request path segments o) s).2) := by
  unfold Connection.page
  rcases c.transport (c.request path segments o) s with ⟨_ | r, t⟩ <;> rfl

theorem Response.page_of_status_ne {r : Response} (h : r.status ≠ 200) :
    ∃ e, (r.page : Except Error (Page α)) = .error e ∧ e.status? = some r.status := by
  have hpage {e : Error} (he : r.outcome = .error e) :
      (r.page : Except Error (Page α)) = .error e := by
    rw [page, he]
  unfold outcome at hpage
  rw [if_neg h] at hpage
  split at hpage
  · rename_i hs
    exact ⟨_, hpage rfl, by rw [hs]; rfl⟩
  · split at hpage
    · rename_i hs
      exact ⟨_, hpage rfl, by rw [hs]; rfl⟩
    · split at hpage
      · rename_i hs
        exact ⟨_, hpage rfl, by rw [hs]; rfl⟩
      · exact ⟨_, hpage rfl, rfl⟩

theorem Response.status_of_page_api {r : Response} {status : Nat} {body : String}
    (h : (r.page : Except Error (Page α)) = .error (.api status body)) :
    status ∉ [200, 401, 404, 429] := by
  unfold page at h
  split at h
  · rename_i e he
    cases h
    unfold outcome at he
    split at he
    · cases he
    · split at he
      · cases he
      · split at he
        · cases he
        · split at he
          · cases he
          · cases he
            simp_all
  · split at h <;> cases h

theorem Answer.page_verdict (budget : UInt32) (a : Answer) :
    Alike Error.SameKind (Answer.page (verdict budget a) : Except Error (Page α)) a.page := by
  cases a with
  | error e => exact .error (.same e)
  | ok r =>
    by_cases hs : r.status = 429
    · have hpage : (r.page : Except Error (Page α)) = .error (.rateLimited .refused r.window) := by
        simp [Response.page, Response.outcome, hs]
      rw [verdict, if_neg (not_not_intro hs), page, hpage]
      split <;> exact .error (.refusals _ _ _)
    · rw [verdict, if_pos hs]
      exact .refl .same _

/-- What a call makes of the answer it ends with, compared with the same call when that answer is
the only one. -/
structure Classified (last : Answer) (result alone : Except Error α) : Prop where
  same : Alike Error.SameKind result alone
  failure : ∀ e, last = .error e → result = .error e
  status : ∀ r : Response, last = .ok r → r.status ≠ 200 →
    ∃ e, result = .error e ∧ e.status? = some r.status
  api : ∀ (r : Response) (status : Nat) (body : String), last = .ok r →
    result = .error (.api status body) → status ∉ [200, 401, 404, 429]

theorem classified_verdict (budget : UInt32) (a : Answer) :
    Classified a (Answer.page (verdict budget a) : Except Error (Page α)) a.page := by
  have hsame := Answer.page_verdict (α := α) budget a
  refine ⟨hsame, ?_, ?_, ?_⟩
  · rintro e rfl
    rfl
  · rintro r rfl hs
    obtain ⟨e, he, hstatus⟩ := Response.page_of_status_ne (α := α) hs
    have hpage : (Answer.page (.ok r) : Except Error (Page α)) = .error e := he
    rw [hpage] at hsame
    obtain ⟨f, hresult, hkind⟩ := hsame.of_error_right
    exact ⟨f, hresult, hkind.status?_eq.trans hstatus⟩
  · rintro r status body rfl hresult
    rw [hresult] at hsame
    obtain ⟨e, he, hkind⟩ := hsame.of_error_left
    cases hkind
    exact Response.status_of_page_api (r := r) he

/-! ## Connections with and without the layer -/

namespace Connection

/-- A connection whose transport answers a script without a layer. -/
def plain (base : Url) (key : String) : Connection Script := ⟨base, key, Script.transport⟩

/-- A call through the layer is classified by the last answer it reads. -/
theorem page_retried (policy : RetryPolicy) (base : Url) (key path : String)
    (segments : List String) (o : Options) (s : Script) : ∃ k result,
      (retried policy base key).page path segments o s =
        (result, s.after ((plain base key).request path segments o) (k + 1) k) ∧
      Classified (s.answer k) (result : Except Error (Page α))
        ((plain base key).page path segments o { answers := [s.answer k] }).1 := by
  obtain ⟨k, hk⟩ := exists_isLeast_stops policy.maxRetries s.answer
  refine ⟨k, Answer.page (verdict policy.maxRetries (s.answer k)), ?_, ?_⟩
  · rw [page_eq, retried_transport, layer_script hk]
    rfl
  · rw [page_eq]
    exact classified_verdict policy.maxRetries (s.answer k)

end Connection

/-- No answer of a script says that the rate limit was hit. -/
def Script.Calm (s : Script) : Prop := ∀ r : Response, .ok r ∈ s.answers → r.status ≠ 429

theorem Script.calm_transport {s : Script} (h : s.Calm) (request : Request) :
    (transport request s).2.Calm := by
  unfold transport
  split
  · exact h
  · rename_i answer rest hanswers
    exact fun r hr => h r (by rw [hanswers]; exact List.mem_cons_of_mem _ hr)

theorem layer_of_calm (policy : RetryPolicy) {s : Script} (h : s.Calm) (request : Request) :
    layer policy Script.pause Script.transport request s = Script.transport request s := by
  have hanswer : ∀ r, (Script.transport request s).1 = .ok r → r.status ≠ 429 := by
    intro r hr
    unfold Script.transport at hr
    split at hr
    · cases hr
    · rename_i answer rest hanswers
      exact h r (by rw [hanswers, ← hr]; exact List.mem_cons_self)
  have hfinal : Final (Script.transport request s).1 := by
    cases ha : (Script.transport request s).1 with
    | error e => trivial
    | ok r => exact .inl (hanswer r ha)
  have hverdict : verdict policy.maxRetries (Script.transport request s).1 =
      (Script.transport request s).1 := by
    cases ha : (Script.transport request s).1 with
    | error e => rfl
    | ok r => exact if_pos (hanswer r ha)
  rw [layer, sendFrom_of_final hfinal, hverdict]
  rfl

namespace Connection

theorem agree_of_calm (policy : RetryPolicy) (base : Url) (key : String) :
    (retried policy base key).Agree (fun s t => s = t ∧ s.Calm) Eq (plain base key) := by
  refine ⟨fun _ => rfl, ?_⟩
  rintro α _ path segments o s _ ⟨rfl, hcalm⟩
  rw [page_eq, page_eq, retried_transport, layer_of_calm policy hcalm]
  exact ⟨.refl (fun _ => rfl) _, rfl, Script.calm_transport hcalm _⟩

theorem agree_of_no_retries {policy : RetryPolicy} (h : policy.maxRetries = 0) (base : Url)
    (key : String) : (retried policy base key).Agree Eq Error.SameKind (plain base key) := by
  refine ⟨.same, ?_⟩
  rintro α _ path segments o s _ rfl
  have hbudget : policy.maxRetries.toNat = 0 := by rw [h]; rfl
  have hlayer (request : Request) : layer policy Script.pause Script.transport request s =
      (verdict policy.maxRetries (Script.transport request s).1, (Script.transport request s).2) := by
    rw [layer, hbudget]
    exact sendFrom_zero 0 s
  rw [page_eq, page_eq, retried_transport, hlayer]
  exact ⟨Answer.page_verdict _ _, rfl⟩

end Connection

/-- **The retry layer keeps the outcomes.** A list call through the layer leaves the script after its
last answer, and that answer alone decides on the page or the kind of error. On a script that never
says the rate limit was hit, every session gets the same replies and leaves the same record with
the layer and without it. A layer without retries leaves the same record on every script, and the
replies differ in the wording of refusals at most. -/
theorem retries_keep_outcomes (policy : RetryPolicy) (base : Url) (key : String) :
    (∀ {α : Type} [Document α] (path : String) (o : Options) (s : Script), ∃ k result,
      (Collection.mk path (.retried policy base key)).list o s =
        (result, s.after ((Connection.plain base key).request path [] o) (k + 1) k) ∧
      Classified (s.answer k) (result : Except Error (Page α))
        ((Collection.mk path (.plain base key)).list o { answers := [s.answer k] }).1) ∧
    (∀ (calls : List Call) (s : Session Script), s.state.Calm →
      (Client.ofConnection (.retried policy base key)).calls calls s =
        (Client.ofConnection (.plain base key)).calls calls s) ∧
    (policy.maxRetries = 0 → ∀ (calls : List Call) (s : Session Script),
      let layered := (Client.ofConnection (.retried policy base key)).calls calls s
      let bare := (Client.ofConnection (.plain base key)).calls calls s
      List.Forall₂ (Reply.Alike Error.SameKind) layered.1 bare.1 ∧ layered.2 = bare.2) := by
  refine ⟨fun path o s => Connection.page_retried policy base key path [] o s, ?_, ?_⟩
  · intro calls s hcalm
    obtain ⟨hreplies, hwalks, hstates, _⟩ :=
      (Connection.agree_of_calm policy base key).calls calls s s ⟨rfl, rfl, hcalm⟩
    have hsame := forall₂_eq (fun _ _ => Reply.Alike.eq) hreplies
    exact Prod.ext hsame (Session.eq_of_related ⟨hwalks, hstates⟩)
  · intro hzero calls s
    obtain ⟨hreplies, hsessions⟩ :=
      (Connection.agree_of_no_retries hzero base key).calls calls s s ⟨rfl, rfl⟩
    exact ⟨hreplies, Session.eq_of_related hsessions⟩

/-- A walk, an item and a page that is not there, with and without a refusal among the answers. -/
theorem retries_keep_outcomes_sessions :
    let base : Url := ⟨"https".toList, none, .hierarchical false ["v2".toList], none, none⟩
    let layered := Client.ofConnection (.retried (.constant 0 .zero) base "key")
    let bare := Client.ofConnection (.plain base "key")
    let calls : List Call :=
      [.start "walk" .quotes {}, .next "walk", .movie "5cd9", .drain "walk", .drop "walk"]
    let calm : Session Script :=
      { state := { answers := [.ok ⟨404, "", []⟩, .error (.transport "timeout" "timeout")] } }
    let refused : Session Script := { state := { answers := [.ok ⟨429, "", []⟩, .ok ⟨503, "", []⟩] } }
    calm.state.Calm ∧ layered.calls calls calm = bare.calls calls calm ∧
      List.Forall₂ (Reply.Alike Error.SameKind) (layered.calls calls refused).1
        (bare.calls calls refused).1 ∧
      (layered.calls calls refused).2 = (bare.calls calls refused).2 := by
  intro base layered bare calls calm refused
  have hcalm : calm.state.Calm := by
    intro r hr
    simp only [calm, List.mem_cons, Except.ok.injEq, reduceCtorEq, List.not_mem_nil, or_false] at hr
    rw [hr]
    decide
  have hkeep := retries_keep_outcomes (.constant 0 .zero) base "key"
  exact ⟨hcalm, hkeep.2.1 calls calm hcalm, hkeep.2.2 rfl calls refused⟩

end OneApi
