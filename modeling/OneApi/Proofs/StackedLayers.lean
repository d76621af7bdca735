import Mathlib.Data.List.Forall2
import OneApi.Proofs.RetryTrace

/-! Retrying layers on top of each other. No layer hands on a response that says the rate limit was
hit: such a response is either asked for again or turned into an error. So an outer layer never has
anything to retry. It adds nothing to the inner layer, neither to one request nor to a sequence of
them, and it never waits. -/

namespace OneApi.Retry

variable {σ ν : Type} {policy : RetryPolicy} {pause : UInt32 → Span → StateM σ Unit}
  {inner : Transport σ}

/-- A transport whose responses never say that the rate limit was hit. -/
def Unlimited (t : Transport σ) : Prop :=
  ∀ (request : Request) (s : σ) (r : Response), (t request s).1 = .ok r → r.status ≠ 429

/-! ## One request -/

theorem status_of_verdict {budget : UInt32} {a : Answer} {r : Response}
    (h : verdict budget a = .ok r) : r.status ≠ 429 := by
  cases a with
  | error e => contradiction
  | ok q =>
    rw [verdict] at h
    split at h
    · rename_i hq
      cases h
      exact hq
    · split at h <;> contradiction

theorem unlimited_layer (policy : RetryPolicy) (pause : UInt32 → Span → StateM σ Unit)
    (inner : Transport σ) : Unlimited (layer policy pause inner) := by
  intro request s r h
  obtain ⟨k, hk⟩ := exists_isLeast_stops policy.maxRetries
    fun i => (heard policy pause inner request s i).1
  rw [layer_of_isLeast hk] at h
  exact status_of_verdict h

/-- A layer around such a transport does nothing. -/
theorem Unlimited.layer_eq (h : Unlimited inner) (policy : RetryPolicy)
    (pause : UInt32 → Span → StateM σ Unit) : layer policy pause inner = inner := by
  funext request s
  have hfinal : Final (inner request s).1 := by
    cases ha : (inner request s).1 with
    | error e => trivial
    | ok r => exact .inl (h request s r ha)
  have hverdict : verdict policy.maxRetries (inner request s).1 = (inner request s).1 := by
    cases ha : (inner request s).1 with
    | error e => rfl
    | ok r => exact if_pos (h request s r ha)
  show sendFrom policy pause inner request policy.maxRetries.toNat 0 s = inner request s
  rw [sendFrom_of_final hfinal, hverdict]
  rfl

/-- Over a script a layer sends at most once more than it may retry. -/
theorem exists_layer_script (policy : RetryPolicy) (request : Request) (s : Script) :
    ∃ k, k ≤ policy.maxRetries.toNat ∧
      (layer policy Script.pause Script.transport request s).2 = s.after request (k + 1) k := by
  obtain ⟨k, hk⟩ := exists_isLeast_stops policy.maxRetries s.answer
  have hle : k ≤ policy.maxRetries.toNat := hk.2 (.inl rfl)
  exact ⟨k, hle, by rw [layer_script hk]⟩

/-! ## A sequence of requests -/

/-- One send, with the states before and after it. -/
structure Sending (σ : Type) where
  before : σ
  answer : Answer
  after : σ

/-- Sends requests one after the other. -/
def sends (t : Transport σ) : List Request → σ → List (Sending σ)
  | [], _ => []
  | request :: requests, s =>
    ⟨s, (t request s).1, (t request s).2⟩ :: sends t requests (t request s).2

/-- A transport over a state with a note beside it, which it leaves alone. -/
def beside (ν : Type) (t : Transport σ) : Transport (σ × ν) := fun request s =>
  ((t request s.1).1, (t request s.1).2, s.2)

/-- A pause that notes its attempt. -/
def noteAttempt : UInt32 → Span → StateM (σ × List UInt32) Unit := fun attempt _ s =>
  ((), s.1, s.2 ++ [attempt])

/-- A send with a note that stays the same. -/
def Sending.noted (note : ν) (sending : Sending σ) : Sending (σ × ν) :=
  ⟨(sending.before, note), sending.answer, (sending.after, note)⟩

theorem Unlimited.beside {t : Transport σ} (h : Unlimited t) : Unlimited (beside ν t) :=
  fun request s => h request s.1

theorem sends_beside (t : Transport σ) (requests : List Request) (s : σ) (note : ν) :
    sends (beside ν t) requests (s, note) = (sends t requests s).map (Sending.noted note) := by
  induction requests generalizing s with
  | nil => rfl
  | cons request requests ih =>
    rw [sends, sends, List.map_cons]
    exact congrArg _ (ih (t request s).2)

theorem forall_sends {t : Transport σ} {P : Request → Sending σ → Prop}
    (h : ∀ request s, P request ⟨s, (t request s).1, (t request s).2⟩) (requests : List Request)
    (s : σ) : List.Forall₂ P requests (sends t requests s) := by
  induction requests generalizing s with
  | nil => exact .nil
  | cons request requests ih => exact .cons (h request s) (ih (t request s).2)

/-- **Stacked layers collapse to the inner one.** Around a layer, another one changes nothing, over
any transport and with any pauses. In a sequence of requests over a script it therefore gives the
answers, requests and states of the inner layer alone, send by send, and its own pauses are never
made; each send asks once and repeats that at most as often as the inner budget allows. -/
theorem layers_collapse (inner outer : RetryPolicy) :
    (∀ {σ : Type} (pause outerPause : UInt32 → Span → StateM σ Unit) (t : Transport σ),
      layer outer outerPause (layer inner pause t) = layer inner pause t) ∧
    ∀ (requests : List Request) (s : Script) (attempts : List UInt32),
      let alone := layer inner Script.pause Script.transport
      sends (layer outer noteAttempt (beside _ alone)) requests (s, attempts) =
        (sends alone requests s).map (Sending.noted attempts) ∧
      List.Forall₂ (fun request sending => ∃ k, k ≤ inner.maxRetries.toNat ∧
          sending.after = sending.before.after request (k + 1) k)
        requests (sends alone requests s) := by
  constructor
  · intro σ pause outerPause t
    exact (unlimited_layer inner pause t).layer_eq outer outerPause
  · intro requests s attempts alone
    have halone : Unlimited alone := unlimited_layer inner Script.pause Script.transport
    constructor
    · rw [halone.beside.layer_eq outer noteAttempt]
      exact sends_beside alone requests s attempts
    · exact forall_sends (exists_layer_script inner) requests s

end OneApi.Retry
