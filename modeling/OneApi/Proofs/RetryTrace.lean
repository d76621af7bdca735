import Mathlib.Order.Nat
import OneApi.Retry

/-! The run of a retrying layer, seen from the transport below it. Asking the same request again and
again, with the layer's pauses in between, gives a sequence of answers. The layer reads this
sequence up to the first answer that is final or that uses up the budget, and what it hands on
depends on that one answer. Over a script every effect of the run can be read off: the requests, the
attempts that were waited for, and the answers that are left. -/

namespace OneApi.Retry

variable {σ : Type} {policy : RetryPolicy} {pause : UInt32 → Span → StateM σ Unit}
  {inner : Transport σ} {request : Request}

/-- The window allows some requests and all of them were made. -/
def Spent (w : RateWindow) : Prop := 0 < w.limit ∧ w.limit ≤ w.remaining

instance (w : RateWindow) : Decidable (Spent w) := inferInstanceAs (Decidable (_ ∧ _))

theorem isExhausted_iff (w : RateWindow) : w.isExhausted = true ↔ Spent w := by
  simp [RateWindow.isExhausted, RateWindow.isKnown, Spent]

/-- An answer that is not asked for again, however much of the budget is left. -/
def Final : Answer → Prop
  | .error _ => True
  | .ok r => r.status ≠ 429 ∨ Spent r.window

instance : DecidablePred Final
  | .error _ => isTrue trivial
  | .ok r => inferInstanceAs (Decidable (r.status ≠ 429 ∨ Spent r.window))

/-- What the layer makes of the last answer. -/
def verdict (budget : UInt32) : Answer → Answer
  | .error e => .error e
  | .ok r =>
    if r.status ≠ 429 then .ok r
    else if Spent r.window then .error (.rateLimited .windowSpent r.window)
    else .error (.rateLimited (.retriesSpent budget.toNat) r.window)

/-! ## One request of a run -/

theorem sendFrom_of_final {s : σ} (h : Final (inner request s).1) (remaining : Nat)
    (attempt : UInt32) :
    sendFrom policy pause inner request remaining attempt s =
      (verdict policy.maxRetries (inner request s).1, (inner request s).2) := by
  unfold sendFrom
  split
  · rename_i e t he
    simp [he, verdict]
  · rename_i r t hr
    simp only [hr, Final] at h ⊢
    by_cases hs : r.status = 429
    · have hw : Spent r.window := h.resolve_left (not_not_intro hs)
      simp [Response.isRateLimited, verdict, hs, hw, (isExhausted_iff _).mpr hw]
    · simp [Response.isRateLimited, verdict, hs]

theorem sendFrom_zero (attempt : UInt32) (s : σ) :
    sendFrom policy pause inner request 0 attempt s =
      (verdict policy.maxRetries (inner request s).1, (inner request s).2) := by
  by_cases h : Final (inner request s).1
  · exact sendFrom_of_final h 0 attempt
  · unfold sendFrom
    split
    · rename_i e t he
      simp [he, Final] at h
    · rename_i r t hr
      simp only [hr, Final, not_or, not_not] at h
      have hw : ¬ r.window.isExhausted = true := mt (isExhausted_iff _).mp h.2
      simp [Response.isRateLimited, verdict, hr, h.1, h.2, hw]

theorem sendFrom_succ {s : σ} (h : ¬ Final (inner request s).1) (left : Nat) (attempt : UInt32) :
    sendFrom policy pause inner request (left + 1) attempt s =
      sendFrom policy pause inner request left (attempt + 1)
        (pause attempt (policy.delay attempt) (inner request s).2).2 := by
  rw [sendFrom]
  split
  · rename_i e t he
    simp [he, Final] at h
  · rename_i r t hr
    simp only [hr, Final, not_or, not_not] at h
    have hw : ¬ r.window.isExhausted = true := mt (isExhausted_iff _).mp h.2
    simp [Response.isRateLimited, h.1, hw, hr]

/-! ## A whole run -/

/-- The state after `i` requests, each followed by its pause. -/
def stateAfter (policy : RetryPolicy) (pause : UInt32 → Span → StateM σ Unit)
    (inner : Transport σ) (request : Request) (s : σ) : Nat → σ
  | 0 => s
  | i + 1 =>
    (pause (.ofNat i) (policy.delay (.ofNat i))
      (inner request (stateAfter policy pause inner request s i)).2).2

/-- Request number `i` of a run that never stops, and its answer. -/
def heard (policy : RetryPolicy) (pause : UInt32 → Span → StateM σ Unit) (inner : Transport σ)
    (request : Request) (s : σ) (i : Nat) : Answer × σ :=
  inner request (stateAfter policy pause inner request s i)

/-- Where a run stops that hears these answers. -/
def Stops (budget : UInt32) (answers : Nat → Answer) (i : Nat) : Prop :=
  i = budget.toNat ∨ Final (answers i)

instance (budget : UInt32) (answers : Nat → Answer) : DecidablePred (Stops budget answers) :=
  fun _ => inferInstanceAs (Decidable (_ ∨ _))

theorem exists_isLeast_stops (budget : UInt32) (answers : Nat → Answer) :
    ∃ k, IsLeast {i | Stops budget answers i} k :=
  have h : ∃ i, Stops budget answers i := ⟨budget.toNat, .inl rfl⟩
  ⟨Nat.find h, Nat.isLeast_find h⟩

/-- The rest of a run: `i` requests were made, and `remaining` more may follow the next one. -/
theorem sendFrom_stateAfter {s : σ} {k : Nat}
    (hk : IsLeast {i | Stops policy.maxRetries (fun i => (heard policy pause inner request s i).1) i} k)
    (remaining i : Nat) (hi : i ≤ k) (hr : i + remaining = policy.maxRetries.toNat) :
    sendFrom policy pause inner request remaining (.ofNat i)
        (stateAfter policy pause inner request s i) =
      (verdict policy.maxRetries (heard policy pause inner request s k).1,
        (heard policy pause inner request s k).2) := by
  induction remaining generalizing i with
  | zero =>
    have hik : i = k := le_antisymm hi (hk.2 (.inl (by omega)))
    rw [sendFrom_zero, ← hik, heard]
  | succ left ih =>
    by_cases hf : Final (heard policy pause inner request s i).1
    · have hik : i = k := le_antisymm hi (hk.2 (.inr hf))
      rw [sendFrom_of_final hf, ← hik, heard]
    · -- the run stops neither here for its answer nor for its budget
      have hne : i ≠ k := by
        rintro rfl
        rcases hk.1 with hb | hb
        · omega
        · exact hf hb
      have hnext : UInt32.ofNat i + 1 = UInt32.ofNat (i + 1) := (UInt32.ofNat_add i 1).symm
      rw [sendFrom_succ hf, hnext]
      exact ih (i + 1) (by omega) (by omega)

/-- A layer reads the answers up to the first at which it stops, and hands on its verdict on it. -/
theorem layer_of_isLeast {s : σ} {k : Nat}
    (hk : IsLeast {i | Stops policy.maxRetries (fun i => (heard policy pause inner request s i).1) i} k) :
    layer policy pause inner request s =
      (verdict policy.maxRetries (heard policy pause inner request s k).1,
        (heard policy pause inner request s k).2) :=
  sendFrom_stateAfter hk policy.maxRetries.toNat 0 (Nat.zero_le k) (Nat.zero_add _)

end OneApi.Retry

/-! ## Over a script -/

namespace OneApi.Script

/-- The answer to request number `i`, counted from the next one. -/
def answer (s : Script) (i : Nat) : Answer := s.answers.getD i (.error exhausted)

/-- The script after `sent` times the same request and `waited` pauses. -/
def after (s : Script) (request : Request) (sent waited : Nat) : Script :=
  { answers := s.answers.drop sent
    requests := s.requests ++ List.replicate sent request
    waits := s.waits ++ (List.range waited).map UInt32.ofNat }

/-- A pause that is recorded by its attempt. -/
def pause : UInt32 → Span → StateM Script Unit := fun attempt _ => recordWait attempt

theorem transport_after (s : Script) (request : Request) (i j : Nat) :
    transport request (s.after request i j) = (s.answer i, s.after request (i + 1) j) := by
  have hsent : s.requests ++ List.replicate i request ++ [request] =
      s.requests ++ List.replicate (i + 1) request := by
    rw [List.append_assoc, ← List.replicate_succ']
  unfold transport after answer
  simp only [hsent, List.getD_eq_getElem?_getD, ← List.tail_drop]
  cases h : s.answers.drop i with
  | nil => simp [List.getElem?_eq_none (List.drop_eq_nil_iff.mp h)]
  | cons a rest =>
    have ha : s.answers[i]? = some a := by rw [← Nat.add_zero i, ← List.getElem?_drop, h]; rfl
    simp [ha]

theorem pause_after (s : Script) (request : Request) (i j : Nat) (wait : Span) :
    (pause (.ofNat j) wait (s.after request i j)).2 = s.after request i (j + 1) := by
  simp [pause, recordWait, after, List.range_succ]

end OneApi.Script

namespace OneApi.Retry

theorem stateAfter_script (policy : RetryPolicy) (request : Request) (s : Script) (i : Nat) :
    stateAfter policy Script.pause Script.transport request s i = s.after request i i := by
  induction i with
  | zero => simp [stateAfter, Script.after]
  | succ i ih => rw [stateAfter, ih, Script.transport_after, Script.pause_after]

theorem heard_script (policy : RetryPolicy) (request : Request) (s : Script) (i : Nat) :
    heard policy Script.pause Script.transport request s i =
      (s.answer i, s.after request (i + 1) i) := by
  rw [heard, stateAfter_script, Script.transport_after]

theorem layer_script {policy : RetryPolicy} {s : Script} {k : Nat}
    (hk : IsLeast {i | Stops policy.maxRetries s.answer i} k) (request : Request) :
    layer policy Script.pause Script.transport request s =
      (verdict policy.maxRetries (s.answer k), s.after request (k + 1) k) := by
  have hheard := heard_script policy request s
  rw [layer_of_isLeast (k := k) (by simpa only [hheard] using hk), hheard]

/-- What a caller gets in the place of the last answer, with the wording of the two refusals. -/
inductive HandsOn (budget : UInt32) : Answer → Answer → Prop
  | failure (e : Error) : HandsOn budget (.error e) (.error e)
  | response (r : Response) : r.status ≠ 429 → HandsOn budget (.ok r) (.ok r)
  | windowSpent (r : Response) (fault : LimitFault) : r.status = 429 → Spent r.window →
      fault.message = "No more requests remaining in the current rate window" →
      HandsOn budget (.ok r) (.error (.rateLimited fault r.window))
  | retriesSpent (r : Response) (fault : LimitFault) : r.status = 429 → ¬ Spent r.window →
      fault.message = "Rate limit exceeded after " ++ toString budget.toNat ++ " retries" →
      HandsOn budget (.ok r) (.error (.rateLimited fault r.window))

theorem retriesSpent_message (n : Nat) :
    (LimitFault.retriesSpent n).message =
      "Rate limit exceeded after " ++ toString n ++ " retries" := rfl

theorem handsOn_verdict (budget : UInt32) (a : Answer) : HandsOn budget a (verdict budget a) := by
  cases a with
  | error e => exact .failure e
  | ok r =>
    by_cases hs : r.status = 429
    · by_cases hw : Spent r.window
      · rw [verdict, if_neg (not_not_intro hs), if_pos hw]
        exact .windowSpent r _ hs hw rfl
      · rw [verdict, if_neg (not_not_intro hs), if_neg hw]
        exact .retriesSpent r _ hs hw (retriesSpent_message _)
    · rw [verdict, if_pos hs]
      exact .response r hs

/-- **The trace of a retried request.** The run goes on to the first answer that is final or uses
up the budget. Over any transport its result and state are those of this answer; over a script
it has sent the request once more than it paused, paused for the attempts `0, 1, …` in order,
and left all later answers. -/
theorem layer_trace (policy : RetryPolicy) (request : Request) :
    (∀ {σ : Type} (pause : UInt32 → Span → StateM σ Unit) (inner : Transport σ) (s : σ),
      ∃ k result,
        IsLeast {i | i = policy.maxRetries.toNat ∨
          Final (heard policy pause inner request s i).1} k ∧
        HandsOn policy.maxRetries (heard policy pause inner request s k).1 result ∧
        layer policy pause inner request s =
          (result, (heard policy pause inner request s k).2)) ∧
    ∀ s : Script, ∃ k result,
      IsLeast {i | i = policy.maxRetries.toNat ∨ Final (s.answer i)} k ∧
      HandsOn policy.maxRetries (s.answer k) result ∧
      layer policy Script.pause Script.transport request s =
        (result,
          { answers := s.answers.drop (k + 1)
            requests := s.requests ++ List.replicate (k + 1) request
            waits := s.waits ++ (List.range k).map UInt32.ofNat }) := by
  constructor
  · intro σ pause inner s
    obtain ⟨k, hk⟩ := exists_isLeast_stops policy.maxRetries
      fun i => (heard policy pause inner request s i).1
    exact ⟨k, _, hk, handsOn_verdict _ _, layer_of_isLeast hk⟩
  · intro s
    obtain ⟨k, hk⟩ := exists_isLeast_stops policy.maxRetries s.answer
    exact ⟨k, _, hk, handsOn_verdict _ _, layer_script hk request⟩

end OneApi.Retry
