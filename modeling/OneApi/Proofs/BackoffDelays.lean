import Mathlib.Algebra.Group.Nat.Defs
import OneApi.Settings

/-! How long to wait. A wait is reckoned in two words, seconds and nanoseconds, by a product that carries
from one to the other and stays at the longest span where the seconds do not fit. None of this shows
in the end: the limit cuts off first, so each wait is the exact product of the initial span and its
factor, or the limit. Waits never shrink from one attempt to the next. -/

namespace OneApi

namespace Span

theorem eq_of_nanos {s t : Span} (h : s.nanos = t.nanos) : s = t := by
  obtain ⟨n, _⟩ := s
  obtain ⟨m, _⟩ := t
  obtain rfl : n = m := h
  rfl

/-- No count of milliseconds in a word is longer than the longest span. -/
theorem nanos_ofMillis (n : UInt64) : (ofMillis n).nanos = n.toNat * perMilli := by
  have hn := n.toNat_lt
  rw [ofMillis, nanos_ofNanos]
  simp only [perMilli, UInt64.size]
  omega

/-- A limit hides that a product stays at the longest span. -/
theorem nanos_times_atMost (s limit : Span) (k : Nat) :
    ((s.times k).atMost limit).nanos = min limit.nanos (s.nanos * k) := by
  have hlimit := limit.nanos_lt
  rw [nanos_atMost, times, nanos_ofNanos]
  omega

/-! ## Spans in two words -/

/-- Whole seconds, and the nanoseconds below one second. -/
structure Words where
  seconds : UInt64
  nanos : UInt32
  nanos_lt : nanos.toNat < perSecond

namespace Words

def span (w : Words) : Span where
  nanos := w.seconds.toNat * perSecond + w.nanos.toNat
  nanos_lt := by
    have hseconds := w.seconds.toNat_lt
    have hnanos := w.nanos_lt
    simp only [perSecond, UInt64.size] at *
    omega

def longest : Words := ⟨18446744073709551615, 999999999, by decide⟩

theorem span_longest : longest.span = Span.longest := by decide

/-- Every span fits in two words. -/
theorem exists_span (s : Span) : ∃ w : Words, w.span = s := by
  have hs := s.nanos_lt
  have hseconds : s.nanos / 1000000000 < UInt64.size := by
    simp only [UInt64.size] at *
    omega
  have hnanos : s.nanos % 1000000000 < UInt32.size := by
    simp only [UInt32.size]
    omega
  have hword : (UInt32.ofNat (s.nanos % 1000000000)).toNat = s.nanos % 1000000000 :=
    UInt32.toNat_ofNat_of_lt' hnanos
  refine ⟨⟨.ofNat (s.nanos / 1000000000), .ofNat (s.nanos % 1000000000), ?_⟩, ?_⟩
  · rw [hword]
    exact Nat.mod_lt _ (by decide)
  · apply eq_of_nanos
    show (UInt64.ofNat _).toNat * perSecond + (UInt32.ofNat _).toNat = s.nanos
    rw [hword, UInt64.toNat_ofNat_of_lt' hseconds]
    exact Nat.div_add_mod' s.nanos 1000000000

/-- The nanoseconds of a product, in a word of their own before the seconds in them are carried. -/
def product (w : Words) (k : UInt32) : UInt64 := w.nanos.toUInt64 * k.toUInt64

/-- The word does not overflow. -/
theorem toNat_product (w : Words) (k : UInt32) :
    (w.product k).toNat = w.nanos.toNat * k.toNat := by
  have hnanos : w.nanos.toNat ≤ 999999999 := Nat.le_of_lt_succ w.nanos_lt
  have hk := k.toNat_lt
  have hle : w.nanos.toNat * k.toNat ≤ 999999999 * 4294967295 :=
    Nat.mul_le_mul hnanos (Nat.le_of_lt_succ hk)
  rw [product, UInt64.toNat_mul, UInt32.toNat_toUInt64, UInt32.toNat_toUInt64, Nat.mod_eq_of_lt]
  omega

theorem toNat_remainder (w : Words) (k : UInt32) :
    (w.product k % 1000000000).toUInt32.toNat = w.nanos.toNat * k.toNat % 1000000000 := by
  rw [UInt64.toNat_toUInt32, UInt64.toNat_mod, toNat_product]
  have hlt := Nat.mod_lt (w.nanos.toNat * k.toNat) (show 0 < 1000000000 by decide)
  exact Nat.mod_eq_of_lt (Nat.lt_trans hlt (by decide))

/-- The product by a factor, if its seconds fit with those that are carried. -/
def times? (w : Words) (k : UInt32) : Option Words :=
  let carry := w.product k / 1000000000
  if w.seconds.toNat * k.toNat + carry.toNat < UInt64.size then
    some {
      seconds := w.seconds * k.toUInt64 + carry
      nanos := (w.product k % 1000000000).toUInt32
      nanos_lt := by
        rw [toNat_remainder]
        exact Nat.mod_lt _ (by decide) }
  else none

/-- Seconds first, then nanoseconds. -/
def atMost (w limit : Words) : Words :=
  if w.seconds < limit.seconds ∨ w.seconds = limit.seconds ∧ w.nanos ≤ limit.nanos then w else limit

theorem span_atMost (w limit : Words) : (w.atMost limit).span = w.span.atMost limit.span := by
  have hw := w.nanos_lt
  have hlimit := limit.nanos_lt
  have horder : (w.seconds < limit.seconds ∨ w.seconds = limit.seconds ∧ w.nanos ≤ limit.nanos) ↔
      w.span.nanos ≤ limit.span.nanos := by
    rw [UInt64.lt_iff_toNat_lt, ← UInt64.toNat_inj, UInt32.le_iff_toNat_le]
    simp only [span, perSecond] at *
    omega
  unfold atMost Span.atMost
  simp only [horder]
  split <;> rfl

/-- The product in words is the product of the spans. -/
theorem span_times (w : Words) (k : UInt32) :
    ((w.times? k).getD longest).span = w.span.times k.toNat := by
  let nanos := w.nanos.toNat * k.toNat
  let seconds := w.seconds.toNat * k.toNat + nanos / 1000000000
  have hcarry : (w.product k / 1000000000).toNat = nanos / 1000000000 := by
    rw [UInt64.toNat_div, toNat_product]
    rfl
  have htotal : w.span.nanos * k.toNat = seconds * 1000000000 + nanos % 1000000000 := by
    rw [Nat.add_mul, Nat.add_assoc, Nat.div_add_mod', Nat.mul_right_comm]
    exact Nat.add_mul _ _ _
  apply eq_of_nanos
  rw [Span.times, nanos_ofNanos, htotal]
  unfold times?
  simp only [hcarry]
  split
  · rename_i hfits
    have hseconds : (w.seconds * k.toUInt64 + w.product k / 1000000000).toNat = seconds := by
      rw [UInt64.toNat_add, UInt64.toNat_mul, UInt32.toNat_toUInt64, hcarry, Nat.mod_add_mod]
      exact Nat.mod_eq_of_lt hfits
    simp only [Option.getD_some, span, hseconds, toNat_remainder, perSecond, UInt64.size] at hfits ⊢
    omega
  · rename_i hfits
    rw [Option.getD_none, span_longest]
    simp only [Span.longest, UInt64.size] at hfits ⊢
    omega

end Words

end Span

/-! ## Factors -/

namespace Growth

/-- The factor of an attempt as it would be without its limit. -/
def multiple (g : Growth) (attempt : Nat) : Nat :=
  match g with
  | constant => 1
  | linear => attempt + 1
  | exponential => 2 ^ attempt

theorem multiple_zero (g : Growth) : g.multiple 0 = 1 := by
  cases g <;> rfl

theorem multiple_mono (g : Growth) {i j : Nat} (h : i ≤ j) : g.multiple i ≤ g.multiple j := by
  cases g with
  | constant => exact Nat.le_refl 1
  | linear => exact Nat.succ_le_succ h
  | exponential => exact Nat.pow_le_pow_right (by decide) h

theorem factor_eq (g : Growth) (attempt : UInt32) :
    g.factor attempt = min (g.multiple attempt.toNat) (2 ^ 32 - 1) := by
  cases g with
  | constant => rfl
  | linear => rfl
  | exponential =>
    show (if attempt < 32 then 2 ^ attempt.toNat else 2 ^ 32 - 1) = min (2 ^ attempt.toNat) _
    have hiff : attempt < 32 ↔ attempt.toNat < 32 := UInt32.lt_iff_toNat_lt
    by_cases hlt : attempt.toNat < 32
    · have hle : 2 ^ attempt.toNat ≤ 2 ^ 31 := Nat.pow_le_pow_right (by decide) (by omega)
      rw [if_pos (hiff.mpr hlt), Nat.min_eq_left (Nat.le_trans hle (by decide))]
    · have hle : 2 ^ 32 ≤ 2 ^ attempt.toNat := Nat.pow_le_pow_right (by decide) (by omega)
      rw [if_neg (mt hiff.mp hlt), Nat.min_eq_right (Nat.le_trans (by decide) hle)]

/-- A factor fits in a word. -/
theorem toNat_factor (g : Growth) (attempt : UInt32) :
    (UInt32.ofNat (g.factor attempt)).toNat = g.factor attempt := by
  apply UInt32.toNat_ofNat_of_lt'
  rw [factor_eq]
  exact Nat.lt_of_le_of_lt (Nat.min_le_right _ _) (by decide)

end Growth

/-! ## Waits -/

namespace Backoff

/-- A wait reckoned in words. -/
def wordDelay (g : Growth) (initial limit : Span.Words) (attempt : UInt32) : Span.Words :=
  ((initial.times? (.ofNat (g.factor attempt))).getD .longest).atMost limit

theorem span_wordDelay (g : Growth) (initial limit : Span.Words) (attempt : UInt32) :
    (wordDelay g initial limit attempt).span = delay ⟨g, initial.span, limit.span⟩ attempt := by
  rw [wordDelay, Span.Words.span_atMost, Span.Words.span_times, Growth.toNat_factor]
  rfl

theorem nanos_delay (b : Backoff) (attempt : UInt32) :
    (b.delay attempt).nanos =
      min b.limit.nanos (b.initial.nanos * min (b.growth.multiple attempt.toNat) (2 ^ 32 - 1)) := by
  rw [delay, Span.nanos_times_atMost, Growth.factor_eq]

theorem delay_mono (b : Backoff) {attempt later : UInt32} (h : attempt ≤ later) :
    (b.delay attempt).nanos ≤ (b.delay later).nanos := by
  have hmultiple := b.growth.multiple_mono (UInt32.le_iff_toNat_le.mp h)
  have hfactor : min (b.growth.multiple attempt.toNat) (2 ^ 32 - 1) ≤
      min (b.growth.multiple later.toNat) (2 ^ 32 - 1) := by omega
  have hproduct := Nat.mul_le_mul_left b.initial.nanos hfactor
  rw [nanos_delay, nanos_delay]
  omega

/-- Doubling goes on until the factor is at its limit. The wait then stays where it is, unless it is
zero or at the limit of its own, where doubling would keep it as well. -/
theorem nanos_exponential (initial limit : Span) (attempt : UInt32) :
    let plateau := initial.nanos * (2 ^ 32 - 1)
    (delay ⟨.exponential, initial, limit⟩ attempt).nanos =
      if 32 ≤ attempt.toNat ∧ 0 < plateau ∧ plateau < limit.nanos then plateau
      else min limit.nanos (initial.nanos * 2 ^ attempt.toNat) := by
  intro plateau
  rw [nanos_delay]
  show min limit.nanos (initial.nanos * min (2 ^ attempt.toNat) (2 ^ 32 - 1)) = _
  by_cases hlate : 32 ≤ attempt.toNat
  · have hpow : 2 ^ 32 - 1 ≤ 2 ^ attempt.toNat :=
      Nat.le_trans (by decide) (Nat.pow_le_pow_right (by decide) hlate)
    have hproduct : plateau ≤ initial.nanos * 2 ^ attempt.toNat := Nat.mul_le_mul_left _ hpow
    rw [Nat.min_eq_right hpow]
    split
    · rename_i hplateau
      exact Nat.min_eq_right (Nat.le_of_lt hplateau.2.2)
    · rename_i hnot
      by_cases hzero : initial.nanos = 0
      · rw [hzero, Nat.zero_mul, Nat.zero_mul]
      · have hpositive : 0 < plateau := Nat.mul_pos (Nat.pos_of_ne_zero hzero) (by decide)
        show min limit.nanos plateau = _
        omega
  · have hpow : 2 ^ attempt.toNat ≤ 2 ^ 31 := Nat.pow_le_pow_right (by decide) (by omega)
    rw [if_neg fun h => hlate h.1, Nat.min_eq_left (Nat.le_trans hpow (by decide))]

end Backoff

/-! ## Settings -/

namespace Settings

variable {s : Settings}

theorem initial_le_of_validate (h : s.validate = .ok ()) :
    s.backoff.initialMs ≤ s.backoff.maxMs := by
  unfold validate at h
  split at h
  · cases h
  · split at h
    · cases h
    · split at h
      · cases h
      · split at h
        · cases h
        · rename_i hnot
          exact UInt64.not_lt.mp hnot

/-- The first wait is the initial one, and no wait leaves the bounds. -/
structure WaitsWithin (b : BackoffSettings) : Prop where
  first : b.backoff.delay 0 = .ofMillis b.initialMs
  atLeast : ∀ attempt, b.initialMs.toNat * 1000000 ≤ (b.backoff.delay attempt).nanos
  atMost : ∀ attempt, (b.backoff.delay attempt).nanos ≤ b.maxMs.toNat * 1000000

theorem waits_within (h : s.validate = .ok ()) : WaitsWithin s.backoff := by
  have hinitial : s.backoff.backoff.initial.nanos = s.backoff.initialMs.toNat * 1000000 :=
    Span.nanos_ofMillis _
  have hlimit : s.backoff.backoff.limit.nanos = s.backoff.maxMs.toNat * 1000000 :=
    Span.nanos_ofMillis _
  have hle := Nat.mul_le_mul_right 1000000 (UInt64.le_iff_toNat_le.mp (initial_le_of_validate h))
  have hfirst : s.backoff.backoff.delay 0 = .ofMillis s.backoff.initialMs := by
    apply Span.eq_of_nanos
    rw [Backoff.nanos_delay, UInt32.toNat_zero, Growth.multiple_zero,
      Nat.min_eq_left (show 1 ≤ 2 ^ 32 - 1 by decide), Nat.mul_one, hinitial, hlimit,
      Nat.min_eq_right hle, Span.nanos_ofMillis]
    rfl
  refine ⟨hfirst, fun attempt => ?_, fun attempt => ?_⟩
  · have hmono := s.backoff.backoff.delay_mono (UInt32.zero_le (a := attempt))
    rwa [hfirst, Span.nanos_ofMillis] at hmono
  · rw [Backoff.nanos_delay, hlimit]
    exact Nat.min_le_left _ _

end Settings

/-- **The law of waits.** In two words every wait can be reckoned without overflow, and it is the limit
or the exact product of the initial span and the factor of the attempt, which stops at the largest
word. So an exponential wait is the ideal one up to the limit, apart from a plateau below the limit
that it reaches at attempt 32. Waits never shrink, and the waits of settings that pass the check
begin with the initial one and stay within the bounds. -/
theorem Backoff.delay_law (b : Backoff) :
    (∃ initial limit : Span.Words, initial.span = b.initial ∧ limit.span = b.limit ∧
      ∀ attempt, (wordDelay b.growth initial limit attempt).span = b.delay attempt) ∧
    (∀ attempt, (b.delay attempt).nanos =
      min b.limit.nanos (b.initial.nanos * min (b.growth.multiple attempt.toNat) (2 ^ 32 - 1))) ∧
    (b.growth = .exponential → ∀ attempt, (b.delay attempt).nanos =
      if 32 ≤ attempt.toNat ∧ 0 < b.initial.nanos * (2 ^ 32 - 1) ∧
        b.initial.nanos * (2 ^ 32 - 1) < b.limit.nanos then b.initial.nanos * (2 ^ 32 - 1)
      else min b.limit.nanos (b.initial.nanos * 2 ^ attempt.toNat)) ∧
    (∀ attempt later, attempt ≤ later → (b.delay attempt).nanos ≤ (b.delay later).nanos) ∧
    ∀ s : Settings, s.validate = .ok () → Settings.WaitsWithin s.backoff := by
  obtain ⟨growth, initial, limit⟩ := b
  obtain ⟨initial, rfl⟩ := Span.Words.exists_span initial
  obtain ⟨limit, rfl⟩ := Span.Words.exists_span limit
  refine ⟨⟨initial, limit, rfl, rfl, span_wordDelay growth initial limit⟩, nanos_delay _, ?_,
    fun _ _ => delay_mono _, fun _ => Settings.waits_within⟩
  rintro rfl
  exact nanos_exponential initial.span limit.span

/-- One nanosecond doubled up to ten seconds stops at the plateau in between. -/
theorem Backoff.delay_law_plateau :
    let b : Backoff := ⟨.exponential, .ofNanos 1, .ofSeconds 10⟩
    let s : Settings := { apiKey := some "key" }
    (b.delay 31).nanos = 2147483648 ∧ (b.delay 32).nanos = 4294967295 ∧ (31 : UInt32) ≤ 32 ∧
      (b.delay 31).nanos ≤ (b.delay 32).nanos ∧ s.validate = .ok () ∧
      Settings.WaitsWithin s.backoff := by
  intro b s
  have hlaw := delay_law b
  have hvalid : s.validate = .ok () := rfl
  have hwait := hlaw.2.2.1 rfl
  refine ⟨(hwait 31).trans (by decide), (hwait 32).trans (by decide), by decide,
    hlaw.2.2.2.1 31 32 (by decide), hvalid, hlaw.2.2.2.2 s hvalid⟩

end OneApi
