import Mathlib.Order.Bounds.Basic
import OneApi.Proofs.Walk

/-! A walk between two calls. A call of `next` does one of five things, and what is known of a walk at
any moment follows from these five: its cursor counts the pages that were fetched, and they hold the
items that were yielded and those that wait. Each call fetches one page at most, and none while
items wait, so no page is fetched before its first item is asked for. -/

namespace OneApi.Cursor

variable {σ α : Type} {fetch : Fetch σ α} {c d : Cursor α} {result : Option (Except Error α)}
  {results : List (Option (Except Error α))}

/-- The fetches of a walk in order: what each asked for, and its answer. -/
abbrev Log (α : Type) := List (Options × Except Error (Page α))

variable {log new : Log α}

/-- A fetch that also keeps a log. -/
def logged (fetch : Fetch σ α) : Fetch (σ × Log α) α := fun o s =>
  ((fetch o s.1).1, (fetch o s.1).2, s.2 ++ [(o, (fetch o s.1).1)])

/-- The pages that were fetched. -/
def pagesOf (log : Log α) : List (Page α) := log.filterMap fun entry => entry.2.toOption

def itemsOf (pages : List (Page α)) : List α := pages.flatMap Page.items

/-- The items among the results of some calls. -/
def yielded (results : List (Option (Except Error α))) : List α :=
  results.filterMap fun result => result.bind Except.toOption

def Failed (results : List (Option (Except Error α))) : Prop := ∃ e, some (.error e) ∈ results

theorem pagesOf_append (log new : Log α) : pagesOf (log ++ new) = pagesOf log ++ pagesOf new :=
  List.filterMap_append

theorem pagesOf_append_ok (log : Log α) (o : Options) (page : Page α) :
    pagesOf (log ++ [(o, .ok page)]) = pagesOf log ++ [page] :=
  List.filterMap_append

theorem pagesOf_append_error (log : Log α) (o : Options) (e : Error) :
    pagesOf (log ++ [(o, .error e)]) = pagesOf log := by
  simp [pagesOf, Except.toOption]

theorem itemsOf_append (pages more : List (Page α)) :
    itemsOf (pages ++ more) = itemsOf pages ++ itemsOf more :=
  List.flatMap_append

theorem yielded_append_ok (results : List (Option (Except Error α))) (x : α) :
    yielded (results ++ [some (.ok x)]) = yielded results ++ [x] :=
  List.filterMap_append

theorem yielded_append_none (results : List (Option (Except Error α))) :
    yielded (results ++ [none]) = yielded results := by
  simp [yielded]

theorem yielded_append_error (results : List (Option (Except Error α))) (e : Error) :
    yielded (results ++ [some (.error e)]) = yielded results := by
  simp [yielded, Except.toOption]

theorem failed_append_iff :
    Failed (results ++ [result]) ↔ Failed results ∨ ∃ e, result = some (.error e) := by
  simp only [Failed, List.mem_append, List.mem_singleton, exists_or, eq_comm]

/-! ## One call -/

/-- All that a call can do to a cursor: its result, the cursor after it, and its fetches. -/
inductive Turn (c : Cursor α) : Option (Except Error α) → Cursor α → Log α → Prop
  | buffered {x : α} {rest : List α} : c.buffered = x :: rest →
      Turn c (some (.ok x)) { c with buffered := rest } []
  | finished : c.Finished → Turn c none c []
  | failed {n : UInt32} {e : Error} : c.buffered = [] → c.nextPage = some n →
      Turn c (some (.error e)) { c with nextPage := none } [(c.options.forPage n, .error e)]
  | last {n : UInt32} {page : Page α} : c.buffered = [] → c.nextPage = some n → page.items = [] →
      Turn c none (c.load n page) [(c.options.forPage n, .ok page)]
  | opened {n : UInt32} {page : Page α} {x : α} {rest : List α} : c.buffered = [] →
      c.nextPage = some n → page.items = x :: rest →
      Turn c (some (.ok x)) { c.load n page with buffered := rest }
        [(c.options.forPage n, .ok page)]

theorem exists_turn (fetch : Fetch σ α) (c : Cursor α) (s : σ) (log : Log α) :
    let call := c.next (logged fetch) (s, log)
    ∃ new, call.2.2 = log ++ new ∧ Turn c call.1.1 call.1.2 new := by
  cases hb : c.buffered with
  | cons x rest =>
    rw [next_of_buffered hb]
    exact ⟨[], (List.append_nil log).symm, .buffered hb⟩
  | nil =>
    cases hp : c.nextPage with
    | none =>
      have hfin : c.Finished := ⟨hb, hp⟩
      rw [hfin.next_eq]
      exact ⟨[], (List.append_nil log).symm, .finished hfin⟩
    | some n =>
      rcases hf : fetch (c.options.forPage n) s with ⟨answer, t⟩
      have hlogged : logged fetch (c.options.forPage n) (s, log) =
          (answer, t, log ++ [(c.options.forPage n, answer)]) := by
        simp [logged, hf]
      cases answer with
      | error e =>
        rw [next_of_error hb hp hlogged]
        exact ⟨_, rfl, .failed hb hp⟩
      | ok page =>
        rw [next_of_page hb hp hlogged]
        cases hi : page.items with
        | nil =>
          rw [(finished_load c n hi).next_eq]
          exact ⟨_, rfl, .last hb hp hi⟩
        | cons x rest =>
          have hbuf : (c.load n page).buffered = x :: rest := hi
          rw [next_of_buffered hbuf]
          exact ⟨_, rfl, .opened hb hp hi⟩

/-- What every call keeps, whatever it does, any number of calls keeps. -/
theorem nexts_keeps {P : List (Option (Except Error α)) → Cursor α → Log α → Prop}
    (hturn : ∀ {results c log result d new}, P results c log → Turn c result d new →
      P (results ++ [result]) d (log ++ new))
    (earlier : List (Option (Except Error α))) (h : P earlier c log) (fetch : Fetch σ α) (s : σ)
    (n : Nat) :
    let run := Cursor.nexts (logged fetch) n c (s, log)
    P (earlier ++ run.1.1) run.1.2 run.2.2 := by
  induction n generalizing c s earlier log with
  | zero => simpa [Cursor.nexts] using h
  | succ n ih =>
    obtain ⟨new, hlog, hdone⟩ := exists_turn fetch c s log
    have hnext := hturn h hdone
    rw [← hlog] at hnext
    have hrest := ih _ hnext (c.next (logged fetch) (s, log)).2.1
    simp only [List.append_assoc] at hrest
    exact hrest

/-! ## Between the calls -/

/-- How a cursor stands to the results of the calls so far and to their fetches. -/
structure Tracks (results : List (Option (Except Error α))) (c : Cursor α) (log : Log α) :
    Prop where
  nextPage : ∀ n, c.nextPage = some n → n.toNat = c.pagesFetched.toNat + 1
  fetched : c.pagesFetched.toNat = (pagesOf log).length
  fetches : ¬ Failed results ∧ log.length = c.pagesFetched.toNat ∨
    Failed results ∧ log.length = c.pagesFetched.toNat + 1
  failed : Failed results → c.Finished
  items : yielded results ++ c.buffered = itemsOf (pagesOf log)
  /-- Pages are fetched when all items of those before them were yielded. -/
  consumed : (itemsOf (pagesOf log).dropLast).length ≤ (yielded results).length

theorem tracks_start (o : Options) : Tracks [] (start o : Cursor α) [] := by
  refine ⟨?_, rfl, .inl ⟨by simp [Failed], rfl⟩, by simp [Failed], rfl, Nat.le_refl _⟩
  intro n hn
  obtain rfl : 1 = n := Option.some.inj hn
  rfl

namespace Tracks

/-- The page number that is left shows that the count of pages does not wrap. -/
theorem pagesFetched_load (h : Tracks results c log) {n : UInt32} (hp : c.nextPage = some n)
    (page : Page α) : (c.load n page).pagesFetched.toNat = c.pagesFetched.toNat + 1 := by
  have hn := h.nextPage n hp
  have hlt := n.toNat_lt
  have hone : (1 : UInt32).toNat = 1 := rfl
  show (c.pagesFetched + 1).toNat = c.pagesFetched.toNat + 1
  rw [UInt32.toNat_add]
  omega

theorem nextPage_load (h : Tracks results c log) {n m : UInt32} (hp : c.nextPage = some n)
    {page : Page α} (hm : (c.load n page).nextPage = some m) :
    m.toNat = (c.load n page).pagesFetched.toNat + 1 := by
  rw [h.pagesFetched_load hp, ← h.nextPage n hp]
  rw [← UInt32.ofNat_toNat (x := n), load_nextPage c n.toNat_lt page] at hm
  split at hm
  · rename_i hgoes
    cases hm
    have hlt := hgoes.2.2
    exact UInt32.toNat_ofNat_of_lt' (by simp only [UInt32.size]; omega)
  · cases hm

theorem not_failed (h : Tracks results c log) (hc : ¬ c.Finished) : ¬ Failed results :=
  fun hfailed => hc (h.failed hfailed)

theorem yielded_eq (h : Tracks results c log) (hb : c.buffered = []) :
    yielded results = itemsOf (pagesOf log) := by
  simpa [hb] using h.items

/-- A page is taken over. -/
theorem load (h : Tracks results c log) {n : UInt32} {page : Page α} (hb : c.buffered = [])
    (hp : c.nextPage = some n) :
    Tracks results (c.load n page) (log ++ [(c.options.forPage n, .ok page)]) := by
  have hfailed : ¬ Failed results := h.not_failed fun hfin => by simp [hfin.2] at hp
  have hpages := pagesOf_append_ok log (c.options.forPage n) page
  refine ⟨fun m => h.nextPage_load hp, ?_, .inl ⟨hfailed, ?_⟩, fun hf => absurd hf hfailed, ?_, ?_⟩
  · rw [h.pagesFetched_load hp, h.fetched, hpages, List.length_append, List.length_singleton]
  · simpa [hfailed, h.pagesFetched_load hp] using h.fetches
  · rw [hpages, itemsOf_append, h.yielded_eq hb]
    simp [itemsOf, Cursor.load]
  · rw [hpages, List.dropLast_concat, h.yielded_eq hb]

/-- An item is yielded. -/
theorem pop (h : Tracks results c log) {x : α} {rest : List α} (hb : c.buffered = x :: rest) :
    Tracks (results ++ [some (.ok x)]) { c with buffered := rest } log := by
  have hfailed : ¬ Failed results := h.not_failed fun hfin => by simp [hfin.1] at hb
  have hstill : ¬ Failed (results ++ [some (.ok x)]) := by simp [failed_append_iff, hfailed]
  refine ⟨h.nextPage, h.fetched, .inl ⟨hstill, ?_⟩, fun hf => absurd hf hstill, ?_, ?_⟩
  · simpa [hfailed] using h.fetches
  · rw [yielded_append_ok, ← h.items, hb, List.append_assoc, List.singleton_append]
  · rw [yielded_append_ok, List.length_append]
    exact Nat.le_add_right_of_le h.consumed

/-- Nothing is yielded. -/
theorem finish (h : Tracks results c log) : Tracks (results ++ [none]) c log := by
  have hsame : Failed (results ++ [none]) ↔ Failed results := by simp [failed_append_iff]
  refine ⟨h.nextPage, h.fetched, ?_, ?_, ?_, ?_⟩
  · rw [hsame]
    exact h.fetches
  · rw [hsame]
    exact h.failed
  · rw [yielded_append_none]
    exact h.items
  · rw [yielded_append_none]
    exact h.consumed

/-- A failure is yielded. -/
theorem fail (h : Tracks results c log) {n : UInt32} (hb : c.buffered = [])
    (hp : c.nextPage = some n) (e : Error) :
    Tracks (results ++ [some (.error e)]) { c with nextPage := none }
      (log ++ [(c.options.forPage n, .error e)]) := by
  have hfailed : ¬ Failed results := h.not_failed fun hfin => by simp [hfin.2] at hp
  have hnow : Failed (results ++ [some (.error e)]) := by simp [failed_append_iff]
  have hpages := pagesOf_append_error log (c.options.forPage n) e
  refine ⟨by simp, ?_, .inr ⟨hnow, ?_⟩, fun _ => ⟨hb, rfl⟩, ?_, ?_⟩
  · rw [hpages]
    exact h.fetched
  · simpa [hfailed] using h.fetches
  · rw [yielded_append_error, hpages]
    exact h.items
  · rw [yielded_append_error, hpages]
    exact h.consumed

/-- What one call keeps. -/
theorem turn (h : Tracks results c log) (hturn : Turn c result d new) :
    Tracks (results ++ [result]) d (log ++ new) := by
  cases hturn with
  | buffered hb => exact (List.append_nil log).symm ▸ h.pop hb
  | finished hfin => exact (List.append_nil log).symm ▸ h.finish
  | failed hb hp => exact h.fail hb hp _
  | last hb hp hi => exact (h.load hb hp).finish
  | opened hb hp hi => exact (h.load hb hp).pop hi

/-- What any number of calls keeps. -/
theorem nexts (h : Tracks results c log) (fetch : Fetch σ α) (s : σ) (n : Nat) :
    let run := Cursor.nexts (logged fetch) n c (s, log)
    Tracks (results ++ run.1.1) run.1.2 run.2.2 :=
  nexts_keeps turn results h fetch s n

end Tracks

/-! ## Laziness -/

theorem length_itemsOf_take_le (pages : List (Page α)) {i j : Nat} (h : i ≤ j) :
    (itemsOf (pages.take i)).length ≤ (itemsOf (pages.take j)).length := by
  obtain ⟨rest, hrest⟩ := List.take_prefix i (pages.take j)
  rw [List.take_take, Nat.min_eq_left h] at hrest
  rw [← hrest, itemsOf_append, List.length_append]
  exact Nat.le_add_right _ _

/-- As many pages as are needed for `k` items, whatever pages come later. -/
theorem isLeast_pages {pages : List (Page α)} {k : Nat} (hlast : (itemsOf pages.dropLast).length < k)
    (hall : k ≤ (itemsOf pages).length) (later : List (Page α)) :
    IsLeast {m | k ≤ (itemsOf ((pages ++ later).take m)).length} pages.length := by
  constructor
  · show k ≤ (itemsOf ((pages ++ later).take pages.length)).length
    rwa [List.take_left]
  · intro m hm
    by_contra hlt
    have htake : (pages ++ later).take m = pages.take m :=
      List.take_append_of_le_length (by omega)
    have hbefore : m ≤ pages.length - 1 := by omega
    have hle := length_itemsOf_take_le pages hbefore
    rw [← List.dropLast_eq_take] at hle
    have hmem : k ≤ (itemsOf ((pages ++ later).take m)).length := hm
    rw [htake] at hmem
    omega

/-- What a call fetches, and what it does to the counters. -/
structure Frugal (results : List (Option (Except Error α))) (c : Cursor α) (log : Log α)
    (result : Option (Except Error α)) (d : Cursor α) (new : Log α) : Prop where
  once : new.length ≤ 1
  counted : d.pagesFetched.toNat = c.pagesFetched.toNat + (pagesOf new).length
  buffered : c.buffered ≠ [] → new = [] ∧ ∃ x, result = some (.ok x) ∧ c.buffered = x :: d.buffered
  failure : ∀ o e, (o, .error e) ∈ new → result = some (.error e) ∧ d = { c with nextPage := none }
  /-- Behind an item no more pages were fetched than hold the items so far. -/
  prompt : ∀ x, result = some (.ok x) → ∀ later,
    IsLeast {m | (yielded results).length + 1 ≤
      (itemsOf ((pagesOf (log ++ new) ++ later).take m)).length} (pagesOf (log ++ new)).length

theorem Tracks.consumed_lt (h : Tracks results c log) {x : α} (hturn : Turn c (some (.ok x)) d new) :
    (itemsOf (pagesOf (log ++ new)).dropLast).length < (yielded results).length + 1 := by
  cases hturn with
  | buffered hb =>
    rw [List.append_nil]
    exact Nat.lt_succ_of_le h.consumed
  | opened hb hp hi =>
    rw [pagesOf_append_ok, List.dropLast_concat, h.yielded_eq hb]
    exact Nat.lt_succ_self _

theorem Tracks.frugal (h : Tracks results c log) (hturn : Turn c result d new) :
    Frugal results c log result d new := by
  have hnext := h.turn hturn
  refine ⟨?_, ?_, ?_, ?_, ?_⟩
  · cases hturn <;> simp
  · rw [hnext.fetched, h.fetched, pagesOf_append, List.length_append]
  · intro hb
    cases hturn <;> simp_all [Finished]
  · intro o e he
    cases hturn <;> simp_all
  · rintro x rfl later
    refine isLeast_pages (h.consumed_lt hturn) ?_ later
    rw [← hnext.items, yielded_append_ok]
    simp

/-- **A walk is lazy, and its counters say what it did.** Nothing is fetched before the first call.
After any number of calls the cursor counts the pages that were fetched, the next page is the one
after these, and there was one more fetch if and only if a failure was yielded. The call after that
fetches one page at most and none while items wait; when it yields an item, the pages so far are
as few as hold the items so far, and when a fetch fails, nothing but the next page is lost. -/
theorem walk_is_lazy (fetch : Fetch σ α) (o : Options) (s : σ) (n : Nat) :
    let run := nexts (logged fetch) n (start o) (s, [])
    let call := run.1.2.next (logged fetch) run.2
    (n = 0 → run.2 = (s, [])) ∧ Tracks run.1.1 run.1.2 run.2.2 ∧
      ∃ new, call.2.2 = run.2.2 ++ new ∧
        Frugal run.1.1 run.1.2 run.2.2 call.1.1 call.1.2 new := by
  intro run call
  have htracks : Tracks run.1.1 run.1.2 run.2.2 := (tracks_start o).nexts fetch s n
  obtain ⟨new, hlog, hturn⟩ := exists_turn fetch run.1.2 run.2.1 run.2.2
  refine ⟨?_, htracks, new, hlog, htracks.frugal hturn⟩
  rintro rfl
  rfl

end OneApi.Cursor
