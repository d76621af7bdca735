import Mathlib.Algebra.Group.Nat.Defs
import OneApi.Cursor

/-! Whole walks. What the fetches of a walk are answered is a sequence of pages, ended by a page that
does not go on or by a failure; it is told by a relation that knows neither buffers nor cursors. A
walk yields the items of these pages in order and then the failure, and nothing after that, whatever
the fetches answer; it fetches the pages one after the other and never runs out of page numbers. -/

namespace OneApi.Cursor

variable {σ α : Type} {fetch : Fetch σ α} {c d : Cursor α} {s t u : σ}

/-! ## Pages ahead -/

/-- Whether a walk goes on after page `n`. -/
def GoesOn (n : Nat) (page : Page α) : Prop :=
  page.items ≠ [] ∧ page.number < page.pages ∧ n < 2 ^ 32 - 1

instance (n : Nat) (page : Page α) : Decidable (GoesOn n page) :=
  decidable_of_iff (page.items.isEmpty = false ∧ page.number < page.pages ∧ n < 2 ^ 32 - 1)
    (by simp [GoesOn])

/-- What the fetches from page `n` on are answered: some pages, and perhaps a failure after them. -/
inductive Fetches (fetch : Fetch σ α) (o : Options) :
    Nat → σ → List (Page α) → Option Error → σ → Prop
  | failed {n : Nat} {s t : σ} {e : Error} :
      fetch (o.forPage (.ofNat n)) s = (.error e, t) → Fetches fetch o n s [] (some e) t
  | last {n : Nat} {s t : σ} {page : Page α} :
      fetch (o.forPage (.ofNat n)) s = (.ok page, t) → ¬ GoesOn n page →
      Fetches fetch o n s [page] none t
  | more {n : Nat} {s t u : σ} {page : Page α} {pages : List (Page α)} {failure : Option Error} :
      fetch (o.forPage (.ofNat n)) s = (.ok page, t) → GoesOn n page →
      Fetches fetch o (n + 1) t pages failure u → Fetches fetch o n s (page :: pages) failure u

def fetchCount (pages : List (Page α)) (failure : Option Error) : Nat :=
  pages.length + failure.toList.length

theorem fetchCount_cons (page : Page α) (pages : List (Page α)) (failure : Option Error) :
    fetchCount (page :: pages) failure = fetchCount pages failure + 1 := by
  simp only [fetchCount, List.length_cons]
  omega

/-- The options of the fetches of the pages from `n` on. -/
def asked (o : Options) (n count : Nat) : List Options :=
  (List.range' n count).map fun i => o.forPage (.ofNat i)

/-- Whatever the fetches answer, they come to an end before the page numbers do. -/
theorem exists_fetches (fetch : Fetch σ α) (o : Options) (n : Nat) (hn : n < 2 ^ 32) (s : σ) :
    ∃ pages failure t, Fetches fetch o n s pages failure t ∧
      n + fetchCount pages failure ≤ 2 ^ 32 := by
  rcases hf : fetch (o.forPage (.ofNat n)) s with ⟨answer, t⟩
  cases answer with
  | error e => exact ⟨[], some e, t, .failed hf, hn⟩
  | ok page =>
    by_cases hg : GoesOn n page
    · have hlt := hg.2.2
      obtain ⟨pages, failure, u, hrest, hle⟩ := exists_fetches fetch o (n + 1) (by omega) t
      refine ⟨page :: pages, failure, u, .more hf hg hrest, ?_⟩
      rw [fetchCount_cons]
      omega
    · exact ⟨[page], none, t, .last hf hg, hn⟩
termination_by 2 ^ 32 - n

/-- A fetch that also keeps the options it was called with. -/
def recorded (fetch : Fetch σ α) : Fetch (σ × List Options) α := fun o s =>
  ((fetch o s.1).1, (fetch o s.1).2, s.2 ++ [o])

theorem recorded_eq {o : Options} {answer : Except Error (Page α)}
    (h : fetch o s = (answer, t)) (log : List Options) :
    recorded fetch o (s, log) = (answer, t, log ++ [o]) := by
  simp [recorded, h]

theorem Fetches.recorded {o : Options} {n : Nat} {pages : List (Page α)} {failure : Option Error}
    (h : Fetches fetch o n s pages failure t) (log : List Options) :
    Fetches (recorded fetch) o n (s, log) pages failure
      (t, log ++ asked o n (fetchCount pages failure)) := by
  induction h generalizing log with
  | failed hf => exact .failed (recorded_eq hf log)
  | last hf hg => exact .last (recorded_eq hf log) hg
  | @more n s t u page pages failure hf hg _ ih =>
    have hlog : log ++ asked o n (fetchCount (page :: pages) failure) =
        log ++ [o.forPage (.ofNat n)] ++ asked o (n + 1) (fetchCount pages failure) := by
      simp [asked, fetchCount_cons, List.range'_succ]
    rw [hlog]
    exact .more (recorded_eq hf log) hg (ih _)

/-! ## One item -/

/-- A cursor that has no items and fetches no more. -/
def Finished (c : Cursor α) : Prop := c.buffered = [] ∧ c.nextPage = none

theorem next_of_buffered {x : α} {rest : List α} (h : c.buffered = x :: rest) (s : σ) :
    c.next fetch s = ((some (.ok x), { c with buffered := rest }), s) := by
  rw [next]
  split <;> simp_all

theorem Finished.next_eq (h : c.Finished) (s : σ) : c.next fetch s = ((none, c), s) := by
  obtain ⟨o, items, page, fetched⟩ := c
  obtain ⟨rfl, rfl⟩ : items = [] ∧ page = none := h
  rw [next]

theorem load_nextPage (c : Cursor α) {n : Nat} (hn : n < 2 ^ 32) (page : Page α) :
    (c.load (.ofNat n) page).nextPage =
      if GoesOn n page then some (.ofNat (n + 1)) else none := by
  have hnat : (UInt32.ofNat n).toNat = n := UInt32.toNat_ofNat_of_lt' hn
  have hnext : UInt32.ofNat n + 1 = UInt32.ofNat (n + 1) := (UInt32.ofNat_add n 1).symm
  simp only [load, following, hnat, hnext, Page.hasNext, Page.isEmpty, GoesOn, UInt32.size]
  by_cases hi : page.items = [] <;> by_cases hp : page.number < page.pages <;>
    by_cases hl : n + 1 < 4294967296 <;> simp [hi, hp, hl] <;> omega

theorem finished_load (c : Cursor α) (n : UInt32) {page : Page α} (h : page.items = []) :
    (c.load n page).Finished :=
  ⟨h, by simp [load, Page.isEmpty, h]⟩

theorem next_of_error {n : UInt32} {e : Error} (hb : c.buffered = []) (hp : c.nextPage = some n)
    (hf : fetch (c.options.forPage n) s = (.error e, t)) :
    c.next fetch s = ((some (.error e), { c with nextPage := none }), t) := by
  obtain ⟨o, items, page, fetched⟩ := c
  obtain rfl : items = [] := hb
  obtain rfl : page = some n := hp
  rw [next]
  dsimp only
  rw [hf]

/-- A page that was fetched is walked as if it had been there before. -/
theorem next_of_page {n : UInt32} {page : Page α} (hb : c.buffered = [])
    (hp : c.nextPage = some n) (hf : fetch (c.options.forPage n) s = (.ok page, t)) :
    c.next fetch s = (c.load n page).next fetch t := by
  obtain ⟨o, items, number, fetched⟩ := c
  obtain rfl : items = [] := hb
  obtain rfl : number = some n := hp
  rw [next]
  dsimp only
  rw [hf]

/-- A page without items ends the walk, so no call fetches a second page: what it gives is the first
item of the page, if there is one. -/
theorem next_of_fetched {n : UInt32} {page : Page α} (hb : c.buffered = [])
    (hp : c.nextPage = some n) (hf : fetch (c.options.forPage n) s = (.ok page, t)) :
    c.next fetch s =
      ((page.items.head?.map .ok, { c.load n page with buffered := page.items.tail }), t) := by
  rw [next_of_page hb hp hf]
  cases hi : page.items with
  | nil =>
    have hempty : ({ c.load n page with buffered := [] } : Cursor α) = c.load n page := by
      rw [load, hi]
    rw [(finished_load c n hi).next_eq, List.tail_nil, hempty]
    rfl
  | cons x rest =>
    have hbuf : (c.load n page).buffered = x :: rest := hi
    rw [next_of_buffered hbuf]
    rfl

/-- The call that yields nothing, and the call that yields a failure, leave a finished cursor. -/
theorem finished_of_next {item : Option (Except Error α)} (h : c.next fetch s = ((item, d), t))
    (hitem : ∀ x, item ≠ some (.ok x)) : d.Finished := by
  cases hb : c.buffered with
  | cons x rest =>
    rw [next_of_buffered hb] at h
    cases h
    exact absurd rfl (hitem x)
  | nil =>
    cases hp : c.nextPage with
    | none =>
      have hfin : c.Finished := ⟨hb, hp⟩
      rw [hfin.next_eq] at h
      cases h
      exact hfin
    | some n =>
      rcases hf : fetch (c.options.forPage n) s with ⟨answer, u⟩
      cases answer with
      | error e =>
        rw [next_of_error hb hp hf] at h
        cases h
        exact ⟨hb, rfl⟩
      | ok page =>
        rw [next_of_page hb hp hf] at h
        cases hi : page.items with
        | nil =>
          rw [(finished_load c n hi).next_eq] at h
          cases h
          exact finished_load c n hi
        | cons x rest =>
          have hbuf : (c.load n page).buffered = x :: rest := hi
          rw [next_of_buffered hbuf] at h
          cases h
          exact absurd rfl (hitem x)

/-! ## All items -/

/-- The items that the calls of `next` give until one gives nothing. -/
inductive Gives (fetch : Fetch σ α) : Cursor α → σ → List (Except Error α) → Cursor α → σ → Prop
  | done {c d : Cursor α} {s t : σ} :
      c.next fetch s = ((none, d), t) → Gives fetch c s [] d t
  | item {c d e : Cursor α} {s t u : σ} {x : Except Error α} {xs : List (Except Error α)} :
      c.next fetch s = ((some x, d), t) → Gives fetch d t xs e u → Gives fetch c s (x :: xs) e u

theorem Gives.of_next_eq {xs : List (Except Error α)} {e : Cursor α}
    (h : Gives fetch d t xs e u) (heq : c.next fetch s = d.next fetch t) :
    Gives fetch c s xs e u := by
  cases h with
  | done hn => exact .done (heq.trans hn)
  | item hn hrest => exact .item (heq.trans hn) hrest

theorem Gives.of_buffer {xs : List (Except Error α)} {e : Cursor α}
    (h : Gives fetch { c with buffered := [] } s xs e u) :
    Gives fetch c s (c.buffered.map .ok ++ xs) e u := by
  obtain ⟨o, items, page, fetched⟩ := c
  induction items with
  | nil => exact h
  | cons x rest ih => exact .item (next_of_buffered rfl s) (ih h)

/-- What a walk yields for the pages and the failure that its fetches were answered. -/
def yields (pages : List (Page α)) (failure : Option Error) : List (Except Error α) :=
  pages.flatMap (fun page => page.items.map .ok) ++ failure.toList.map .error

/-- The cursor at the end of a walk that got `n` pages. -/
def ended (c : Cursor α) (n : Nat) : Cursor α :=
  { options := c.options, buffered := [], nextPage := none, pagesFetched := c.pagesFetched + .ofNat n }

theorem finished_ended (c : Cursor α) (n : Nat) : (c.ended n).Finished := ⟨rfl, rfl⟩

/-- The items of a page that was just loaded come first. -/
theorem Gives.of_load {n : UInt32} {page : Page α} {xs : List (Except Error α)} {e : Cursor α}
    (hb : c.buffered = []) (hp : c.nextPage = some n)
    (hf : fetch (c.options.forPage n) s = (.ok page, t))
    (h : Gives fetch { c.load n page with buffered := [] } t xs e u) :
    Gives fetch c s (page.items.map .ok ++ xs) e u :=
  h.of_buffer.of_next_eq (next_of_page hb hp hf)

theorem Fetches.gives {n : Nat} {o : Options} {pages : List (Page α)} {failure : Option Error}
    (h : Fetches fetch o n s pages failure t) (hn : n < 2 ^ 32) (ho : c.options = o)
    (hb : c.buffered = []) (hp : c.nextPage = some (.ofNat n)) :
    Gives fetch c s (yields pages failure) (c.ended pages.length) t := by
  induction h generalizing c with
  | @failed n s t e hf =>
    subst ho
    refine .item (next_of_error hb hp hf) (.done ?_)
    have hfin : Finished { c with nextPage := none } := ⟨hb, rfl⟩
    rw [hfin.next_eq]
    simp [ended, hb]
  | @last n s t page hf hg =>
    subst ho
    have hlast : (c.load (.ofNat n) page).nextPage = none := by
      rw [load_nextPage c hn, if_neg hg]
    have hend : c.ended 1 = { c.load (.ofNat n) page with buffered := [] } := by
      change _ = Cursor.mk c.options [] (c.load (.ofNat n) page).nextPage (c.pagesFetched + 1)
      rw [hlast]
      rfl
    have hdone : (c.ended 1).next fetch t = ((none, c.ended 1), t) :=
      (finished_ended c 1).next_eq t
    simpa [yields, hend] using Gives.of_load hb hp hf (.done (hend ▸ hdone))
  | @more n s t u page pages failure hf hg _ ih =>
    subst ho
    have hmore : (c.load (.ofNat n) page).nextPage = some (.ofNat (n + 1)) := by
      rw [load_nextPage c hn, if_pos hg]
    have hlt := hg.2.2
    have hrest := ih (by omega) (c := { c.load (.ofNat n) page with buffered := [] }) rfl rfl hmore
    have hend : ended { c.load (.ofNat n) page with buffered := [] } pages.length =
        c.ended (page :: pages).length := by
      simp only [ended, load, List.length_cons, UInt32.ofNat_add, UInt32.add_assoc]
      rw [UInt32.add_comm 1]
      rfl
    rw [hend] at hrest
    simpa [yields, List.append_assoc] using Gives.of_load hb hp hf hrest

theorem drain_of_none {c d : Cursor α} {s t : σ} (h : c.next fetch s = ((none, d), t)) :
    c.drain fetch s = (([], d), t) := by
  rw [drain]
  split
  · rename_i h'
    cases h'.symm.trans h
    rfl
  · rename_i h'
    cases h'.symm.trans h

theorem drain_of_some {c d : Cursor α} {s t : σ} {x : Except Error α}
    (h : c.next fetch s = ((some x, d), t)) :
    c.drain fetch s = ((x :: (d.drain fetch t).1.1, (d.drain fetch t).1.2), (d.drain fetch t).2) := by
  rw [drain]
  split
  · rename_i h'
    cases h'.symm.trans h
  · rename_i h'
    cases h'.symm.trans h
    rfl

theorem Gives.drain_eq {xs : List (Except Error α)} (h : Gives fetch c s xs d t) :
    c.drain fetch s = ((xs, d), t) := by
  induction h with
  | done hn => exact drain_of_none hn
  | item hn _ ih => rw [drain_of_some hn, ih]

/-- The results of the next `n` calls. -/
def nexts (fetch : Fetch σ α) : Nat → Cursor α → StateM σ (List (Option (Except Error α)) × Cursor α)
  | 0, c => fun s => (([], c), s)
  | n + 1, c => fun s =>
    let first := c.next fetch s
    let rest := nexts fetch n first.1.2 first.2
    ((first.1.1 :: rest.1.1, rest.1.2), rest.2)

theorem Finished.nexts_eq (h : c.Finished) (n : Nat) (s : σ) :
    nexts fetch n c s = ((List.replicate n none, c), s) := by
  induction n with
  | zero => rfl
  | succ n ih => simp [nexts, h.next_eq, ih, List.replicate_succ]

theorem Gives.nexts_eq {xs : List (Except Error α)} (h : Gives fetch c s xs d t) (n : Nat) :
    (nexts fetch n c s).1.1 = (List.range n).map (xs[·]?) := by
  induction n generalizing c s xs with
  | zero => rfl
  | succ n ih =>
    rw [nexts, List.range_succ_eq_map]
    cases h with
    | done hn =>
      have hfin := finished_of_next hn (by simp)
      simp [hn, hfin.nexts_eq, Function.comp_def, List.map_const']
    | item hn hrest => simp [hn, ih hrest, Function.comp_def]

theorem Gives.nexts_end {xs : List (Except Error α)} (h : Gives fetch c s xs d t) {n : Nat}
    (hn : xs.length < n) : (nexts fetch n c s).1.2 = d ∧ (nexts fetch n c s).2 = t := by
  induction h generalizing n with
  | done hnext =>
    obtain ⟨n, rfl⟩ : ∃ m, n = m + 1 := ⟨n - 1, by simp at hn; omega⟩
    have hfin := finished_of_next hnext (by simp)
    simp [nexts, hnext, hfin.nexts_eq]
  | item hnext _ ih =>
    obtain ⟨n, rfl⟩ : ∃ m, n = m + 1 := ⟨n - 1, by simp at hn; omega⟩
    have hlt := Nat.lt_of_succ_lt_succ hn
    simp [nexts, hnext, ih hlt]

theorem Fetches.start_gives {o : Options} {pages : List (Page α)} {failure : Option Error}
    (h : Fetches fetch o 1 s pages failure t) :
    Gives fetch (start o) s (yields pages failure) ((start o).ended pages.length) t :=
  h.gives (by decide) rfl rfl rfl

/-- The query of a page: the filters, sort key and limit of the walk, and the page. -/
theorem query_forPage (o : Options) (n : UInt32) :
    (o.forPage n).query = List.intercalate ['&']
      (o.filters.map Filter.fragment ++ (o.sort.toList.map fun k => "sort=".toList ++ k.text) ++
        Options.parameter "limit" o.limit ++ ["page=".toList ++ Text.decimal n.toNat]) := by
  simp [Options.query, Options.fragments, Options.forPage, Options.parameter]

/-- **The law of a walk.** Its fetches are answered some pages and perhaps a failure; they ask for
the pages `1, 2, …` by the options of the walk and are fewer than the page numbers. Collecting
gives the items of all pages and the failure, and leaves a finished cursor; so does calling
`next` any number of times, with nothing after them. After the first call that gives nothing or a
failure no call fetches. -/
theorem walk_yields (fetch : Fetch σ α) (o : Options) (s : σ) :
    ∃ pages failure t, Fetches fetch o 1 s pages failure t ∧
      fetchCount pages failure ≤ 2 ^ 32 - 1 ∧
      (start o).drain (recorded fetch) (s, []) =
        ((yields pages failure, (start o).ended pages.length),
          (t, asked o 1 (fetchCount pages failure))) ∧
      (∀ n, (nexts (recorded fetch) n (start o) (s, [])).1.1 =
          (List.range n).map ((yields pages failure)[·]?) ∧
        ((yields pages failure).length < n →
          (nexts (recorded fetch) n (start o) (s, [])).2 =
            (t, asked o 1 (fetchCount pages failure)))) ∧
      (∀ n : UInt32, (o.forPage n).query = List.intercalate ['&']
        (o.filters.map Filter.fragment ++ (o.sort.toList.map fun k => "sort=".toList ++ k.text) ++
          Options.parameter "limit" o.limit ++ ["page=".toList ++ Text.decimal n.toNat])) ∧
      ∀ (c d : Cursor α) (u v : σ × List Options) (item : Option (Except Error α)) (n : Nat),
        c.next (recorded fetch) u = ((item, d), v) → (∀ x, item ≠ some (.ok x)) →
        nexts (recorded fetch) n d v = ((List.replicate n none, d), v) := by
  obtain ⟨pages, failure, t, hfetches, hle⟩ := exists_fetches fetch o 1 (by decide) s
  have hgives := (hfetches.recorded []).start_gives
  rw [List.nil_append] at hgives
  refine ⟨pages, failure, t, hfetches, by omega, hgives.drain_eq,
    fun n => ⟨hgives.nexts_eq n, fun hn => (hgives.nexts_end hn).2⟩, query_forPage o, ?_⟩
  intro c d u v item n hnext hitem
  exact (finished_of_next hnext hitem).nexts_eq n v

end OneApi.Cursor
