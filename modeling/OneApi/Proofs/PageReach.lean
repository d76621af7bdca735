import Mathlib.Data.List.Chain
import OneApi.Proofs.LazyWalk

/-! How far a walk goes. The numbers it asks for are its own: `1, 2, …`. Whether there is a page after
the one it got is told by two numbers of the server, the number of that page and the count of
pages. Where a page reports at least the number it was asked for by, no fetch goes beyond the count;
a page that falls short of its number, or has none, lets the walk go beyond by as much. -/

namespace OneApi.Cursor

variable {σ α : Type} {fetch : Fetch σ α} {c d : Cursor α} {result : Option (Except Error α)}
  {log new : Log α}

/-- The number of the page that a fetch asks for. -/
def askedPage (entry : Options × Except Error (Page α)) : Nat :=
  (entry.1.page.map UInt32.toNat).getD 0

theorem askedPage_forPage (o : Options) (n : UInt32) (answer : Except Error (Page α)) :
    askedPage (o.forPage n, answer) = n.toNat := rfl

/-- The answer to a fetch says that there is a page after it, and `n` is the number of that page. -/
def Leads (entry : Options × Except Error (Page α)) (n : Nat) : Prop :=
  ∃ page, entry.2 = .ok page ∧ page.number < page.pages ∧ n = askedPage entry + 1

/-- Each fetch is led to by the one before it, and so is the next one. -/
structure Advances (c : Cursor α) (log : Log α) : Prop where
  asked : log.map askedPage = List.range' 1 log.length
  led : log.IsChain fun x y => Leads x (askedPage y)
  next : ∀ n, c.nextPage = some n →
    n.toNat = log.length + 1 ∧ ∀ entry ∈ log.getLast?, Leads entry n.toNat

theorem advances_start (o : Options) : Advances (start o : Cursor α) [] := by
  refine ⟨rfl, .nil, ?_⟩
  intro n hn
  obtain rfl : 1 = n := Option.some.inj hn
  exact ⟨rfl, by simp⟩

namespace Advances

/-- One more fetch, of the page that is next. -/
theorem fetched (h : Advances c log) {n : UInt32} (hp : c.nextPage = some n)
    (answer : Except Error (Page α)) :
    (log ++ [(c.options.forPage n, answer)]).map askedPage = List.range' 1 (log.length + 1) ∧
      (log ++ [(c.options.forPage n, answer)]).IsChain fun x y => Leads x (askedPage y) := by
  obtain ⟨hnumber, hlast⟩ := h.next n hp
  constructor
  · rw [List.map_append, h.asked, List.range'_1_concat, List.map_singleton, askedPage_forPage,
      hnumber, Nat.add_comm 1]
  · refine List.isChain_append.mpr ⟨h.led, .singleton _, ?_⟩
    intro entry hentry y hy
    obtain rfl : (c.options.forPage n, answer) = y := by simpa using hy
    exact hlast entry hentry

theorem fail (h : Advances c log) {n : UInt32} (hp : c.nextPage = some n) (e : Error) :
    Advances { c with nextPage := none } (log ++ [(c.options.forPage n, .error e)]) := by
  obtain ⟨hasked, hled⟩ := h.fetched hp (.error e)
  exact ⟨by simpa using hasked, hled, by simp⟩

theorem load (h : Advances c log) {n : UInt32} (hp : c.nextPage = some n) (page : Page α) :
    Advances (c.load n page) (log ++ [(c.options.forPage n, .ok page)]) := by
  obtain ⟨hasked, hled⟩ := h.fetched hp (.ok page)
  refine ⟨by simpa using hasked, hled, ?_⟩
  intro m hm
  rw [← UInt32.ofNat_toNat (x := n), load_nextPage c n.toNat_lt page] at hm
  split at hm
  · rename_i hgoes
    cases hm
    have hlt := hgoes.2.2
    have hnat : (UInt32.ofNat (n.toNat + 1)).toNat = n.toNat + 1 :=
      UInt32.toNat_ofNat_of_lt' (by simp only [UInt32.size]; omega)
    obtain ⟨hnumber, _⟩ := h.next n hp
    refine ⟨by rw [hnat, List.length_append, hnumber, List.length_singleton], ?_⟩
    intro entry hentry
    obtain rfl : (c.options.forPage n, .ok page) = entry := by simpa using hentry
    exact ⟨page, rfl, hgoes.2.1, hnat⟩
  · cases hm

/-- What one call keeps. -/
theorem turn (h : Advances c log) (hturn : Turn c result d new) : Advances d (log ++ new) := by
  cases hturn with
  | buffered hb => exact (List.append_nil log).symm ▸ ⟨h.asked, h.led, h.next⟩
  | finished hfin => exact (List.append_nil log).symm ▸ h
  | failed hb hp => exact h.fail hp _
  | last hb hp hi => exact h.load hp _
  | @opened n page x rest hb hp hi =>
    have hload := h.load hp page
    exact ⟨hload.asked, hload.led, hload.next⟩

/-- What any number of calls keeps. -/
theorem nexts (h : Advances c log) (fetch : Fetch σ α) (s : σ) (n : Nat) :
    let run := Cursor.nexts (logged fetch) n c (s, log)
    Advances run.1.2 run.2.2 :=
  nexts_keeps (P := fun _ => Advances) turn [] h fetch s n

end Advances

/-- By how much the own number of a page falls short of the number it was asked for by. -/
def shortfall (asked : Nat) (page : Page α) : Nat := asked - page.number.toNat

theorem Leads.le {entry : Options × Except Error (Page α)} {n : Nat} (h : Leads entry n) :
    ∃ page, entry.2 = .ok page ∧ n ≤ page.pages.toNat + shortfall (askedPage entry) page := by
  obtain ⟨page, hpage, hlt, rfl⟩ := h
  rw [UInt64.lt_iff_toNat_lt] at hlt
  refine ⟨page, hpage, ?_⟩
  unfold shortfall
  omega

/-- The pages of a log report at most `pages` pages and fall short by at most `lag`. -/
def Reports (pages lag : Nat) (log : Log α) : Prop :=
  ∀ entry ∈ log, ∀ page, entry.2 = .ok page →
    page.pages.toNat ≤ pages ∧ shortfall (askedPage entry) page ≤ lag

/-- The last fetch is the farthest, and the page before it says how far it goes. -/
theorem Advances.length_le (h : Advances c log) {pages lag : Nat}
    (hreports : Reports pages lag log) : log.length ≤ max (pages + lag) 1 := by
  by_contra hlong
  obtain ⟨i, hi⟩ : ∃ i, log.length = i + 2 := ⟨log.length - 2, by omega⟩
  have hlast : askedPage log[i + 1] = i + 2 := by
    have hget := congrArg (·[i + 1]?) h.asked
    simp [hi] at hget
    omega
  obtain ⟨page, hpage, hle⟩ := (List.isChain_iff_getElem.mp h.led i (by omega)).le
  obtain ⟨hpages, hlag⟩ := hreports _ (List.getElem_mem _) page hpage
  omega

/-- **A walk goes as far as the pages say.** Its fetches ask for the pages `1, 2, …`. Each fetch after
the first follows a page that reports a number below its count of pages, and asks for no page beyond
this count plus the shortfall of that page. So if all pages report at most as many pages and fall
short by at most as much, there are no more fetches than both together, or one. -/
theorem walk_stays_within (fetch : Fetch σ α) (o : Options) (s : σ) (n : Nat) :
    let log := (nexts (logged fetch) n (start o) (s, [])).2.2
    log.map askedPage = List.range' 1 log.length ∧
      (log.IsChain fun x y => ∃ page, x.2 = .ok page ∧ page.number < page.pages ∧
        askedPage y ≤ page.pages.toNat + shortfall (askedPage x) page) ∧
      ∀ pages lag, Reports pages lag log → log.length ≤ max (pages + lag) 1 := by
  intro log
  have hadvances : Advances _ log := (advances_start o).nexts fetch s n
  refine ⟨hadvances.asked, hadvances.led.imp ?_, fun _ _ => hadvances.length_le⟩
  intro x y hxy
  obtain ⟨page, hpage, hle⟩ := hxy.le
  obtain ⟨page', hpage', hlt, _⟩ := hxy
  cases hpage.symm.trans hpage'
  exact ⟨page, hpage, hlt, hle⟩

/-- A page of a server that counts its two pages from zero. -/
def zeroBased (n : UInt32) : Page Nat := { items := [7], number := n.toUInt64 - 1, pages := 2 }

/-- Such a server is asked for one page more. -/
theorem walk_stays_within_from_zero :
    let fetch : Fetch Unit Nat := fun o s =>
      (.ok { items := [7], number := (o.page.getD 1).toUInt64 - 1, pages := 2 }, s)
    let log := (nexts (logged fetch) 5 (start {}) ((), [])).2.2
    Reports 2 1 log ∧ log.length = 3 ∧ log.length ≤ max (2 + 1) 1 := by
  intro fetch log
  have hfetch (n : UInt32) (log : Log Nat) : logged fetch (Options.forPage {} n) ((), log) =
      (.ok (zeroBased n), (), log ++ [(Options.forPage {} n, .ok (zeroBased n))]) := rfl
  have hone (log : Log Nat) : (start {}).next (logged fetch) ((), log) =
      ((some (.ok 7), ⟨{}, [], some 2, 1⟩), (), log ++ [(Options.forPage {} 1, .ok (zeroBased 1))]) :=
    next_of_fetched (c := start {}) rfl rfl (hfetch 1 log)
  have htwo (log : Log Nat) : Cursor.next (logged fetch) ⟨{}, [], some 2, 1⟩ ((), log) =
      ((some (.ok 7), ⟨{}, [], some 3, 2⟩), (), log ++ [(Options.forPage {} 2, .ok (zeroBased 2))]) :=
    next_of_fetched (c := ⟨{}, [], some 2, 1⟩) rfl rfl (hfetch 2 log)
  have hthree (log : Log Nat) : Cursor.next (logged fetch) ⟨{}, [], some 3, 2⟩ ((), log) =
      ((some (.ok 7), ⟨{}, [], none, 3⟩), (), log ++ [(Options.forPage {} 3, .ok (zeroBased 3))]) :=
    next_of_fetched (c := ⟨{}, [], some 3, 2⟩) rfl rfl (hfetch 3 log)
  have hend : Finished (⟨{}, [], none, 3⟩ : Cursor Nat) := ⟨rfl, rfl⟩
  have hlog : log = [1, 2, 3].map fun n => (Options.forPage {} n, .ok (zeroBased n)) := by
    simp only [log, nexts, hone, htwo, hthree, hend.next_eq]
    rfl
  have hreports : Reports 2 1 log := by
    intro entry hentry page hpage
    rw [hlog] at hentry
    obtain ⟨n, hn, rfl⟩ := List.mem_map.mp hentry
    cases hpage
    simp only [List.mem_cons, List.not_mem_nil, or_false] at hn
    rcases hn with rfl | rfl | rfl <;> decide
  exact ⟨hreports, by rw [hlog]; rfl, (walk_stays_within fetch {} () 5).2.2 2 1 hreports⟩

/-- A page without a number of its own counts as one before the first, so it leads to a second page
where it says that there is one page in all. -/
theorem unnumbered_page_leads_on :
    let page : Page Nat := { items := [7], pages := 1 }
    let fetch : Fetch Unit Nat := fun _ s => (.ok page, s)
    let log := (nexts (logged fetch) 2 (start {}) ((), [])).2.2
    (∀ entry ∈ log, entry.2 = .ok page) ∧ log.map askedPage = [1, 2] ∧ page.pages.toNat = 1 ∧
      ¬ (pagesOf log).length ≤ max page.pages.toNat 1 := by
  intro page fetch log
  have hfetch (n : UInt32) (log : Log Nat) : logged fetch (Options.forPage {} n) ((), log) =
      (.ok page, (), log ++ [(Options.forPage {} n, .ok page)]) := rfl
  have hone (log : Log Nat) : (start {}).next (logged fetch) ((), log) =
      ((some (.ok 7), ⟨{}, [], some 2, 1⟩), (), log ++ [(Options.forPage {} 1, .ok page)]) :=
    next_of_fetched (c := start {}) rfl rfl (hfetch 1 log)
  have htwo (log : Log Nat) : Cursor.next (logged fetch) ⟨{}, [], some 2, 1⟩ ((), log) =
      ((some (.ok 7), ⟨{}, [], some 3, 2⟩), (), log ++ [(Options.forPage {} 2, .ok page)]) :=
    next_of_fetched (c := ⟨{}, [], some 2, 1⟩) rfl rfl (hfetch 2 log)
  have hlog : log = [(Options.forPage {} 1, .ok page), (Options.forPage {} 2, .ok page)] := by
    simp only [log, nexts, hone, htwo]
    rfl
  rw [hlog]
  exact ⟨by simp, rfl, rfl, by decide⟩

end OneApi.Cursor
