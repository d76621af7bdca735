import OneApi.Options
import OneApi.Page

/-! Walking through a collection page by page. A cursor holds the items of the page it has and the
number of the page it would fetch next; it fetches only when an item is asked for and none is
left. The walk ends after a page that is empty or the last by its own count, after a failure,
which it yields, and after the last 32-bit page number; so the page numbers left bound its fetches. -/

namespace OneApi

structure Cursor (α : Type) where
  options : Options
  buffered : List α := []
  nextPage : Option UInt32 := some 1
  pagesFetched : UInt32 := 0

abbrev Fetch (σ α : Type) := Options → StateM σ (Except Error (Page α))

namespace Cursor

variable {σ α : Type}

def start (options : Options) : Cursor α := { options := options }

def following (n : UInt32) : Option UInt32 := if n.toNat + 1 < UInt32.size then some (n + 1) else none

/-- Takes over the items of page `n`. -/
def load (c : Cursor α) (n : UInt32) (page : Page α) : Cursor α :=
  { c with
    buffered := page.items
    nextPage := if page.hasNext && !page.isEmpty then following n else none
    pagesFetched := c.pagesFetched + 1 }

def pagesLeft (c : Cursor α) : Nat :=
  match c.nextPage with
  | none => 0
  | some n => UInt32.size - n.toNat

theorem pagesLeft_load_lt (c : Cursor α) {n : UInt32} (page : Page α) (h : c.nextPage = some n) :
    (c.load n page).pagesLeft < c.pagesLeft := by
  have hn := n.toNat_lt
  simp only [pagesLeft, load, h]
  split
  · simp only [UInt32.size]; omega
  · rename_i m hm
    split at hm
    · unfold following at hm
      split at hm
      · cases hm
        rename_i hlt
        simp only [UInt32.toNat_add, UInt32.size] at hlt ⊢
        have : (1 : UInt32).toNat = 1 := rfl
        omega
      · contradiction
    · contradiction

/-- The next item, the failure to get it, or nothing at the end. Pages are fetched until one has an
item. -/
def next (fetch : Fetch σ α) (c : Cursor α) (s : σ) : (Option (Except Error α) × Cursor α) × σ :=
  match c.buffered with
  | x :: rest => ((some (.ok x), { c with buffered := rest }), s)
  | [] =>
    match _h : c.nextPage with
    | none => ((none, c), s)
    | some n =>
      match fetch (c.options.forPage n) s with
      | (.error e, t) => ((some (.error e), { c with nextPage := none }), t)
      | (.ok page, t) => next fetch (c.load n page) t
termination_by c.pagesLeft
decreasing_by exact c.pagesLeft_load_lt page _h

theorem next_decreases {fetch : Fetch σ α} {c d : Cursor α} {s t : σ} {x : Except Error α}
    (h : c.next fetch s = ((some x, d), t)) :
    Prod.Lex (· < ·) (· < ·) (d.pagesLeft, d.buffered.length) (c.pagesLeft, c.buffered.length) := by
  rw [Prod.lex_def]
  fun_induction next fetch c s with
  | case1 c s y rest hb =>
    cases h
    exact .inr ⟨rfl, by simp [hb]⟩
  | case2 => cases h
  | case3 c s hb n hn e u hf =>
    cases h
    have hlt := n.toNat_lt
    refine .inl ?_
    simp only [pagesLeft, hn, UInt32.size]
    omega
  | case4 c s hb n hn page u hf ih =>
    -- what one more page leaves to fetch is less than before, and the rest of the call adds nothing
    have hload := c.pagesLeft_load_lt page hn
    obtain hlt | ⟨heq, _⟩ := ih h
    · exact .inl (Nat.lt_trans hlt hload)
    · exact .inl (heq ▸ hload)

/-- All that is left of a walk, and the cursor at its end. -/
def drain (fetch : Fetch σ α) (c : Cursor α) (s : σ) : (List (Except Error α) × Cursor α) × σ :=
  match _h : c.next fetch s with
  | ((none, d), t) => (([], d), t)
  | ((some x, d), t) =>
    let rest := drain fetch d t
    ((x :: rest.1.1, rest.1.2), rest.2)
termination_by (c.pagesLeft, c.buffered.length)
decreasing_by exact next_decreases _h

end Cursor

end OneApi
