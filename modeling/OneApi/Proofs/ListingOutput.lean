import OneApi.Proofs.IdCalls
import OneApi.Proofs.ItemAddress
import OneApi.Proofs.RereadDocument

/-! The output of listings. Text in one line holds no controls, whatever the texts in it, so each
item stays on the line it is written on and is read from there, its doubles reread; a listing writes
the items of the pages it got, in order, and nothing for a page it did not get. -/

namespace OneApi

namespace Json

/-! ## One line -/

/-- No control, and so no end of line. -/
def Clear (s : List Char) : Prop := ∀ c ∈ s, ' ' ≤ c

@[simp]
theorem clear_nil : Clear [] := nofun

@[simp]
theorem clear_cons {c : Char} {s : List Char} : Clear (c :: s) ↔ ' ' ≤ c ∧ Clear s :=
  List.forall_mem_cons

@[simp]
theorem clear_append {s t : List Char} : Clear (s ++ t) ↔ Clear s ∧ Clear t :=
  List.forall_mem_append

theorem clear_of_isNumberChar {s : List Char} (h : ∀ c ∈ s, isNumberChar c = true) : Clear s := by
  intro c hc
  have hnumber := h c hc
  simp only [isNumberChar, Bool.or_eq_true, beq_iff_eq] at hnumber
  rcases hnumber with ((((hdigit | rfl) | rfl) | rfl) | rfl) | rfl
  · simp only [Char.isDigit, Bool.and_eq_true, decide_eq_true_eq] at hdigit
    exact UInt32.le_trans (by decide) hdigit.1
  all_goals decide

theorem clear_escape (c : Char) : Clear (escape c) := by
  have hhex : ∀ n < 16, ' ' ≤ lowerHexDigit n := by decide
  unfold escape
  split
  case h_8 =>
    split
    · rename_i hcontrol
      have hlt : c.toNat < 32 := hcontrol
      simp [hhex (c.toNat / 16) (by omega), hhex (c.toNat % 16) (by omega)]
    · rename_i hshown
      simpa using hshown
  all_goals simp

theorem clear_stringText (s : Option String) : Clear (stringText s) := by
  have hbody : Clear ((s.getD "").toList.flatMap escape) := by
    intro c hc
    obtain ⟨d, _, hd⟩ := List.mem_flatMap.mp hc
    exact clear_escape d c hd
  simpa [stringText, quote] using hbody

theorem clear_writeItems {depth : Nat} {vs : List Json}
    (h : ∀ v ∈ vs, ∀ n, Clear (write false n v)) : Clear (writeItems false depth vs) := by
  induction vs with
  | nil => simp [writeItems]
  | cons v vs ih =>
    obtain ⟨hv, hvs⟩ := List.forall_mem_cons.mp h
    simp [writeItems, gap, hv, ih hvs]

theorem clear_writeMembers {depth : Nat} {ms : List (Option String × Json)}
    (h : ∀ m ∈ ms, ∀ n, Clear (write false n m.2)) : Clear (writeMembers false depth ms) := by
  induction ms with
  | nil => simp [writeMembers]
  | cons m ms ih =>
    obtain ⟨key, v⟩ := m
    obtain ⟨hv, hms⟩ := List.forall_mem_cons.mp h
    simp [writeMembers, gap, separator, clear_stringText, hv, ih hms]

theorem Regular.clear {v : Json} (h : Regular v) (depth : Nat) : Clear (write false depth v) := by
  induction h generalizing depth with
  | null => simp [write]
  | bool b => cases b <;> simp [write]
  | number h =>
    rw [write]
    exact clear_of_isNumberChar (Numeral.isNumberChar_of_mem_text h)
  | string s =>
    rw [write]
    exact clear_stringText s
  | @array items _ ih =>
    cases items with
    | nil => simp [write]
    | cons v vs =>
      obtain ⟨hv, hvs⟩ := List.forall_mem_cons.mp ih
      simp [write, gap, hv, clear_writeItems hvs]
  | @object members _ _ ih =>
    cases members with
    | nil => simp [write]
    | cons m ms =>
      obtain ⟨key, v⟩ := m
      obtain ⟨hv, hms⟩ := List.forall_mem_cons.mp ih
      simp [write, gap, separator, clear_stringText, hv, clear_writeMembers hms]

end Json

/-! ## Lines -/

theorem newline_not_mem_encode {α : Type} [Document α] [Rereads α] (a : α) :
    '\n' ∉ (encode a).toList := by
  intro hmem
  rw [encode, Json.compact, String.toList_ofList] at hmem
  have hclear := (Rereads.regular a).clear 0 _ hmem
  revert hclear
  decide

theorem Text.intercalate_append_nil (c : Char) (pieces : List (List Char)) :
    List.intercalate [c] (pieces ++ [[]]) = pieces.flatMap (· ++ [c]) := by
  induction pieces with
  | nil => rfl
  | cons piece pieces ih => cases pieces <;> simp_all [List.intercalate, List.intersperse]

/-- The options of the pages of a walk hold no page of their own. -/
theorem Cursor.Fetches.of_forPage_eq {σ α : Type} {fetch : Fetch σ α} {o p : Options}
    (heq : ∀ n, o.forPage n = p.forPage n) {n : Nat} {s t : σ} {pages : List (Page α)}
    {failure : Option Error} (h : Fetches fetch o n s pages failure t) :
    Fetches fetch p n s pages failure t := by
  induction h with
  | failed hf => exact .failed (heq _ ▸ hf)
  | last hf hg => exact .last (heq _ ▸ hf) hg
  | more hf hg _ ih => exact .more (heq _ ▸ hf) hg ih

namespace Command

variable {σ α : Type} [Document α]

/-- A text is the given items: each on a line of its own, from which it is reread, and no line goes
on behind them. -/
structure PrintsLines [Rereads α] (out : String) (items : List α) : Prop where
  text : out = String.join (items.map fun a => encode a ++ "\n")
  lines : out.toList.splitOn '\n' = items.map (fun a => (encode a).toList) ++ [[]]
  decoded : (out.toList.splitOn '\n').dropLast.map (fun l => decode (String.ofList l)) =
    items.map Rereads.reread

theorem printsLines_join [Rereads α] (items : List α) :
    PrintsLines (String.join (items.map (line .lines))) items := by
  have hlines : (String.join (items.map (line .lines))).toList.splitOn '\n' =
      items.map (fun a => (encode a).toList) ++ [[]] := by
    have htext : (String.join (items.map (line .lines))).toList =
        List.intercalate ['\n'] (items.map (fun a => (encode a).toList) ++ [[]]) := by
      rw [String.toList_join, Text.intercalate_append_nil, List.flatMap_map, List.flatMap_map]
      simp [line]
    rw [htext]
    refine List.splitOn_intercalate _ ?_ (by simp)
    refine List.forall_mem_append.mpr ⟨?_, by simp⟩
    exact List.forall_mem_map.mpr fun a _ => newline_not_mem_encode a
  refine ⟨rfl, hlines, ?_⟩
  rw [hlines, List.dropLast_concat, List.map_map]
  refine List.map_congr_left fun a _ => ?_
  rw [Function.comp_apply, String.ofList_toList, Rereads.decode_encode]

/-- What listing a collection comes to. -/
inductive Lists [Rereads α] (source : Collection σ α) (c : Circumstance) (o : Options) :
    Bool → σ → Output × σ → Prop
  | refused {s t : σ} {e : Error} :
      source.list o s = (.error e, t) → Lists source c o false s (("", some ⟨c, e⟩), t)
  | page {s t : σ} {page : Page α} {out : String} :
      source.list o s = (.ok page, t) → PrintsLines out page.items →
      Lists source c o false s ((out, none), t)
  | walk {s t : σ} {pages : List (Page α)} {failure : Option Error} {out : String} :
      Cursor.Fetches source.list o 1 s pages failure t →
      PrintsLines out (pages.flatMap Page.items) →
      Lists source c o true s ((out, failure.map fun e => ⟨c, e⟩), t)

theorem emitAll_yields (format : Format) (c : Circumstance) (pages : List (Page α))
    (failure : Option Error) : emitAll format c (Cursor.yields pages failure) =
      (String.join ((pages.flatMap Page.items).map (line format)), failure.map fun e => ⟨c, e⟩) := by
  have hitems : pages.flatMap (fun page => page.items.map Except.ok) =
      (pages.flatMap Page.items).map (Except.ok (ε := Error)) := List.map_flatMap.symm
  rw [Cursor.yields, hitems]
  cases failure with
  | none => simpa using emitAll_ok format c (pages.flatMap Page.items)
  | some e => exact emitAll_ok_append_error format c _ e []

theorem lists_list [Rereads α] (source : Collection σ α) (c : Circumstance) (o : Options)
    (all : Bool) (s : σ) : Lists source c o all s (list .lines c source o all s) := by
  unfold list
  cases all with
  | true =>
    obtain ⟨pages, failure, t, hfetches, _⟩ := Cursor.exists_fetches source.list o 1 (by decide) s
    rw [if_pos rfl, Collection.listAll, Listing.drain_of_fetches hfetches]
    dsimp only
    rw [emitAll_yields]
    exact .walk hfetches (printsLines_join _)
  | false =>
    rw [if_neg Bool.false_ne_true]
    rcases hlist : source.list o s with ⟨answer, t⟩
    cases answer with
    | error e => exact .refused hlist
    | ok page =>
      dsimp only
      rw [emitAll_ok]
      exact .page hlist (printsLines_join _)

theorem list_all_congr (format : Format) (c : Circumstance) (source : Collection σ α)
    {o p : Options} (heq : ∀ n, o.forPage n = p.forPage n) :
    list format c source o true = list format c source p true := by
  funext s
  obtain ⟨pages, failure, t, hfetches, _⟩ := Cursor.exists_fetches source.list o 1 (by decide) s
  have hother := hfetches.of_forPage_eq heq
  unfold list
  rw [if_pos rfl, if_pos rfl, Collection.listAll, Collection.listAll,
    Listing.drain_of_fetches hfetches, Listing.drain_of_fetches hother]

/-- **Listings print lines.** One page, or all pages up to a failure, come out item by item; the
failure is the one of the fetch, told with what was being listed; and a listing of all pages sends,
prints and ends the same whatever page it was given. A line is read as its quote; it is read as its
movie, but for scores that do not read back. -/
theorem listings_print_lines (client : Client σ) :
    (∀ sort limit page all s, Lists client.movies .listingMovies { sort, limit, page } all s
      ((Task.movies sort limit page all).run client .lines s)) ∧
    (∀ dialog movie limit all s, Lists client.quotes .listingQuotes
      { filters := quoteFilters dialog movie, limit } all s
      ((Task.quotes dialog movie limit all).run client .lines s)) ∧
    (∀ a : Movie, '\n' ∉ (encode a).toList) ∧ (∀ a : Quote, '\n' ∉ (encode a).toList) ∧
    (∀ a : Movie, Rereads.reread a = a.mapScores? Binary64.reread) ∧
    (∀ a : Movie, Rereads.reread a = some a ↔ a.ScoresReadBack) ∧
    (∀ a : Quote, Rereads.reread a = some a) ∧
    Circumstance.listingMovies.message = "Failed to list movies" ∧
    Circumstance.listingQuotes.message = "Failed to list quotes" ∧
    ∀ sort limit page format, (Task.movies sort limit page true).run client format =
      (Task.movies sort limit none true).run client format :=
  ⟨fun _ _ _ all s => lists_list client.movies .listingMovies _ all s,
    fun _ _ _ all s => lists_list client.quotes .listingQuotes _ all s,
    newline_not_mem_encode, newline_not_mem_encode, fun _ => rfl, Movie.reread_eq_some_iff,
    fun _ => rfl, rfl, rfl,
    fun _ _ _ format => list_all_congr format .listingMovies client.movies fun _ => rfl⟩

/-- A movie whose line is read as another movie: the budget 952.1917296740451 is read as
952.1917296740452. -/
theorem score_changes_in_line :
    let movie : Movie := { budgetInMillions := ⟨false, 4651586782848171410, by decide⟩ }
    let other : Movie := { budgetInMillions := ⟨false, 4651586782848171411, by decide⟩ }
    let body := "\x7b\"docs\":[\x7b\"budgetInMillions\":952.19172967404518\x7d]\x7d"
    let client : Client Script := .ofConnection (.service "key")
    let s : Script := { answers := [.ok { status := 200, body }] }
    let out := ((Task.movies none none none false).run client .lines s).1
    (client.movies.list {} s).1 = .ok { items := [movie] } ∧ out.2 = none ∧
      (out.1.toList.splitOn '\n').dropLast.map (fun l => decode (String.ofList l)) = [some other] ∧
      [some other] ≠ [some movie] := by
  intro movie other body client s out
  let score : Numeral := ⟨false, "952".toList, some "19172967404518".toList, none⟩
  have hread : Binary64.ofNumeral score = some movie.budgetInMillions := by
    refine Binary64.ofNumeral_of_rank rfl ?_
    exact (Binary64.scale_of_le (by decide +kernel)).trans (by decide +kernel)
  have hreread : movie.budgetInMillions.reread = some other.budgetInMillions := by
    have hnumeral : movie.budgetInMillions.numeral .document =
        ⟨false, "952".toList, some "1917296740451".toList, none⟩ := by decide +kernel
    rw [Binary64.reread, hnumeral]
    refine Binary64.ofNumeral_of_rank rfl ?_
    exact (Binary64.scale_of_le (by decide +kernel)).trans (by decide +kernel)
  have hdecode : (decode body : Option (Page Movie)) = some { items := [movie] } := by
    let item := Json.ofMembers [("budgetInMillions", .number score)]
    have hbody : body = (Json.ofMembers [("docs", .array [item])]).compact := by decide +kernel
    have hregular : (Json.ofMembers [("docs", .array [item])]).Regular := by
      have hscore : score.IsLiteral := ⟨rfl, by simp [score, Numeral.IsDigits], nofun⟩
      have hitem : item.Regular := Json.regular_ofMembers (List.forall_mem_singleton.mpr (.number hscore))
      exact Json.regular_ofMembers (List.forall_mem_singleton.mpr
        (.array (List.forall_mem_singleton.mpr hitem)))
    have hitem : Movie.ofJson item =
        (Binary64.ofNumeral score).bind fun x => some { budgetInMillions := x } := rfl
    have hpage : (Document.ofJson (Json.ofMembers [("docs", .array [item])]) : Option (Page Movie)) =
        ((Movie.ofJson item).bind fun m => some [m]).bind fun items => some { items } := rfl
    rw [hbody, hregular.decode_compact, hpage, hitem, hread]
    rfl
  have hpage (r : Response) : (client.movies.list {} { answers := [.ok r] }).1 = r.page := rfl
  have hlist : (client.movies.list {} s).1 = .ok { items := [movie] } :=
    (hpage _).trans (Response.page_eq_ok_iff.mpr ⟨rfl, hdecode⟩)
  have hreads : [movie].map Rereads.reread = [some other] := by
    have hzero : Binary64.zero.reread = some .zero := Binary64.readsBack_of_short (by decide +kernel)
    have hmovie : Rereads.reread movie = some other := Movie.mapScores?_of_eq hreread hzero hzero
    rw [List.map_singleton, hmovie]
  obtain ⟨hfailure, hlines⟩ : out.2 = none ∧ PrintsLines out.1 [movie] := by
    have hlists := lists_list client.movies .listingMovies {} false s
    generalize hrun : list .lines .listingMovies client.movies {} false s = run at hlists
    have hout : out = run.1 := congrArg Prod.fst hrun
    cases hlists with
    | refused he =>
      rw [he] at hlist
      cases hlist
    | page hp hprints =>
      rw [hp] at hlist
      cases hlist
      rw [hout]
      exact ⟨rfl, hprints⟩
  exact ⟨hlist, hfailure, hlines.decoded.trans hreads, by decide⟩

end Command

end OneApi
