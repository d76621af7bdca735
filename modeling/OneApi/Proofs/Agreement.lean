import Mathlib.Data.List.Forall2
import Mathlib.Data.Option.Defs
import OneApi.Proofs.Walk
import OneApi.Session

/-! Two clients side by side. If the pages that two connections get agree, so does everything that is
made of pages: items by their ids, the quotes of a movie, each step of a walk and all that is left
of one, and whole sessions. What agreement means is left open: a relation between the states of the
transports, and one between errors. -/

namespace OneApi

variable {σ τ α β : Type}

/-- The same value, or errors that are related. -/
inductive Alike (E : Error → Error → Prop) : Except Error α → Except Error α → Prop
  | ok (a : α) : Alike E (.ok a) (.ok a)
  | error {e f : Error} : E e f → Alike E (.error e) (.error f)

/-- From related states two computations come to related results and related states. -/
def Agree (R : σ → τ → Prop) (P : α → β → Prop) (f : StateM σ α) (g : StateM τ β) : Prop :=
  ∀ s t, R s t → P (f s).1 (g t).1 ∧ R (f s).2 (g t).2

variable {R : σ → τ → Prop} {E : Error → Error → Prop}

theorem Alike.refl (hE : ∀ e, E e e) (r : Except Error α) : Alike E r r := by
  cases r with
  | error e => exact .error (hE e)
  | ok a => exact .ok a

theorem Alike.eq {r q : Except Error α} (h : Alike Eq r q) : r = q := by
  cases h with
  | ok a => rfl
  | error he => rw [he]

theorem Alike.of_error_left {e : Error} {q : Except Error α} (h : Alike E (.error e) q) :
    ∃ f, q = .error f ∧ E e f := by
  cases h with
  | error he => exact ⟨_, rfl, he⟩

theorem Alike.of_error_right {r : Except Error α} {f : Error} (h : Alike E r (.error f)) :
    ∃ e, r = .error e ∧ E e f := by
  cases h with
  | error he => exact ⟨_, rfl, he⟩

/-- Goes on with a value, and stops at an error. -/
def goOn (f : StateM σ (Except Error α)) (k : α → StateM σ (Except Error β)) :
    StateM σ (Except Error β) := fun s =>
  match f s with
  | (.error e, t) => (.error e, t)
  | (.ok a, t) => k a t

theorem Agree.goOn {f : StateM σ (Except Error α)} {g : StateM τ (Except Error α)}
    {k : α → StateM σ (Except Error β)} {l : α → StateM τ (Except Error β)}
    (h : Agree R (Alike E) f g) (hk : ∀ a, Agree R (Alike E) (k a) (l a)) :
    Agree R (Alike E) (goOn f k) (goOn g l) := by
  intro s t hst
  obtain ⟨hresult, hstates⟩ := h s t hst
  unfold OneApi.goOn
  generalize f s = left at hresult hstates ⊢
  generalize g t = right at hresult hstates ⊢
  obtain ⟨result, s'⟩ := left
  obtain ⟨result', t'⟩ := right
  cases hresult with
  | error he => exact ⟨.error he, hstates⟩
  | ok a => exact hk a s' t' hstates

/-! ## Walks -/

namespace Cursor

variable {f : Fetch σ α} {g : Fetch τ α}

/-- Items that agree, and the same cursor behind them. -/
def StepsAlike (E : Error → Error → Prop) (p q : Option (Except Error α) × Cursor α) : Prop :=
  Option.Rel (Alike E) p.1 q.1 ∧ p.2 = q.2

theorem agree_next (h : ∀ o, Agree R (Alike E) (f o) (g o)) (c : Cursor α) :
    Agree R (StepsAlike E) (c.next f) (c.next g) := by
  intro s t hst
  cases hb : c.buffered with
  | cons x rest =>
    rw [next_of_buffered hb, next_of_buffered hb]
    exact ⟨⟨.some (.ok x), rfl⟩, hst⟩
  | nil =>
    cases hn : c.nextPage with
    | none =>
      have hfin : c.Finished := ⟨hb, hn⟩
      rw [hfin.next_eq, hfin.next_eq]
      exact ⟨⟨.none, rfl⟩, hst⟩
    | some n =>
      obtain ⟨hanswer, hstates⟩ := h (c.options.forPage n) s t hst
      rcases hleft : f (c.options.forPage n) s with ⟨answer, s'⟩
      rcases hright : g (c.options.forPage n) t with ⟨answer', t'⟩
      rw [hleft, hright] at hanswer hstates
      cases hanswer with
      | error he =>
        rw [next_of_error hb hn hleft, next_of_error hb hn hright]
        exact ⟨⟨.some (.error he), rfl⟩, hstates⟩
      | ok page =>
        have hitem (x : Option α) : Option.Rel (Alike E) (x.map .ok) (x.map .ok) := by
          cases x with
          | none => exact .none
          | some x => exact .some (.ok x)
        rw [next_of_fetched hb hn hleft, next_of_fetched hb hn hright]
        exact ⟨⟨hitem _, rfl⟩, hstates⟩

/-- Lists of items that agree, and the same cursor behind them. -/
def PullsAlike (E : Error → Error → Prop) (p q : List (Except Error α) × Cursor α) : Prop :=
  List.Forall₂ (Alike E) p.1 q.1 ∧ p.2 = q.2

theorem agree_drain (h : ∀ o, Agree R (Alike E) (f o) (g o)) (c : Cursor α) :
    Agree R (PullsAlike E) (c.drain f) (c.drain g) := by
  intro s t hst
  fun_induction drain f c s generalizing t with
  | case1 c s d s' hnext =>
    obtain ⟨⟨hitem, hcursor⟩, hstates⟩ := agree_next h c s t hst
    rw [hnext] at hitem hcursor hstates
    rcases hright : c.next g t with ⟨⟨item, d'⟩, t'⟩
    rw [hright] at hitem hcursor hstates
    obtain rfl : d = d' := hcursor
    cases hitem
    rw [drain_of_none hright]
    exact ⟨⟨.nil, rfl⟩, hstates⟩
  | case2 c s x d s' hnext rest ih =>
    obtain ⟨⟨hitem, hcursor⟩, hstates⟩ := agree_next h c s t hst
    rw [hnext] at hitem hcursor hstates
    rcases hright : c.next g t with ⟨⟨item, d'⟩, t'⟩
    rw [hright] at hitem hcursor hstates
    obtain rfl : d = d' := hcursor
    cases hitem with
    | some hx =>
      obtain ⟨⟨hitems, hend⟩, hlast⟩ := ih t' hstates
      rw [drain_of_some hright]
      exact ⟨⟨.cons hx hitems, hend⟩, hlast⟩

theorem agree_pull (h : ∀ o, Agree R (Alike E) (f o) (g o)) (all : Bool) (c : Cursor α) :
    Agree R (PullsAlike E) (c.pull f all) (c.pull g all) := by
  intro s t hst
  cases all with
  | true => exact agree_drain h c s t hst
  | false =>
    obtain ⟨⟨hitem, hcursor⟩, hstates⟩ := agree_next h c s t hst
    have hitems {x y : Option (Except Error α)} (hxy : Option.Rel (Alike E) x y) :
        List.Forall₂ (Alike E) x.toList y.toList := by
      cases hxy with
      | none => exact .nil
      | some hx => exact .cons hx .nil
    exact ⟨⟨hitems hitem, hcursor⟩, hstates⟩

end Cursor

/-! ## Clients -/

/-- The first item of a page. -/
def firstItem (missing : Error) (page : Page α) : StateM σ (Except Error α) := fun s =>
  match page.items with
  | [] => (.error missing, s)
  | item :: _ => (.ok item, s)

theorem Collection.get_of_accepted [Document α] {id : String} (hid : checkId id = .ok ())
    (c : Collection σ α) :
    c.get id = goOn (c.connection.page c.path [id] {}) (firstItem (c.absent id)) := by
  funext s
  unfold Collection.get goOn
  rw [hid]
  dsimp only
  rcases c.connection.page c.path [id] {} s with ⟨_ | page, t⟩ <;> rfl

theorem Client.movieWithQuotes_eq (c : Client σ) (id : String) :
    c.movieWithQuotes id = goOn (c.movies.get id) fun movie =>
      goOn (c.quotesOf id {}) fun quotes s => (.ok ⟨movie, quotes⟩, s) := by
  funext s
  unfold Client.movieWithQuotes goOn
  rcases c.movies.get id s with ⟨_ | movie, t⟩
  · rfl
  · dsimp only
    rcases c.quotesOf id {} t with ⟨_ | quotes, u⟩ <;> rfl

/-- Two connections that get pages which agree, whatever they are asked for. -/
structure Connection.Agree (R : σ → τ → Prop) (E : Error → Error → Prop) (c : Connection σ)
    (d : Connection τ) : Prop where
  refl : ∀ e, E e e
  page : ∀ {α : Type} [Document α] (path : String) (segments : List String) (o : Options),
    OneApi.Agree R (Alike E) (c.page path segments o : StateM σ (Except Error (Page α)))
      (d.page path segments o)

namespace Connection.Agree

variable {c : Connection σ} {d : Connection τ}

theorem get [Document α] (h : c.Agree R E d) (path id : String) :
    OneApi.Agree R (Alike E) (Collection.get (α := α) ⟨path, c⟩ id) (Collection.get ⟨path, d⟩ id) := by
  cases hid : checkId id with
  | error e =>
    unfold Collection.get
    rw [hid]
    exact fun s t hst => ⟨.error (h.refl e), hst⟩
  | ok _ =>
    rw [Collection.get_of_accepted hid, Collection.get_of_accepted hid]
    refine (h.page path [id] {}).goOn fun page s t hst => ?_
    unfold firstItem
    cases page.items with
    | nil => exact ⟨.error (h.refl _), hst⟩
    | cons item _ => exact ⟨.ok item, hst⟩

theorem quotesOf (h : c.Agree R E d) (movie : String) (o : Options) :
    OneApi.Agree R (Alike E) ((Client.ofConnection c).quotesOf movie o)
      ((Client.ofConnection d).quotesOf movie o) := by
  unfold Client.quotesOf
  cases checkId movie with
  | error e => exact fun s t hst => ⟨.error (h.refl e), hst⟩
  | ok _ => exact h.page Service.moviePath [movie, "quote"] o

theorem movieWithQuotes (h : c.Agree R E d) (id : String) :
    OneApi.Agree R (Alike E) ((Client.ofConnection c).movieWithQuotes id)
      ((Client.ofConnection d).movieWithQuotes id) := by
  rw [Client.movieWithQuotes_eq, Client.movieWithQuotes_eq]
  refine (h.get Service.moviePath id).goOn fun movie => ?_
  refine (h.quotesOf id {}).goOn fun quotes => ?_
  exact fun s t hst => ⟨.ok _, hst⟩

end Connection.Agree

/-! ## Sessions -/

/-- Replies that hold the same values and errors that are related. -/
inductive Reply.Alike (E : Error → Error → Prop) : Reply → Reply → Prop
  | movies {r q} : OneApi.Alike E r q → Alike E (movies r) (movies q)
  | quotes {r q} : OneApi.Alike E r q → Alike E (quotes r) (quotes q)
  | movie {r q} : OneApi.Alike E r q → Alike E (movie r) (movie q)
  | quote {r q} : OneApi.Alike E r q → Alike E (quote r) (quote q)
  | movieWithQuotes {r q} : OneApi.Alike E r q → Alike E (movieWithQuotes r) (movieWithQuotes q)
  | movieItems {xs ys} : List.Forall₂ (OneApi.Alike E) xs ys → Alike E (movieItems xs) (movieItems ys)
  | quoteItems {xs ys} : List.Forall₂ (OneApi.Alike E) xs ys → Alike E (quoteItems xs) (quoteItems ys)
  | nothing : Alike E nothing nothing

theorem forall₂_eq {P : α → α → Prop} (hP : ∀ a b, P a b → a = b) {xs ys : List α}
    (h : List.Forall₂ P xs ys) : xs = ys :=
  List.forall₂_eq_eq_eq ▸ h.imp hP

theorem Reply.Alike.eq {p q : Reply} (h : Alike Eq p q) : p = q := by
  cases h with
  | movies h => rw [h.eq]
  | quotes h => rw [h.eq]
  | movie h => rw [h.eq]
  | quote h => rw [h.eq]
  | movieWithQuotes h => rw [h.eq]
  | movieItems h => rw [forall₂_eq (fun _ _ => OneApi.Alike.eq) h]
  | quoteItems h => rw [forall₂_eq (fun _ _ => OneApi.Alike.eq) h]
  | nothing => rfl

/-- The same walks over transports in related states. -/
def Session.Related (R : σ → τ → Prop) (s : Session σ) (t : Session τ) : Prop :=
  s.walks = t.walks ∧ R s.state t.state

theorem Session.eq_of_related {s t : Session σ} (h : Related Eq s t) : s = t := by
  obtain ⟨walks, state⟩ := s
  obtain ⟨walks', state'⟩ := t
  obtain ⟨rfl, rfl⟩ : walks = walks' ∧ state = state' := h
  rfl

theorem Session.agree_ask {f : StateM σ α} {g : StateM τ α} {P : α → α → Prop}
    (h : Agree R P f g) {reply : α → Reply} (hr : ∀ a b, P a b → Reply.Alike E (reply a) (reply b)) :
    Agree (Related R) (Reply.Alike E) (ask f reply) (ask g reply) := by
  rintro s t ⟨hwalks, hst⟩
  obtain ⟨hresult, hstates⟩ := h s.state t.state hst
  exact ⟨hr _ _ hresult, hwalks, hstates⟩

namespace Connection.Agree

variable {c : Connection σ} {d : Connection τ}

theorem pull (h : c.Agree R E d) (all : Bool) (walk : Walk) :
    OneApi.Agree R (fun p q => Reply.Alike E p.1 q.1 ∧ p.2 = q.2)
      (walk.pull (Client.ofConnection c) all) (walk.pull (Client.ofConnection d) all) := by
  intro s t hst
  cases walk with
  | movies cursor =>
    obtain ⟨⟨hitems, hcursor⟩, hstates⟩ :=
      Cursor.agree_pull (fun o => h.page (α := Movie) Service.moviePath [] o) all cursor s t hst
    exact ⟨⟨.movieItems hitems, congrArg Walk.movies hcursor⟩, hstates⟩
  | quotes cursor =>
    obtain ⟨⟨hitems, hcursor⟩, hstates⟩ :=
      Cursor.agree_pull (fun o => h.page (α := Quote) Service.quotePath [] o) all cursor s t hst
    exact ⟨⟨.quoteItems hitems, congrArg Walk.quotes hcursor⟩, hstates⟩
  | quotesOf movie cursor =>
    obtain ⟨⟨hitems, hcursor⟩, hstates⟩ :=
      Cursor.agree_pull (fun o => h.quotesOf movie o) all cursor s t hst
    exact ⟨⟨.quoteItems hitems, congrArg (Walk.quotesOf movie) hcursor⟩, hstates⟩

theorem pull_session (h : c.Agree R E d) (all : Bool) (name : String) :
    OneApi.Agree (Session.Related R) (Reply.Alike E)
      (Session.pull (Client.ofConnection c) all name)
      (Session.pull (Client.ofConnection d) all name) := by
  rintro ⟨walks, s⟩ ⟨walks', t⟩ ⟨hwalks, hst⟩
  obtain rfl : walks = walks' := hwalks
  unfold Session.pull
  dsimp only
  cases walks.lookup name with
  | none => exact ⟨.nothing, rfl, hst⟩
  | some walk =>
    obtain ⟨⟨hreply, hwalk⟩, hstates⟩ := h.pull all walk s t hst
    refine ⟨hreply, ?_, hstates⟩
    exact congrArg (fun left => (name, left) :: walks) hwalk

theorem call (h : c.Agree R E d) (call : Call) :
    OneApi.Agree (Session.Related R) (Reply.Alike E)
      ((Client.ofConnection c).call call) ((Client.ofConnection d).call call) := by
  cases call with
  | movies o => exact Session.agree_ask (h.page Service.moviePath [] o) fun _ _ => .movies
  | quotes o => exact Session.agree_ask (h.page Service.quotePath [] o) fun _ _ => .quotes
  | movie id => exact Session.agree_ask (h.get Service.moviePath id) fun _ _ => .movie
  | quote id => exact Session.agree_ask (h.get Service.quotePath id) fun _ _ => .quote
  | quotesOf movie o => exact Session.agree_ask (h.quotesOf movie o) fun _ _ => .quotes
  | movieWithQuotes id =>
    exact Session.agree_ask (h.movieWithQuotes id) fun _ _ => .movieWithQuotes
  | start name source o =>
    rintro s t ⟨hwalks, hst⟩
    exact ⟨.nothing, congrArg _ hwalks, hst⟩
  | next name => exact h.pull_session false name
  | drain name => exact h.pull_session true name
  | drop name =>
    rintro s t ⟨hwalks, hst⟩
    exact ⟨.nothing, congrArg _ hwalks, hst⟩

/-- **Sessions agree as soon as pages do.** -/
theorem calls (h : c.Agree R E d) (calls : List Call) :
    OneApi.Agree (Session.Related R) (List.Forall₂ (Reply.Alike E))
      ((Client.ofConnection c).calls calls) ((Client.ofConnection d).calls calls) := by
  induction calls with
  | nil => exact fun s t hst => ⟨.nil, hst⟩
  | cons call calls ih =>
    intro s t hst
    obtain ⟨hreply, hstates⟩ := h.call call s t hst
    obtain ⟨hreplies, hlast⟩ := ih _ _ hstates
    exact ⟨.cons hreply hreplies, hlast⟩

end Connection.Agree

end OneApi
