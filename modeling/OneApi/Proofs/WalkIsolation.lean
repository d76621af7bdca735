import OneApi.Proofs.NotedRequests

/-! Walks side by side. Over a transport whose answers depend on the request alone, a call on one walk
depends on this walk alone and touches no other, and a call that is not about a walk depends on
none. So among all calls of a session, those on one walk make up the session of this walk alone. -/

namespace OneApi

open Transport

variable {σ τ : Type}

/-- The name of the walk that a call is about. -/
def Call.walk? : Call → Option String
  | .start name _ _ => some name
  | .next name => some name
  | .drain name => some name
  | .drop name => some name
  | _ => none

/-- One call of a session: its reply, the requests it made, and the walk it is about as it left it. -/
structure Episode where
  call : Call
  reply : Reply
  requests : List Request
  walk : Option Walk

namespace Client

/-- Makes a call, from which on the requests are noted. -/
def noting (c : Client (σ × List Request)) (call : Call) : StateM (Session (σ × List Request)) Reply :=
  fun s => c.call call { s with state := (s.state.1, []) }

def episode (c : Client (σ × List Request)) (call : Call) (s : Session (σ × List Request)) :
    Episode :=
  { call
    reply := (c.noting call s).1
    requests := (c.noting call s).2.state.2
    walk := call.walk?.bind fun name => (c.noting call s).2.walks.lookup name }

/-- The episodes of calls that are made one after the other. -/
def episodes (c : Client (σ × List Request)) :
    List Call → Session (σ × List Request) → List Episode
  | [], _ => []
  | call :: calls, s => c.episode call s :: c.episodes calls (c.noting call s).2

end Client

/-! ## The walk of a call -/

namespace Session

theorem lookup_cons_of_ne {name other : String} (h : other ≠ name) (walk : Walk)
    (walks : List (String × Walk)) : ((name, walk) :: walks).lookup other = walks.lookup other := by
  rw [List.lookup_cons, beq_false_of_ne h]

theorem lookup_drop_self (name : String) (walks : List (String × Walk)) :
    (walks.filter fun walk => walk.1 != name).lookup name = none := by
  rw [List.lookup_eq_none_iff]
  intro walk hwalk
  have hne : walk.1 ≠ name := by simpa using (List.mem_filter.mp hwalk).2
  exact bne_iff_ne.mpr hne.symm

theorem lookup_drop_of_ne {name other : String} (h : other ≠ name) (walks : List (String × Walk)) :
    (walks.filter fun walk => walk.1 != name).lookup other = walks.lookup other := by
  induction walks with
  | nil => rfl
  | cons walk walks ih =>
    obtain ⟨n, w⟩ := walk
    by_cases hn : n = name
    · subst hn
      rw [lookup_cons_of_ne h, List.filter_cons_of_neg (by simp), ih]
    · rw [List.filter_cons_of_pos (by simpa using hn), List.lookup_cons, List.lookup_cons, ih]

/-- Sessions over the same state with the same walk under a name, if one is given. -/
structure Near (name : Option String) (s t : Session σ) : Prop where
  state : s.state = t.state
  walk : ∀ n, name = some n → s.walks.lookup n = t.walks.lookup n

theorem near_pull {c : Client σ} {name : String} {s t : Session σ} (h : Near (some name) s t)
    (all : Bool) : (pull c all name s).1 = (pull c all name t).1 ∧
      Near (some name) (pull c all name s).2 (pull c all name t).2 := by
  unfold pull
  rw [h.walk name rfl, h.state]
  cases t.walks.lookup name with
  | none => exact ⟨rfl, h⟩
  | some walk =>
    refine ⟨rfl, rfl, ?_⟩
    rintro n ⟨⟩
    exact List.lookup_cons_self.trans List.lookup_cons_self.symm

end Session

namespace Client

variable {c : Client σ}

/-- A call depends on its own walk alone. -/
theorem near_call {call : Call} {s t : Session σ} (h : Session.Near call.walk? s t) :
    (c.call call s).1 = (c.call call t).1 ∧
      Session.Near call.walk? (c.call call s).2 (c.call call t).2 := by
  have hask {α : Type} (act : StateM σ α) (reply : α → Reply) :
      (Session.ask act reply s).1 = (Session.ask act reply t).1 ∧
        Session.Near none (Session.ask act reply s).2 (Session.ask act reply t).2 := by
    unfold Session.ask
    rw [h.state]
    exact ⟨rfl, rfl, by simp⟩
  cases call with
  | start name source o =>
    refine ⟨rfl, h.state, ?_⟩
    rintro n ⟨⟩
    exact List.lookup_cons_self.trans List.lookup_cons_self.symm
  | next name => exact Session.near_pull h false
  | drain name => exact Session.near_pull h true
  | drop name =>
    refine ⟨rfl, h.state, ?_⟩
    rintro n ⟨⟩
    exact (Session.lookup_drop_self name _).trans (Session.lookup_drop_self name _).symm
  | _ => exact hask _ _

/-- A call leaves all walks alone but its own. -/
theorem lookup_call_of_ne {call : Call} {name : String} (h : call.walk? ≠ some name)
    (s : Session σ) : (c.call call s).2.walks.lookup name = s.walks.lookup name := by
  have hpull {n : String} (hn : name ≠ n) (all : Bool) :
      (Session.pull c all n s).2.walks.lookup name = s.walks.lookup name := by
    unfold Session.pull
    split
    · rfl
    · exact Session.lookup_cons_of_ne hn _ _
  have hne {n : String} (hn : call.walk? = some n) : name ≠ n := fun he => h (he ▸ hn)
  cases call with
  | start n source o => exact Session.lookup_cons_of_ne (hne rfl) _ _
  | next n => exact hpull (hne rfl) false
  | drain n => exact hpull (hne rfl) true
  | drop n => exact Session.lookup_drop_of_ne (hne rfl) _
  | _ => rfl

end Client

/-! ## Transports that answer by the request alone -/

/-- States with the same requests noted. -/
def SameNotes (s t : σ × List Request) : Prop := s.2 = t.2

theorem agree_notes {t : Transport σ} {u : Transport (σ × List Request)} {answer : Request → Answer}
    (hanswer : ∀ request s, (t request s).1 = answer request) (h : Stacked t u) (request : Request) :
    Agree SameNotes Eq (u request) (u request) := by
  refine h.agree ?_ ?_
  · intro s v hsv
    refine ⟨?_, congrArg (· ++ [request]) hsv⟩
    exact (hanswer request s.1).trans (hanswer request v.1).symm
  · intro pause attempt wait s v hsv
    exact ⟨rfl, hsv⟩

namespace Client

/-- What comes of a call depends on its walk alone. -/
theorem episode_eq {connection : Connection (σ × List Request)}
    (hagree : connection.Agree SameNotes Eq connection) {call : Call}
    {s t : Session (σ × List Request)}
    (h : ∀ name, call.walk? = some name → s.walks.lookup name = t.walks.lookup name) :
    (ofConnection connection).episode call s = (ofConnection connection).episode call t := by
  let start (v : Session (σ × List Request)) : Session (σ × List Request) :=
    { v with state := (v.state.1, []) }
  -- first the other walks are exchanged, and then the state of the transport
  let mixed : Session (σ × List Request) := { start s with walks := t.walks }
  have hnear : Session.Near call.walk? (start s) mixed := ⟨rfl, h⟩
  obtain ⟨hreply, hnear⟩ := near_call (c := ofConnection connection) hnear
  have hrelated : Session.Related SameNotes mixed (start t) := ⟨rfl, rfl⟩
  obtain ⟨hsame, hwalks, hnotes⟩ := hagree.call call mixed (start t) hrelated
  have hrequests : ((ofConnection connection).noting call s).2.state.2 =
      ((ofConnection connection).noting call t).2.state.2 :=
    (congrArg Prod.snd hnear.state).trans hnotes
  have hwalk : (call.walk?.bind fun name =>
        ((ofConnection connection).noting call s).2.walks.lookup name) =
      call.walk?.bind fun name => ((ofConnection connection).noting call t).2.walks.lookup name := by
    cases hname : call.walk? with
    | none => rfl
    | some name => exact (hnear.walk name hname).trans (congrArg (List.lookup name) hwalks)
  unfold episode
  rw [hrequests, hwalk]
  exact congrArg (Episode.mk call · _ _) (hreply.trans hsame.eq)

theorem filter_episodes {connection : Connection (σ × List Request)}
    (hagree : connection.Agree SameNotes Eq connection) (name : String) (calls : List Call)
    {s alone : Session (σ × List Request)} (h : s.walks.lookup name = alone.walks.lookup name) :
    ((ofConnection connection).episodes calls s).filter (fun e => e.call.walk? = some name) =
      (ofConnection connection).episodes (calls.filter fun call => call.walk? = some name) alone := by
  induction calls generalizing s alone with
  | nil => rfl
  | cons call calls ih =>
    by_cases hcall : call.walk? = some name
    · have hepisode : (ofConnection connection).episode call s =
          (ofConnection connection).episode call alone := by
        refine episode_eq hagree fun n hn => ?_
        obtain rfl : name = n := Option.some.inj (hcall.symm.trans hn)
        exact h
      have hwalks := congrArg Episode.walk hepisode
      simp only [episode, hcall, Option.bind_some] at hwalks
      have hin : decide (call.walk? = some name) = true := decide_eq_true hcall
      rw [episodes, List.filter_cons_of_pos (by exact hin), List.filter_cons_of_pos (by exact hin),
        episodes, hepisode, ih hwalks]
    · have hwalks : ((ofConnection connection).noting call s).2.walks.lookup name =
          alone.walks.lookup name := (lookup_call_of_ne hcall _).trans h
      have hout : ¬ decide (call.walk? = some name) = true := by rwa [decide_eq_true_eq]
      rw [episodes, List.filter_cons_of_neg (by exact hout), List.filter_cons_of_neg (by exact hout),
        ih hwalks]

theorem exists_of_mem_episodes {c : Client (σ × List Request)} {calls : List Call}
    {s : Session (σ × List Request)} {e : Episode} (h : e ∈ c.episodes calls s) :
    ∃ t, e = c.episode e.call t := by
  induction calls generalizing s with
  | nil => simp [episodes] at h
  | cons call calls ih =>
    rcases List.mem_cons.mp h with rfl | hrest
    · exact ⟨s, rfl⟩
    · exact ih hrest

/-- **Walks do not disturb each other.** The transport answers by the request alone, directly or
behind retrying layers. Then among the calls of any session those on one walk come to what they
come to without all other calls: the same replies, the same requests, and the same walk after each
of them. A call that is not about a walk comes to what it comes to alone. -/
theorem walks_isolated {t : Transport σ} {u : Transport (σ × List Request)}
    {answer : Request → Answer} (hanswer : ∀ request s, (t request s).1 = answer request)
    (hu : Stacked t u) (base : Url) (key : String) (calls : List Call)
    (s : Session (σ × List Request)) :
    let c := ofConnection ⟨base, key, u⟩
    (∀ (name : String) (alone : Session (σ × List Request)),
      s.walks.lookup name = alone.walks.lookup name →
      (c.episodes calls s).filter (fun e => e.call.walk? = some name) =
        c.episodes (calls.filter fun call => call.walk? = some name) alone) ∧
    ∀ e ∈ c.episodes calls s, e.call.walk? = none → ∀ alone, c.episodes [e.call] alone = [e] := by
  intro c
  have hagree : Connection.Agree SameNotes Eq ⟨base, key, u⟩ ⟨base, key, u⟩ :=
    Connection.agree_of_transports (fun url => agree_notes hanswer hu ⟨url, key⟩) base
  constructor
  · intro name alone h
    exact filter_episodes hagree name calls h
  · intro e he hnone alone
    obtain ⟨t, ht⟩ := exists_of_mem_episodes he
    have hsame : c.episode e.call alone = c.episode e.call t :=
      episode_eq hagree fun name hname => absurd (hnone.symm.trans hname) (by simp)
    rw [episodes, episodes, hsame, ← ht]

/-- Two walks in turn, with a page asked for in between, behind a layer that retries twice; the
transport counts its requests and refuses all but those for a first page. -/
theorem walks_isolated_two :
    let answer : Request → Answer := fun request =>
      if request.url.endsWith "page=1" then
        .ok ⟨200, "\x7b\"docs\":[\x7b\"_id\":\"a\"\x7d],\"page\":1,\"pages\":2\x7d", []⟩
      else .ok ⟨429, "", []⟩
    let t : Transport Nat := fun request sent => (answer request, sent + 1)
    let base : Url := ⟨"https".toList, none, .hierarchical false ["v2".toList], none, none⟩
    let layer := Retry.layer (.constant 2 .zero) (besideNotes fun _ _ sent => ((), sent)) t.noted
    let c := ofConnection ⟨base, "key", layer⟩
    let calls : List Call :=
      [.start "a" .movies {}, .start "b" (.quotesOf "5cd9") {}, .next "a", .next "b", .quotes {},
        .next "a", .drop "b", .next "a"]
    (∀ request sent, (t request sent).1 = answer request) ∧ Stacked t layer ∧
      (c.episodes calls { state := (0, []) }).filter (fun e => e.call.walk? = some "a") =
        c.episodes [.start "a" .movies {}, .next "a", .next "a", .next "a"] { state := (7, []) } := by
  intro answer t base layer c calls
  have hanswer : ∀ request sent, (t request sent).1 = answer request := fun _ _ => rfl
  have hstacked : Stacked t layer := .layer _ _ .bare
  refine ⟨hanswer, hstacked, ?_⟩
  have halone := (walks_isolated hanswer hstacked base "key" calls { state := (0, []) }).1 "a"
    { state := (7, []) } rfl
  exact halone

end Client

end OneApi
