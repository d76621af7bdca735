import OneApi.Description
import OneApi.Proofs.Building
import OneApi.Proofs.ItemAddress
import OneApi.Proofs.LayerAgreement

/-! The key is the credential of every request and shows nowhere else. Two clients that are built
alike, apart from the key, are followed through the same session. Their scripts stay twins: the
same answers are left, the same attempts were waited for, and the requests differ in their
credentials alone. So every reply, every address and every description is the same for both. -/

namespace OneApi

open Retry

/-! ## Sessions as they can be seen -/

/-- What happens in a session: calls, and answers that arrive for later requests. -/
inductive Event where
  | call (call : Call)
  | arrival (more : List Answer)

def Walk.description : Walk → String
  | movies cursor => cursor.description
  | quotes cursor => cursor.description
  | quotesOf _ cursor => cursor.description

/-- All that shows of a session after an event, but for the credentials. -/
structure View where
  reply : Reply
  /-- The walks under their names, as they are described. -/
  walks : List (String × String)
  urls : List String
  waits : List UInt32
  left : List Answer

namespace Client

def event (c : Client Script) : Event → StateM (Session Script) Reply
  | .call call => c.call call
  | .arrival more => fun s =>
    (.nothing, { s with state := { s.state with answers := s.state.answers ++ more } })

/-- The reply to each event, and the session after it. -/
def steps (c : Client Script) : List Event → Session Script → List (Reply × Session Script)
  | [], _ => []
  | e :: events, s => c.event e s :: c.steps events (c.event e s).2

def view (step : Reply × Session Script) : View where
  reply := step.1
  walks := step.2.walks.map fun walk => (walk.1, walk.2.description)
  urls := step.2.state.requests.map Request.url
  waits := step.2.state.waits
  left := step.2.state.answers

end Client

/-! ## Twin scripts -/

/-- Two requests for the same, one with each key. -/
structure Request.Twin (k l : String) (p q : Request) : Prop where
  url : p.url = q.url
  left : p.credential = k
  right : q.credential = l

/-- Scripts that differ in the credentials of their requests alone. -/
structure Script.Twin (k l : String) (s t : Script) : Prop where
  answers : s.answers = t.answers
  waits : s.waits = t.waits
  requests : List.Forall₂ (Request.Twin k l) s.requests t.requests

variable {k l : String}

theorem map_eq_of_forall₂ {α β γ : Type} {R : α → β → Prop} {f : α → γ} {g : β → γ}
    (hR : ∀ a b, R a b → f a = g b) {xs : List α} {ys : List β} (h : List.Forall₂ R xs ys) :
    xs.map f = ys.map g := by
  induction h with
  | nil => rfl
  | cons hab _ ih => rw [List.map_cons, List.map_cons, hR _ _ hab, ih]

theorem forall_mem_of_forall₂ {α β : Type} {R : α → β → Prop} {P : α → Prop} {Q : β → Prop}
    (hR : ∀ a b, R a b → P a ∧ Q b) {xs : List α} {ys : List β} (h : List.Forall₂ R xs ys) :
    (∀ a ∈ xs, P a) ∧ ∀ b ∈ ys, Q b := by
  induction h with
  | nil => simp
  | cons hab _ ih =>
    simp only [List.forall_mem_cons]
    exact ⟨⟨(hR _ _ hab).1, ih.1⟩, ⟨(hR _ _ hab).2, ih.2⟩⟩

theorem Script.Twin.credentials {s t : Script} (h : Twin k l s t) :
    (∀ q ∈ s.requests, q.credential = k) ∧ ∀ q ∈ t.requests, q.credential = l :=
  forall_mem_of_forall₂ (fun _ _ hq => ⟨hq.left, hq.right⟩) h.requests

theorem Script.Twin.start (answers : List Answer) : Twin k l { answers } { answers } :=
  ⟨rfl, rfl, .nil⟩

/-- A transport that answers from a script, with any number of retrying layers around it. -/
inductive Scripted : Transport Script → Prop
  | script : Scripted Script.transport
  | layer {t : Transport Script} (policy : RetryPolicy) :
    Scripted t → Scripted (Retry.layer policy Script.pause t)

/-- Twins stay twins when each is asked with its own key. -/
theorem Script.agree_transport (url : String) :
    Agree (Twin k l) Eq (transport ⟨url, k⟩) (transport ⟨url, l⟩) := by
  intro s t h
  have hrequests : List.Forall₂ (Request.Twin k l) (s.requests ++ [⟨url, k⟩])
      (t.requests ++ [⟨url, l⟩]) :=
    List.rel_append h.requests (.cons ⟨rfl, rfl, rfl⟩ .nil)
  unfold transport
  rw [← h.answers]
  cases s.answers with
  | nil => exact ⟨rfl, rfl, h.waits, hrequests⟩
  | cons answer rest => exact ⟨rfl, rfl, h.waits, hrequests⟩

theorem Script.agree_pause (attempt : UInt32) (wait : Span) :
    Agree (Twin k l) Eq (pause attempt wait) (pause attempt wait) := fun _ _ h =>
  ⟨rfl, h.answers, congrArg (· ++ [attempt]) h.waits, h.requests⟩

theorem Scripted.agree {t : Transport Script} (h : Scripted t) (url : String) :
    Agree (Script.Twin k l) Eq (t ⟨url, k⟩) (t ⟨url, l⟩) := by
  induction h with
  | script => exact Script.agree_transport url
  | layer policy _ ih => exact agree_layer Script.agree_pause ih policy

/-! ## Twin sessions -/

theorem Connection.agree_of_keys {t : Transport Script} (h : Scripted t) (base : Url) :
    (Connection.mk base k t).Agree (Script.Twin k l) Eq (Connection.mk base l t) :=
  agree_of_transports h.agree base

/-- Replies that are the same, and sessions with the same walks over twin scripts. -/
structure TwinSteps (k l : String) (p q : Reply × Session Script) : Prop where
  reply : p.1 = q.1
  walks : p.2.walks = q.2.walks
  scripts : Script.Twin k l p.2.state q.2.state

theorem TwinSteps.view_eq {p q : Reply × Session Script} (h : TwinSteps k l p q) :
    Client.view p = Client.view q := by
  have hurls := map_eq_of_forall₂ (fun _ _ hq => hq.url) h.scripts.requests
  simp only [Client.view, h.reply, h.walks, hurls, h.scripts.waits, h.scripts.answers]

namespace Client

variable {t : Transport Script} {base : Url}

theorem twin_event (h : Scripted t) (base : Url) (e : Event) {s u : Session Script}
    (hsu : Session.Related (Script.Twin k l) s u) :
    TwinSteps k l ((ofConnection ⟨base, k, t⟩).event e s) ((ofConnection ⟨base, l, t⟩).event e u) := by
  cases e with
  | call call =>
    obtain ⟨hreply, hwalks, hscripts⟩ := (Connection.agree_of_keys h base).call call s u hsu
    exact ⟨hreply.eq, hwalks, hscripts⟩
  | arrival more =>
    obtain ⟨hwalks, hscripts⟩ := hsu
    have hanswers := congrArg (· ++ more) hscripts.answers
    exact ⟨rfl, hwalks, hanswers, hscripts.waits, hscripts.requests⟩

theorem twin_steps (h : Scripted t) (base : Url) (events : List Event) {s u : Session Script}
    (hsu : Session.Related (Script.Twin k l) s u) :
    List.Forall₂ (TwinSteps k l) ((ofConnection ⟨base, k, t⟩).steps events s)
      ((ofConnection ⟨base, l, t⟩).steps events u) := by
  induction events generalizing s u with
  | nil => exact .nil
  | cons e events ih =>
    have hstep := twin_event h base e hsu
    exact .cons hstep (ih ⟨hstep.walks, hstep.scripts⟩)

/-- All requests so far were sent with this credential. -/
def Bears (key : String) (step : Reply × Session Script) : Prop :=
  ∀ q ∈ step.2.state.requests, q.credential = key

/-- Two clients that show the same in every session, each with a credential of its own. -/
structure Masked (k l : String) (c d : Client Script) : Prop where
  description : c.description = d.description
  views : ∀ (answers : List Answer) (events : List Event),
    (c.steps events { state := { answers } }).map view =
      (d.steps events { state := { answers } }).map view
  credentials : ∀ (answers : List Answer) (events : List Event),
    (∀ step ∈ c.steps events { state := { answers } }, Bears k step) ∧
      ∀ step ∈ d.steps events { state := { answers } }, Bears l step

theorem masked (h : Scripted t) (base : Url) (k l : String) :
    Masked k l (ofConnection ⟨base, k, t⟩) (ofConnection ⟨base, l, t⟩) := by
  have hsteps (answers : List Answer) (events : List Event) :=
    twin_steps (k := k) (l := l) h base events (s := { state := { answers } })
      (u := { state := { answers } }) ⟨rfl, .start answers⟩
  refine ⟨rfl, ?_, ?_⟩
  · intro answers events
    exact map_eq_of_forall₂ (fun _ _ hstep => hstep.view_eq) (hsteps answers events)
  · intro answers events
    exact forall_mem_of_forall₂ (fun _ _ hstep => hstep.scripts.credentials) (hsteps answers events)

end Client

/-! ## Building -/

namespace Builder

variable {b : Builder Script} {network : Network → Transport Script}

theorem scripted_stack (hb : ∀ t ∈ b.transport, Scripted t) (hn : ∀ n, Scripted (network n))
    {t : Transport Script} (h : b.stack network Script.pause = .ok t) : Scripted t := by
  unfold stack at h
  split at h
  · rename_i custom hcustom
    cases h
    exact hb t hcustom
  · split at h
    · contradiction
    · split at h
      · cases h
        exact hn b.network
      · cases h
        exact (hn b.network).layer ⟨b.maxRetries, b.delay⟩

theorem build_with_other_key [Url.DomainNames] {t : Transport Script}
    (hstack : b.stack network Script.pause = .ok t) {key : String} (hkey : Text.isBlank key.toList = false) :
    ({ b with apiKey := some key } : Builder Script).build network Script.pause =
      (Connection.connect b.baseUrl (Text.trim key) t).map Client.ofConnection :=
  build_with_stack (b := { b with apiKey := some key }) rfl hkey hstack

/-- Everything but the credential of a client is settled before its key is read. -/
theorem build_cases [Url.DomainNames] (hb : ∀ t ∈ b.transport, Scripted t)
    (hn : ∀ n, Scripted (network n)) :
    (∃ e, ∀ key : String, Text.isBlank key.toList = false →
        ({ b with apiKey := some key } : Builder Script).build network Script.pause = .error e) ∨
      ∃ base t, Scripted t ∧ ∀ key : String, Text.isBlank key.toList = false →
        ({ b with apiKey := some key } : Builder Script).build network Script.pause =
          .ok (.ofConnection ⟨base, Text.trim key, t⟩) := by
  cases hstack : b.stack network Script.pause with
  | error e =>
    refine .inl ⟨e, fun key hkey => ?_⟩
    rw [build_with_key rfl hkey]
    exact congrArg (· >>= _) hstack
  | ok t =>
    obtain ⟨e, hconnect⟩ | ⟨base, hconnect⟩ := Connection.connect_cases b.baseUrl t
    · refine .inl ⟨e, fun key hkey => ?_⟩
      rw [build_with_other_key hstack hkey, hconnect]
      rfl
    · refine .inr ⟨base, t, scripted_stack hb hn hstack, fun key hkey => ?_⟩
      rw [build_with_other_key hstack hkey, hconnect]
      rfl

/-- **The key shows nowhere but in the credentials.** Builders that differ in the key alone are
described alike, and both fail with the same error or both give a client. The clients are described
alike too, and in every session they show the same after each event: replies with their errors,
walks, addresses and waits. Every request bears the key, without the spaces around it. -/
theorem key_shows_nowhere [Url.DomainNames] (hb : ∀ t ∈ b.transport, Scripted t)
    (hn : ∀ n, Scripted (network n)) {k l : String} (hk : Text.isBlank k.toList = false)
    (hl : Text.isBlank l.toList = false) :
    let left : Builder Script := { b with apiKey := some k }
    let right : Builder Script := { b with apiKey := some l }
    left.description = right.description ∧
      ((∃ e, left.build network Script.pause = .error e ∧
          right.build network Script.pause = .error e) ∨
        ∃ c d, left.build network Script.pause = .ok c ∧
          right.build network Script.pause = .ok d ∧
          Client.Masked (Text.trim k) (Text.trim l) c d) := by
  intro left right
  refine ⟨rfl, ?_⟩
  obtain ⟨e, hbuild⟩ | ⟨base, t, hscripted, hbuild⟩ := build_cases hb hn
  · exact .inl ⟨e, hbuild k hk, hbuild l hl⟩
  · exact .inr ⟨_, _, hbuild k hk, hbuild l hl, Client.masked hscripted base _ _⟩

/-- Two keys with spaces around them, on the network of the service behind its retrying layer. -/
theorem key_shows_nowhere_spaces :
    letI := Url.DomainNames.ascii
    let b : Builder Script := {}
    let network : Network → Transport Script := fun _ => Script.transport
    (∀ t ∈ b.transport, Scripted t) ∧ (∀ n, Scripted (network n)) ∧
      Text.isBlank " elanor\n".toList = false ∧ Text.isBlank "mellon".toList = false ∧
      ({ b with apiKey := some " elanor\n" } : Builder Script).description =
        ({ b with apiKey := some "mellon" } : Builder Script).description ∧
      ∃ c d, ({ b with apiKey := some " elanor\n" } : Builder Script).build network Script.pause =
          .ok c ∧
        ({ b with apiKey := some "mellon" } : Builder Script).build network Script.pause = .ok d ∧
        Client.Masked "elanor" "mellon" c d := by
  let names := Url.DomainNames.ascii
  intro b network
  have hb : ∀ t ∈ b.transport, Scripted t := by simp [b]
  have hn : ∀ n, Scripted (network n) := fun _ => .script
  have hk : Text.isBlank " elanor\n".toList = false := by decide
  have hl : Text.isBlank "mellon".toList = false := by decide
  obtain ⟨hdescription, hbuilt⟩ := key_shows_nowhere hb hn hk hl
  refine ⟨hb, hn, hk, hl, hdescription, ?_⟩
  obtain ⟨e, herror, _⟩ | hclients := hbuilt
  · have hcheck : b.network.check = .ok () := by decide +kernel
    have hstack : b.stack network Script.pause =
        .ok (Retry.layer ⟨b.maxRetries, b.delay⟩ Script.pause Script.transport) := by
      unfold stack
      rw [hcheck]
      rfl
    obtain ⟨base, hconnect⟩ := Connection.connect_of_joinable Service.joinable
      (Retry.layer ⟨b.maxRetries, b.delay⟩ Script.pause Script.transport)
    rw [build_with_other_key hstack hk, hconnect] at herror
    cases herror
  · exact hclients

end Builder

end OneApi
