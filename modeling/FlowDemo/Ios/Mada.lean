import FlowDemo.Ios.Tokenized
import FlowDemo.Ios.TokenizationResult

/-!
# Mada cards, end to end on iOS

The views with the SDK's tokenizations, the events they send, the one mounted `CardView` with `handleTokenized` of
`App.tsx` as its handler, and its responses, in any order.

* `Honest`: every event carries the result its request was made for, every response the verdict on it;
* `mada_rejected`: what a callback returns is the policy's decision on the result it was handed.
-/

namespace FlowDemo.Ios.Mada

open Js (Json)

/-- `events` are sent and not heard, `responses` given and not delivered. `requests` keeps the result each request was
made for. -/
structure State (D : Type) where
  tok : Tokenized.State D := {}
  events : List Json := []
  responses : List TokenizedResponse := []
  requests : List (String × TokenizationResult) := []

inductive Event
  | native (e : Tokenized.Event)
  | tokenize (v : ViewId) (requestId : String) (t : TokenizationResult)
  | listen (i : Nat) (screen : Js.App.Screen)
  | respond (response : TokenizedResponse) (order : List (String × List ViewId))

def delivery (response : TokenizedResponse) (order : List (String × List ViewId)) : Tokenized.Event :=
  .ios (.handleTokenizedResponse response.requestId response.accepted response.rejectionMessage order)

namespace State

variable {D : Type}

/-- The SDK hands the result `t` to the callback of `v`, which may send it to JavaScript; only a `CardPayView` does. -/
def tokenize (s : State D) (v : ViewId) (requestId : String) (t : TokenizationResult) : State D :=
  { s with
    tok := s.tok.tokenize v requestId
    events := if s.tok.asks v then s.events ++ [tokenizedEvent requestId t] else s.events
    requests := if s.tok.asks v then s.requests ++ [(requestId, t)] else s.requests }

/-- The listener hears the `i`-th event. -/
def listen (toLowerCase : String → String) (s : State D) (i : Nat) (screen : Js.App.Screen) : State D :=
  { s with
    events := s.events.eraseIdx i
    responses := s.responses ++
      (s.events[i]?.bind fun event => onHandleTokenized (onTokenized toLowerCase screen) (some event)).toList }

end State

variable {D : Type}

/-- The views go their way; tokenization responses come from the listener alone. -/
def machine (toLowerCase : String → String) (Session : Set String) (decode : String → Option D) :
    Machine (State D) Event where
  init := {}
  allowed s e := match e with
    | .native e => (∀ v r, e ≠ .tokenize v r) ∧ (∀ r, e.answer r = none) ∧
        (Tokenized.machine Session decode).allowed s.tok e
    | .tokenize v r _ => (Tokenized.machine Session decode).allowed s.tok (.tokenize v r)
    | .listen i _ => i < s.events.length
    | .respond response order => response ∈ s.responses ∧
        (Tokenized.machine Session decode).allowed s.tok (delivery response order)
  step s e := match e with
    | .native e => { s with tok := (Tokenized.machine Session decode).step s.tok e }
    | .tokenize v r t => s.tokenize v r t
    | .listen i screen => s.listen toLowerCase i screen
    | .respond response order => { s with
        tok := (Tokenized.machine Session decode).step s.tok (delivery response order)
        responses := s.responses.erase response }

variable {toLowerCase : String → String} {Session : Set String} {decode : String → Option D}

def moves : Event → List Tokenized.Event
  | .native e => [e]
  | .tokenize v r _ => [.tokenize v r]
  | .listen _ _ => []
  | .respond response order => [delivery response order]

/-- **The views below**, with JavaScript's responses as theirs. -/
def tokenizations (toLowerCase : String → String) (Session : Set String) (decode : String → Option D) :
    Simulation (machine toLowerCase Session decode) (Tokenized.machine Session decode) where
  rel s t := s.tok = t ∧ t.ios.Inv Session
  moves _ := moves
  init := ⟨rfl, (inv_init : (Ios.machine Session decode).init.Inv Session)⟩
  step s t e h he := by
    obtain ⟨rfl, hinv⟩ := h
    cases e with
    | native e => exact ⟨⟨he.2.2, trivial⟩, rfl, (Tokenized.step_inv hinv he.2.2).1⟩
    | tokenize v r t =>
        exact ⟨⟨he, trivial⟩, rfl, (Tokenized.step_inv (e := .tokenize v r) hinv he).1⟩
    | listen i screen => exact ⟨trivial, rfl, hinv⟩
    | respond response order => exact ⟨⟨he.2, trivial⟩, rfl, (Tokenized.step_inv hinv he.2).1⟩

/-! ## What travels between the views and JavaScript -/

/-- **The events and the responses are what they should be**, and a request id stands for one result. -/
structure Honest (toLowerCase : String → String) (Session : Set String) (s : State D) : Prop where
  inv : s.tok.ios.Inv Session
  issued : ∀ x ∈ s.requests, x.1 ∈ s.tok.ios.issued
  unique : ∀ r t t', (r, t) ∈ s.requests → (r, t') ∈ s.requests → t = t'
  events : ∀ event ∈ s.events, ∃ x ∈ s.requests, event = tokenizedEvent x.1 x.2
  responses : ∀ response ∈ s.responses, ∃ x ∈ s.requests, response = verdict toLowerCase x.1 x.2

theorem honest_init : Honest toLowerCase Session (machine toLowerCase Session decode).init := by
  have hinv : (Ios.machine Session decode).init.Inv Session := inv_init
  constructor
  case inv => exact hinv
  case issued => exact fun x hx => absurd hx List.not_mem_nil
  case unique => exact fun r t t' ht => absurd ht List.not_mem_nil
  case events => exact fun event he => absurd he List.not_mem_nil
  case responses => exact fun response hr => absurd hr List.not_mem_nil

theorem Honest.tokenize {s : State D} (h : Honest toLowerCase Session s) {v : ViewId} {r : String}
    {t : TokenizationResult} (he : (machine toLowerCase Session decode).allowed s (.tokenize v r t)) :
    Honest toLowerCase Session ((machine toLowerCase Session decode).step s (.tokenize v r t)) := by
  have he : (Tokenized.machine Session decode).allowed s.tok (.tokenize v r) := he
  obtain ⟨hinv, hissued⟩ := Tokenized.step_inv h.inv he
  change Honest toLowerCase Session (s.tokenize v r t)
  have hold : ∀ x ∈ s.requests, x.1 ∈ (s.tokenize v r t).tok.ios.issued := fun x hx => hissued (h.issued x hx)
  cases hasks : s.tok.asks v with
  | false =>
      have hevents : (s.tokenize v r t).events = s.events := by simp [State.tokenize, hasks]
      have hrequests : (s.tokenize v r t).requests = s.requests := by simp [State.tokenize, hasks]
      refine ⟨hinv, ?_, ?_, ?_, ?_⟩
      · rw [hrequests]
        exact hold
      · rw [hrequests]
        exact h.unique
      · rw [hevents, hrequests]
        exact h.events
      · rw [hrequests]
        exact h.responses
  | true =>
      have hevents : (s.tokenize v r t).events = s.events ++ [tokenizedEvent r t] := by simp [State.tokenize, hasks]
      have hrequests : (s.tokenize v r t).requests = s.requests ++ [(r, t)] := by simp [State.tokenize, hasks]
      have hnew : r ∈ (s.tokenize v r t).tok.ios.issued := by
        change r ∈ (s.tok.tokenize v r).ios.issued
        simp only [Tokenized.State.tokenize, hasks, if_true]
        exact List.mem_append_right _ (List.mem_singleton_self r)
      have hfresh : ∀ t', (r, t') ∉ s.requests := fun t' ht' => he.2.2.2 (h.issued _ ht')
      have hmem : ∀ x, x ∈ s.requests ++ [(r, t)] ↔ x ∈ s.requests ∨ x = (r, t) := by simp
      refine ⟨hinv, ?_, ?_, ?_, ?_⟩
      · rw [hrequests]
        intro x hx
        rcases (hmem x).mp hx with hx | rfl
        · exact hold x hx
        · exact hnew
      · rw [hrequests]
        intro r' t' t'' ht' ht''
        rcases (hmem _).mp ht' with ht' | heq
        · rcases (hmem _).mp ht'' with ht'' | heq''
          · exact h.unique r' t' t'' ht' ht''
          · rw [(Prod.mk.inj heq'').1] at ht'
            exact absurd ht' (hfresh t')
        · obtain ⟨hr, htt⟩ := Prod.mk.inj heq
          rcases (hmem _).mp ht'' with ht'' | heq''
          · rw [hr] at ht''
            exact absurd ht'' (hfresh t'')
          · exact htt.trans (Prod.mk.inj heq'').2.symm
      · rw [hevents, hrequests]
        intro event hevent
        rcases List.mem_append.mp hevent with hevent | hevent
        · obtain ⟨x, hx, hxe⟩ := h.events event hevent
          exact ⟨x, List.mem_append_left _ hx, hxe⟩
        · exact ⟨(r, t), List.mem_append_right _ (List.mem_singleton_self _), List.mem_singleton.mp hevent⟩
      · rw [hrequests]
        intro response hresponse
        obtain ⟨x, hx, hxr⟩ := h.responses response hresponse
        exact ⟨x, List.mem_append_left _ hx, hxr⟩

/-- The listener responds to an event with the verdict on its result. -/
theorem Honest.listen {s : State D} (h : Honest toLowerCase Session s) (i : Nat) (screen : Js.App.Screen) :
    Honest toLowerCase Session (s.listen toLowerCase i screen) := by
  refine ⟨h.inv, h.issued, h.unique, fun event he => h.events event (List.mem_of_mem_eraseIdx he), ?_⟩
  intro response hresponse
  rcases List.mem_append.mp hresponse with hresponse | hresponse
  · exact h.responses response hresponse
  · obtain ⟨event, hevent, hresp⟩ := Option.bind_eq_some_iff.mp (Option.mem_toList.mp hresponse)
    obtain ⟨x, hx, rfl⟩ := h.events event (List.mem_of_getElem? hevent)
    rw [onHandleTokenized_event] at hresp
    exact ⟨x, hx, (Option.some.inj hresp).symm⟩

theorem honest_step (s : State D) (e : Event) (h : Honest toLowerCase Session s)
    (he : (machine toLowerCase Session decode).allowed s e) :
    Honest toLowerCase Session ((machine toLowerCase Session decode).step s e) := by
  cases e with
  | native e =>
      obtain ⟨hinv, hissued⟩ := Tokenized.step_inv h.inv he.2.2
      exact ⟨hinv, fun x hx => hissued (h.issued x hx), h.unique, h.events, h.responses⟩
  | tokenize v r t => exact h.tokenize he
  | listen i screen => exact h.listen i screen
  | respond response order =>
      obtain ⟨hinv, hissued⟩ := Tokenized.step_inv h.inv he.2
      exact ⟨hinv, fun x hx => hissued (h.issued x hx), h.unique, h.events,
        fun response' hr => h.responses response' (List.mem_of_mem_erase hr)⟩

def decision (toLowerCase : String → String) (t : TokenizationResult) : CallbackResult :=
  if t.mada toLowerCase then .rejected (some "Mada cards are not supported.") else .accepted

theorem tokenizedResult_verdict (r : String) (t : TokenizationResult) :
    tokenizedResult (verdict toLowerCase r t).accepted (verdict toLowerCase r t).rejectionMessage =
      decision toLowerCase t := by
  unfold verdict decision
  cases t.mada toLowerCase with
  | true => rfl
  | false => rfl

/-- **The first answer to a request is the decision on its result.** -/
theorem firstAnswer_trace {s : State D} (h : Honest toLowerCase Session s) {r : String} {t : TokenizationResult}
    (ht : (r, t) ∈ s.requests) {es : List Event} (hes : (machine toLowerCase Session decode).Admits s es) :
    ∀ answer ∈ Tokenized.firstAnswer r ((tokenizations toLowerCase Session decode).trace s es),
      tokenizedResult answer.1 answer.2 = decision toLowerCase t := by
  induction es generalizing s with
  | nil => exact nofun
  | cons e es ih =>
      have hrequests : (r, t) ∈ ((machine toLowerCase Session decode).step s e).requests := by
        cases e with
        | native e => exact ht
        | tokenize v r' t' =>
            change (r, t) ∈ if s.tok.asks v then s.requests ++ [(r', t')] else s.requests
            split
            · exact List.mem_append_left _ ht
            · exact ht
        | listen i screen => exact ht
        | respond response order => exact ht
      have hrest := ih (honest_step s e h hes.1) hrequests hes.2
      have hmoves : (tokenizations toLowerCase Session decode).moves s e = moves e := rfl
      rw [Simulation.trace, hmoves]
      cases e with
      | native e =>
          rw [moves, List.singleton_append, Tokenized.firstAnswer, hes.1.2.1 r, Option.none_or]
          exact hrest
      | tokenize v r' t' => exact hrest
      | listen i screen => exact hrest
      | respond response order =>
          rw [moves, List.singleton_append, Tokenized.firstAnswer, delivery, Tokenized.Event.answer]
          by_cases hr : response.requestId = r
          · rw [if_pos hr, Option.some_or]
            intro answer hanswer
            obtain rfl := Option.some.inj hanswer
            obtain ⟨⟨r', t'⟩, hx', hverdict⟩ := h.responses response hes.1.1
            have hid : (verdict toLowerCase r' t').requestId = r' := by
              unfold verdict
              split <;> rfl
            rw [hverdict, hid] at hr
            subst hr
            obtain rfl := h.unique r' t t' ht hx'
            rw [hverdict]
            exact tokenizedResult_verdict r' t
          · rw [if_neg hr, Option.none_or]
            exact hrest

/-- **Mada cards are rejected, all others accepted**: whatever the callback of a mounted `CardPayView` has returned to
the SDK is the policy's decision on the result it was handed. -/
theorem mada_rejected (toLowerCase : String → String) (Session : Set String) (decode : String → Option D)
    (pre post : List Event) (v : ViewId) (r : String) (t : TokenizationResult)
    (h : (machine toLowerCase Session decode).Admits (machine toLowerCase Session decode).init
      (pre ++ .tokenize v r t :: post))
    (hcard : (((machine toLowerCase Session decode).run
      (machine toLowerCase Session decode).init pre).tok.ios.view v).viewClass = .card)
    (hmounted : ((machine toLowerCase Session decode).run
      (machine toLowerCase Session decode).init pre).tok.ios.Live v)
    (hinit : ((machine toLowerCase Session decode).run
      (machine toLowerCase Session decode).init pre).tok.initializedWith v = true)
    (hlistens : ((machine toLowerCase Session decode).run
      (machine toLowerCase Session decode).init pre).tok.hasOnTokenizedListener v = true) :
    ∀ x ∈ ((machine toLowerCase Session decode).run (machine toLowerCase Session decode).init
        (pre ++ .tokenize v r t :: post)).tok.returned
        ((machine toLowerCase Session decode).run (machine toLowerCase Session decode).init pre).tok.calls.length,
      (t.Mada toLowerCase → x = .rejected (some "Mada cards are not supported.")) ∧
        (¬ t.Mada toLowerCase → x = .accepted) := by
  obtain ⟨hpre, he, hpost⟩ := (Machine.admits_append _ _ _ _).mp h
  have hhonest : Honest toLowerCase Session ((machine toLowerCase Session decode).run
      (machine toLowerCase Session decode).init pre) := Machine.run_induction honest_step honest_init hpre
  obtain ⟨hadm, hrel, -⟩ := (tokenizations toLowerCase Session decode).run_rel
    (tokenizations toLowerCase Session decode).init h
  obtain ⟨-, hrelpre, -⟩ := (tokenizations toLowerCase Session decode).run_rel
    (tokenizations toLowerCase Session decode).init hpre
  generalize hs : (machine toLowerCase Session decode).run (machine toLowerCase Session decode).init pre = s at *
  have hasks : s.tok.asks v = true := by
    rw [Tokenized.asks_iff, Tokenized.State.callback, hinit, hcard]
    exact ⟨rfl, hmounted, hlistens⟩
  have hmoves : (tokenizations toLowerCase Session decode).moves s (.tokenize v r t) = [.tokenize v r] := rfl
  rw [Simulation.trace_append, Simulation.trace, hs, hmoves, List.singleton_append] at hadm hrel
  rw [hrelpre] at hasks
  have hreturned := Tokenized.decides_by_answer hadm hasks
  rw [← hrel, ← hrelpre] at hreturned
  rw [hreturned]
  have hin : (r, t) ∈ ((machine toLowerCase Session decode).step s (.tokenize v r t)).requests := by
    have hasks : s.tok.asks v = true := by rwa [hrelpre]
    change (r, t) ∈ if s.tok.asks v then s.requests ++ [(r, t)] else s.requests
    rw [hasks]
    exact List.mem_append_right _ (List.mem_singleton_self _)
  intro x hx
  obtain ⟨answer, hanswer, rfl⟩ := Option.map_eq_some_iff.mp (Option.mem_toList.mp hx)
  have hdecision := firstAnswer_trace (honest_step s _ hhonest he) hin hpost answer hanswer
  rw [hdecision, decision, ← mada_iff]
  cases t.mada toLowerCase with
  | true => exact ⟨fun _ => rfl, fun h => absurd rfl h⟩
  | false => exact ⟨fun h => absurd h Bool.false_ne_true, fun _ => rfl⟩

deriving instance DecidableEq for CallbackResult

def sampleLower (s : String) : String :=
  if s = "MADA" then "mada" else if s = "VISA" ∨ s = "Visa" then "visa" else s

/-- Two results for one card view: a Mada card by its metadata, and another one whose answer comes first. -/
def sampleMada : TokenizationResult where
  data := { token := "tok_1", type := "card", expiresOn := "2030-01-01", expiryMonth := 1, expiryYear := 2030,
            last4 := "4242", bin := "424242", schemeLocal := some "Visa" }
  cardMetadata := some { bin := "424242", scheme := "visa", localSchemes := some ["VISA", "MADA"] }

def sampleVisa : TokenizationResult where
  data := { token := "tok_2", type := "card", expiresOn := "2030-01-01", expiryMonth := 1, expiryYear := 2030,
            last4 := "1111", bin := "411111", scheme := some "visa" }

def sampleRest : List Event :=
  [.tokenize 0 "req-2" sampleVisa, .listen 1 {}, .respond ⟨"req-2", true, none⟩ [("ps_1", [0])], .listen 0 {},
    .respond ⟨"req-1", false, some "Mada cards are not supported."⟩ [("ps_1", [0])]]

theorem mada_rejected_sample :
    let M := machine (D := Unit) sampleLower {"ps_1"} fun _ => none
    let view := (Tokenized.sampleView .card).map Event.native
    let s := M.run M.init (view ++ .tokenize 0 "req-1" sampleMada :: sampleRest)
    s.tok.returned 0 = [.rejected (some "Mada cards are not supported.")] ∧ s.tok.returned 1 = [.accepted] ∧
      ∀ x ∈ s.tok.returned 0,
        (sampleMada.Mada sampleLower → x = .rejected (some "Mada cards are not supported.")) ∧
          (¬ sampleMada.Mada sampleLower → x = .accepted) := by
  intro M view s
  have hfresh : ∀ {r : String}, r ≠ "ps_1" → r ∉ ({"ps_1"} : Set String) := fun hne h => hne h
  have hlisten : ∀ {s : State Unit} {i : Nat} {screen : Js.App.Screen}, i < s.events.length →
      M.allowed s (.listen i screen) := fun h => h
  have horder : ∀ {s : Ios.State Unit} {order : List (String × List ViewId)}, order = s.sweep.views.entries →
      order.Perm s.sweep.views.entries := fun h => List.Perm.of_eq h
  have hadm : M.Admits M.init (view ++ .tokenize 0 "req-1" sampleMada :: sampleRest) := by
    refine ⟨⟨nofun, fun _ => rfl, nofun, rfl⟩, ⟨nofun, fun _ => rfl, rfl⟩,
      ⟨nofun, fun _ => rfl, nofun, rfl, Property.session_mem rfl⟩,
      ⟨nofun, fun _ => rfl, nofun, rfl, nofun⟩, ⟨nofun, fun _ => rfl, nofun, rfl, nofun⟩,
      ⟨nofun, fun _ => rfl, nofun, List.mem_singleton_self _⟩, ⟨nofun, fun _ => rfl, nofun, List.mem_singleton_self _⟩,
      ⟨by decide, by decide, hfresh (by decide), by decide⟩, ⟨by decide, by decide, hfresh (by decide), by decide⟩,
      hlisten (by decide), ⟨by decide, nofun, horder (by decide)⟩, hlisten (by decide),
      ⟨by decide, nofun, horder (by decide)⟩, trivial⟩
  exact ⟨by decide, by decide, mada_rejected _ _ _ view sampleRest 0 "req-1" sampleMada hadm rfl rfl rfl rfl⟩

end FlowDemo.Ios.Mada
