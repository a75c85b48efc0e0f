import FlowDemo.Ios.Bridge
import FlowDemo.Js.Submission

/-!
# A submission, end to end on iOS

The views with the SDK's submissions, and the events, the `POST`s and the responses in JavaScript's hands, in any order.
The views ask, and JavaScript works.

* `given_iff`: what the SDK is given for an answer;
* `submission_stands`: where every submission of every run is, and what its call was resumed with.
-/

namespace FlowDemo.Ios.Submission

open Js (Json JsonText)
open Js.Submission (Answer Answers Approved HandsOver Refuses Stage worker)

/-- What the `onHandleSubmit` listener of `CardView.tsx` takes off an event, unless it is of another component. -/
def onHandleSubmit (lowercased : String → String) : NativeEvent → Option (String × Js.SessionData)
  | .handleSubmit component requestId id secret sessionData =>
      if component.text lowercased ≠ "card" then none else some (requestId, ⟨id, secret, some sessionData⟩)
  | _ => none

/-- An object as the module is handed it: `undefined` members are not transported. -/
def toNSDictionary (o : Js.Object) : List (String × Json) := o.filterMap fun e => e.2.map (e.1, ·)

/-! ## The asking end -/

variable {D : Type}

/-- The request of a step: the event of a submission, as the listener will hear it. -/
def asks (lowercased : String → String) (s : Ios.State D) : Ios.Event → Option (String × Js.SessionData)
  | .bridgeHandleSubmit v id secret sessionData r =>
      onHandleSubmit lowercased (.handleSubmit (s.view v).requestComponent r id secret sessionData)
  | _ => none

def delivery (a : Answer) (order : List (String × List ViewId)) : Ios.Event :=
  .handleSubmitResponse a.response.requestId a.response.success (some (toNSDictionary a.response.data)) order

theorem asks_eq (lowercased : String → String) (s : Ios.State D) (v : ViewId) (id secret sessionData r : String) :
    asks lowercased s (.bridgeHandleSubmit v id secret sessionData r) =
      if (s.view v).requestComponent.text lowercased = "card" then some (r, ⟨id, secret, some sessionData⟩)
      else none := by
  unfold asks onHandleSubmit
  by_cases h : (s.view v).requestComponent.text lowercased = "card" <;> simp [h]

theorem request_of_asks {lowercased : String → String} {s : Ios.State D} {e : Ios.Event} {r : String}
    {q : Js.SessionData} (h : asks lowercased s e = some (r, q)) : ∃ v, e.request = some (.submit, v, r) := by
  cases e with
  | bridgeHandleSubmit v id secret sessionData k =>
      rw [asks_eq] at h
      split at h
      · obtain ⟨rfl, -⟩ := Prod.mk.inj (Option.some.inj h)
        exact ⟨v, rfl⟩
      · cases h
  | _ => cases h

/-- **The views ask JavaScript**; only its responses answer a submission. -/
def asker (lowercased : String → String) (Session : Set String) (decode : String → Option D) :
    Relay.Asker (Ios.machine Session decode) String Js.SessionData Answer (List (String × List ViewId)) where
  asks := asks lowercased
  arrival := delivery
  Ready s order := order.Perm s.sweep.views.entries
  Own e := ∀ r success data order, e ≠ .handleSubmitResponse r success data order
  Inv := State.Inv Session
  Known s r := r ∈ s.issued
  init := inv_init
  step := inv_step
  allowed_arrival _ _ _ h := h
  known_step _ _ _ hinv he hr := issued_step he hinv hr
  fresh s e r q _ he hasks := by
    obtain ⟨v, hq⟩ := request_of_asks hasks
    obtain ⟨hask, hs, -⟩ := request_effect hq he
    refine ⟨hask.notIssued, ?_⟩
    rw [hs.issued]
    exact List.mem_append_right _ (List.mem_singleton_self r)

abbrev State (D : Type) := Relay.Ends (Ios.State D) Js.Submission.State

abbrev Event := Relay.Ends.Event Ios.Event Js.Submission.Event String (List (String × List ViewId))

def machine (J : JsonText) (lowercased : String → String) (Session : Set String) (decode : String → Option D) :
    Machine (State D) Event := Relay.ends (asker lowercased Session decode) (worker J)

/-! ## What the SDK is given -/

section

variable {J : JsonText} {lowercased : String → String} {Session : Set String} {decode : String → Option D}

def given (decode : String → Option D) (a : Answer) : APICallResult D :=
  submissionResult decode a.response.success (some (toNSDictionary a.response.data))

/-- **The SDK is given a success** exactly for the answers that are approved and whose document decodes; it is given
what that decodes to. -/
theorem given_iff {r : String} {q : Js.SessionData} {a : Answer} (h : Answers J r q a) (d : D) :
    given decode a = .success d ↔ ∃ doc, Approved J a doc ∧ decode (J.stringify doc) = some d := by
  unfold given
  rw [submissionResult_eq_success_iff]
  rcases h.cases with ⟨doc, happ, hands⟩ | ⟨hnone, hrefuses⟩
  · obtain ⟨rest, hdata⟩ := hands.data
    have hunique : ∀ doc', Approved J a doc' → doc' = doc := by
      obtain ⟨status, body, hreply, hdoc, -⟩ := happ
      rintro _ ⟨status', body', hreply', rfl, -⟩
      rw [hreply] at hreply'
      obtain ⟨-, rfl⟩ := Js.App.Reply.response.inj (Option.some.inj hreply')
      exact hdoc
    rw [hands.success, hdata]
    simp only [toNSDictionary, List.filterMap_cons, Option.map_some, Option.bind_some, List.lookup_cons_self,
      true_and, Option.some.injEq, Json.str.injEq, exists_eq_left']
    constructor
    · exact fun hd => ⟨doc, happ, hd⟩
    · rintro ⟨doc', happ', hd⟩
      obtain rfl := hunique doc' happ'
      exact hd
  · refine iff_of_false ?_ ?_
    · rw [hrefuses.success]
      exact fun hs => Bool.false_ne_true hs.1
    · rintro ⟨doc, happ, -⟩
      exact hnone doc happ

/-- **The first response to a request is the answer delivered for it.** -/
theorem readsFirst (r : String) : Relay.ReadsFirst (asker lowercased Session decode) (worker J) r
    (fun a => .submit (given decode a)) (firstResponse decode .submit r) where
  nil := rfl
  own e es he := by
    cases e with
    | handleSubmitResponse r success data order => exact absurd rfl (he r success data order)
    | handleTokenizedResponse requestId accepted message order =>
        simp [firstResponse, Ios.Event.response, Result.channel]
    | _ => rfl
  arrival a order es := by
    change (if Channel.submit = .submit ∧ a.response.requestId = r then _ else _) = _
    by_cases hr : a.response.requestId = r
    · exact (if_pos ⟨rfl, hr⟩).trans (if_pos hr).symm
    · exact (if_neg fun hc => hr hc.2).trans (if_neg hr).symm

/-! ## Where a submission stands -/

/-- **Every submission of a card stands where its own messages are**, however the views, the components, the events, the
backend and the responses interleave. It is posted once for each component that is mounted when its event arrives, and
its call is resumed once, with what comes of the first of these to be answered; without one, it never is. -/
theorem submission_stands (J : JsonText) (lowercased : String → String) (Session : Set String)
    (decode : String → Option D) (pre post : List Event) (v : ViewId) (id secret sessionData r : String)
    (h : (machine J lowercased Session decode).Admits (machine J lowercased Session decode).init
      (pre ++ .asker (.bridgeHandleSubmit v id secret sessionData r) :: post))
    (hcard : (((machine J lowercased Session decode).run
      (machine J lowercased Session decode).init pre).asker.view v).requestComponent.text lowercased = "card") :
    let M := machine J lowercased Session decode
    let s₀ := M.run M.init pre
    let s := M.run M.init (pre ++ .asker (.bridgeHandleSubmit v id secret sessionData r) :: post)
    let q : Js.SessionData := ⟨id, secret, some sessionData⟩
    Stage J s.worker r q (s.worker.traffic.heard.lookup r) ∧
      (.worker (.listen r) ∉ post → s.worker.traffic.heard.lookup r = none) ∧
      (∀ mid rest, post = mid ++ .worker (.listen r) :: rest →
        s.worker.traffic.heard.lookup r = some (M.run M.init
          (pre ++ .asker (.bridgeHandleSubmit v id secret sessionData r) :: mid)).worker.mounted.length) ∧
      resumptions s.asker s₀.asker.calls =
        ((s.worker.answerTo r).map fun a => Result.submit (given decode a)).toList ∧
      (s.worker.traffic.hearers r = 0 → resumptions s.asker s₀.asker.calls = []) ∧
      ∀ a, Answers J r q a →
        ((∃ doc, Approved J a doc ∧ HandsOver J a doc) ∨ (∀ doc, ¬ Approved J a doc) ∧ Refuses a) ∧
        ∀ d, given decode a = .success d ↔ ∃ doc, Approved J a doc ∧ decode (J.stringify doc) = some d := by
  intro M s₀ s q
  let request : Ios.Event := .bridgeHandleSubmit v id secret sessionData r
  let views := Relay.asking (asker lowercased Session decode) (worker J)
  have hm : Relay.Marked (asker lowercased Session decode) (worker J) pre request post := Relay.marked h
  have hs : s = M.run (M.step s₀ (.asker request)) post := hm.run_eq
  -- the request is asked, and was not answered before
  have hasks : asks lowercased s₀.asker request = some (r, q) := by
    rw [asks_eq, if_pos hcard]
  have hasked : (r, q) ∈ s.worker.traffic.asked := by
    rw [hs]
    exact Relay.asked_run hm.rest (Relay.asked_of_asks (W := worker J) hasks)
  have hunasked : ∀ q', (r, q') ∉ s₀.worker.traffic.asked :=
    fun q' hq' => hm.allowed.2.notIssued (hm.before.known _ hq')
  have hnew : Relay.Ends.answer (worker J) s₀ r = none := hm.before.answer_eq_none hunasked
  have hrequest : MakesRequest Session decode (views.trace M.init (pre ++ .asker request :: post)) .submit v r
      s₀.asker.calls (views.trace (M.step s₀ (.asker request)) post) :=
    ⟨_, _, hm.trace_eq, rfl, congrArg Ios.State.calls hm.asker_before⟩
  have hfirst : firstResponse decode .submit r (views.trace (M.step s₀ (.asker request)) post) =
      (s.worker.answerTo r).map fun a => .submit (given decode a) := by
    rw [hs]
    exact Relay.first_trace (readsFirst r) hm.after ((Relay.answer_asker _ _ r).trans hnew) hm.rest
  have hout := outcome_of_request hm.asker_admits hrequest
  have hrel : s.asker = _ := hm.asker_final
  rw [hfirst, ← hrel] at hout
  have hresumed : resumptions s.asker s₀.asker.calls =
      ((s.worker.answerTo r).map fun a => Result.submit (given decode a)).toList := by
    cases ho : s.worker.answerTo r with
    | none =>
        rw [ho] at hout
        exact hout.1
    | some a =>
        rw [ho] at hout
        exact hout.1
  have hheard := hm.heard hunasked
  refine ⟨hm.final.worker.stage hasked, hheard.1, hheard.2, hresumed, fun hzero => ?_,
    fun a ha => ⟨ha.cases, given_iff ha⟩⟩
  rw [hresumed, show s.worker.answerTo r = none from hm.final.worker.sound.lookup_delivered hzero]
  rfl

end

def cardMounted : List Event :=
  [.asker (.create 0 .card), .asker (.setProperty 0 (.paymentSessionID (some "ps_1"))), .worker (.mount 0)]

/-- It sends two submissions. The second is heard and replied to first, and declined; the first is heard by two
components, and one of them has its reply. -/
def twoSubmissions : List Event :=
  [.asker (.bridgeHandleSubmit 0 "ps_1" "secret" "raw-2" "req-2"), .worker (.listen "req-2"), .worker (.mount 1),
    .worker (.listen "req-1"), .worker (.reply "req-2" (.response 402 "declined")),
    .worker (.reply "req-1" (.response 200 "approved")), .arrive "req-2" [("ps_1", [0])],
    .arrive "req-1" [("ps_1", [0])]]

def oneSession : Machine (State String) Event := machine Js.App.sampleJson String.toLower {"ps_1"} some

theorem twoSubmissions_admits :
    oneSession.Admits oneSession.init
      (cardMounted ++ .asker (.bridgeHandleSubmit 0 "ps_1" "secret" "raw-1" "req-1") :: twoSubmissions) := by
  have hreq : ∀ {r : String}, r ≠ "ps_1" → r ∉ ({"ps_1"} : Set String) := fun hne h => hne h
  have hsome : ∀ {α : Type} {o : Option α}, o.isSome = true → ∃ x, o = some x := Option.isSome_iff_exists.mp
  have horder : ∀ {s : Ios.State String} {order : List (String × List ViewId)},
      order.Perm s.sweep.views.entries → (asker String.toLower {"ps_1"} some).Ready s order := fun h => h
  refine ⟨⟨nofun, rfl⟩, ⟨nofun, rfl, Property.session_mem rfl⟩, ⟨⟨nofun, nofun⟩, List.not_mem_nil⟩,
    ⟨nofun, rfl, by decide, hreq (by decide), by decide⟩, ?_⟩
  refine ⟨⟨nofun, rfl, by decide +kernel, hreq (by decide), by decide +kernel⟩, ?_⟩
  -- the events are heard, the later one first, and each is replied to
  refine ⟨⟨⟨nofun, nofun⟩, ?_⟩, ?_⟩
  · exact hsome (by decide +kernel)
  refine ⟨⟨⟨nofun, nofun⟩, ?_⟩, ?_⟩
  · change 1 ∉ Js.Submission.State.mounted _
    decide +kernel
  refine ⟨⟨⟨nofun, nofun⟩, ?_⟩, ?_⟩
  · exact hsome (by decide +kernel)
  refine ⟨⟨⟨nofun, nofun⟩, ?_⟩, ?_⟩
  · exact hsome (by decide +kernel)
  refine ⟨⟨⟨nofun, nofun⟩, ?_⟩, ?_⟩
  · exact hsome (by decide +kernel)
  -- the responses
  refine ⟨⟨hsome ?_, horder ?_⟩, ?_⟩
  · decide +kernel
  · decide +kernel
  refine ⟨⟨hsome ?_, horder ?_⟩, ?_⟩
  · decide +kernel
  · decide +kernel
  trivial

theorem submission_stands_two :
    let s := oneSession.run oneSession.init
      (cardMounted ++ .asker (.bridgeHandleSubmit 0 "ps_1" "secret" "raw-1" "req-1") :: twoSubmissions)
    Stage Js.App.sampleJson s.worker "req-1" ⟨"ps_1", "secret", some "raw-1"⟩
        (s.worker.traffic.heard.lookup "req-1") ∧
      s.worker.traffic.heard.lookup "req-1" = some 2 ∧
      resumptions s.asker (oneSession.run oneSession.init cardMounted).asker.calls =
        ((s.worker.answerTo "req-1").map fun a => Result.submit (given some a)).toList ∧
      (s.worker.answerTo "req-1").isSome = true ∧ s.worker.posts.map Prod.fst = ["req-2", "req-1", "req-1"] := by
  have h := submission_stands Js.App.sampleJson String.toLower {"ps_1"} some cardMounted twoSubmissions 0 "ps_1"
    "secret" "raw-1" "req-1" twoSubmissions_admits (by decide +kernel)
  exact ⟨h.1, h.2.2.1 (twoSubmissions.take 3) (twoSubmissions.drop 4) rfl, h.2.2.2.1, by decide +kernel,
    by decide +kernel⟩

end FlowDemo.Ios.Submission
