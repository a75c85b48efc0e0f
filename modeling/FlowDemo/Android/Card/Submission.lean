import FlowDemo.Android.Card.Outcome
import FlowDemo.Js.Submission

/-!
# A submission, end to end on Android

The card views, one map update at a time, and the events, the `POST`s and the responses in JavaScript's hands, in any
order. The views ask, and JavaScript works. An event that the bridge does not deliver is lost, and its call waits for
good.

* `Emits`, `Carries`: what is known of a call and its event;
* `given_iff`: what the SDK is given for an answer;
* `handled_submission_stands`: where every submission of every run is, and what its call was resumed with.
-/

namespace FlowDemo.Android.Card.Submission

open Js (Json JsonText)
open Js.Submission (Answer Answers Approved HandsOver Refuses Stage worker)
open Interleaving (Call Outcome)

/-- What the `onCardHandleSubmit` listener of `CardView.tsx` takes off an event. -/
def onCardHandleSubmit (event : SubmitEvent) : String × Js.SessionData :=
  (event.requestId, ⟨event.sessionData.id, event.sessionData.secret, event.sessionData.sessionData⟩)

section

variable {J : JsonText} {Session : Set String}

/-! ## The events of the views -/

def emission : Interleaving.Event → List SubmitEvent
  | .register call emits => if emits then [⟨call.requestId, call.sessionData⟩] else []
  | _ => []

theorem initializeView_emitted (c : Card.State) (v : ViewId) (id secret key : String) (activity : Bool) :
    (c.initializeView v id secret key activity).emitted = c.emitted := by
  unfold Card.State.initializeView
  split
  · rfl
  · cases activity <;> rfl

theorem finishCreation_emitted (c : Card.State) (x : Creation) (created : Bool) :
    (c.finishCreation x created).emitted = c.emitted := by cases created <;> rfl

theorem takeContinuation_emitted (c : Card.State) (v : ViewId) (r : String) (success : Bool)
    (data : Option ReadableMap) : (c.takeContinuation v r success data).1.emitted = c.emitted := by
  unfold Card.State.takeContinuation
  split
  · rfl
  · split <;> rfl

theorem emitted_step (s : Interleaving.State) (e : Interleaving.Event) :
    ((Interleaving.machine Session).step s e).card.emitted = s.card.emitted ++ emission e := by
  have hsame : ∀ {l : List SubmitEvent}, l = s.card.emitted → l = s.card.emitted ++ [] :=
    fun h => h.trans (List.append_nil _).symm
  cases e with
  | initializeView v id secret key activity => exact hsame (initializeView_emitted _ _ _ _ _ _)
  | finishCreation c created => exact hsame (finishCreation_emitted _ _ _)
  | store v raw r =>
      refine hsame ?_
      change (s.store v raw r).card.emitted = _
      unfold Interleaving.State.store
      split <;> rfl
  | register call emits =>
      cases emits with
      | true => rfl
      | false => exact hsame rfl
  | lookup r success data => exact hsame (congrArg Card.State.emitted (s.lookup_card r success data).1)
  | unregister =>
      refine hsame ?_
      change s.unregister.card.emitted = _
      unfold Interleaving.State.unregister
      split <;> rfl
  | resume =>
      refine hsame ?_
      change s.resume.card.emitted = _
      unfold Interleaving.State.resume
      split
      · rfl
      · exact takeContinuation_emitted _ _ _ _ _

/-- A call that is storing was so before, and is not the one that registered, or it has just been made under a fresh
id. -/
theorem mem_storing_step {s : Interleaving.State} {e : Interleaving.Event}
    (he : (Interleaving.machine Session).allowed s e) {call : Call}
    (hcall : call ∈ ((Interleaving.machine Session).step s e).storing) :
    (call ∈ s.storing ∧ ∀ other emits, e = .register other emits → call.requestId ≠ other.requestId) ∨
      s.card.FreshId Session call.requestId := by
  cases e with
  | initializeView v id secret key activity => exact Or.inl ⟨hcall, nofun⟩
  | finishCreation c created => exact Or.inl ⟨hcall, nofun⟩
  | store v raw r =>
      change call ∈ (s.store v raw r).storing at hcall
      cases hbase : (s.card.view v).currentSessionData with
      | none =>
          rw [s.store_of_none hbase] at hcall
          exact Or.inl ⟨hcall, nofun⟩
      | some base =>
          rw [s.store_of_some hbase] at hcall
          rcases List.mem_append.mp hcall with hcall | hcall
          · exact Or.inl ⟨hcall, nofun⟩
          · rw [List.mem_singleton.mp hcall]
            exact Or.inr he
  | register other emits =>
      obtain ⟨hmem, hne⟩ := (s.mem_register_storing other emits call).mp hcall
      refine Or.inl ⟨hmem, ?_⟩
      rintro _ _ heq
      obtain ⟨rfl, -⟩ := Interleaving.Event.register.inj heq
      exact hne
  | lookup r success data => exact Or.inl ⟨(s.lookup_card r success data).2 ▸ hcall, nofun⟩
  | unregister =>
      obtain ⟨p, hp, -⟩ := he
      refine Or.inl ⟨?_, nofun⟩
      change call ∈ s.unregister.storing at hcall
      rw [Interleaving.State.unregister_of_answering hp] at hcall
      exact hcall
  | resume =>
      obtain ⟨p, hp, -⟩ := he
      refine Or.inl ⟨?_, nofun⟩
      change call ∈ s.resume.storing at hcall
      rw [Interleaving.State.resume_of_answering hp] at hcall
      exact hcall

/-- An event emitted is one of a call that has registered its view. -/
def Emits (s : Interleaving.State) : Prop :=
  ∀ event ∈ s.card.emitted, event.requestId ∈ s.card.issued ∧ ∀ call ∈ s.storing, call.requestId ≠ event.requestId

theorem emits_step (s : Interleaving.State) (e : Interleaving.Event) (hinv : Interleaving.Inv Session s) (h : Emits s)
    (he : (Interleaving.machine Session).allowed s e) : Emits ((Interleaving.machine Session).step s e) := by
  intro event hevent
  rw [emitted_step] at hevent
  have hknown := (Interleaving.known_step Session s e).1
  rcases List.mem_append.mp hevent with hevent | hevent
  · obtain ⟨hissued, hstoring⟩ := h event hevent
    refine ⟨hknown _ hissued, fun call hcall => ?_⟩
    rcases mem_storing_step he hcall with ⟨hmem, -⟩ | hfresh
    · exact hstoring call hmem
    · exact fun heq => hfresh.2 (heq ▸ hissued)
  · cases e with
    | register other emits =>
        cases emits with
        | false => cases hevent
        | true =>
            obtain rfl := List.mem_singleton.mp hevent
            have hissued := (hinv.known _ _ _ (hinv.storing other he).1).1
            refine ⟨hknown _ hissued, fun call hcall => ?_⟩
            rcases mem_storing_step he hcall with ⟨-, hne⟩ | hfresh
            · exact hne other true rfl
            · exact fun heq => hfresh.2 (heq ▸ hissued)
    | _ => cases hevent

/-- **The request `r` carries `d`**: so does its call, and so does its event. -/
structure Carries (s : Interleaving.State) (r : String) (d : SessionData) : Prop where
  issued : r ∈ s.card.issued
  storing : ∀ call ∈ s.storing, call.requestId = r → call.sessionData = d
  emitted : ∀ event ∈ s.card.emitted, event.requestId = r → event.sessionData = d

theorem carries_step {r : String} {d : SessionData} (s : Interleaving.State) (e : Interleaving.Event)
    (h : Carries s r d) (he : (Interleaving.machine Session).allowed s e) :
    Carries ((Interleaving.machine Session).step s e) r d := by
  refine ⟨(Interleaving.known_step Session s e).1 r h.issued, fun call hcall hr => ?_, fun event hevent hr => ?_⟩
  · rcases mem_storing_step he hcall with ⟨hmem, -⟩ | hfresh
    · exact h.storing call hmem hr
    · exact absurd (hr ▸ h.issued) hfresh.2
  · rw [emitted_step] at hevent
    rcases List.mem_append.mp hevent with hevent | hevent
    · exact h.emitted event hevent hr
    · cases e with
      | register other emits =>
          cases emits with
          | false => cases hevent
          | true =>
              obtain rfl := List.mem_singleton.mp hevent
              exact h.storing other he hr
      | _ => cases hevent

theorem carries_store {s : Interleaving.State} (hinv : Interleaving.Inv Session s) (hemits : Emits s) {v : ViewId}
    {raw r : String} {base : SessionData} (hbase : (s.card.view v).currentSessionData = some base)
    (hr : s.card.FreshId Session r) : Carries (s.store v raw r) r { base with sessionData := some raw } := by
  rw [s.store_of_some hbase]
  refine ⟨List.mem_append_right _ (List.mem_singleton_self r), fun call hcall heq => ?_, fun event hevent heq => ?_⟩
  · rcases List.mem_append.mp hcall with hcall | hcall
    · obtain ⟨hpending, -⟩ := hinv.storing call hcall
      exact absurd (heq ▸ (hinv.known _ _ _ hpending).1) hr.2
    · rw [List.mem_singleton.mp hcall]
  · exact absurd (heq ▸ (hemits event hevent).1) hr.2

/-! ## The asking end -/

def asks (e : Interleaving.Event) : Option (String × Js.SessionData) := (emission e).head?.map onCardHandleSubmit

/-- A response as the native module reads it. -/
def nativeAnswer (a : Answer) : Interleaving.Answer := (a.response.success, some (toReadableMap a.response.data))

def arrival (a : Answer) : Interleaving.Event :=
  .lookup a.response.requestId (nativeAnswer a).1 (nativeAnswer a).2

/-- A step that asks emits one event, under an id that none was emitted under. -/
theorem emission_of_asks {e : Interleaving.Event} {r : String} {q : Js.SessionData} (h : asks e = some (r, q)) :
    ∃ call, e = .register call true ∧ onCardHandleSubmit ⟨call.requestId, call.sessionData⟩ = (r, q) := by
  cases e with
  | register call emits =>
      cases emits with
      | true => exact ⟨call, rfl, Option.some.inj h⟩
      | false => cases h
  | _ => cases h

/-- **The views ask JavaScript**, and look up its responses, one at a time. -/
def asker (Session : Set String) : Relay.Asker (Interleaving.machine Session) String Js.SessionData Answer Unit where
  asks _ := asks
  arrival a _ := arrival a
  Ready s _ := s.answering = none
  Own e := ∀ r success data, e ≠ .lookup r success data
  Inv s := Interleaving.Inv Session s ∧ Emits s
  Known s r := ∃ event ∈ s.card.emitted, event.requestId = r
  init := ⟨Interleaving.inv_init Session, fun _ hevent => absurd hevent List.not_mem_nil⟩
  step s e h he := ⟨Interleaving.inv_step s e h.1 he, emits_step s e h.1 h.2 he⟩
  allowed_arrival _ _ _ h := h
  known_step s e r _ _ hr := by
    obtain ⟨event, hevent, rfl⟩ := hr
    refine ⟨event, ?_, rfl⟩
    rw [emitted_step]
    exact List.mem_append_left _ hevent
  fresh s e r q h he hasks := by
    obtain ⟨call, rfl, hcall⟩ := emission_of_asks hasks
    have hid : call.requestId = r := congrArg Prod.fst hcall
    refine ⟨?_, ⟨call.requestId, call.sessionData⟩, ?_, hid⟩
    · rintro ⟨event, hevent, hr⟩
      exact (h.2 event hevent).2 call he (hid.trans hr.symm)
    · rw [emitted_step]
      exact List.mem_append_right _ (List.mem_singleton_self _)

abbrev State := Relay.Ends Interleaving.State Js.Submission.State

abbrev Event := Relay.Ends.Event Interleaving.Event Js.Submission.Event String Unit

def machine (J : JsonText) (Session : Set String) : Machine State Event := Relay.ends (asker Session) (worker J)

/-- **JavaScript was asked what the views emitted.** -/
theorem asked_step {s : State} {e : Event} (h : s.worker.traffic.asked = s.asker.card.emitted.map onCardHandleSubmit)
    (he : (machine J Session).allowed s e) :
    ((machine J Session).step s e).worker.traffic.asked =
      ((machine J Session).step s e).asker.card.emitted.map onCardHandleSubmit := by
  cases e with
  | asker e =>
      change _ = ((Interleaving.machine Session).step s.asker e).card.emitted.map onCardHandleSubmit
      rw [emitted_step, List.map_append, ← h]
      cases e with
      | register call emits =>
          cases emits with
          | true => rfl
          | false => exact (List.append_nil _).symm
      | _ => exact (List.append_nil _).symm
  | worker d => exact ((worker J).own_frame s.worker d he.1).1.trans h
  | arrive r x =>
      obtain ⟨⟨a, ha⟩, -⟩ := he
      have hstep : (machine J Session).step s (.arrive r x) = _ := Relay.step_arrive ha x
      rw [hstep]
      change _ = ((Interleaving.machine Session).step s.asker (arrival a)).card.emitted.map onCardHandleSubmit
      rw [emitted_step, show emission (arrival a) = [] from rfl, List.append_nil, ← h]
      exact ((worker J).delivered_deliver s.worker r a ha).1

/-! ## The answer to a call -/

/-- The first response looked up for a request is the answer delivered for it. -/
theorem readsFirst (r : String) : Relay.ReadsFirst (asker Session) (worker J) r nativeAnswer
    (Interleaving.firstLookup r) where
  nil := rfl
  own e es he := by
    cases e with
    | lookup r' success data => exact absurd rfl (he r' success data)
    | _ => rfl
  arrival _ _ _ := rfl

/-- **None is looked up before the call has registered its view**: its event is not out. -/
theorem answerTo_trace {s : State} (h : Relay.Ends.Inv (asker Session) (worker J) s) {r : String}
    (hr : ∀ event ∈ s.asker.card.emitted, event.requestId ≠ r) {es : List Event}
    (hes : (machine J Session).Admits s es) :
    Interleaving.answerTo r ((Relay.asking (asker Session) (worker J)).trace s es) =
      Interleaving.firstLookup r ((Relay.asking (asker Session) (worker J)).trace s es) := by
  induction es generalizing s with
  | nil => rfl
  | cons e es ih =>
      have hrest := fun hr' => ih (Relay.inv_step s e h hes.1) hr' hes.2
      rw [Simulation.trace, show (Relay.asking (asker Session) (worker J)).moves s e =
        Relay.moves (asker Session) (worker J) s e from rfl]
      cases e with
      | asker e =>
          rw [Relay.moves, List.singleton_append, (readsFirst (J := J) r).own e _ hes.1.1]
          by_cases hcall : ∃ call emits, e = .register call emits ∧ call.requestId = r
          · obtain ⟨call, emits, rfl, hid⟩ := hcall
            rw [Interleaving.answerTo, if_pos hid]
          · rw [Interleaving.answerTo_cons fun call emits he hid => hcall ⟨call, emits, he, hid⟩]
            refine hrest fun event hevent => ?_
            change event ∈ ((Interleaving.machine Session).step s.asker e).card.emitted at hevent
            rw [emitted_step] at hevent
            rcases List.mem_append.mp hevent with hevent | hevent
            · exact hr event hevent
            · cases e with
              | register call emits =>
                  cases emits with
                  | false => cases hevent
                  | true =>
                      rw [List.mem_singleton.mp hevent]
                      exact fun hid => hcall ⟨call, true, rfl, hid⟩
              | _ => cases hevent
      | worker d => exact hrest hr
      | arrive k x =>
          obtain ⟨⟨a, ha⟩, -⟩ := hes.1
          -- what arrives was asked for, under an id whose event is out
          have hne : k ≠ r := by
            rintro rfl
            obtain ⟨q, hq, -⟩ := h.worker.sound.returning _ (Relay.mem_of_lookup ha)
            obtain ⟨event, hevent, hid⟩ := h.known _ hq
            exact hr event hevent hid
          have hid : (worker J).idOf a = k := h.idOf_returning ha
          rw [Relay.moves_arrive ha, List.singleton_append, (readsFirst r).arrival, if_neg (hid ▸ hne),
            Interleaving.answerTo_cons (e := (asker Session).arrival a x) fun _ _ hc => by cases hc]
          refine hrest ?_
          have hstep : (machine J Session).step s (.arrive k x) = _ := Relay.step_arrive ha x
          rw [show (Relay.ends (asker Session) (worker J)).step s (.arrive k x) = _ from hstep]
          change ∀ event ∈ ((Interleaving.machine Session).step s.asker (arrival a)).card.emitted, _
          rw [emitted_step, show emission (arrival a) = [] from rfl, List.append_nil]
          exact hr

/-! ## What the SDK is given -/

/-- What the callback of a call returns for an answer: nothing where reading the response throws. -/
def given (O : OrgJson) (a : Answer) : Option ApiCallResult :=
  (responseResult (nativeAnswer a).1 (nativeAnswer a).2).toOption.map (CardView.callbackResult O)

theorem callbackResult_eq_success_iff {O : OrgJson} {defaultType : String} {result : CustomApiCallResult}
    {submission : PaymentSessionSubmissionResult} :
    callbackResult O defaultType result = .success submission ↔
      result.success = true ∧ decodeResponse O defaultType result.responseJson = some submission := by
  unfold callbackResult
  cases result.success with
  | false => simp
  | true => cases decodeResponse O defaultType result.responseJson <;> simp

/-- **The SDK is given a success** exactly for the answers that are approved and whose document decodes; it is given
what that decodes to. -/
theorem given_iff {O : OrgJson} {r : String} {q : Js.SessionData} {a : Answer} (h : Answers J r q a)
    (result : PaymentSessionSubmissionResult) :
    given O a = some (.success result) ↔
      ∃ doc, Approved J a doc ∧ decodeResponse O "card" (J.stringify doc) = some result := by
  unfold given nativeAnswer
  rcases h.cases with ⟨doc, happ, hands⟩ | ⟨hnone, hrefuses⟩
  · obtain ⟨rest, hdata⟩ := hands.data
    have hunique : ∀ doc', Approved J a doc' → doc' = doc := by
      obtain ⟨status, body, hreply, hdoc, -⟩ := happ
      rintro _ ⟨status', body', hreply', rfl, -⟩
      rw [hreply] at hreply'
      obtain ⟨-, rfl⟩ := Js.App.Reply.response.inj (Option.some.inj hreply')
      exact hdoc
    rw [hands.success, hdata]
    change some (callbackResult O "card" _) = _ ↔ _
    rw [Option.some.injEq, callbackResult_eq_success_iff, eq_self_iff_true, true_and]
    constructor
    · exact fun hdecode => ⟨doc, happ, hdecode⟩
    · rintro ⟨doc', happ', hdecode⟩
      obtain rfl := hunique doc' happ'
      exact hdecode
  · refine iff_of_false ?_ ?_
    · rw [hrefuses.success]
      cases hres : responseResult false (some (toReadableMap a.response.data)) with
      | error e =>
          intro hsome
          cases hsome
      | ok result =>
          have hfailure : CardView.callbackResult O result = .failure :=
            if_neg (by rw [responseResult_false hres]; exact Bool.false_ne_true)
          change some (CardView.callbackResult O result) ≠ _
          rw [hfailure]
          intro hsome
          cases Option.some.inj hsome
    · rintro ⟨doc, happ, -⟩
      exact hnone doc happ

theorem given_eq_none_iff (O : OrgJson) (a : Answer) :
    given O a = none ↔ Throws a.response.success (some (toReadableMap a.response.data)) := by
  rw [← responseResult_error_iff]
  unfold given nativeAnswer
  cases responseResult a.response.success (some (toReadableMap a.response.data)) with
  | error e => exact iff_of_true rfl ⟨e, rfl⟩
  | ok result => simp [Except.toOption]

/-! ## Where a submission stands -/

theorem asked_run {J : JsonText} {Session : Set String} {es : List Event}
    (h : (machine J Session).Admits (machine J Session).init es) :
    ((machine J Session).run (machine J Session).init es).worker.traffic.asked =
      ((machine J Session).run (machine J Session).init es).asker.card.emitted.map onCardHandleSubmit :=
  Machine.run_induction (I := fun t : State =>
    t.worker.traffic.asked = t.asker.card.emitted.map onCardHandleSubmit) (fun _ _ ht he => asked_step ht he) rfl h

theorem not_asked {J : JsonText} {Session : Set String} {s : State}
    (h : Relay.Ends.Inv (asker Session) (worker J) s) {r : String}
    (hnone : ∀ event ∈ s.asker.card.emitted, event.requestId ≠ r) (q : Js.SessionData) :
    (r, q) ∉ s.worker.traffic.asked := by
  intro hq
  obtain ⟨event, hevent, hid⟩ := h.known _ hq
  exact hnone event hevent hid

section Call

variable {J : JsonText} {Session : Set String} {pre post : List Event} {v : ViewId} {raw r : String}

/-- Before a call nothing is emitted under its request. -/
theorem not_emitted (hm : Relay.Marked (asker Session) (worker J) pre (.store v raw r) post) :
    ∀ event ∈ ((machine J Session).run (machine J Session).init pre).asker.card.emitted, event.requestId ≠ r :=
  fun event hevent heq => hm.allowed.2.2 (heq ▸ (hm.before.asker.2 event hevent).1)

/-- Nor is anything when the call has stored its continuation. -/
theorem not_emitted_store (hm : Relay.Marked (asker Session) (worker J) pre (.store v raw r) post) :
    ∀ event ∈ ((machine J Session).step ((machine J Session).run (machine J Session).init pre)
      (.asker (.store v raw r))).asker.card.emitted, event.requestId ≠ r := by
  intro event hevent
  change event ∈ ((Interleaving.machine Session).step
    ((machine J Session).run (machine J Session).init pre).asker (.store v raw r)).card.emitted at hevent
  rw [emitted_step, show emission (.store v raw r) = [] from rfl, List.append_nil] at hevent
  exact not_emitted hm event hevent

/-- From then on the request carries what the call was made with. -/
theorem carries_run (hm : Relay.Marked (asker Session) (worker J) pre (.store v raw r) post) {base : SessionData}
    (hbase : (((machine J Session).run (machine J Session).init pre).asker.card.view v).currentSessionData =
      some base) :
    Carries ((machine J Session).run (machine J Session).init (pre ++ .asker (.store v raw r) :: post)).asker r
      { base with sessionData := some raw } := by
  have hstored : Carries (((machine J Session).run (machine J Session).init pre).asker.store v raw r) r
      { base with sessionData := some raw } :=
    carries_store hm.before.asker.1 hm.before.asker.2 hbase hm.allowed.2
  obtain ⟨hadm, hrel⟩ := Relay.asker_run (P := asker Session) (W := worker J) _ hm.rest
  rw [show (machine J Session).run (machine J Session).init _ = _ from hm.run_eq]
  exact (congrArg (fun t => Carries t r _) hrel).mpr (Machine.run_induction carries_step hstored hadm)

/-- The response that the call gets is the answer delivered for its request. -/
theorem answerTo_run (hm : Relay.Marked (asker Session) (worker J) pre (.store v raw r) post) :
    Interleaving.answerTo r ((Relay.asking (asker Session) (worker J)).trace
        ((machine J Session).step ((machine J Session).run (machine J Session).init pre) (.asker (.store v raw r)))
        post) =
      (((machine J Session).run (machine J Session).init
        (pre ++ .asker (.store v raw r) :: post)).worker.answerTo r).map nativeAnswer := by
  have hnew := not_emitted_store hm
  have hnone := hm.after.answer_eq_none (not_asked hm.after hnew)
  rw [show (machine J Session).run (machine J Session).init _ = _ from hm.run_eq]
  exact (answerTo_trace hm.after hnew hm.rest).trans (Relay.first_trace (readsFirst r) hm.after hnone hm.rest)

end Call

/-- **Every submission of a card stands where its own messages are**, however the threads of the views, the components,
the events, the backend and the responses interleave. Once its event is out, it is posted once for each component that
is mounted when the event arrives, and its call is resumed with what comes of the first of these to be answered. Without
an event or a component to hear it, nothing answers it. -/
theorem handled_submission_stands (J : JsonText) (O : OrgJson) (Session : Set String) (pre post : List Event)
    (v : ViewId) (raw r : String) (base : SessionData)
    (h : (machine J Session).Admits (machine J Session).init (pre ++ .asker (.store v raw r) :: post))
    (hbase : (((machine J Session).run (machine J Session).init pre).asker.card.view v).currentSessionData =
      some base) :
    let M := machine J Session
    let s₀ := M.run M.init pre
    let s := M.run M.init (pre ++ .asker (.store v raw r) :: post)
    let q : Js.SessionData := ⟨base.id, base.secret, some raw⟩
    Outcome s.asker v r s₀.asker.card.calls ((s.worker.answerTo r).map nativeAnswer) ∧
      ((∃ event ∈ s.asker.card.emitted, event.requestId = r) →
        Stage J s.worker r q (s.worker.traffic.heard.lookup r)) ∧
      ((∀ event ∈ s.asker.card.emitted, event.requestId ≠ r) →
        (∀ q', (r, q') ∉ s.worker.traffic.asked) ∧ s.worker.postsOf r = [] ∧ s.worker.traffic.hearers r = 0) ∧
      (.worker (.listen r) ∉ post → s.worker.traffic.heard.lookup r = none) ∧
      (∀ mid rest, post = mid ++ .worker (.listen r) :: rest →
        s.worker.traffic.heard.lookup r =
          some (M.run M.init (pre ++ .asker (.store v raw r) :: mid)).worker.mounted.length) ∧
      (s.worker.traffic.hearers r = 0 → s.worker.answerTo r = none) ∧
      ∀ a, Answers J r q a →
        ((∃ doc, Approved J a doc ∧ HandsOver J a doc) ∨ (∀ doc, ¬ Approved J a doc) ∧ Refuses a) ∧
        (given O a = none ↔ Throws a.response.success (some (toReadableMap a.response.data))) ∧
        ∀ result, given O a = some (.success result) ↔
          ∃ doc, Approved J a doc ∧ decodeResponse O "card" (J.stringify doc) = some result := by
  intro M s₀ s q
  let views := Relay.asking (asker Session) (worker J)
  have hm : Relay.Marked (asker Session) (worker J) pre (.store v raw r) post := Relay.marked h
  have hcall : Interleaving.MakesCall Session (views.trace M.init (pre ++ .asker (.store v raw r) :: post)) v r
      s₀.asker.card.calls (views.trace (M.step s₀ (.asker (.store v raw r))) post) := by
    have hasker : s₀.asker = (Interleaving.machine Session).run (Interleaving.machine Session).init
      (views.trace M.init pre) := hm.asker_before
    refine ⟨views.trace M.init pre, raw, hm.trace_eq, ?_, congrArg (fun t => t.card.calls) hasker⟩
    rw [← hasker]
    exact ne_of_eq_of_ne hbase (Option.some_ne_none base)
  have hout := Interleaving.outcome_of_call hm.asker_admits hcall
  have hrel : s.asker = _ := hm.asker_final
  have hanswer : Interleaving.answerTo r (views.trace (M.step s₀ (.asker (.store v raw r))) post) =
      (s.worker.answerTo r).map nativeAnswer := answerTo_run hm
  rw [hanswer, ← hrel] at hout
  have hheard := hm.heard (not_asked hm.before (not_emitted hm))
  refine ⟨hout, ?_, fun hnone => ?_, hheard.1, hheard.2, hm.final.worker.sound.lookup_delivered,
    fun a ha => ⟨ha.cases, given_eq_none_iff O a, given_iff ha⟩⟩
  · rintro ⟨event, hevent, rfl⟩
    refine hm.final.worker.stage ?_
    change (event.requestId, q) ∈ s.worker.traffic.asked
    rw [asked_run h]
    refine List.mem_map.mpr ⟨event, hevent, ?_⟩
    rw [onCardHandleSubmit, (carries_run hm hbase).emitted event hevent rfl]
  · have hnot := not_asked hm.final hnone
    exact ⟨hnot, hm.final.worker.unasked r hnot,
      congrArg (Option.getD · 0) (hm.final.worker.sound.not_heard_of_not_asked hnot)⟩

end

def viewReady : List Event := [.worker (.mount 0), .asker (.initializeView 0 "ps_1" "secret" "key" true)]

/-- A second call stores its continuation and its event is lost; the first is answered. -/
def oneLost : List Event :=
  [.asker (.store 0 "raw-2" "req-2"), .asker (.register ⟨0, "req-2", 1, ⟨"ps_1", "secret", some "raw-2"⟩⟩ false),
    .asker (.register ⟨0, "req-1", 0, ⟨"ps_1", "secret", some "raw-1"⟩⟩ true), .worker (.listen "req-1"),
    .worker (.reply "req-1" (.response 200 "approved")), .arrive "req-1" (), .asker .unregister, .asker .resume]

def oneSession : Machine State Event := machine Js.App.sampleJson {"ps_1"}

theorem oneLost_admits :
    oneSession.Admits oneSession.init (viewReady ++ .asker (.store 0 "raw-1" "req-1") :: oneLost) := by
  have hreq : ∀ {r : String}, r ≠ "ps_1" → r ∉ ({"ps_1"} : Set String) := fun hne h => hne h
  have hsome : ∀ {α : Type} {o : Option α}, o.isSome = true → ∃ x, o = some x := Option.isSome_iff_exists.mp
  refine ⟨⟨⟨nofun, nofun⟩, List.not_mem_nil⟩, ⟨nofun, rfl⟩, ⟨nofun, hreq (by decide), by decide +kernel⟩,
    ⟨nofun, hreq (by decide), by decide +kernel⟩, ?_⟩
  refine ⟨⟨nofun, ?_⟩, ?_⟩
  · exact List.mem_cons_of_mem _ (List.mem_singleton_self _)
  refine ⟨⟨nofun, ?_⟩, ?_⟩
  · exact List.mem_singleton_self _
  -- the event is heard and replied to
  refine ⟨⟨⟨nofun, nofun⟩, hsome ?_⟩, ?_⟩
  · decide +kernel
  refine ⟨⟨⟨nofun, nofun⟩, hsome ?_⟩, ?_⟩
  · decide +kernel
  -- the response
  refine ⟨⟨hsome ?_, ?_⟩, ?_⟩
  · decide +kernel
  · rfl
  exact ⟨⟨nofun, _, rfl, rfl⟩, ⟨nofun, _, rfl, rfl⟩, trivial⟩

theorem handled_submission_stands_one_lost :
    let s := oneSession.run oneSession.init (viewReady ++ .asker (.store 0 "raw-1" "req-1") :: oneLost)
    Outcome s.asker 0 "req-1" (oneSession.run oneSession.init viewReady).asker.card.calls
        ((s.worker.answerTo "req-1").map nativeAnswer) ∧
      Stage Js.App.sampleJson s.worker "req-1" ⟨"ps_1", "secret", some "raw-1"⟩
        (s.worker.traffic.heard.lookup "req-1") ∧
      s.worker.traffic.heard.lookup "req-1" = some 1 ∧
      (s.worker.answerTo "req-1").isSome = true ∧ s.asker.card.resumed.map Prod.fst = [0] := by
  have h := handled_submission_stands Js.App.sampleJson (plainOrgJson .null) {"ps_1"} viewReady oneLost 0 "raw-1"
    "req-1" ⟨"ps_1", "secret", none⟩ oneLost_admits (by decide +kernel)
  have hemitted : ∃ event ∈ (oneSession.run oneSession.init
      (viewReady ++ .asker (.store 0 "raw-1" "req-1") :: oneLost)).asker.card.emitted, event.requestId = "req-1" := by
    decide +kernel
  exact ⟨h.1, h.2.1 hemitted, h.2.2.2.2.1 (oneLost.take 3) (oneLost.drop 4) rfl, by decide +kernel,
    by decide +kernel⟩

end FlowDemo.Android.Card.Submission
