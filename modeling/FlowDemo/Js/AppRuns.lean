import Mathlib.Data.List.Basic
import FlowDemo.Js.AppState

/-!
# Runs of `App.tsx`

* `completion_keeps_to_itself`: what the end of a `handleSubmit` call shows is read off its own reply, whatever session
  is current, and nothing else changes;
* `created_in_turn`: as long as nobody overwrites the status of a waiting `startPayment`, the Start button keeps the
  calls apart and the session is the latest one.
-/

namespace FlowDemo.Js.App

variable {J : JsonText} {toLowerCase : String → String}

/-! ## The end of a `handleSubmit` call -/

def Reply.Approves (J : JsonText) (reply : Reply) : Prop :=
  ∃ status body, reply = .response status body ∧ App.Approves status (responseData J body)

def Reply.Is3ds (J : JsonText) (reply : Reply) : Prop :=
  ∃ status body, reply = .response status body ∧ App.Is3ds (responseData J body)

def outcome (J : JsonText) (reply : Reply) : Screen := (settleSubmit J {} reply).1

theorem trySubmit_of_reply (fetch : Request → Reply) (screen : Screen) {sessionData : SessionData} {raw : String}
    (hraw : raw ≠ "") (h : sessionData.sessionData = some raw) :
    (∀ error, fetch (submitRequest J sessionData.id raw) = .rejected error →
      trySubmit J fetch screen sessionData = .error error) ∧
    ∀ status body, fetch (submitRequest J sessionData.id raw) = .response status body →
      trySubmit J fetch screen sessionData =
        if ok status then onOk J screen (responseData J body) else onNotOk J screen (responseData J body) := by
  unfold trySubmit
  rw [h]
  split
  · next heq => cases heq
  · next heq => exact absurd (Option.some.inj heq) hraw
  · next heq =>
      obtain rfl := Option.some.inj heq
      constructor
      · intro error hreply
        rw [hreply]
        rfl
      · intro status body hreply
        rw [hreply]

/-- `handleSubmit`, its `await` left out, is its two parts one after the other. -/
theorem handleSubmit_eq (fetch : Request → Reply) (screen : Screen) {sessionData : SessionData} {raw : String}
    (hraw : raw ≠ "") (h : sessionData.sessionData = some raw) :
    handleSubmit J fetch screen sessionData =
      settleSubmit J (beginSubmit screen) (fetch (submitRequest J sessionData.id raw)) := by
  obtain ⟨hrejected, hresponse⟩ := trySubmit_of_reply fetch (beginSubmit screen) hraw h
  unfold handleSubmit
  cases hreply : fetch (submitRequest J sessionData.id raw) with
  | rejected error =>
      rw [hrejected error hreply]
      rfl
  | response status body =>
      rw [hresponse status body hreply]
      rfl

theorem settleSubmit_screen (screen : Screen) (reply : Reply) : (settleSubmit J screen reply).1 = outcome J reply := rfl

theorem showOk_cases {screen shown : Screen} {doc : Json} (h : showOk screen doc = .ok shown) :
    (Is3ds doc ∧ shown = ⟨"3DS Authentication required...", none, true⟩) ∨
      (¬ Is3ds doc ∧ ∃ text, shown = ⟨"Success: " ++ text, none, false⟩) := by
  by_cases hne : doc = .null
  · subst hne
    cases h
  · unfold showOk at h
    rw [requires3ds_eq hne, Value.member_of_ne_null hne] at h
    cases h3 : (doc.get "status").isText "Action Required" &&
        ((doc.get "action").optionalMember "type").isText "3ds" with
    | true =>
        rw [h3] at h
        exact Or.inl ⟨Bool.and_eq_true_iff.mp h3, (Except.ok.inj h).symm⟩
    | false =>
        have hnot : ¬ Is3ds doc := fun h' => Bool.eq_false_iff.mp h3 (Bool.and_eq_true_iff.mpr h')
        rw [h3] at h
        cases ht : shownId (doc.get "id") with
        | error e =>
            simp only [bind, Except.bind, ht] at h
            cases h
        | ok text =>
            simp only [bind, Except.bind, ht] at h
            exact Or.inr ⟨hnot, text, (Except.ok.inj h).symm⟩

theorem onOk_screen {screen : Screen} {doc : Json} {done : Screen × ApiCallResult} (h : onOk J screen doc = .ok done) :
    showOk screen doc = .ok done.1 := by
  unfold onOk at h
  cases hs : showOk screen doc with
  | error e =>
      rw [hs] at h
      cases h
  | ok shown =>
      have hne : doc ≠ .null := by
        rintro rfl
        cases hs
      rw [hs, Value.member_of_ne_null hne, Value.member_of_ne_null hne, Value.member_of_ne_null hne] at h
      obtain rfl := Except.ok.inj h
      rfl

theorem onNotOk_screen {screen : Screen} {doc : Json} {done : Screen × ApiCallResult}
    (h : onNotOk J screen doc = .ok done) : ∃ message, done.1 = ⟨"Error", some message, true⟩ := by
  by_cases hne : doc = .null
  · subst hne
    cases h
  · unfold onNotOk at h
    rw [Value.member_of_ne_null hne] at h
    cases ht : (((doc.get "message").orElse (some (.str (J.stringify doc)))).orElse
        (some (.str "Unknown error"))).toText with
    | error e =>
        simp only [bind, Except.bind, ht] at h
        cases h
    | ok text =>
        simp only [bind, Except.bind, ht] at h
        obtain rfl := Except.ok.inj h
        exact ⟨_, rfl⟩

/-- **What the end of a call shows**: a 3-D Secure request, a success with the sheet closed, or an error. -/
theorem outcome_cases (J : JsonText) (reply : Reply) :
    (reply.Approves J ∧ reply.Is3ds J ∧ outcome J reply = ⟨"3DS Authentication required...", none, true⟩) ∨
      (reply.Approves J ∧ ¬ reply.Is3ds J ∧ ∃ text, outcome J reply = ⟨"Success: " ++ text, none, false⟩) ∨
      (¬ reply.Approves J ∧ ∃ message, outcome J reply = ⟨"Error", some message, true⟩) := by
  cases reply with
  | rejected error =>
      refine Or.inr (Or.inr ⟨?_, _, rfl⟩)
      rintro ⟨_, _, h, -⟩
      cases h
  | response status body =>
      have happ : Reply.Approves J (.response status body) ↔ Approves status (responseData J body) := by
        constructor
        · rintro ⟨_, _, ⟨⟩, h⟩
          exact h
        · intro h
          exact ⟨status, body, rfl, h⟩
      have h3ds : Reply.Is3ds J (.response status body) ↔ Is3ds (responseData J body) := by
        constructor
        · rintro ⟨_, _, ⟨⟩, h⟩
          exact h
        · intro h
          exact ⟨status, body, rfl, h⟩
      rw [happ, h3ds]
      by_cases h : Approves status (responseData J body)
      · obtain ⟨done, hdone, -⟩ := onOk_approved J h {}
        have hout : outcome J (.response status body) = done.1 := by
          simp only [outcome, settleSubmit, if_pos h.1, hdone]
        rw [hout]
        rcases showOk_cases (onOk_screen hdone) with ⟨h3, hs⟩ | ⟨h3, hs⟩
        · exact Or.inl ⟨h, h3, hs⟩
        · exact Or.inr (Or.inl ⟨h, h3, hs⟩)
      · refine Or.inr (Or.inr ⟨h, ?_⟩)
        cases hok : ok status with
        | true =>
            obtain ⟨e, he⟩ := onOk_refused J hok h {}
            refine ⟨"Error: " ++ e, ?_⟩
            simp only [outcome, settleSubmit, hok, if_true, he]
            rfl
        | false =>
            cases hn : onNotOk J {} (responseData J body) with
            | error e =>
                refine ⟨"Error: " ++ e, ?_⟩
                simp only [outcome, settleSubmit, hok, Bool.false_eq_true, if_false, hn]
                rfl
            | ok done =>
                obtain ⟨message, hm⟩ := onNotOk_screen hn
                refine ⟨message, ?_⟩
                simp only [outcome, settleSubmit, hok, Bool.false_eq_true, if_false, hn]
                exact hm

def Event.Approves (J : JsonText) : Event → Prop
  | .paymentSuccess _ => True
  | .finishHandleSubmit _ _ reply => reply.Approves J
  | _ => False

theorem not_showsSuccess {screen : Screen} (status : String) (hs : screen.status = status)
    (h : startsWith status "Success" = false) (h' : startsWith status "3DS" = false) : ¬ screen.ShowsSuccess := by
  rw [Screen.ShowsSuccess, hs, h, h']
  decide

theorem showsSuccess_step {s : State} {e : Event}
    (h : ((machine J toLowerCase).step s e).screen.ShowsSuccess) : s.screen.ShowsSuccess ∨ e.Approves J := by
  cases e with
  | startPayment => exact absurd h (not_showsSuccess "Processing..." rfl (by decide) (by decide))
  | finishStart n reply =>
      change (finishStart s n reply).screen.ShowsSuccess at h
      unfold finishStart at h
      cases hr : readSession reply with
      | ok session =>
          rw [hr] at h
          exact absurd h (not_showsSuccess "Payment flow started" rfl (by decide) (by decide))
      | error startError =>
          rw [hr] at h
          exact absurd h (not_showsSuccess_error _ _)
  | pay =>
      change (beginPay s).screen.ShowsSuccess at h
      unfold beginPay at h
      split at h
      · exact absurd h (not_showsSuccess "Submitting from JS button..." rfl (by decide) (by decide))
      · exact Or.inl h
  | finishPay outcome =>
      cases outcome with
      | ok done => exact Or.inl h
      | error submitError => exact absurd h (not_showsSuccess_error _ _)
  | handleSubmit sessionData =>
      change (beginHandleSubmit s sessionData).screen.ShowsSuccess at h
      unfold beginHandleSubmit at h
      split at h
      · exact absurd h (not_showsSuccess_error _ _)
      · exact absurd h (not_showsSuccess_error _ _)
      · exact absurd h (not_showsSuccess "Submitting payment..." rfl (by decide) (by decide))
  | finishHandleSubmit k id reply =>
      rcases outcome_cases J reply with ⟨ha, -⟩ | ⟨ha, -⟩ | ⟨-, message, hm⟩
      · exact Or.inr ha
      · exact Or.inr ha
      · change (outcome J reply).ShowsSuccess at h
        rw [hm] at h
        exact absurd h (not_showsSuccess_error _ _)
  | handleTokenized tokenizationResult =>
      simp only [machine, handleTokenized] at h
      cases hm : isMada toLowerCase tokenizationResult with
      | error e =>
          rw [hm] at h
          exact Or.inl h
      | ok mada =>
          rw [hm] at h
          cases mada with
          | false => exact Or.inl h
          | true => exact absurd h (not_showsSuccess "Declined" rfl (by decide) (by decide))
  | paymentSuccess paymentId => exact Or.inr trivial
  | paymentError component errorMessage => exact absurd h (not_showsSuccess_error _ _)
  | closeFlow => exact Or.inl h

theorem showsSuccess_run {s : State} {es : List Event} (h : ((machine J toLowerCase).run s es).screen.ShowsSuccess) :
    s.screen.ShowsSuccess ∨ ∃ e ∈ es, e.Approves J := by
  induction es generalizing s with
  | nil => exact Or.inl h
  | cons e es ih =>
      rcases ih h with hs | ⟨e', he', ha⟩
      · exact (showsSuccess_step hs).imp_right fun ha => ⟨e, List.mem_cons_self, ha⟩
      · exact Or.inr ⟨e', List.mem_cons_of_mem _ he', ha⟩

/-- The waiting `handleSubmit` calls have numbers of their own. -/
structure Numbered (s : State) : Prop where
  nodup : (s.submitting.map Prod.fst).Nodup
  lt : ∀ c ∈ s.submitting, c.1 < s.submits

theorem numbered_init : Numbered (machine J toLowerCase).init := ⟨List.nodup_nil, nofun⟩

theorem numbered_step {s : State} (e : Event) (h : Numbered s) : Numbered ((machine J toLowerCase).step s e) := by
  have hkeep : ∀ s' : State, s'.submitting = s.submitting → s'.submits = s.submits → Numbered s' :=
    fun s' h1 h2 => ⟨by rw [h1]; exact h.nodup, by rw [h1, h2]; exact h.lt⟩
  cases e with
  | handleSubmit sessionData =>
      change Numbered (beginHandleSubmit s sessionData)
      unfold beginHandleSubmit
      have hlt : ∀ c ∈ s.submitting, c.1 < s.submits + 1 := fun c hc => Nat.lt_succ_of_lt (h.lt c hc)
      split
      · exact ⟨h.nodup, hlt⟩
      · exact ⟨h.nodup, hlt⟩
      · refine ⟨?_, fun c hc => ?_⟩
        · simp only [List.map_append, List.map_cons, List.map_nil]
          rw [List.nodup_append]
          refine ⟨h.nodup, List.nodup_singleton _, fun a ha b hb hab => ?_⟩
          obtain ⟨c, hc, rfl⟩ := List.mem_map.mp ha
          have := h.lt c hc
          rw [List.mem_singleton.mp hb] at hab
          omega
        · rcases List.mem_append.mp hc with hc | hc
          · exact hlt c hc
          · rw [List.mem_singleton.mp hc]
            exact Nat.lt_succ_self _
  | finishHandleSubmit k id reply =>
      exact ⟨h.nodup.sublist (List.erase_sublist.map _), fun c hc => h.lt c (List.mem_of_mem_erase hc)⟩
  | startPayment => exact hkeep _ rfl rfl
  | finishStart n reply =>
      change Numbered (finishStart s n reply)
      unfold finishStart
      cases readSession reply <;> exact hkeep _ rfl rfl
  | pay =>
      change Numbered (beginPay s)
      unfold beginPay
      split <;> exact hkeep _ rfl rfl
  | finishPay outcome => cases outcome <;> exact hkeep _ rfl rfl
  | handleTokenized tokenizationResult =>
      simp only [machine]
      split <;> exact hkeep _ rfl rfl
  | paymentSuccess paymentId => exact hkeep _ rfl rfl
  | paymentError component errorMessage => exact hkeep _ rfl rfl
  | closeFlow => exact hkeep _ rfl rfl

/-- What the end of a `handleSubmit` call does: it shows what its own reply says, stops waiting, and changes nothing
else. -/
structure Completion (J : JsonText) (s s' : State) (k : Nat) (id : String) (reply : Reply) : Prop where
  screen : s'.screen = outcome J reply
  done : (k, id) ∉ s'.submitting
  rest : s' = { s with
    submitting := s.submitting.erase (k, id)
    screen := s'.screen }

/-- **In every run** success is on the screen only if some reply approved a payment or the native module reported one,
and the end of a `handleSubmit` call shows what its own reply says, whichever session is current. -/
theorem completion_keeps_to_itself (J : JsonText) (toLowerCase : String → String) (es : List Event)
    (h : (machine J toLowerCase).Admits (machine J toLowerCase).init es) :
    (((machine J toLowerCase).run (machine J toLowerCase).init es).screen.ShowsSuccess →
        ∃ e ∈ es, e.Approves J) ∧
      ∀ k id reply, (k, id) ∈ ((machine J toLowerCase).run (machine J toLowerCase).init es).submitting →
        Completion J ((machine J toLowerCase).run (machine J toLowerCase).init es)
          ((machine J toLowerCase).run (machine J toLowerCase).init (es ++ [.finishHandleSubmit k id reply]))
          k id reply ∧
        ((reply.Approves J ∧ reply.Is3ds J ∧ outcome J reply = ⟨"3DS Authentication required...", none, true⟩) ∨
          (reply.Approves J ∧ ¬ reply.Is3ds J ∧ ∃ text, outcome J reply = ⟨"Success: " ++ text, none, false⟩) ∨
          (¬ reply.Approves J ∧ ∃ message, outcome J reply = ⟨"Error", some message, true⟩)) := by
  refine ⟨fun hs => ?_, fun k id reply hk => ⟨?_, outcome_cases J reply⟩⟩
  · exact (showsSuccess_run hs).resolve_left (not_showsSuccess "Ready" rfl (by decide) (by decide))
  · have hnum : Numbered ((machine J toLowerCase).run (machine J toLowerCase).init es) :=
      Machine.run_induction (fun s e hs _ => numbered_step e hs) numbered_init h
    rw [Machine.run_append]
    refine ⟨settleSubmit_screen _ reply, fun hin => ?_, rfl⟩
    exact ((List.Nodup.mem_erase_iff (List.Nodup.of_map _ hnum.nodup)).mp hin).1 rfl

def sampleJson : JsonText where
  parse text := if text = "approved" then some (.obj [("id", .str "pay_1")]) else none
  stringify _ := ""

def sampleSession (id : String) : SessionReply :=
  .ok (.obj [("id", .str id), ("payment_session_token", .str "pst"), ("payment_session_secret", .str "pss")])

def twoSessions : List Event :=
  [.startPayment, .finishStart 0 (sampleSession "ps_1"), .handleSubmit ⟨"ps_1", "pss", some "data"⟩, .startPayment,
    .finishStart 1 (sampleSession "ps_2")]

theorem twoSessions_admits :
    (machine sampleJson String.toLower).Admits (machine sampleJson String.toLower).init twoSessions :=
  ⟨rfl, List.mem_singleton_self _, trivial, rfl, List.mem_singleton_self _, trivial⟩

theorem completion_keeps_to_itself_twoSessions :
    let M := machine sampleJson String.toLower
    Completion sampleJson (M.run M.init twoSessions)
      (M.run M.init (twoSessions ++ [.finishHandleSubmit 0 "ps_1" (.response 402 "declined")])) 0 "ps_1"
      (.response 402 "declined") :=
  ((completion_keeps_to_itself sampleJson String.toLower twoSessions twoSessions_admits).2 0 "ps_1" _
    (List.mem_singleton_self _)).1

/-- The payment of `ps_1` is approved while `ps_2` is current: the sheet of `ps_2` closes with the success of `ps_1`. -/
theorem completion_speaks_for_another_session :
    let M := machine sampleJson String.toLower
    let s := M.run M.init twoSessions
    let s' := M.run M.init (twoSessions ++ [.finishHandleSubmit 0 "ps_1" (.response 200 "approved")])
    M.Reachable s ∧ (0, "ps_1") ∈ s.submitting ∧ s.paymentSession.id.isText "ps_2" = true ∧
      s.screen = ⟨"Payment flow started", none, true⟩ ∧ s'.screen = ⟨"Success: pay_1", none, false⟩ :=
  ⟨⟨_, twoSessions_admits, rfl⟩, List.mem_singleton_self _, rfl, rfl, rfl⟩

/-! ## The Start button -/

namespace State

/-- At most one request for a session waits, and the session is the one the latest successful `startPayment` got. -/
structure Serialised (s : State) : Prop where
  creating : s.creating.length ≤ 1
  session : s.created = [] ∧ s.paymentSession = {} ∨
    ∃ n, (n, s.paymentSession) ∈ s.created ∧ ∀ c ∈ s.created, c.1 ≤ n

end State

/-- The events by which other paths than `startPayment` set the status. -/
def Event.SetsStatus (toLowerCase : String → String) : Event → Prop
  | .pay => True
  | .finishPay outcome => outcome ≠ .ok ()
  | .handleSubmit _ => True
  | .finishHandleSubmit _ _ _ => True
  | .handleTokenized tokenizationResult => isMada toLowerCase tokenizationResult = .ok true
  | .paymentSuccess _ => True
  | .paymentError _ _ => True
  | _ => False

/-- Nobody sets the status while a `startPayment` waits. -/
def LeavesProcessing (toLowerCase : String → String) (s : State) (e : Event) : Prop :=
  s.creating ≠ [] → ¬ e.SetsStatus toLowerCase

/-- What carries the Start button's guard: the status says so while a `startPayment` waits, and that one is later than
all that succeeded. -/
structure InTurn (s : State) : Prop where
  created : ∀ c ∈ s.created, c.1 < s.starts
  session : s.created = [] ∧ s.paymentSession = {} ∨
    ∃ n, (n, s.paymentSession) ∈ s.created ∧ ∀ c ∈ s.created, c.1 ≤ n
  waiting : s.creating = [] ∨ ∃ n, s.creating = [n] ∧ s.screen.status = "Processing..." ∧ n < s.starts ∧
    ∀ c ∈ s.created, c.1 < n

theorem InTurn.serialised {s : State} (h : InTurn s) : s.Serialised := by
  refine ⟨?_, h.session⟩
  rcases h.waiting with hw | ⟨n, hw, -⟩
  · rw [hw]
    exact Nat.zero_le _
  · rw [hw]
    exact le_refl _

structure SameStarts (s s' : State) : Prop where
  paymentSession : s'.paymentSession = s.paymentSession
  starts : s'.starts = s.starts
  creating : s'.creating = s.creating
  created : s'.created = s.created

theorem sameStarts_step (J : JsonText) (toLowerCase : String → String) (s : State) {e : Event}
    (hstart : e ≠ .startPayment) (hfinish : ∀ n reply, e ≠ .finishStart n reply) :
    SameStarts s ((machine J toLowerCase).step s e) ∧
      (¬ e.SetsStatus toLowerCase → ((machine J toLowerCase).step s e).screen.status = s.screen.status) := by
  cases e with
  | startPayment => exact absurd rfl hstart
  | finishStart n reply => exact absurd rfl (hfinish n reply)
  | pay =>
      refine ⟨?_, fun h => absurd trivial h⟩
      change SameStarts s (beginPay s)
      unfold beginPay
      split <;> exact ⟨rfl, rfl, rfl, rfl⟩
  | finishPay outcome =>
      cases outcome with
      | ok done => exact ⟨⟨rfl, rfl, rfl, rfl⟩, fun _ => rfl⟩
      | error submitError => exact ⟨⟨rfl, rfl, rfl, rfl⟩, fun h => absurd nofun h⟩
  | handleSubmit sessionData =>
      refine ⟨?_, fun h => absurd trivial h⟩
      change SameStarts s (beginHandleSubmit s sessionData)
      unfold beginHandleSubmit
      split <;> exact ⟨rfl, rfl, rfl, rfl⟩
  | finishHandleSubmit k id reply => exact ⟨⟨rfl, rfl, rfl, rfl⟩, fun h => absurd trivial h⟩
  | handleTokenized tokenizationResult =>
      simp only [machine, handleTokenized, Event.SetsStatus]
      cases hm : isMada toLowerCase tokenizationResult with
      | error e => exact ⟨⟨rfl, rfl, rfl, rfl⟩, fun _ => rfl⟩
      | ok mada =>
          cases mada with
          | false => exact ⟨⟨rfl, rfl, rfl, rfl⟩, fun _ => rfl⟩
          | true => exact ⟨⟨rfl, rfl, rfl, rfl⟩, fun h => absurd rfl h⟩
  | paymentSuccess paymentId => exact ⟨⟨rfl, rfl, rfl, rfl⟩, fun h => absurd trivial h⟩
  | paymentError component errorMessage => exact ⟨⟨rfl, rfl, rfl, rfl⟩, fun h => absurd trivial h⟩
  | closeFlow => exact ⟨⟨rfl, rfl, rfl, rfl⟩, fun _ => rfl⟩

/-- The Start button is pressed: with its status in place, nothing waits. -/
theorem InTurn.beginStart {s : State} (h : InTurn s) (hen : startEnabled s = true) : InTurn (beginStart s) := by
  have hnone : s.creating = [] := by
    refine h.waiting.resolve_right ?_
    rintro ⟨n, -, hs, -⟩
    exact (of_decide_eq_true hen) hs
  constructor
  case created => exact fun c hc => Nat.lt_succ_of_lt (h.created c hc)
  case session => exact h.session
  case waiting =>
    refine Or.inr ⟨s.starts, ?_, rfl, Nat.lt_succ_self _, h.created⟩
    change s.creating ++ [s.starts] = [s.starts]
    rw [hnone, List.nil_append]

theorem InTurn.finishStart {s : State} (h : InTurn s) {n : Nat} (hn : n ∈ s.creating) (reply : SessionReply) :
    InTurn (finishStart s n reply) := by
  obtain ⟨m, hm, -, hlt, hafter⟩ := h.waiting.resolve_left (List.ne_nil_of_mem hn)
  obtain rfl : n = m := by
    rw [hm] at hn
    exact List.mem_singleton.mp hn
  have hnone : s.creating.erase n = [] := by
    rw [hm, List.erase_cons_head]
  unfold App.finishStart
  cases readSession reply with
  | error startError => exact ⟨h.created, h.session, Or.inl hnone⟩
  | ok session =>
      have hcases : ∀ c ∈ s.created ++ [(n, session)], c ∈ s.created ∨ c = (n, session) := fun c hc =>
        (List.mem_append.mp hc).imp_right List.mem_singleton.mp
      refine ⟨fun c hc => ?_, Or.inr ⟨n, List.mem_append_right _ (List.mem_singleton_self _), fun c hc => ?_⟩,
        Or.inl hnone⟩
      · rcases hcases c hc with hc | rfl
        · exact h.created c hc
        · exact hlt
      · rcases hcases c hc with hc | rfl
        · exact Nat.le_of_lt (hafter c hc)
        · exact le_refl _

theorem inTurn_step {s : State} {e : Event} (h : InTurn s) (ha : (machine J toLowerCase).allowed s e)
    (hq : LeavesProcessing toLowerCase s e) : InTurn ((machine J toLowerCase).step s e) := by
  by_cases hstart : e = .startPayment
  · subst hstart
    exact h.beginStart ha
  by_cases hfinish : ∃ n reply, e = .finishStart n reply
  · obtain ⟨n, reply, rfl⟩ := hfinish
    exact h.finishStart ha reply
  obtain ⟨hsame, hstatus⟩ := sameStarts_step J toLowerCase s hstart fun n reply he => hfinish ⟨n, reply, he⟩
  constructor
  case created =>
    rw [hsame.created, hsame.starts]
    exact h.created
  case session =>
    rw [hsame.created, hsame.paymentSession]
    exact h.session
  case waiting =>
    rw [hsame.created, hsame.creating, hsame.starts]
    refine h.waiting.imp_right ?_
    rintro ⟨n, hn, hs, hrest⟩
    have hquiet : ¬ e.SetsStatus toLowerCase := hq (by rw [hn]; exact List.cons_ne_nil _ _)
    exact ⟨n, hn, (hstatus hquiet).trans hs, hrest⟩

/-- **In every run** in which no other path sets the status while a `startPayment` waits, at most one waits at a time
and the session is the one the latest successful call got. -/
theorem created_in_turn (J : JsonText) (toLowerCase : String → String) (es : List Event)
    (h : ((machine J toLowerCase).restrict (LeavesProcessing toLowerCase)).Admits (machine J toLowerCase).init es) :
    (machine J toLowerCase).Throughout State.Serialised (machine J toLowerCase).init es := by
  have hinit : InTurn (machine J toLowerCase).init := ⟨nofun, Or.inl ⟨rfl, rfl⟩, Or.inl rfl⟩
  exact Machine.throughout_of_restrict (fun _ _ => inTurn_step) (fun _ => InTurn.serialised) hinit h

/-- A whole payment and a second session, nobody setting the status while a session is created. -/
theorem created_in_turn_twice :
    (machine sampleJson String.toLower).Throughout State.Serialised (machine sampleJson String.toLower).init
      [.startPayment, .finishStart 0 (sampleSession "ps_1"), .pay, .handleSubmit ⟨"ps_1", "pss", some "data"⟩,
        .finishPay (.ok ()), .finishHandleSubmit 0 "ps_1" (.response 200 "approved"), .startPayment, .closeFlow,
        .finishStart 1 (sampleSession "ps_2")] := by
  refine created_in_turn _ _ _ ⟨⟨rfl, ?_⟩, ⟨List.mem_singleton_self _, ?_⟩, ⟨rfl, ?_⟩, ⟨trivial, ?_⟩,
    ⟨Nat.one_ne_zero, ?_⟩, ⟨List.mem_singleton_self _, ?_⟩, ⟨rfl, ?_⟩, ⟨trivial, ?_⟩,
    ⟨List.mem_singleton_self _, ?_⟩, trivial⟩
  all_goals first
    | exact fun h => absurd rfl h
    | exact fun _ => id

/-- A native event overwrites the status of a waiting `startPayment`; a second one begins, and the first one's answer
comes last. -/
theorem native_event_lets_two_start :
    let M := machine sampleJson String.toLower
    let es : List Event := [.startPayment, .paymentError "Card" "declined", .startPayment]
    let es' : List Event := es ++ [.finishStart 1 (sampleSession "ps_2"), .finishStart 0 (sampleSession "ps_1")]
    M.Admits M.init es' ∧ (M.run M.init es).creating = [0, 1] ∧
      (M.run M.init es').created.map Prod.fst = [1, 0] ∧
      (M.run M.init es').paymentSession.id.isText "ps_1" = true ∧ ¬ M.Throughout State.Serialised M.init es' := by
  refine ⟨⟨rfl, trivial, rfl, ?_, List.mem_singleton_self _, trivial⟩, rfl, rfl, rfl, fun h => ?_⟩
  · exact List.mem_cons_of_mem _ (List.mem_singleton_self _)
  · exact absurd (h _ (List.prefix_append _ _)).creating (by decide)

end FlowDemo.Js.App
