import FlowDemo.Js.AppRuns

/-!
# What the screen of `App.tsx` tells

Every path of the App writes the status, the error and the sheet in one of a few ways.

* `writes_step`: the ways;
* `failures_explained_iff`: a failure stays explained as long as no submission from the Pay button ends on one;
* `success_alone`: a success stands on the screen without an error and with the sheet closed;
* `start_all_or_nothing_iff`: the replies `startPayment` makes a whole session of, or none.
-/

namespace FlowDemo.Js.App

namespace Screen

def Failing (t : Screen) : Prop := t.status = "Error" ∨ t.status = "Declined"

instance (t : Screen) : Decidable t.Failing := inferInstanceAs (Decidable (_ ∨ _))

def Succeeding (t : Screen) : Prop := startsWith t.status "Success" = true

/-- **A failure comes with an error.** -/
def Explained (t : Screen) : Prop := t.Failing → t.error.isSome = true

/-- **A success comes without an error, and the sheet is closed.** -/
def Alone (t : Screen) : Prop := t.Succeeding → t.error = none ∧ t.showingFlow = false

def underWay : List String :=
  ["Processing...", "Payment flow started", "Submitting from JS button...", "Submitting payment...",
    "3DS Authentication required..."]

/-- The ways `t` comes from `s` by the writes of one path. -/
inductive Writes (s : Screen) : Screen → Prop
  | kept : Writes s s
  | closed : Writes s { s with showingFlow := false }
  | goesOn {t : Screen} (status : String) (ht : t.status = status) (h : status ∈ underWay) : Writes s t
  | fails {t : Screen} (h : t.Failing) (he : t.error.isSome = true) : Writes s t
  | succeeds (text : String) : Writes s ⟨"Success: " ++ text, none, false⟩

theorem explained_ready : Explained {} := fun h => absurd h (by decide)

theorem alone_ready : Alone {} := fun _ => ⟨rfl, rfl⟩

theorem not_failing_of_underWay {t : Screen} (h : t.status ∈ underWay) : ¬ t.Failing := by
  have hall : ∀ status ∈ underWay, ¬ (status = "Error" ∨ status = "Declined") := by decide
  exact hall _ h

theorem not_succeeding_of_underWay {t : Screen} (h : t.status ∈ underWay) : ¬ t.Succeeding := by
  have hall : ∀ status ∈ underWay, ¬ startsWith status "Success" = true := by decide
  exact hall _ h

theorem not_succeeding_of_failing {t : Screen} (h : t.Failing) : ¬ t.Succeeding := by
  unfold Succeeding
  rcases h with h | h <;> rw [h] <;> decide

theorem not_failing_of_succeeding {t : Screen} (h : t.Succeeding) : ¬ t.Failing :=
  fun hf => not_succeeding_of_failing hf h

theorem succeeding_success (text : String) (e : Option String) (b : Bool) : Succeeding ⟨"Success: " ++ text, e, b⟩ := by
  have hsplit : "Success: " ++ text = "Success" ++ (": " ++ text) := by
    rw [← String.append_assoc]
    rfl
  change startsWith ("Success: " ++ text) "Success" = true
  rw [hsplit]
  exact startsWith_append _ _

/-- **Every write but the clearing of the error** keeps failures explained. -/
theorem Writes.explained {s t : Screen} (h : Writes s t) (hs : s.Explained) : t.Explained := by
  cases h with
  | kept => exact hs
  | closed => exact hs
  | goesOn status ht h => exact fun hf => absurd hf (not_failing_of_underWay (ht ▸ h))
  | fails ht he => exact fun _ => he
  | succeeds text => exact fun hf => absurd hf (not_failing_of_succeeding (succeeding_success text none false))

theorem Writes.alone {s t : Screen} (h : Writes s t) (hs : s.Alone) : t.Alone := by
  cases h with
  | kept => exact hs
  | closed => exact fun ht => ⟨(hs ht).1, rfl⟩
  | goesOn status ht h => exact fun hsucc => absurd hsucc (not_succeeding_of_underWay (ht ▸ h))
  | fails ht he => exact fun hsucc => absurd hsucc (not_succeeding_of_failing ht)
  | succeeds text => exact fun _ => ⟨rfl, rfl⟩

end Screen

open Screen (Writes)

variable {J : JsonText} {toLowerCase : String → String}

/-! ## What each path writes -/

theorem writes_finishStart (s : State) (n : Nat) (reply : SessionReply) :
    Writes s.screen (finishStart s n reply).screen := by
  unfold finishStart
  cases readSession reply with
  | ok session => exact .goesOn "Payment flow started" rfl (by decide)
  | error startError => exact .fails (Or.inl rfl) rfl

/-- A session that is ready has an id, so that a press of the Pay button gets past the check for one. -/
theorem truthy_of_payEnabled {s : State} (h : payEnabled s = true) : s.paymentSession.id.truthy = true := by
  have hready : isSessionReady s = some true := by
    unfold payEnabled at h
    exact of_decide_eq_true (Bool.and_eq_true_iff.mp h).1
  unfold isSessionReady at hready
  cases hid : s.paymentSession.id with
  | none =>
      rw [hid] at hready
      cases hready
  | some j =>
      cases j with
      | str text =>
          refine decide_eq_true ?_
          rintro rfl
          rw [hid] at hready
          cases hready
      | null => rw [hid] at hready; cases hready
      | bool b => rw [hid] at hready; cases hready
      | num t => rw [hid] at hready; cases hready
      | arr xs => rw [hid] at hready; cases hready
      | obj ms => rw [hid] at hready; cases hready

theorem writes_beginPay {s : State} (h : payEnabled s = true) : Writes s.screen (beginPay s).screen := by
  unfold beginPay
  rw [if_pos (truthy_of_payEnabled h)]
  exact .goesOn "Submitting from JS button..." rfl (by decide)

theorem writes_beginHandleSubmit (s : State) (sessionData : SessionData) :
    Writes s.screen (beginHandleSubmit s sessionData).screen := by
  unfold beginHandleSubmit
  split
  · exact .fails (Or.inl rfl) rfl
  · exact .fails (Or.inl rfl) rfl
  · exact .goesOn "Submitting payment..." rfl (by decide)

theorem writes_outcome (s : Screen) (J : JsonText) (reply : Reply) : Writes s (outcome J reply) := by
  rcases outcome_cases J reply with ⟨-, -, h⟩ | ⟨-, -, text, h⟩ | ⟨-, message, h⟩
  · rw [h]
    exact .goesOn "3DS Authentication required..." rfl (by decide)
  · rw [h]
    exact .succeeds text
  · rw [h]
    exact .fails (Or.inl rfl) rfl

/-- The end of a native `submit()` that succeeded is the one path that clears the error and leaves the status. -/
theorem writes_step {s : State} {e : Event} (ha : (machine J toLowerCase).allowed s e) :
    Writes s.screen ((machine J toLowerCase).step s e).screen ∨
      (e = .finishPay (.ok ()) ∧ ((machine J toLowerCase).step s e).screen = { s.screen with error := none }) := by
  cases e with
  | startPayment => exact Or.inl (.goesOn "Processing..." rfl (by decide))
  | finishStart n reply => exact Or.inl (writes_finishStart s n reply)
  | pay => exact Or.inl (writes_beginPay ha)
  | finishPay outcome =>
      cases outcome with
      | ok done => exact Or.inr ⟨rfl, rfl⟩
      | error submitError => exact Or.inl (.fails (Or.inl rfl) rfl)
  | handleSubmit sessionData => exact Or.inl (writes_beginHandleSubmit s sessionData)
  | finishHandleSubmit k id reply => exact Or.inl (writes_outcome s.screen J reply)
  | handleTokenized tokenizationResult =>
      refine Or.inl ?_
      simp only [machine, handleTokenized]
      cases isMada toLowerCase tokenizationResult with
      | error e => exact .kept
      | ok mada => cases mada with
        | false => exact .kept
        | true => exact .fails (Or.inr rfl) rfl
  | paymentSuccess paymentId => exact Or.inl (.succeeds paymentId)
  | paymentError component errorMessage => exact Or.inl (.fails (Or.inl rfl) rfl)
  | closeFlow => exact Or.inl .closed

/-! ## Failures are explained -/

/-- No press of the Pay button ends well while the screen reports a failure. -/
def ClearsNoFailure (s : State) (e : Event) : Prop := e = .finishPay (.ok ()) → ¬ s.screen.Failing

theorem explained_step (s : State) (e : Event) (h : s.screen.Explained) (ha : (machine J toLowerCase).allowed s e) :
    ((machine J toLowerCase).step s e).screen.Explained ↔ ClearsNoFailure s e := by
  by_cases he : e = .finishPay (.ok ())
  · subst he
    change (Screen.Explained { s.screen with error := none }) ↔ _
    constructor
    · intro hex _ hf
      cases hex hf
    · exact fun hq hf => absurd hf (hq rfl)
  · rcases writes_step ha with hw | ⟨he', -⟩
    · exact iff_of_true (hw.explained h) fun he' => absurd he' he
    · exact absurd he' he

/-- **A run keeps every failure explained exactly if** no native `submit()` succeeds while one is on the screen. -/
theorem failures_explained_iff (J : JsonText) (toLowerCase : String → String) (es : List Event)
    (h : (machine J toLowerCase).Admits (machine J toLowerCase).init es) :
    (machine J toLowerCase).Throughout (fun s => s.screen.Explained) (machine J toLowerCase).init es ↔
      ((machine J toLowerCase).restrict ClearsNoFailure).Admits (machine J toLowerCase).init es :=
  Machine.throughout_iff_restrict (I := fun _ => True) (fun _ _ _ _ => trivial)
    (fun s e _ hs ha => explained_step s e hs ha) trivial Screen.explained_ready h

/-- A payment that is declined after the native `submit()` has answered. -/
def declinedRun : List Event :=
  [.startPayment, .finishStart 0 (sampleSession "ps_1"), .pay, .finishPay (.ok ()),
    .handleSubmit ⟨"ps_1", "pss", some "data"⟩, .finishHandleSubmit 0 "ps_1" (.response 402 "declined"), .closeFlow]

theorem failures_explained_decline :
    (machine sampleJson String.toLower).Throughout (fun s => s.screen.Explained)
      (machine sampleJson String.toLower).init declinedRun := by
  have hadm : (machine sampleJson String.toLower).Admits (machine sampleJson String.toLower).init declinedRun :=
    ⟨rfl, List.mem_singleton_self _, rfl, Nat.one_ne_zero, trivial, List.mem_singleton_self _, trivial, trivial⟩
  refine (failures_explained_iff _ _ _ hadm).mpr ⟨⟨rfl, nofun⟩, ⟨List.mem_singleton_self _, nofun⟩, ⟨rfl, nofun⟩,
    ⟨Nat.one_ne_zero, fun _ => ?_⟩, ⟨trivial, nofun⟩, ⟨List.mem_singleton_self _, nofun⟩, ⟨trivial, nofun⟩, trivial⟩
  decide

/-- An error event comes while the native `submit()` is awaited: its explanation is gone with the answer. -/
theorem pay_clears_explanation :
    let M := machine sampleJson String.toLower
    let es : List Event := [.startPayment, .finishStart 0 (sampleSession "ps_1"), .pay, .paymentError "Card" "declined",
      .finishPay (.ok ())]
    M.Admits M.init es ∧ (M.run M.init es).screen = ⟨"Error", none, true⟩ ∧
      ¬ M.Throughout (fun s => s.screen.Explained) M.init es := by
  intro M es
  refine ⟨⟨rfl, List.mem_singleton_self _, rfl, trivial, Nat.one_ne_zero, trivial⟩, rfl, fun h => ?_⟩
  cases h es (List.prefix_refl es) (Or.inl rfl)

/-! ## A success stands alone -/

/-- **In every run** a success is on the screen without an error, and the sheet is closed. -/
theorem success_alone (J : JsonText) (toLowerCase : String → String) (es : List Event)
    (h : (machine J toLowerCase).Admits (machine J toLowerCase).init es) :
    (machine J toLowerCase).Throughout (fun s => s.screen.Alone) (machine J toLowerCase).init es := by
  refine Machine.throughout_of_invariant (I := fun s => s.screen.Alone) (fun s e hs ha => ?_) (fun _ => id)
    Screen.alone_ready h
  rcases writes_step ha with hw | ⟨-, hw⟩
  · exact hw.alone hs
  · rw [hw]
    exact fun hsucc => ⟨rfl, (hs hsucc).2⟩

/-- A payment that goes through while another press of the Pay button is awaited. -/
theorem success_alone_sample :
    (machine sampleJson String.toLower).Throughout (fun s => s.screen.Alone) (machine sampleJson String.toLower).init
      [.startPayment, .finishStart 0 (sampleSession "ps_1"), .pay, .handleSubmit ⟨"ps_1", "pss", some "data"⟩,
        .finishHandleSubmit 0 "ps_1" (.response 200 "approved"), .finishPay (.ok ())] :=
  success_alone _ _ _
    ⟨rfl, List.mem_singleton_self _, rfl, trivial, List.mem_singleton_self _, Nat.one_ne_zero, trivial⟩

/-! ## `startPayment`, nothing coming in between -/

def startPayment (s : State) (reply : SessionReply) : State := finishStart (beginStart s) s.starts reply

structure FlowStarted (t : State) : Prop where
  screen : t.screen = ⟨"Payment flow started", none, true⟩
  id : trimmedNonempty t.paymentSession.id = some true
  secret : trimmedNonempty t.paymentSession.secret = some true

structure StartFailed (s t : State) : Prop where
  status : t.screen.status = "Error"
  error : t.screen.error.isSome = true
  showingFlow : t.screen.showingFlow = false
  paymentSession : t.paymentSession = s.paymentSession

/-- **All or nothing**, and the following render calls `trim()` on strings only. -/
structure AllOrNothing (s t : State) : Prop where
  outcome : FlowStarted t ∨ StartFailed s t
  renders : isSessionReady t ≠ none

def SessionReply.Fails (reply : SessionReply) : Prop := ∀ data, reply = .ok data → data = .null

/-- The reply has a session with an id and a secret that are texts and not blank. -/
def SessionReply.HasSession (reply : SessionReply) : Prop :=
  ∃ data, reply = .ok data ∧ trimmedNonempty (data.get "id") = some true ∧
    trimmedNonempty (data.get "payment_session_secret") = some true

theorem readSession_error {reply : SessionReply} (h : reply.Fails) : ∃ e, readSession reply = .error e := by
  cases reply with
  | rejected error => exact ⟨error, rfl⟩
  | notOk status errorText => exact ⟨_, rfl⟩
  | ok data =>
      obtain rfl := h data rfl
      exact ⟨_, rfl⟩

theorem readSession_ok {data : Json} (h : data ≠ .null) : readSession (.ok data) =
    .ok ⟨data.get "id", data.get "payment_session_token", data.get "payment_session_secret"⟩ := by
  rw [readSession, Value.member_of_ne_null h, Value.member_of_ne_null h, Value.member_of_ne_null h]
  rfl

theorem isSessionReady_of_nonempty {s : State} (hid : trimmedNonempty s.paymentSession.id = some true) :
    isSessionReady s = trimmedNonempty s.paymentSession.secret := by
  rw [isSessionReady, hid]
  rfl

/-- **`startPayment` is all or nothing exactly on** the replies that have a whole session and, if the session before
can be rendered, on those that have none. -/
theorem start_all_or_nothing_iff (s : State) (reply : SessionReply) :
    AllOrNothing s (startPayment s reply) ↔ reply.HasSession ∨ (reply.Fails ∧ isSessionReady s ≠ none) := by
  by_cases hf : reply.Fails
  · obtain ⟨e, he⟩ := readSession_error hf
    have hfailed : StartFailed s (startPayment s reply) := by
      unfold startPayment finishStart
      rw [he]
      exact ⟨rfl, rfl, rfl, rfl⟩
    have hrender : isSessionReady (startPayment s reply) = isSessionReady s := by
      rw [isSessionReady, isSessionReady, hfailed.paymentSession]
    have hnone : ¬ reply.HasSession := by
      rintro ⟨data, hdata, hid, -⟩
      rw [hf data hdata] at hid
      cases hid
    constructor
    · exact fun h => Or.inr ⟨hf, hrender ▸ h.renders⟩
    · rintro (h | ⟨-, h⟩)
      · exact absurd h hnone
      · exact ⟨Or.inr hfailed, hrender ▸ h⟩
  · obtain ⟨data, hf⟩ := not_forall.mp hf
    obtain ⟨rfl, hne⟩ := Classical.not_imp.mp hf
    have hsession : (startPayment s (.ok data)).paymentSession =
        ⟨data.get "id", data.get "payment_session_token", data.get "payment_session_secret"⟩ := by
      unfold startPayment finishStart
      rw [readSession_ok hne]
    have hscreen : (startPayment s (.ok data)).screen = ⟨"Payment flow started", none, true⟩ := by
      unfold startPayment finishStart
      rw [readSession_ok hne]
      rfl
    constructor
    · rintro ⟨h | h, -⟩
      · refine Or.inl ⟨data, rfl, ?_, ?_⟩
        · simpa only [hsession] using h.id
        · simpa only [hsession] using h.secret
      · have hstatus := h.status
        rw [hscreen] at hstatus
        exact absurd hstatus (by decide)
    · rintro (⟨data', hdata, hid, hsecret⟩ | ⟨h, -⟩)
      · obtain rfl := SessionReply.ok.inj hdata
        have hid' : trimmedNonempty (startPayment s (.ok data)).paymentSession.id = some true := by
          rw [hsession]
          exact hid
        have hsecret' : trimmedNonempty (startPayment s (.ok data)).paymentSession.secret = some true := by
          rw [hsession]
          exact hsecret
        refine ⟨Or.inl ⟨hscreen, hid', hsecret'⟩, ?_⟩
        rw [isSessionReady_of_nonempty hid', hsecret']
        exact Option.some_ne_none _
      · exact absurd (h data rfl) hne

/-- An answer without a session: the flow is reported as started, and the next render throws. -/
theorem empty_answer_breaks_render :
    let t := startPayment {} (.ok (.obj []))
    t.screen = ⟨"Payment flow started", none, true⟩ ∧ isSessionReady t = none ∧ ¬ AllOrNothing {} t := by
  intro t
  exact ⟨rfl, rfl, fun h => h.renders rfl⟩

end FlowDemo.Js.App
