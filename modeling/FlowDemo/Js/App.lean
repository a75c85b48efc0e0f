import FlowDemo.Js.Listeners
import FlowDemo.Js.Value

/-!
# The submission of a payment by `App.tsx`

`App.handleSubmit` posts the session data to the backend, reads the answer leniently (any member may be missing, any
body that is not JSON is kept as `raw`), sets what the screen shows and returns a result. The listener of
`CardView.tsx` hands that result to the native module.

`JSON.parse` and `JSON.stringify` are parameters; nothing here depends on the texts they read or write.

* `handleSubmit_approved`: the answers that leave `Success` or `3DS` on the screen and return `success: true`;
* `handleSubmit_refused`: every other answer leaves an error on the screen and returns `success: false`.
-/

namespace FlowDemo.Js

/-- `JSON.parse`, `none` where it throws, and `JSON.stringify`. -/
structure JsonText where
  parse : String → Option Json
  stringify : Json → String

namespace App

structure Screen where
  status : String := "Ready"
  error : Option String := none
  showingFlow : Bool := false

structure ApiCallResult where
  success : Bool
  data : Option Object := none
  error : Value := none

/-- The request `fetch` is called with, less its constant headers. -/
structure Request where
  url : String
  method : String
  body : String

/-- What becomes of a request: `fetch` or `text()` rejects, or there is a status and a body. -/
inductive Reply
  | rejected (error : Error)
  | response (status : Nat) (body : String)

def ok (status : Nat) : Bool := 200 ≤ status && status ≤ 299

section

variable (J : JsonText)

def submitRequest (id sessionData : String) : Request where
  url := "https://api.sandbox.checkout.com/payment-sessions/" ++ id ++ "/submit"
  method := "POST"
  body := J.stringify (.obj [("session_data", .str sessionData), ("3ds", .obj [("enabled", .bool true)])])

/-- The parsed body, or the body as `raw`. -/
def responseData (responseText : String) : Json := (J.parse responseText).getD (.obj [("raw", .str responseText)])

/-- `responseData.status === 'Action Required' && responseData.action?.type === '3ds'` -/
def requires3ds (responseData : Json) : Except Error Bool := do
  let status ← Value.member (some responseData) "status"
  if status.isText "Action Required" then do
    let action ← Value.member (some responseData) "action"
    pure ((action.optionalMember "type").isText "3ds")
  else pure false

/-- The text of `responseData.id || 'Payment completed'`. -/
def shownId (id : Value) : Except Error String := (id.orElse (some (.str "Payment completed"))).toText

def showOk (screen : Screen) (responseData : Json) : Except Error Screen := do
  if ← requires3ds responseData then
    pure { screen with status := "3DS Authentication required...", showingFlow := true, error := none }
  else do
    let id ← Value.member (some responseData) "id"
    let text ← shownId id
    pure { screen with status := "Success: " ++ text, showingFlow := false, error := none }

def onOk (screen : Screen) (responseData : Json) : Except Error (Screen × ApiCallResult) := do
  let screen ← showOk screen responseData
  let paymentId ← Value.member (some responseData) "id"
  let status ← Value.member (some responseData) "status"
  let action ← Value.member (some responseData) "action"
  pure (screen, {
    success := true
    data := some [("response", some (.str (J.stringify responseData))), ("paymentId", paymentId),
      ("status", status), ("action", action)] })

def onNotOk (screen : Screen) (responseData : Json) : Except Error (Screen × ApiCallResult) := do
  let message ← Value.member (some responseData) "message"
  let text ← ((message.orElse (some (.str (J.stringify responseData)))).orElse (some (.str "Unknown error"))).toText
  pure ({ screen with status := "Error", error := some ("Payment failed: " ++ text), showingFlow := true }, {
    success := false
    error := message.orElse (some (.str "Payment submission failed")) })

def trySubmit (fetch : Request → Reply) (screen : Screen) (sessionData : SessionData) :
    Except Error (Screen × ApiCallResult) := do
  match sessionData.sessionData with
  | none | some "" => throw "No session data available for submission"
  | some raw =>
      match fetch (submitRequest J sessionData.id raw) with
      | .rejected error => throw error
      | .response status body =>
          if ok status then onOk J screen (responseData J body) else onNotOk J screen (responseData J body)

def beginSubmit (screen : Screen) : Screen := { screen with status := "Submitting payment..." }

/-- The `catch` block of `handleSubmit`, which sets again whatever the `try` block may have set before it threw. -/
def catchSubmit (screen : Screen) (errorMsg : String) : Screen × ApiCallResult :=
  ({ screen with status := "Error", error := some ("Error: " ++ errorMsg), showingFlow := true },
    { success := false, error := some (.str errorMsg) })

def handleSubmit (fetch : Request → Reply) (screen : Screen) (sessionData : SessionData) : Screen × ApiCallResult :=
  match trySubmit J fetch (beginSubmit screen) sessionData with
  | .ok done => done
  | .error submitError => catchSubmit (beginSubmit screen) submitError

/-! ## What each branch does -/

/-- The screen tells the user that the payment went through or goes on. -/
def Screen.ShowsSuccess (screen : Screen) : Prop :=
  startsWith screen.status "Success" = true ∨ startsWith screen.status "3DS" = true

/-- The answer asks for 3-D Secure. -/
def Is3ds (doc : Json) : Prop :=
  (doc.get "status").isText "Action Required" = true ∧ ((doc.get "action").optionalMember "type").isText "3ds" = true

/-- The answers `handleSubmit` takes for a success: 2xx, not `null`, and either a 3-D Secure request or one whose `id`
can be shown. -/
def Approves (status : Nat) (doc : Json) : Prop :=
  ok status = true ∧ doc ≠ .null ∧ (Is3ds doc ∨ ∃ text, (doc.get "id").toText = .ok text)

/-- The error answers whose `message` is passed on although it is no text. -/
def Garbles (status : Nat) (doc : Json) : Prop :=
  ok status = false ∧ (doc.get "message").truthy = true ∧ (∀ s, doc.get "message" ≠ some (.str s)) ∧
    ∃ text, (doc.get "message").toText = .ok text

theorem Garbles.message {status : Nat} {doc : Json} (h : Garbles status doc) :
    ∃ j, doc.get "message" = some j ∧ j ≠ .null ∧ ∀ s, j ≠ .str s := by
  obtain ⟨-, htruthy, hstr, -⟩ := h
  cases hm : doc.get "message" with
  | none =>
      rw [hm] at htruthy
      cases htruthy
  | some j =>
      rw [hm] at htruthy hstr
      refine ⟨j, rfl, ?_, fun s hs => hstr s (congrArg some hs)⟩
      rintro rfl
      cases htruthy

/-- What `handleSubmit` does on a success. -/
structure Succeeds (doc : Json) (done : Screen × ApiCallResult) : Prop where
  shown : done.1.ShowsSuccess
  noError : done.1.error = none
  success : done.2.success = true
  data : ∃ rest, done.2.data = some (("response", some (.str (J.stringify doc))) :: rest)
  returned : done.2.error = none

/-- What `handleSubmit` does on a failure, with the error it returns. -/
structure Fails (e : Value) (done : Screen × ApiCallResult) : Prop where
  notShown : ¬ done.1.ShowsSuccess
  error : done.1.error.isSome = true
  success : done.2.success = false
  data : done.2.data = none
  returned : done.2.error = e

theorem not_showsSuccess_error (e : Option String) (b : Bool) : ¬ Screen.ShowsSuccess ⟨"Error", e, b⟩ := by
  have hsuccess : ¬ startsWith "Error" "Success" = true := by decide
  have h3ds : ¬ startsWith "Error" "3DS" = true := by decide
  exact not_or.mpr ⟨hsuccess, h3ds⟩

theorem catchSubmit_fails (screen : Screen) (e : Error) : Fails (some (.str e)) (catchSubmit screen e) :=
  ⟨not_showsSuccess_error _ _, rfl, rfl, rfl, rfl⟩

theorem requires3ds_eq {doc : Json} (h : doc ≠ .null) :
    requires3ds doc = .ok ((doc.get "status").isText "Action Required" &&
      ((doc.get "action").optionalMember "type").isText "3ds") := by
  unfold requires3ds
  rw [Value.member_of_ne_null h, Value.member_of_ne_null h]
  cases hs : (doc.get "status").isText "Action Required" with
  | true => simp [hs, bind, Except.bind, pure, Except.pure]
  | false => simp [hs, bind, Except.bind, pure, Except.pure]

theorem shownId_ok_iff (id : Value) : (∃ text, shownId id = .ok text) ↔ ∃ text, id.toText = .ok text := by
  unfold shownId Value.orElse
  split
  · exact Iff.rfl
  · next hfalsy =>
      refine iff_of_true ⟨"Payment completed", rfl⟩ ?_
      cases id with
      | none => exact ⟨"undefined", rfl⟩
      | some j =>
          cases j with
          | null => exact ⟨_, rfl⟩
          | bool b => exact ⟨_, rfl⟩
          | num t => exact ⟨_, rfl⟩
          | str s => exact ⟨_, rfl⟩
          | arr xs => exact absurd rfl hfalsy
          | obj ms => exact absurd rfl hfalsy

theorem showOk_approved {status : Nat} {doc : Json} (h : Approves status doc) (screen : Screen) :
    ∃ shown, showOk screen doc = .ok shown ∧ shown.ShowsSuccess ∧ shown.error = none := by
  obtain ⟨-, hne, h⟩ := h
  unfold showOk
  rw [requires3ds_eq hne, Value.member_of_ne_null hne]
  cases h3 : (doc.get "status").isText "Action Required" &&
      ((doc.get "action").optionalMember "type").isText "3ds" with
  | true =>
      refine ⟨_, rfl, Or.inr ?_, rfl⟩
      have hstart : startsWith "3DS Authentication required..." "3DS" = true := by decide
      exact hstart
  | false =>
      have hid : ∃ text, shownId (doc.get "id") = .ok text := by
        rw [shownId_ok_iff]
        refine h.resolve_left fun h => ?_
        rw [h.1, h.2] at h3
        cases h3
      obtain ⟨text, ht⟩ := hid
      simp only [bind, Except.bind, ht]
      refine ⟨_, rfl, Or.inl ?_, rfl⟩
      change startsWith ("Success" ++ ": " ++ text) "Success" = true
      rw [String.append_assoc]
      exact startsWith_append _ _

theorem showOk_refused {status : Nat} {doc : Json} (hok : ok status = true) (h : ¬ Approves status doc)
    (screen : Screen) : ∃ e, showOk screen doc = .error e := by
  by_cases hne : doc = .null
  · subst hne
    exact ⟨_, rfl⟩
  · have h3 : ¬ Is3ds doc := fun h3 => h ⟨hok, hne, Or.inl h3⟩
    have hid : ¬ ∃ text, shownId (doc.get "id") = .ok text := fun hid =>
      h ⟨hok, hne, Or.inr ((shownId_ok_iff _).mp hid)⟩
    unfold showOk
    rw [requires3ds_eq hne, Value.member_of_ne_null hne, Bool.eq_false_iff.mpr (mt Bool.and_eq_true_iff.mp h3)]
    cases ht : shownId (doc.get "id") with
    | ok text => exact absurd ⟨text, ht⟩ hid
    | error e =>
        simp only [bind, Except.bind, ht]
        exact ⟨e, rfl⟩

theorem onOk_approved {status : Nat} {doc : Json} (h : Approves status doc) (screen : Screen) :
    ∃ done, onOk J screen doc = .ok done ∧ Succeeds J doc done := by
  obtain ⟨shown, hshow, hs, he⟩ := showOk_approved h screen
  unfold onOk
  rw [hshow, Value.member_of_ne_null h.2.1, Value.member_of_ne_null h.2.1, Value.member_of_ne_null h.2.1]
  exact ⟨_, rfl, hs, he, rfl, ⟨_, rfl⟩, rfl⟩

theorem onOk_refused {status : Nat} {doc : Json} (hok : ok status = true) (h : ¬ Approves status doc)
    (screen : Screen) : ∃ e, onOk J screen doc = .error e := by
  obtain ⟨e, he⟩ := showOk_refused hok h screen
  unfold onOk
  rw [he]
  exact ⟨e, rfl⟩

theorem orElse_of_truthy {v : Value} (h : v.truthy = true) (w : Value) : v.orElse w = v := if_pos h

theorem orElse_of_falsy {v : Value} (h : v.truthy = false) (w : Value) : v.orElse w = w :=
  if_neg (by rw [h]; exact Bool.false_ne_true)

theorem shownMessage_cases (m : Value) (s : String) :
    (m.truthy = true → ((m.orElse (some (.str s))).orElse (some (.str "Unknown error"))).toText = m.toText) ∧
      (m.truthy = false → ∃ text,
        ((m.orElse (some (.str s))).orElse (some (.str "Unknown error"))).toText = .ok text) := by
  refine ⟨fun h => ?_, fun h => ?_⟩
  · rw [orElse_of_truthy h, orElse_of_truthy h]
  · rw [orElse_of_falsy h]
    unfold Value.orElse
    split
    · exact ⟨s, rfl⟩
    · exact ⟨"Unknown error", rfl⟩

/-- An error answer is passed on with an error text, unless its message garbles it. -/
theorem onNotOk_cases {status : Nat} (doc : Json) (hok : ok status = false) (screen : Screen) :
    (Garbles status doc → ∃ done, onNotOk J screen doc = .ok done ∧ Fails (doc.get "message") done) ∧
      (¬ Garbles status doc → (∃ e, onNotOk J screen doc = .error e) ∨
        ∃ s done, onNotOk J screen doc = .ok done ∧ Fails (some (.str s)) done) := by
  by_cases hne : doc = .null
  · subst hne
    refine ⟨fun hg => absurd hg.2.1 (by decide), fun _ => Or.inl ⟨_, rfl⟩⟩
  · obtain ⟨htruthy, hfalsy⟩ := shownMessage_cases (doc.get "message") (J.stringify doc)
    unfold onNotOk
    rw [Value.member_of_ne_null hne]
    refine ⟨fun ⟨_, hm, _, text, ht⟩ => ?_, fun hg => ?_⟩
    · simp only [bind, Except.bind, htruthy hm, ht]
      exact ⟨_, rfl, not_showsSuccess_error _ _, rfl, rfl, rfl, orElse_of_truthy hm _⟩
    · cases hm : (doc.get "message").truthy with
      | false =>
          obtain ⟨text, ht⟩ := hfalsy hm
          simp only [bind, Except.bind, ht]
          exact Or.inr ⟨_, _, rfl, not_showsSuccess_error _ _, rfl, rfl, rfl, orElse_of_falsy hm _⟩
      | true =>
          cases ht : (doc.get "message").toText with
          | error e =>
              simp only [bind, Except.bind, htruthy hm, ht]
              exact Or.inl ⟨e, rfl⟩
          | ok text =>
              -- an answer that does not garble its message has a text for one
              have hstr : ∃ s, doc.get "message" = some (.str s) := by
                by_contra hns
                exact hg ⟨hok, hm, not_exists.mp hns, text, ht⟩
              obtain ⟨s, hs⟩ := hstr
              simp only [bind, Except.bind, htruthy hm, ht]
              refine Or.inr ⟨s, _, rfl, not_showsSuccess_error _ _, rfl, rfl, rfl, ?_⟩
              exact (orElse_of_truthy hm _).trans hs

/-! ## `handleSubmit` on an answer -/

variable {J} {fetch : Request → Reply} {sessionData : SessionData} {raw body : String} {status : Nat}

theorem trySubmit_response (hraw : raw ≠ "") (h : sessionData.sessionData = some raw)
    (hfetch : fetch (submitRequest J sessionData.id raw) = .response status body) (screen : Screen) :
    trySubmit J fetch screen sessionData =
      if ok status then onOk J screen (responseData J body) else onNotOk J screen (responseData J body) := by
  unfold trySubmit
  rw [h]
  split
  · next heq => cases heq
  · next heq => exact absurd (Option.some.inj heq) hraw
  · next heq =>
      obtain rfl := Option.some.inj heq
      rw [hfetch]

/-- **An approved answer** leaves success on the screen and is returned whole. -/
theorem handleSubmit_approved (hraw : raw ≠ "") (h : sessionData.sessionData = some raw)
    (hfetch : fetch (submitRequest J sessionData.id raw) = .response status body)
    (happ : Approves status (responseData J body)) (screen : Screen) :
    Succeeds J (responseData J body) (handleSubmit J fetch screen sessionData) := by
  obtain ⟨done, hdone, hs⟩ := onOk_approved J happ (beginSubmit screen)
  unfold handleSubmit
  rw [trySubmit_response hraw h hfetch, if_pos happ.1, hdone]
  exact hs

/-- **A refused answer** leaves an error on the screen and returns one: a text, unless the message garbles it. -/
theorem handleSubmit_refused (hraw : raw ≠ "") (h : sessionData.sessionData = some raw)
    (hfetch : fetch (submitRequest J sessionData.id raw) = .response status body)
    (href : ¬ Approves status (responseData J body)) (screen : Screen) :
    (Garbles status (responseData J body) →
        Fails ((responseData J body).get "message") (handleSubmit J fetch screen sessionData)) ∧
      (¬ Garbles status (responseData J body) →
        ∃ s, Fails (some (.str s)) (handleSubmit J fetch screen sessionData)) := by
  unfold handleSubmit
  rw [trySubmit_response hraw h hfetch]
  cases hok : ok status with
  | true =>
      obtain ⟨e, he⟩ := onOk_refused J hok href (beginSubmit screen)
      rw [if_pos rfl, he]
      exact ⟨fun hg => absurd (hok.symm.trans hg.1) (by decide), fun _ => ⟨e, catchSubmit_fails _ e⟩⟩
  | false =>
      obtain ⟨hgarbles, hplain⟩ := onNotOk_cases J (responseData J body) hok (beginSubmit screen)
      rw [if_neg Bool.false_ne_true]
      refine ⟨fun hg => ?_, fun hg => ?_⟩
      · obtain ⟨done, hdone, hf⟩ := hgarbles hg
        rw [hdone]
        exact hf
      · rcases hplain hg with ⟨e, he⟩ | ⟨s, done, hdone, hf⟩
        · rw [he]
          exact ⟨e, catchSubmit_fails _ e⟩
        · rw [hdone]
          exact ⟨s, hf⟩

end

end App

/-! ## The listener of `CardView.tsx` -/

structure NativeResponse where
  requestId : String
  success : Bool
  data : Object

/-- The `onCardHandleSubmit` listener once `handleSubmit` has settled; what is thrown may be no `Error` and then has no
message. -/
def onCardHandleSubmit (requestId : String) (settled : Except (Option Error) App.ApiCallResult) : NativeResponse :=
  match settled with
  | .ok result => ⟨requestId, result.success, (result.data.getD []).assign "error" result.error⟩
  | .error e => ⟨requestId, false, [("error", some (.str (e.getD "Unknown error")))]⟩

end FlowDemo.Js
