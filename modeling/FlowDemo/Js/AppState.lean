import FlowDemo.Js.App

/-!
# The state of `App.tsx` and its handlers

What the screen shows, the payment session, and the calls that wait: `startPayment` for the backend, `handleSubmit` for
the backend, `submitCardFromJs` for the native module. Each `await` splits its function: `begin…` is the part before
it, `finish…` the part after it. The writes of one part reach the state together.

`toLowerCase` is a parameter, as `JSON` is.
-/

namespace FlowDemo.Js.App

/-- The state `paymentSession`. The members of the backend's answer go into it unchecked. -/
structure PaymentSession where
  id : Value := some (.str "")
  token : Value := some (.str "")
  secret : Value := some (.str "")

/-- The `startPayment` and `handleSubmit` calls are numbered in the order they begin. `created` keeps the sessions that
were created, in the order of their answers; `submitting` the session id of each waiting `handleSubmit`. -/
structure State where
  screen : Screen := {}
  paymentSession : PaymentSession := {}
  isSubmittingFromJs : Bool := false
  starts : Nat := 0
  creating : List Nat := []
  created : List (Nat × PaymentSession) := []
  submits : Nat := 0
  submitting : List (Nat × String) := []
  paying : Nat := 0

/-! ## `startPayment` -/

/-- What becomes of the request for a session: `fetch`, `text()` or `json()` rejects; an error answer is read as text;
or the answer is parsed. -/
inductive SessionReply
  | rejected (error : Error)
  | notOk (status : Nat) (errorText : String)
  | ok (data : Json)

def readSession : SessionReply → Except Error PaymentSession
  | .rejected error => .error error
  | .notOk status errorText => .error ("API error: " ++ toString status ++ " " ++ errorText)
  | .ok data => do
      let id ← Value.member (some data) "id"
      let token ← Value.member (some data) "payment_session_token"
      let secret ← Value.member (some data) "payment_session_secret"
      pure ⟨id, token, secret⟩

def beginStart (s : State) : State :=
  { s with
    screen := { s.screen with status := "Processing...", error := none }
    starts := s.starts + 1
    creating := s.creating ++ [s.starts] }

/-- The `n`-th `startPayment` goes on with its reply. -/
def finishStart (s : State) (n : Nat) (reply : SessionReply) : State :=
  let s := { s with creating := s.creating.erase n }
  match readSession reply with
  | .ok session =>
      { s with
        paymentSession := session
        created := s.created ++ [(n, session)]
        screen := { s.screen with status := "Payment flow started", showingFlow := true } }
  | .error startError =>
      { s with screen := { s.screen with
          error := some ("Error: " ++ startError)
          status := "Error"
          showingFlow := false } }

/-! ## `submitCardFromJs` -/

/-- What `String.prototype.trim` removes. -/
def isWhiteSpace (c : Char) : Bool :=
  [9, 10, 11, 12, 13, 32, 0xA0, 0x1680, 0x2028, 0x2029, 0x202F, 0x205F, 0x3000, 0xFEFF].contains c.toNat ||
    (0x2000 ≤ c.toNat && c.toNat ≤ 0x200A)

/-- `v.trim().length > 0`, `none` where it throws. -/
def trimmedNonempty : Value → Option Bool
  | some (.str s) => some (s.toList.any fun c => !isWhiteSpace c)
  | _ => none

/-- `isSessionReady`; nothing is rendered, and no button shown, where it throws. -/
def isSessionReady (s : State) : Option Bool := do
  if ← trimmedNonempty s.paymentSession.id then trimmedNonempty s.paymentSession.secret
  else pure false

def payEnabled (s : State) : Bool := isSessionReady s = some true && !s.isSubmittingFromJs

def startEnabled (s : State) : Bool := s.screen.status ≠ "Processing..."

/-- `submitCardFromJs` up to its `await`. -/
def beginPay (s : State) : State :=
  if s.paymentSession.id.truthy then
    { s with
      isSubmittingFromJs := true
      paying := s.paying + 1
      screen := { s.screen with status := "Submitting from JS button..." } }
  else { s with screen := { s.screen with error := some "No payment session available. Start payment first." } }

def finishPay (s : State) (outcome : Except Error Unit) : State :=
  let s := { s with
    isSubmittingFromJs := false
    paying := s.paying - 1 }
  match outcome with
  | .ok () => { s with screen := { s.screen with error := none } }
  | .error submitError => { s with screen := { s.screen with
      status := "Error"
      error := some ("JS submit failed: " ++ submitError) } }

/-! ## `handleSubmit` -/

section

variable (J : JsonText)

/-- `handleSubmit` from its first `await` on. -/
def settleSubmit (screen : Screen) (reply : Reply) : Screen × ApiCallResult :=
  let settled : Except Error (Screen × ApiCallResult) := match reply with
    | .rejected error => .error error
    | .response status body =>
        if ok status then onOk J screen (responseData J body) else onNotOk J screen (responseData J body)
  match settled with
  | .ok done => done
  | .error submitError => catchSubmit screen submitError

/-- A `handleSubmit` call, up to its first `await` or to its end. -/
def beginHandleSubmit (s : State) (sessionData : SessionData) : State :=
  let screen := beginSubmit s.screen
  match sessionData.sessionData with
  | none | some "" =>
      { s with
        submits := s.submits + 1
        screen := (catchSubmit screen "No session data available for submission").1 }
  | some _ =>
      { s with
        submits := s.submits + 1
        submitting := s.submitting ++ [(s.submits, sessionData.id)]
        screen := screen }

/-- The `k`-th `handleSubmit`, for session `id`, goes on with its reply. -/
def finishHandleSubmit (s : State) (k : Nat) (id : String) (reply : Reply) : State :=
  { s with
    submitting := s.submitting.erase (k, id)
    screen := (settleSubmit J s.screen reply).1 }

end

/-! ## `handleTokenized` -/

structure TokenizedCallbackResult where
  accepted : Bool
  rejectionMessage : Option String := none
  deriving DecidableEq

section

variable (toLowerCase : String → String)

def lower : Json → Except Error String
  | .str s => .ok (toLowerCase s)
  | .null => .error "Cannot read property 'toLowerCase' of null"
  | _ => .error "undefined is not a function"

/-- `v?.toLowerCase()` -/
def optionalLower : Value → Except Error (Option String)
  | none => .ok none
  | some .null => .ok none
  | some j => (lower toLowerCase j).map some

/-- `v?.map(s => s.toLowerCase()) ?? []` -/
def optionalLowerAll : Value → Except Error (List String)
  | none => .ok []
  | some .null => .ok []
  | some (.arr items) => items.mapM (lower toLowerCase)
  | some _ => .error "undefined is not a function"

def isMada (tokenizationResult : Value) : Except Error Bool := do
  let schemeLocal ← Value.member tokenizationResult "schemeLocal"
  let schemeLocal ← optionalLower toLowerCase schemeLocal
  let cardMetadata ← Value.member tokenizationResult "cardMetadata"
  let localSchemes ← optionalLowerAll toLowerCase (cardMetadata.optionalMember "localSchemes")
  pure (schemeLocal = some "mada" || localSchemes.contains "mada")

def handleTokenized (screen : Screen) (tokenizationResult : Value) :
    Except Error (Screen × TokenizedCallbackResult) := do
  if ← isMada toLowerCase tokenizationResult then
    pure ({ screen with status := "Declined", error := some "Mada cards are not supported." }, {
      accepted := false
      rejectionMessage := some "Mada cards are not supported." })
  else pure (screen, { accepted := true })

end

/-! ## The events of the native modules and the sheet -/

def onFlowPaymentSuccess (screen : Screen) (paymentId : String) : Screen :=
  { screen with status := "Success: " ++ paymentId, error := none, showingFlow := false }

def onFlowPaymentError (screen : Screen) (component errorMessage : String) : Screen :=
  { screen with
    status := "Error"
    error := some ("Error from " ++ component ++ ": " ++ errorMessage)
    showingFlow := true }

/-! ## All of it -/

inductive Event
  | startPayment
  | finishStart (n : Nat) (reply : SessionReply)
  | pay
  | finishPay (outcome : Except Error Unit)
  | handleSubmit (sessionData : SessionData)
  | finishHandleSubmit (k : Nat) (id : String) (reply : Reply)
  | handleTokenized (tokenizationResult : Value)
  | paymentSuccess (paymentId : String)
  | paymentError (component errorMessage : String)
  | closeFlow

/-- The user presses what is enabled; everything else comes at any time, the replies in any order. -/
def machine (J : JsonText) (toLowerCase : String → String) : Machine State Event where
  init := {}
  allowed s e := match e with
    | .startPayment => startEnabled s = true
    | .finishStart n _ => n ∈ s.creating
    | .pay => payEnabled s = true
    | .finishPay _ => s.paying ≠ 0
    | .finishHandleSubmit k id _ => (k, id) ∈ s.submitting
    | _ => True
  step s e := match e with
    | .startPayment => beginStart s
    | .finishStart n reply => finishStart s n reply
    | .pay => beginPay s
    | .finishPay outcome => finishPay s outcome
    | .handleSubmit sessionData => beginHandleSubmit s sessionData
    | .finishHandleSubmit k id reply => finishHandleSubmit J s k id reply
    | .handleTokenized tokenizationResult => match handleTokenized toLowerCase s.screen tokenizationResult with
        | .ok (screen, _) => { s with screen := screen }
        | .error _ => s
    | .paymentSuccess paymentId => { s with screen := onFlowPaymentSuccess s.screen paymentId }
    | .paymentError component errorMessage =>
        { s with screen := onFlowPaymentError s.screen component errorMessage }
    | .closeFlow => { s with screen := { s.screen with showingFlow := false } }

end FlowDemo.Js.App
