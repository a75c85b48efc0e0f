import Mathlib.Logic.Function.Basic
import Mathlib.Data.Set.Basic
import FlowDemo.Lib.LinkedMap
import FlowDemo.Lib.Machine
import FlowDemo.Android.Response

/-!
# The Android card views and their registry

The state of every `CardView` and of the one `CardViewRegistry`, and the operations on it in the order the source
performs them. A view is known by a number; any number of them exist. `handleSubmit` and `handleSubmitResponse` are
each two updates of two maps, kept apart here (`storeContinuation` and `registerView`, `unregisterView` and
`takeContinuation`) so that they can also be interleaved.
-/

namespace FlowDemo.Android.Card

abbrev ViewId := Nat

/-- A suspended `handleSubmit` call, numbered in the order of the calls. -/
abbrev Continuation := Nat

/-- `submitAction`: the initial lambda, which only logs, or the one that launches `cardComponent.submit()`. The
component is known by the payment session it was created for. -/
inductive SubmitAction
  | notReady
  | component (session : String)
  deriving DecidableEq

structure CardView where
  hasInitialized : Bool := false
  currentSessionData : Option SessionData := none
  pendingContinuations : LinkedMap String Continuation := ∅
  submitAction : SubmitAction := .notReady

structure SubmitEvent where
  requestId : String
  sessionData : SessionData
  deriving DecidableEq

/-- A component creation launched by `initialize`, with what its configuration captured. -/
structure Creation where
  view : ViewId
  paymentSessionID : String
  paymentSessionSecret : String
  publicKey : String
  deriving DecidableEq

/-- All views, `CardViewRegistry.views`, and the traces that leave them. `issued` lists the request ids drawn from
`UUID.randomUUID()` so far and `calls` counts the calls. -/
structure State where
  view : ViewId → CardView := fun _ => {}
  registry : LinkedMap String ViewId := ∅
  calls : Nat := 0
  issued : List String := []
  emitted : List SubmitEvent := []
  resumed : List (Continuation × CustomApiCallResult) := []
  creations : List Creation := []

namespace State

def setView (s : State) (v : ViewId) (w : CardView) : State := { s with view := Function.update s.view v w }

def pending (s : State) (v : ViewId) (r : String) : Option Continuation := (s.view v).pendingContinuations.get r

/-! ## `CardViewRegistry` -/

def registerView (s : State) (sessionId : String) (v : ViewId) : State :=
  { s with registry := s.registry.put sessionId v }

def getView (s : State) (sessionId : String) : Option ViewId := s.registry.get sessionId

def unregisterView (s : State) (sessionId : String) : State :=
  { s with registry := s.registry.remove sessionId }

/-! ## `CardView` -/

/-- `pendingContinuations[requestId] = continuation` -/
def storeContinuation (s : State) (v : ViewId) (requestId : String) : State :=
  { s.setView v { s.view v with
      pendingContinuations := (s.view v).pendingContinuations.put requestId s.calls } with
    calls := s.calls + 1
    issued := s.issued ++ [requestId] }

/-- `CardModule.emitEvent`; `emits` is false when the bridge throws instead of delivering the event. -/
def emitEvent (s : State) (event : SubmitEvent) (emits : Bool) : State :=
  if emits then { s with emitted := s.emitted ++ [event] } else s

def handleSubmit (s : State) (v : ViewId) (sessionData : SessionData) (requestId : String) (emits : Bool) : State :=
  ((s.storeContinuation v requestId).registerView requestId v).emitEvent ⟨requestId, sessionData⟩ emits

/-- The `handleSubmit` lambda of the component callback, up to the suspension. -/
def onHandleSubmit (s : State) (v : ViewId) (raw : String) (requestId : String) (emits : Bool) : State :=
  match (s.view v).currentSessionData with
  | none => s
  | some base => s.handleSubmit v { base with sessionData := some raw } requestId emits

/-- The second half of `CardView.handleSubmitResponse`: remove the continuation, read the response, resume. -/
def takeContinuation (s : State) (v : ViewId) (requestId : String) (success : Bool) (data : Option ReadableMap) :
    State × Except NativeException Unit :=
  match (s.view v).pendingContinuations.get requestId with
  | none => (s, .ok ())
  | some c =>
      let s := s.setView v { s.view v with
        pendingContinuations := (s.view v).pendingContinuations.remove requestId }
      match responseResult success data with
      | .error e => (s, .error e)
      | .ok result => ({ s with resumed := s.resumed ++ [(c, result)] }, .ok ())

def handleSubmitResponse (s : State) (v : ViewId) (requestId : String) (success : Bool)
    (data : Option ReadableMap) : State × Except NativeException Unit :=
  (s.unregisterView requestId).takeContinuation v requestId success data

/-- `CardView.initialize`; `activity` tells whether a `ComponentActivity` is at hand. -/
def initializeView (s : State) (v : ViewId) (paymentSessionID paymentSessionSecret publicKey : String)
    (activity : Bool) : State :=
  if (s.view v).hasInitialized then s
  else
    let s := s.setView v { s.view v with
      hasInitialized := true
      currentSessionData := some { id := paymentSessionID, secret := paymentSessionSecret } }
    let s := s.registerView paymentSessionID v
    if activity then
      { s with creations := s.creations ++ [⟨v, paymentSessionID, paymentSessionSecret, publicKey⟩] }
    else s.setView v { s.view v with hasInitialized := false }

/-- The coroutine `initialize` launched ends: `created` tells whether it got as far as the component, after which
`submitAction` launches that component's `submit()`. An exception before that is caught and logged. -/
def finishCreation (s : State) (c : Creation) (created : Bool) : State :=
  let s := { s with creations := s.creations.erase c }
  if created then s.setView c.view { s.view c.view with submitAction := .component c.paymentSessionID } else s

end State

/-- `CardModule.handleSubmitResponse`: exceptions of the view are caught and logged. -/
def CardModule.handleSubmitResponse (s : State) (requestId : String) (success : Bool) (data : Option ReadableMap) :
    State :=
  match s.getView requestId with
  | none => s
  | some v => (s.handleSubmitResponse v requestId success data).1

/-! ## What each operation changes -/

namespace State

@[simp] theorem setView_view_self (s : State) (v : ViewId) (w : CardView) : (s.setView v w).view v = w :=
  Function.update_self _ _ _

theorem setView_view_of_ne (s : State) {v v' : ViewId} (w : CardView) (h : v' ≠ v) :
    (s.setView v w).view v' = s.view v' :=
  Function.update_of_ne h _ _

/-- Writing a view without touching its continuations changes no view's continuations. -/
theorem setView_pending (s : State) (v : ViewId) (w : CardView)
    (h : w.pendingContinuations = (s.view v).pendingContinuations) (v' : ViewId) (r : String) :
    (s.setView v w).pending v' r = s.pending v' r := by
  unfold pending
  by_cases hv : v' = v
  · rw [hv, setView_view_self, h]
  · rw [setView_view_of_ne s w hv]

@[simp] theorem registerView_pending (s : State) (k : String) (v v' : ViewId) (r : String) :
    (s.registerView k v).pending v' r = s.pending v' r := rfl

@[simp] theorem unregisterView_pending (s : State) (k : String) (v' : ViewId) (r : String) :
    (s.unregisterView k).pending v' r = s.pending v' r := rfl

theorem storeContinuation_pending (s : State) (v : ViewId) (r : String) (v' : ViewId) (r' : String) :
    (s.storeContinuation v r).pending v' r' = if v' = v ∧ r' = r then some s.calls else s.pending v' r' := by
  change ((s.setView v _).view v').pendingContinuations.get r' = _
  by_cases hv : v' = v
  · subst hv
    rw [setView_view_self, LinkedMap.get_put]
    simp only [true_and]
    rfl
  · rw [setView_view_of_ne s _ hv, if_neg fun h => hv h.1]
    rfl

@[simp] theorem emitEvent_pending (s : State) (e : SubmitEvent) (b : Bool) (v : ViewId) (r : String) :
    (s.emitEvent e b).pending v r = s.pending v r := by cases b <;> rfl

@[simp] theorem emitEvent_registry (s : State) (e : SubmitEvent) (b : Bool) :
    (s.emitEvent e b).registry = s.registry := by cases b <;> rfl

@[simp] theorem emitEvent_resumed (s : State) (e : SubmitEvent) (b : Bool) :
    (s.emitEvent e b).resumed = s.resumed := by cases b <;> rfl

@[simp] theorem emitEvent_issued (s : State) (e : SubmitEvent) (b : Bool) :
    (s.emitEvent e b).issued = s.issued := by cases b <;> rfl

@[simp] theorem emitEvent_calls (s : State) (e : SubmitEvent) (b : Bool) :
    (s.emitEvent e b).calls = s.calls := by cases b <;> rfl

/-- **`initialize`** touches the registry only at its session id, and no continuation. -/
structure InitializeFrame (s t : State) (v : ViewId) (id : String) : Prop where
  pending : ∀ w r, t.pending w r = s.pending w r
  registry : t.registry = s.registry ∨ t.registry = s.registry.put id v
  calls : t.calls = s.calls
  issued : t.issued = s.issued
  resumed : t.resumed = s.resumed

theorem initializeView_frame (s : State) (v : ViewId) (id secret key : String) (activity : Bool) :
    InitializeFrame s (s.initializeView v id secret key activity) v id := by
  unfold initializeView
  split
  · exact ⟨fun _ _ => rfl, Or.inl rfl, rfl, rfl, rfl⟩
  · cases activity with
    | true => exact ⟨fun w r => setView_pending s v _ (by rfl) w r, Or.inr rfl, rfl, rfl, rfl⟩
    | false =>
        refine ⟨fun w r => ?_, Or.inr rfl, rfl, rfl, rfl⟩
        refine (setView_pending _ v _ (by rfl) w r).trans ?_
        exact setView_pending s v _ (by rfl) w r

theorem finishCreation_frame (s : State) (c : Creation) (created : Bool) :
    (∀ w r, (s.finishCreation c created).pending w r = s.pending w r) ∧
      (s.finishCreation c created).registry = s.registry ∧ (s.finishCreation c created).calls = s.calls ∧
      (s.finishCreation c created).issued = s.issued ∧ (s.finishCreation c created).resumed = s.resumed := by
  cases created with
  | true => exact ⟨fun w r => setView_pending _ c.view _ (by rfl) w r, rfl, rfl, rfl, rfl⟩
  | false => exact ⟨fun _ _ => rfl, rfl, rfl, rfl, rfl⟩

/-! ## `takeContinuation` -/

theorem takeContinuation_of_none (s : State) {v : ViewId} {r : String} (success : Bool) (data : Option ReadableMap)
    (h : s.pending v r = none) : s.takeContinuation v r success data = (s, .ok ()) := by
  unfold takeContinuation
  rw [show (s.view v).pendingContinuations.get r = none from h]

/-- What `takeContinuation` leaves of the continuations: the one it was called for is gone. -/
theorem takeContinuation_pending (s : State) (v : ViewId) (r : String) (success : Bool) (data : Option ReadableMap)
    (v' : ViewId) (r' : String) :
    (s.takeContinuation v r success data).1.pending v' r' = if v' = v ∧ r' = r then none else s.pending v' r' := by
  cases hc : s.pending v r with
  | none =>
      rw [takeContinuation_of_none s success data hc]
      split
      · next h => rw [h.1, h.2, hc]
      · rfl
  | some c =>
      have key : (s.setView v { s.view v with
          pendingContinuations := (s.view v).pendingContinuations.remove r }).pending v' r' =
          if v' = v ∧ r' = r then none else s.pending v' r' := by
        unfold pending
        by_cases hv : v' = v
        · subst hv
          rw [setView_view_self, LinkedMap.get_remove]
          simp only [true_and]
        · rw [setView_view_of_ne s _ hv, if_neg fun h => hv h.1]
      unfold takeContinuation
      rw [show (s.view v).pendingContinuations.get r = some c from hc]
      cases responseResult success data with
      | error e => exact key
      | ok result => exact key

theorem takeContinuation_frame (s : State) (v : ViewId) (r : String) (success : Bool) (data : Option ReadableMap) :
    (s.takeContinuation v r success data).1.registry = s.registry ∧
      (s.takeContinuation v r success data).1.calls = s.calls ∧
      (s.takeContinuation v r success data).1.issued = s.issued := by
  unfold takeContinuation
  split
  · exact ⟨rfl, rfl, rfl⟩
  · split <;> exact ⟨rfl, rfl, rfl⟩

/-- The continuation it removed, if any, is resumed with the result of the response unless reading that throws. -/
theorem takeContinuation_resumed (s : State) (v : ViewId) (r : String) (success : Bool) (data : Option ReadableMap) :
    (s.takeContinuation v r success data).1.resumed =
      s.resumed ++ (s.pending v r).toList.filterMap fun c =>
        (responseResult success data).toOption.map fun result => (c, result) := by
  cases hc : s.pending v r with
  | none =>
      rw [takeContinuation_of_none s success data hc]
      simp
  | some c =>
      unfold takeContinuation
      rw [show (s.view v).pendingContinuations.get r = some c from hc]
      cases responseResult success data with
      | error e => simp [setView, Except.toOption]
      | ok result => simp [setView, Except.toOption]

end State

/-! ## The card views as a machine -/

/-- One call into the card views, run to its end. -/
inductive Event
  | initializeView (v : ViewId) (paymentSessionID paymentSessionSecret publicKey : String) (activity : Bool)
  | finishCreation (c : Creation) (created : Bool)
  | handleSubmit (v : ViewId) (raw requestId : String) (emits : Bool)
  | handleSubmitResponse (requestId : String) (success : Bool) (data : Option ReadableMap)

/-- `UUID.randomUUID()` never repeats itself and never hits a payment session id. -/
def State.FreshId (s : State) (Session : Set String) (r : String) : Prop := r ∉ Session ∧ r ∉ s.issued

/-- Any number of views, each call atomic: `initialize` with payment session ids, `handleSubmit` with fresh request
ids, and responses from JavaScript with any id, flag and payload. -/
def machine (Session : Set String) : Machine State Event where
  init := {}
  allowed s e := match e with
    | .initializeView _ id _ _ _ => id ∈ Session
    | .finishCreation c _ => c ∈ s.creations
    | .handleSubmit _ _ r _ => s.FreshId Session r
    | .handleSubmitResponse _ _ _ => True
  step s e := match e with
    | .initializeView v id secret key activity => s.initializeView v id secret key activity
    | .finishCreation c created => s.finishCreation c created
    | .handleSubmit v raw r emits => s.onHandleSubmit v raw r emits
    | .handleSubmitResponse r success data => CardModule.handleSubmitResponse s r success data

end FlowDemo.Android.Card
