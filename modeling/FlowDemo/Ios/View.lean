import Mathlib.Logic.Function.Basic
import FlowDemo.Lib.LinkedMap
import FlowDemo.Js.Value

/-!
# The iOS payment views

`ApplePayView` and `CardPayView` share their life cycle and their two tables of pending requests, one for submissions
and one for tokenizations. They differ in the texts of their events. A view is known by a number; `phase` says whether
it exists, so that a weak reference to it can be read. `D` is the SDK's decoded submission result.

Two fields record what the source does not keep: `givenIDs`, the non-empty payment session ids a view was given, and
`initializedFor`, the one its `initialize` ran with.
-/

namespace FlowDemo.Ios

open Js (Json)

abbrev ViewId := Nat

/-- A suspended bridge call, numbered in the order of the calls. -/
abbrev Continuation := Nat

inductive ViewClass
  | applePay
  | card
  deriving DecidableEq

inductive Phase
  | absent
  | live
  | dead
  deriving DecidableEq

/-- An SDK component, known by the payment session it was created for. -/
structure Submittable where
  session : String
  isValid : Bool
  deriving DecidableEq

/-- The two kinds of requests a view sends to JavaScript. -/
inductive Channel
  | submit
  | tokenized
  deriving DecidableEq

structure View where
  viewClass : ViewClass := .applePay
  phase : Phase := .absent
  paymentSessionID : Option String := none
  paymentSessionSecret : Option String := none
  publicKey : Option String := none
  paymentMethod : Option String := none
  hasInitialized : Bool := false
  submittableComponent : Option Submittable := none
  pendingContinuations : LinkedMap String Continuation := ∅
  pendingTokenizedContinuations : LinkedMap String Continuation := ∅
  givenIDs : List String := []
  initializedFor : Option String := none

inductive APICallResult (D : Type)
  | success (result : D)
  | failure

inductive CallbackResult
  | accepted
  | rejected (message : Option String)

inductive Result (D : Type)
  | submit (r : APICallResult D)
  | tokenized (r : CallbackResult)

def Result.channel {D : Type} : Result D → Channel
  | .submit _ => .submit
  | .tokenized _ => .tokenized

/-- The `component` of a request: the text as it is, or what Swift's `lowercased()` makes of it. -/
inductive RequestComponent
  | literal (text : String)
  | lowercased (text : String)
  deriving DecidableEq

def RequestComponent.text (lowercased : String → String) : RequestComponent → String
  | .literal text => text
  | .lowercased text => lowercased text

/-- The events sent to JavaScript; the tokenization data goes along unread. -/
inductive NativeEvent
  | handleSubmit (component : RequestComponent) (requestId id secret sessionData : String)
  | handleTokenized (component : RequestComponent) (requestId : String)
  | paymentError (component errorMessage errorCode : String)
  deriving DecidableEq

/-- A queued or suspended `initialize`, with the values `maybeInitialize` captured. -/
structure InitializeTask where
  view : ViewId
  paymentSessionID : String
  paymentSessionSecret : String
  publicKey : String
  deriving DecidableEq

structure Rejection where
  code : String
  message : String
  deriving DecidableEq

/-- All views, `ApplePayViewRegistry.views` (its targets are weak references), and the traces that leave them. -/
structure State (D : Type) where
  view : ViewId → View := fun _ => {}
  views : LinkedMap String (List ViewId) := ∅
  tasks : List InitializeTask := []
  building : List InitializeTask := []
  calls : Nat := 0
  issued : List String := []
  emitted : List NativeEvent := []
  submitted : List (ViewId × Submittable) := []
  settled : List (String × Except Rejection Unit) := []
  resumed : List (Continuation × Result D) := []

/-! ## The views' own texts -/

namespace ViewClass

def errorComponent : ViewClass → String
  | .applePay => "ApplePay"
  | .card => "Card"

/-- How the class's messages call it. -/
def title : ViewClass → String
  | .applePay => "Apple Pay"
  | .card => "Card"

end ViewClass

namespace View

def requestComponent (w : View) : RequestComponent :=
  match w.viewClass with
  | .applePay => .lowercased (w.paymentMethod.getD "applepay")
  | .card => .literal "card"

def pending (w : View) : Channel → LinkedMap String Continuation
  | .submit => w.pendingContinuations
  | .tokenized => w.pendingTokenizedContinuations

def setPending (w : View) (m : LinkedMap String Continuation) : Channel → View
  | .submit => { w with pendingContinuations := m }
  | .tokenized => { w with pendingTokenizedContinuations := m }

def ready (w : View) : Bool := w.submittableComponent.any Submittable.isValid

end View

namespace State

variable {D : Type}

def setView (s : State D) (v : ViewId) (w : View) : State D := { s with view := Function.update s.view v w }

/-- A weak reference to `v` still reads the view. -/
def Live (s : State D) (v : ViewId) : Prop := (s.view v).phase = .live

instance (s : State D) (v : ViewId) : Decidable (s.Live v) := inferInstanceAs (Decidable ((s.view v).phase = .live))

def pending (s : State D) (ch : Channel) (v : ViewId) (r : String) : Option Continuation :=
  ((s.view v).pending ch).get r

def emit (s : State D) (e : NativeEvent) : State D := { s with emitted := s.emitted ++ [e] }

/-! ## Initialization -/

def maybeInitialize (s : State D) (v : ViewId) : State D :=
  if (s.view v).hasInitialized then s
  else match (s.view v).paymentSessionID, (s.view v).paymentSessionSecret, (s.view v).publicKey with
    | some id, some secret, some key =>
        if id.isEmpty || secret.isEmpty || key.isEmpty then s
        else { s with tasks := s.tasks ++ [⟨v, id, secret, key⟩] }
    | _, _, _ => s

/-- The task `t` runs `initialize` up to its `await`. -/
def beginInitialize (s : State D) (t : InitializeTask) : State D :=
  let s := { s with tasks := s.tasks.erase t }
  if (s.view t.view).hasInitialized then s
  else { s.setView t.view { s.view t.view with
      hasInitialized := true
      initializedFor := some t.paymentSessionID } with
    building := s.building ++ [t] }

/-- How `initialize` goes on after the `await`: it throws, or it creates a component, which may be submittable and may
be available. -/
inductive Creation
  | failed
  | created (submittable : Option Bool) (isAvailable : Bool)
  deriving DecidableEq

def finishInitialize (s : State D) (t : InitializeTask) (c : Creation) : State D :=
  let s := { s with building := s.building.erase t }
  match c with
  | .failed => s
  | .created submittable isAvailable =>
      let s := match submittable with
        | none => s
        | some isValid => s.setView t.view { s.view t.view with
            submittableComponent := some ⟨t.paymentSessionID, isValid⟩ }
      if isAvailable then s
      else s.emit (.paymentError (s.view t.view).viewClass.errorComponent
        ((s.view t.view).viewClass.title ++ " is not available on this device") "NOT_AVAILABLE")

/-- The SDK's `onChange` callback hands the view its component again. -/
def onChange (s : State D) (v : ViewId) (c : Submittable) : State D :=
  s.setView v { s.view v with submittableComponent := some c }

/-! ## Requests to JavaScript and their responses -/

def storeContinuation (s : State D) (ch : Channel) (v : ViewId) (requestId : String) : State D :=
  { s.setView v ((s.view v).setPending (((s.view v).pending ch).put requestId s.calls) ch) with
    calls := s.calls + 1
    issued := s.issued ++ [requestId] }

def bridgeHandleSubmit (s : State D) (v : ViewId) (sessionId secret submitData requestId : String) : State D :=
  (s.storeContinuation .submit v requestId).emit
    (.handleSubmit (s.view v).requestComponent requestId sessionId secret submitData)

def bridgeOnTokenized (s : State D) (v : ViewId) (requestId : String) : State D :=
  (s.storeContinuation .tokenized v requestId).emit (.handleTokenized (s.view v).requestComponent requestId)

def takeContinuation (s : State D) (v : ViewId) (requestId : String) (result : Result D) : State D :=
  match s.pending result.channel v requestId with
  | none => s
  | some c => { s.setView v ((s.view v).setPending (((s.view v).pending result.channel).remove requestId)
      result.channel) with resumed := s.resumed ++ [(c, result)] }

end State

/-- What a submit response means; `decode` is `decodeSubmissionResult`. -/
def submissionResult {D : Type} (decode : String → Option D) (success : Bool)
    (data : Option (List (String × Json))) : APICallResult D :=
  if success then
    match data.bind fun m => m.lookup "response" with
    | some (.str response) => match decode response with
        | some result => .success result
        | none => .failure
    | _ => .failure
  else .failure

def tokenizedResult (accepted : Bool) (rejectionMessage : Option String) : CallbackResult :=
  if accepted then .accepted else .rejected rejectionMessage

namespace State

variable {D : Type}

def handleSubmitResponse (decode : String → Option D) (s : State D) (v : ViewId) (requestId : String)
    (success : Bool) (data : Option (List (String × Json))) : State D :=
  s.takeContinuation v requestId (.submit (submissionResult decode success data))

def handleTokenizedResponse (s : State D) (v : ViewId) (requestId : String) (accepted : Bool)
    (rejectionMessage : Option String) : State D :=
  s.takeContinuation v requestId (.tokenized (tokenizedResult accepted rejectionMessage))

/-! ## Submission from JavaScript -/

def submitFromJS (s : State D) (v : ViewId) : State D × Bool :=
  match (s.view v).submittableComponent with
  | none => (s.emit (.paymentError (s.view v).viewClass.errorComponent
      ((s.view v).viewClass.title ++ " component is not ready yet") "NOT_READY"), false)
  | some c =>
      if c.isValid = false then
        (s.emit (.paymentError (s.view v).viewClass.errorComponent
          ((s.view v).viewClass.title ++ " component is not valid") "INVALID"), false)
      else ({ s with submitted := s.submitted ++ [(v, c)] }, true)

end State

/-! ## What carries a property of states through `initialize` -/

namespace State

variable {D : Type} {P : State D → Prop} {s : State D} {t : InitializeTask}

theorem beginInitialize_keeps (htask : P { s with tasks := s.tasks.erase t })
    (hset : (s.view t.view).hasInitialized = false → P { s.setView t.view { s.view t.view with
      hasInitialized := true
      initializedFor := some t.paymentSessionID } with
      tasks := s.tasks.erase t
      building := s.building ++ [t] }) : P (s.beginInitialize t) := by
  unfold beginInitialize
  dsimp only
  split
  · exact htask
  · next hfresh => exact hset (Bool.eq_false_iff.mpr hfresh)

theorem finishInitialize_keeps {c : Creation} (hdone : P { s with building := s.building.erase t })
    (hset : ∀ isValid, P { s.setView t.view { s.view t.view with
      submittableComponent := some ⟨t.paymentSessionID, isValid⟩ } with building := s.building.erase t })
    (hemit : ∀ s e, P s → P (s.emit e)) : P (s.finishInitialize t c) := by
  unfold finishInitialize
  cases c with
  | failed => exact hdone
  | created submittable isAvailable =>
      have hmade : P (match submittable with
          | none => { s with building := s.building.erase t }
          | some isValid => { s.setView t.view { s.view t.view with
              submittableComponent := some ⟨t.paymentSessionID, isValid⟩ } with
              building := s.building.erase t }) := by
        cases submittable with
        | none => exact hdone
        | some isValid => exact hset isValid
      dsimp only
      split
      · exact hmade
      · exact hemit _ _ hmade

end State

/-! ## What each operation changes -/

@[simp] theorem View.pending_setPending (w : View) (m : LinkedMap String Continuation) (ch ch' : Channel) :
    (w.setPending m ch).pending ch' = if ch' = ch then m else w.pending ch' := by
  cases ch <;> cases ch' <;> rfl

namespace State

variable {D : Type} (s : State D)

@[simp] theorem setView_view_self (v : ViewId) (w : View) : (s.setView v w).view v = w := Function.update_self _ _ _

theorem setView_view_of_ne {v v' : ViewId} (w : View) (h : v' ≠ v) : (s.setView v w).view v' = s.view v' :=
  Function.update_of_ne h _ _

theorem setView_view (v : ViewId) (w : View) (v' : ViewId) :
    (s.setView v w).view v' = if v' = v then w else s.view v' := by
  split
  · next h => rw [h, setView_view_self]
  · next h => exact setView_view_of_ne s w h

theorem storeContinuation_view (ch : Channel) (v : ViewId) (r : String) (v' : ViewId) :
    (s.storeContinuation ch v r).view v' =
      if v' = v then (s.view v).setPending (((s.view v).pending ch).put r s.calls) ch else s.view v' :=
  setView_view s v _ v'

theorem storeContinuation_pending (ch : Channel) (v : ViewId) (r : String) (ch' : Channel) (v' : ViewId)
    (r' : String) :
    (s.storeContinuation ch v r).pending ch' v' r' =
      if ch' = ch ∧ v' = v ∧ r' = r then some s.calls else s.pending ch' v' r' := by
  unfold pending
  rw [storeContinuation_view]
  by_cases hv : v' = v
  · subst hv
    rw [if_pos rfl, View.pending_setPending]
    by_cases hch : ch' = ch
    · subst hch
      rw [if_pos rfl, LinkedMap.get_put]
      simp
    · rw [if_neg hch, if_neg fun h => hch h.1]
  · rw [if_neg hv, if_neg fun h => hv h.2.1]

theorem takeContinuation_of_none {v : ViewId} {r : String} {result : Result D}
    (h : s.pending result.channel v r = none) : s.takeContinuation v r result = s := by
  simp only [takeContinuation, h]

theorem takeContinuation_of_some {v : ViewId} {r : String} {result : Result D} {c : Continuation}
    (h : s.pending result.channel v r = some c) :
    s.takeContinuation v r result =
      { s.setView v ((s.view v).setPending (((s.view v).pending result.channel).remove r) result.channel) with
        resumed := s.resumed ++ [(c, result)] } := by
  simp only [takeContinuation, h]

theorem takeContinuation_pending (v : ViewId) (r : String) (result : Result D) (ch : Channel) (v' : ViewId)
    (r' : String) :
    (s.takeContinuation v r result).pending ch v' r' =
      if ch = result.channel ∧ v' = v ∧ r' = r then none else s.pending ch v' r' := by
  cases hc : s.pending result.channel v r with
  | none =>
      rw [takeContinuation_of_none s hc]
      split
      · next h => rw [h.1, h.2.1, h.2.2, hc]
      · rfl
  | some c =>
      rw [takeContinuation_of_some s hc]
      change (((s.setView v _).view v').pending ch).get r' = _
      rw [setView_view]
      by_cases hv : v' = v
      · subst hv
        rw [if_pos rfl, View.pending_setPending]
        by_cases hch : ch = result.channel
        · rw [if_pos hch, LinkedMap.get_remove, hch]
          simp [pending]
        · rw [if_neg hch, if_neg fun h => hch h.1]
          rfl
      · rw [if_neg hv, if_neg fun h => hv h.2.1]
        rfl

end State

end FlowDemo.Ios
