import FlowDemo.Js.Value
import FlowDemo.Lib.Machine
import FlowDemo.Overlay
import FlowDemo.Ios.View

/-!
# `CheckoutFlowManager`

`initialize` builds the `CheckoutComponents` in a task, `renderFlow` and `dismissFlow` queue blocks on the main queue,
and a successful payment dismisses at once. The manager remembers one hosting controller.

* `DismissClears`: a dismissal takes off every controller;
* `clears_throughout_iff`: the runs in which that is so.
-/

namespace FlowDemo.Ios.Flow

open Js (Json)

/-- A call from JavaScript with its promise, in the order of the calls. -/
abbrev Promise := Nat

structure PaymentSession where
  id : String
  paymentSessionSecret : String
  deriving DecidableEq

inductive Block
  | settle (p : Promise) (outcome : Except Rejection Unit)
  | render (p : Promise) (checkoutComponents : PaymentSession)
  | dismiss (p : Promise)
  deriving DecidableEq

/-- `CheckoutComponents` are known by their session. `initializing` are the tasks that build some and `built` what they
have built; `overlays` are the hosting controllers, the remembered one being `flowHostingController`; `emitted` are the
payment ids of the `onFlowPaymentSuccess` events. -/
structure State where
  calls : Nat := 0
  initializing : List (Promise × PaymentSession) := []
  checkoutComponents : Option PaymentSession := none
  built : List PaymentSession := []
  overlays : Overlays := .empty
  queue : List Block := []
  settled : List (Promise × Except Rejection Unit) := []
  emitted : List String := []

namespace State

def settle (s : State) (p : Promise) (outcome : Except Rejection Unit) : State :=
  { s with settled := s.settled ++ [(p, outcome)] }

/-- `initialize`, up to its task. -/
def initializeSession (s : State) (paymentSession : List (String × Json)) : State :=
  let p := s.calls
  let s := { s with calls := s.calls + 1 }
  match paymentSession.lookup "id", paymentSession.lookup "payment_session_secret" with
  | some (.str id), some (.str secret) => { s with initializing := s.initializing ++ [(p, ⟨id, secret⟩)] }
  | _, _ => s.settle p (.error ⟨"ERROR", "Invalid payment session object"⟩)

/-- The task of `initialize` ends, with the description of what it threw if it did. -/
def finishInitialize (s : State) (p : Promise) (session : PaymentSession) (error : Option String) : State :=
  let s := { s with initializing := s.initializing.erase (p, session) }
  match error with
  | none => { s with
      checkoutComponents := some session
      built := s.built ++ [session]
      queue := s.queue ++ [.settle p (.ok ())] }
  | some error => { s with
      queue := s.queue ++ [.settle p (.error ⟨"INIT_ERROR", "Failed to initialize: " ++ error⟩)] }

def renderFlow (s : State) : State :=
  let p := s.calls
  let s := { s with calls := s.calls + 1 }
  match s.checkoutComponents with
  | none => s.settle p (.error ⟨"NOT_INITIALIZED", "CheckoutComponents not initialized"⟩)
  | some checkoutComponents => { s with queue := s.queue ++ [.render p checkoutComponents] }

def dismissFlow (s : State) : State :=
  { s with
    calls := s.calls + 1
    queue := s.queue ++ [.dismiss s.calls] }

def dismissFlowView (s : State) : State :=
  match s.overlays.remembered with
  | none => s
  | some _ => { s with overlays := s.overlays.detach.forget }

/-- The block of `renderFlow`: `root` tells whether there is a root view controller, `error` what `create` threw. -/
def render (s : State) (p : Promise) (root : Bool) (error : Option String) : State :=
  if root then
    match error with
    | none => { s with overlays := s.overlays.attach }.settle p (.ok ())
    | some error => s.settle p (.error ⟨"RENDER_ERROR", "Failed to render Flow: " ++ error⟩)
  else s.settle p (.error ⟨"NO_ROOT_VIEW", "Root view controller not found"⟩)

def runBlock (s : State) (root : Bool) (error : Option String) : State :=
  match s.queue with
  | [] => s
  | .settle p outcome :: rest => { s with queue := rest }.settle p outcome
  | .render p _ :: rest => { s with queue := rest }.render p root error
  | .dismiss p :: rest => { s with queue := rest }.dismissFlowView.settle p (.ok ())

def onSuccess (s : State) (paymentID : String) : State := { s with emitted := s.emitted ++ [paymentID] }.dismissFlowView

end State

inductive Event
  | initializeSession (paymentSession : List (String × Json))
  | finishInitialize (p : Promise) (session : PaymentSession) (error : Option String)
  | renderFlow
  | dismissFlow
  | runBlock (root : Bool) (error : Option String)
  | onSuccess (session : PaymentSession) (paymentID : String)

/-- Calls in any order, the tasks ending in any order, the main queue in its own. -/
def machine : Machine State Event where
  init := {}
  allowed s e := match e with
    | .initializeSession _ => True
    | .finishInitialize p session _ => (p, session) ∈ s.initializing
    | .renderFlow => True
    | .dismissFlow => True
    | .runBlock _ _ => s.queue ≠ []
    | .onSuccess session _ => session ∈ s.built
  step s e := match e with
    | .initializeSession paymentSession => s.initializeSession paymentSession
    | .finishInitialize p session error => s.finishInitialize p session error
    | .renderFlow => s.renderFlow
    | .dismissFlow => s.dismissFlow
    | .runBlock root error => s.runBlock root error
    | .onSuccess _ paymentID => s.onSuccess paymentID

instance (s : State) : ∀ e, Decidable (machine.allowed s e)
  | .initializeSession _ => isTrue trivial
  | .finishInitialize p session _ => inferInstanceAs (Decidable ((p, session) ∈ s.initializing))
  | .renderFlow => isTrue trivial
  | .dismissFlow => isTrue trivial
  | .runBlock _ _ => inferInstanceAs (Decidable (s.queue ≠ []))
  | .onSuccess session _ => inferInstanceAs (Decidable (session ∈ s.built))

/-! ## What a dismissal takes off -/

theorem State.initializeSession_cases (s : State) (paymentSession : List (String × Json)) :
    (∃ session, s.initializeSession paymentSession =
        { s with calls := s.calls + 1, initializing := s.initializing ++ [(s.calls, session)] }) ∨
      ∃ error, s.initializeSession paymentSession =
        { s with calls := s.calls + 1, settled := s.settled ++ [(s.calls, .error error)] } := by
  unfold State.initializeSession
  split
  · exact Or.inl ⟨_, rfl⟩
  · exact Or.inr ⟨_, rfl⟩

theorem State.renderFlow_cases (s : State) :
    (∃ session, s.checkoutComponents = some session ∧
        s.renderFlow = { s with calls := s.calls + 1, queue := s.queue ++ [.render s.calls session] }) ∨
      ∃ error, s.renderFlow = { s with calls := s.calls + 1, settled := s.settled ++ [(s.calls, .error error)] } := by
  unfold State.renderFlow
  dsimp only
  split
  · exact Or.inr ⟨_, rfl⟩
  · next session hfield => exact Or.inl ⟨session, hfield, rfl⟩

/-- **A dismissal that runs now**, by `dismissFlow` or after a payment, leaves no controller attached to the root. -/
def DismissClears (s : State) : Prop := s.dismissFlowView.overlays.attached = []

/-- A block that attaches a controller runs only when none is attached. -/
def RendersAlone (s : State) (e : Event) : Prop :=
  e = .runBlock true none → ∀ p session rest, s.queue = .render p session :: rest → s.overlays.attached = []

theorem dismissClears_iff (s : State) : DismissClears s ↔ s.overlays.Clears := by
  unfold DismissClears State.dismissFlowView
  split
  · next hnone =>
      have hall : s.overlays.attached.filter (fun c => s.overlays.remembered ≠ some c) = s.overlays.attached := by
        rw [hnone, List.filter_eq_self]
        exact fun _ _ => rfl
      change _ ↔ s.overlays.attached.filter _ = []
      rw [hall]
  · rfl

theorem DismissClears.congr {s t : State} (h : DismissClears s) (ht : t.overlays = s.overlays) : DismissClears t := by
  rw [dismissClears_iff, ht]
  exact (dismissClears_iff s).mp h

theorem dismissFlowView_attached {s : State} (h : DismissClears s) : DismissClears s.dismissFlowView :=
  (dismissClears_iff _).mpr (Overlays.clears_of_attached h)

theorem dismissClears_runBlock (s : State) (root : Bool) (error : Option String) (h : DismissClears s) :
    DismissClears (s.runBlock root error) ↔ RendersAlone s (.runBlock root error) := by
  have hother : ∀ b rest, s.queue = b :: rest → (∀ p session, b ≠ .render p session) →
      RendersAlone s (.runBlock root error) := by
    intro b rest hqueue hb _ p session rest' heq
    exact absurd (List.cons.inj (hqueue.symm.trans heq)).1 (hb p session)
  unfold State.runBlock
  split
  · next hqueue => exact iff_of_true h fun _ _ _ _ heq => absurd (hqueue.symm.trans heq) (List.cons_ne_nil _ _).symm
  · next p outcome rest hqueue => exact iff_of_true (h.congr rfl) (hother _ rest hqueue nofun)
  · next p session rest hqueue =>
      unfold State.render
      cases root with
      | false => exact iff_of_true (h.congr rfl) nofun
      | true => cases error with
        | some error => exact iff_of_true (h.congr rfl) nofun
        | none =>
            refine (dismissClears_iff _).trans ((Overlays.clears_attach s.overlays).trans ?_)
            exact ⟨fun hattached _ _ _ _ _ => hattached, fun hall => hall rfl p session rest hqueue⟩
  · next p rest hqueue =>
      refine iff_of_true ?_ (hother _ rest hqueue nofun)
      exact (dismissFlowView_attached (s := { s with queue := rest }) (h.congr rfl)).congr rfl

theorem dismissClears_step (s : State) (e : Event) (h : DismissClears s) (_ : machine.allowed s e) :
    DismissClears (machine.step s e) ↔ RendersAlone s e := by
  cases e with
  | initializeSession paymentSession =>
      refine iff_of_true (h.congr (t := s.initializeSession paymentSession) ?_) nofun
      obtain ⟨session, heq⟩ | ⟨error, heq⟩ := s.initializeSession_cases paymentSession
      · rw [heq]
      · rw [heq]
  | finishInitialize p session error => cases error <;> exact iff_of_true (h.congr rfl) nofun
  | renderFlow =>
      refine iff_of_true (h.congr (t := s.renderFlow) ?_) nofun
      obtain ⟨session, -, heq⟩ | ⟨error, heq⟩ := s.renderFlow_cases
      · rw [heq]
      · rw [heq]
  | dismissFlow => exact iff_of_true (h.congr rfl) nofun
  | runBlock root error => exact dismissClears_runBlock s root error h
  | onSuccess session paymentID =>
      exact iff_of_true
        (dismissFlowView_attached (s := { s with emitted := s.emitted ++ [paymentID] }) (h.congr rfl)) nofun

/-- **A run keeps every dismissal complete exactly if** each controller is attached when none is. -/
theorem clears_throughout_iff {es : List Event} (h : machine.Admits machine.init es) :
    machine.Throughout DismissClears machine.init es ↔ (machine.restrict RendersAlone).Admits machine.init es :=
  Machine.throughout_iff_restrict (I := fun _ => True) (fun _ _ _ _ => trivial) (fun s e _ => dismissClears_step s e)
    trivial (show DismissClears machine.init from rfl) h

end FlowDemo.Ios.Flow
