import Mathlib.Data.Set.Basic
import FlowDemo.Lib.Machine
import FlowDemo.Ios.Registry

/-!
# The iOS views as a machine

Any number of views of both classes come and go, get props from React Native, build their components, send requests
and receive responses, in any order.

* `Filed`: a live view stays filed under every id it was given, and is filed under no other;
* `Built`: a view's component was created for the one session its `initialize` ran with;
* `Asked`: a pending request has one holder, a live view that was given an id.
-/

namespace FlowDemo.Ios

variable {D : Type}

/-- The props React Native sets; the ones only `maybeInitialize` reacts to are `other`. -/
inductive Property
  | paymentSessionID (value : Option String)
  | paymentSessionSecret (value : Option String)
  | publicKey (value : Option String)
  | paymentMethod (value : Option String)
  | other

def View.set (w : View) : Property → View
  | .paymentSessionID value => { w with
      paymentSessionID := value
      givenIDs := w.givenIDs ++ (value.filter fun id => !id.isEmpty).toList }
  | .paymentSessionSecret value => { w with paymentSessionSecret := value }
  | .publicKey value => { w with publicKey := value }
  | .paymentMethod value => { w with paymentMethod := value }
  | .other => w

/-- `init(frame:)`, up to the registration. -/
def View.create (w : View) (c : ViewClass) : View :=
  { w with
    viewClass := c
    phase := .live
    paymentMethod := match c with
      | .applePay => w.paymentMethod
      | .card => some "card" }

namespace State

/-- A property and its `didSet`. -/
def setProperty (s : State D) (v : ViewId) (p : Property) : State D :=
  let s := s.setView v ((s.view v).set p)
  let s := match p with
    | .paymentSessionID _ => s.register v
    | _ => s
  s.maybeInitialize v

theorem setProperty_keeps {P : State D → Prop} {s : State D} {v : ViewId} {p : Property}
    (hset : P (s.setView v ((s.view v).set p))) (hregister : ∀ s, P s → P (s.register v))
    (hinit : ∀ s, P s → P (s.maybeInitialize v)) : P (s.setProperty v p) := by
  unfold setProperty
  cases p with
  | paymentSessionID value => exact hinit _ (hregister _ hset)
  | _ => exact hinit _ hset

def create (s : State D) (v : ViewId) (c : ViewClass) : State D := (s.setView v ((s.view v).create c)).register v

/-- The last strong reference goes: weak references read `nil` from here on. -/
def dealloc (s : State D) (v : ViewId) : State D := s.setView v { s.view v with phase := .dead }

end State

inductive Event
  | create (v : ViewId) (c : ViewClass)
  | setProperty (v : ViewId) (p : Property)
  | beginInitialize (t : InitializeTask)
  | finishInitialize (t : InitializeTask) (c : State.Creation)
  | onChange (v : ViewId) (c : Submittable)
  | dealloc (v : ViewId)
  | deinit (v : ViewId)
  | submit (paymentSessionID : String) (order : List (String × List ViewId))
  | bridgeHandleSubmit (v : ViewId) (sessionId secret submitData requestId : String)
  | bridgeOnTokenized (v : ViewId) (requestId : String)
  | handleSubmitResponse (requestId : String) (success : Bool) (data : Option (List (String × Js.Json)))
      (order : List (String × List ViewId))
  | handleTokenizedResponse (requestId : String) (accepted : Bool) (rejectionMessage : Option String)
      (order : List (String × List ViewId))

namespace State

/-- `v` may send a request under `r`: it was given an id, and `UUID()` repeats nothing and hits no session id. -/
structure MayAsk (s : State D) (Session : Set String) (v : ViewId) (r : String) : Prop where
  live : s.Live v
  given : (s.view v).givenIDs ≠ []
  notSession : r ∉ Session
  notIssued : r ∉ s.issued

/-- Nothing refers to `v` any more but the registry: no pending request, no `initialize` under way. -/
structure Idle (s : State D) (v : ViewId) : Prop where
  live : s.Live v
  pending : ∀ ch r, s.pending ch v r = none
  tasks : ∀ t ∈ s.tasks, t.view ≠ v
  building : ∀ t ∈ s.building, t.view ≠ v

end State

theorem Property.session_mem {Session : Set String} {x : String} (hx : x ∈ Session) (id : String)
    (h : Property.paymentSessionID (some x) = .paymentSessionID (some id)) : id ∈ Session :=
  Option.some.inj (Property.paymentSessionID.inj h) ▸ hx

/-- The payment session ids the views are given lie in `Session`. -/
def machine (Session : Set String) (decode : String → Option D) : Machine (State D) Event where
  init := {}
  allowed s e := match e with
    | .create v _ => (s.view v).phase = .absent
    | .setProperty v p => s.Live v ∧ ∀ id, p = .paymentSessionID (some id) → id ∈ Session
    | .beginInitialize t => t ∈ s.tasks
    | .finishInitialize t _ => t ∈ s.building
    | .onChange v c => s.Live v ∧ (s.view v).initializedFor = some c.session
    | .dealloc v => s.Idle v
    | .deinit v => (s.view v).phase = .dead
    | .submit _ order => order.Perm s.sweep.views.entries
    | .bridgeHandleSubmit v _ _ _ r => s.MayAsk Session v r
    | .bridgeOnTokenized v r => s.MayAsk Session v r
    | .handleSubmitResponse _ _ _ order => order.Perm s.sweep.views.entries
    | .handleTokenizedResponse _ _ _ order => order.Perm s.sweep.views.entries
  step s e := match e with
    | .create v c => s.create v c
    | .setProperty v p => s.setProperty v p
    | .beginInitialize t => s.beginInitialize t
    | .finishInitialize t c => s.finishInitialize t c
    | .onChange v c => s.onChange v c
    | .dealloc v => s.dealloc v
    | .deinit v => s.unregister v
    | .submit id order => ApplePayModule.submit s id order
    | .bridgeHandleSubmit v id secret data r => s.bridgeHandleSubmit v id secret data r
    | .bridgeOnTokenized v r => s.bridgeOnTokenized v r
    | .handleSubmitResponse r success data order => Registry.handleSubmitResponse decode s r success data order
    | .handleTokenizedResponse r accepted message order =>
        Registry.handleTokenizedResponse s r accepted message order

/-! ## Frames -/

namespace State

variable (s : State D)

/-- What `f` reads of the written view does not change, so it changes of no view. -/
theorem setView_congr {β : Sort*} (f : View → β) {v : ViewId} {w : View} (h : f w = f (s.view v)) (v' : ViewId) :
    f ((s.setView v w).view v') = f (s.view v') := by
  rw [setView_view]
  split
  · next hv => rw [h, hv]
  · rfl

theorem setView_pending {v : ViewId} {w : View} (h : ∀ ch, w.pending ch = (s.view v).pending ch) (ch : Channel)
    (u : ViewId) (r : String) : (s.setView v w).pending ch u r = s.pending ch u r :=
  setView_congr s (fun x => (x.pending ch).get r) (congrArg (fun m => m.get r) (h ch)) u

theorem storeContinuation_congr {β : Sort*} (f : View → β) (hf : ∀ w m ch, f (View.setPending w m ch) = f w)
    (ch : Channel) (v : ViewId) (r : String) (v' : ViewId) :
    f ((s.storeContinuation ch v r).view v') = f (s.view v') :=
  setView_congr s f (hf _ _ _) v'

theorem takeContinuation_congr {β : Sort*} (f : View → β) (hf : ∀ w m ch, f (View.setPending w m ch) = f w)
    (v : ViewId) (r : String) (result : Result D) (v' : ViewId) :
    f ((s.takeContinuation v r result).view v') = f (s.view v') := by
  cases hc : s.pending result.channel v r with
  | none => rw [takeContinuation_of_none s hc]
  | some c =>
      rw [takeContinuation_of_some s hc]
      exact setView_congr s f (hf _ _ _) v'

theorem takeContinuation_rest (v : ViewId) (r : String) (result : Result D) :
    (s.takeContinuation v r result).views = s.views ∧ (s.takeContinuation v r result).tasks = s.tasks ∧
      (s.takeContinuation v r result).building = s.building ∧ (s.takeContinuation v r result).calls = s.calls ∧
      (s.takeContinuation v r result).issued = s.issued := by
  cases hc : s.pending result.channel v r with
  | none => rw [takeContinuation_of_none s hc]; exact ⟨rfl, rfl, rfl, rfl, rfl⟩
  | some c => rw [takeContinuation_of_some s hc]; exact ⟨rfl, rfl, rfl, rfl, rfl⟩

structure SameViews (t : State D) : Prop where
  view : t.view = s.view
  tasks : t.tasks = s.tasks
  building : t.building = s.building
  calls : t.calls = s.calls
  issued : t.issued = s.issued
  resumed : t.resumed = s.resumed

theorem register_same (v : ViewId) : s.SameViews (s.register v) := by
  unfold register
  split <;> exact ⟨rfl, rfl, rfl, rfl, rfl, rfl⟩

theorem submitFromJS_same (v : ViewId) :
    s.SameViews (s.submitFromJS v).1 ∧ (s.submitFromJS v).1.views = s.views := by
  unfold submitFromJS
  split
  · exact ⟨⟨rfl, rfl, rfl, rfl, rfl, rfl⟩, rfl⟩
  · split <;> exact ⟨⟨rfl, rfl, rfl, rfl, rfl, rfl⟩, rfl⟩

theorem SameViews.trans {s t u : State D} (h : s.SameViews t) (h' : t.SameViews u) : s.SameViews u :=
  ⟨h'.view.trans h.view, h'.tasks.trans h.tasks, h'.building.trans h.building, h'.calls.trans h.calls,
    h'.issued.trans h.issued, h'.resumed.trans h.resumed⟩

theorem SameViews.live {s t : State D} (h : s.SameViews t) (v : ViewId) : t.Live v ↔ s.Live v := by
  rw [Live, Live, h.view]

theorem firstSubmit_same (l : List ViewId) :
    s.SameViews (s.firstSubmit l).1 ∧ (s.firstSubmit l).1.views = s.views := by
  induction l generalizing s with
  | nil => exact ⟨⟨rfl, rfl, rfl, rfl, rfl, rfl⟩, rfl⟩
  | cons v rest ih =>
      unfold firstSubmit
      split
      · obtain ⟨h1, h2⟩ := submitFromJS_same s v
        cases hv : s.submitFromJS v with
        | mk s' b =>
            rw [hv] at h1 h2
            cases b with
            | true => exact ⟨h1, h2⟩
            | false =>
                obtain ⟨h3, h4⟩ := ih s'
                exact ⟨h1.trans h3, h4.trans h2⟩
      · exact ih s

end State

theorem Registry.submit_same (s : State D) (id : String) (order : List (String × List ViewId)) :
    s.SameViews (Registry.submit s id order).1 ∧ (Registry.submit s id order).1.views = s.sweep.views := by
  have hsweep : s.SameViews s.sweep := ⟨rfl, rfl, rfl, rfl, rfl, rfl⟩
  obtain ⟨h1, h2⟩ := s.sweep.firstSubmit_same ((s.sweep.views.get id).getD [])
  unfold Registry.submit
  cases hk : s.sweep.firstSubmit ((s.sweep.views.get id).getD []) with
  | mk s' b =>
      rw [hk] at h1 h2
      cases b with
      | true => exact ⟨hsweep.trans h1, h2⟩
      | false =>
          obtain ⟨h3, h4⟩ := s'.firstSubmit_same (order.flatMap Prod.snd)
          exact ⟨(hsweep.trans h1).trans h3, h4.trans h2⟩

theorem ApplePayModule.submit_same (s : State D) (id : String) (order : List (String × List ViewId)) :
    s.SameViews (ApplePayModule.submit s id order) ∧ (ApplePayModule.submit s id order).views = s.sweep.views := by
  obtain ⟨h1, h2⟩ := Registry.submit_same s id order
  unfold ApplePayModule.submit
  cases hr : Registry.submit s id order with
  | mk s' b =>
      rw [hr] at h1 h2
      cases b <;> exact ⟨⟨h1.view, h1.tasks, h1.building, h1.calls, h1.issued, h1.resumed⟩, h2⟩

end FlowDemo.Ios
