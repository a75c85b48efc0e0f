import FlowDemo.Android.Card.Submit
import FlowDemo.Ios.Submit
import FlowDemo.Js.AppRuns

/-!
# The Pay button and the submissions it starts

The App above the native card views of either platform. A press of Pay calls the native `submit`, which settles its
promise once it has asked the component to submit; the component's `submit()` starts a request for a payment, and that
request waits until `handleSubmit` has answered it. Nothing ties the two: the button is free again when the promise has
settled.

* `Moves`: what one step of the native side adds to its traces and takes from its queues;
* `Inv`: the guard `isSubmittingFromJs` keeps at most one native call unsettled;
* `no_double_submit`: pressed only when the earlier payments are over, the button submits no session twice at a time.
-/

namespace FlowDemo.PayButton

open Js (JsonText Platform SessionData)

/-! ## The native side -/

/-- The native card views and their registry, on the platform the App runs on. -/
inductive Native (D : Type)
  | android (s : Android.Card.Submit.State)
  | ios (s : Ios.State D)

inductive NativeEvent
  | android (e : Android.Card.Submit.Event)
  | ios (e : Ios.Event)

namespace Native

variable {D : Type}

def init : Platform → Native D
  | .android => .android {}
  | .ios => .ios {}

/-- The calls of a component's `submit()`: the session it was created for, and whether the call threw. -/
def submits : Native D → List (String × Bool)
  | .android s => s.started.map Prod.snd
  | .ios s => s.submitted.map fun c => (c.2.session, false)

def settled : Native D → List (Except Js.Error Unit)
  | .android s => s.settled.map fun p => (p.2.mapError (·.message)).map fun _ => ()
  | .ios s => s.settled.map fun p => p.2.mapError (·.message)

def posted : Native D → Nat
  | .android s => s.posted.length
  | .ios _ => 0

def launched : Native D → Nat
  | .android s => s.launched.length
  | .ios _ => 0

/-- `CardModule.submit`, or `ApplePayModule.submit` with the block it queues. -/
def submit (n : Native D) (paymentSessionID : String) (order : List (String × List Ios.ViewId)) : Native D :=
  match n with
  | .android s => .android (s.submit paymentSessionID)
  | .ios s => .ios (Ios.ApplePayModule.submit s paymentSessionID order)

/-- `order` is an order in which a Swift dictionary may be iterated over. -/
def Ordered (n : Native D) (order : List (String × List Ios.ViewId)) : Prop :=
  match n with
  | .android _ => True
  | .ios s => order.Perm s.sweep.views.entries

/-- What else happens on the native side: everything but submissions from JavaScript. -/
def Allowed (Session : Set String) (decode : String → Option D) : Native D → NativeEvent → Prop
  | .android s, .android e => (∀ id, e ≠ .submit id) ∧ (Android.Card.Submit.machine Session).allowed s e
  | .ios s, .ios e => (∀ id order, e ≠ .submit id order) ∧ (Ios.machine Session decode).allowed s e
  | .android _, .ios _ => False
  | .ios _, .android _ => False

def step (Session : Set String) (decode : String → Option D) : Native D → NativeEvent → Native D
  | .android s, .android e => .android ((Android.Card.Submit.machine Session).step s e)
  | .ios s, .ios e => .ios ((Ios.machine Session decode).step s e)
  | .android s, .ios _ => .android s
  | .ios s, .android _ => .ios s

end Native

/-! ## The App above it -/

/-- `calls` are the native calls made and not executed, `promises` the outcomes JavaScript has not heard of. A request
is known by the position of its call in `Native.submits`: `pending` are those not answered, `asked` those among them
that `handleSubmit` works on, each with the number of its call there. -/
structure State (D : Type) where
  app : Js.App.State := {}
  native : Native D
  calls : List String := []
  promises : List (Except Js.Error Unit) := []
  pending : List Nat := []
  asked : List (Nat × Nat) := []

inductive Event
  | pay
  | moduleSubmit (paymentSessionID : String) (order : List (String × List Ios.ViewId))
  | native (e : NativeEvent)
  | promise (outcome : Except Js.Error Unit)
  | handleSubmit (n : Nat) (sessionData : SessionData)
  | answer (n k : Nat) (id : String) (reply : Js.App.Reply)
  | app (e : Js.App.Event)

/-- The App's events that neither come from the native module's submissions nor start one. -/
def Apart : Js.App.Event → Prop
  | .pay => False
  | .finishPay _ => False
  | .handleSubmit _ => False
  | .finishHandleSubmit _ _ _ => False
  | _ => True

namespace State

variable {D : Type}

/-- The native side moves on: the submissions it started are requests now, and the promises it settled are heard of. -/
def moveTo (s : State D) (next : Native D) : State D :=
  { s with
    native := next
    promises := s.promises ++ next.settled.drop s.native.settled.length
    pending := s.pending ++ (List.range' s.native.submits.length
      (next.submits.length - s.native.submits.length)).filter fun n => next.submits[n]?.any fun c => !c.2 }

def pay (s : State D) : State D :=
  { s with
    app := Js.App.beginPay s.app
    calls := match s.app.paymentSession.id with
      | some (.str id) => if id = "" then s.calls else s.calls ++ [id]
      | _ => s.calls }

def moduleSubmit (s : State D) (id : String) (order : List (String × List Ios.ViewId)) : State D :=
  { s with calls := s.calls.erase id }.moveTo (s.native.submit id order)

def promise (s : State D) (outcome : Except Js.Error Unit) : State D :=
  { s with
    app := Js.App.finishPay s.app outcome
    promises := s.promises.erase outcome }

/-- The request `n` reaches `handleSubmit`, which answers at once if there is no session data. -/
def handleSubmit (s : State D) (n : Nat) (sessionData : SessionData) : State D :=
  let app := Js.App.beginHandleSubmit s.app sessionData
  match sessionData.sessionData with
  | none | some "" => { s with
      app := app
      pending := s.pending.erase n }
  | some _ => { s with
      app := app
      asked := s.asked ++ [(n, s.app.submits)] }

def answer (J : JsonText) (s : State D) (n k : Nat) (id : String) (reply : Js.App.Reply) : State D :=
  { s with
    app := Js.App.finishHandleSubmit J s.app k id reply
    pending := s.pending.erase n
    asked := s.asked.erase (n, k) }

end State

variable {D : Type}

/-- Presses of an enabled Pay button, and everything else in any order. -/
def machine (J : JsonText) (toLowerCase : String → String) (Session : Set String) (decode : String → Option D)
    (platform : Platform) : Machine (State D) Event where
  init := { native := .init platform }
  allowed s e := match e with
    | .pay => Js.App.payEnabled s.app = true
    | .moduleSubmit id order => id ∈ s.calls ∧ s.native.Ordered order
    | .native e => s.native.Allowed Session decode e
    | .promise outcome => outcome ∈ s.promises
    | .handleSubmit n sessionData => n ∈ s.pending ∧ n ∉ s.asked.map Prod.fst ∧
        s.native.submits[n]?.map Prod.fst = some sessionData.id
    | .answer n k id _ => (n, k) ∈ s.asked ∧ (k, id) ∈ s.app.submitting
    | .app e => Apart e ∧ (Js.App.machine J toLowerCase).allowed s.app e
  step s e := match e with
    | .pay => s.pay
    | .moduleSubmit id order => s.moduleSubmit id order
    | .native e => s.moveTo (s.native.step Session decode e)
    | .promise outcome => s.promise outcome
    | .handleSubmit n sessionData => s.handleSubmit n sessionData
    | .answer n k id reply => s.answer J n k id reply
    | .app e => { s with app := (Js.App.machine J toLowerCase).step s.app e }

/-! ## The property -/

/-- A request of session `x` is not answered yet. -/
def State.Pending (s : State D) (x : String) : Prop := ∃ n ∈ s.pending, s.native.submits[n]?.map Prod.fst = some x

/-- On the way from `s` to `s'` the `submit()` of a component of session `x` is called. -/
def Submits (s s' : State D) (x : String) : Prop := x ∈ (s'.native.submits.drop s.native.submits.length).map Prod.fst

/-- Pay is pressed only when the earlier payments are over: no coroutine is about to submit, no request waits. -/
def PaysInTurn (s : State D) : Event → Prop
  | .pay => s.native.launched = 0 ∧ s.pending = []
  | _ => True

/-! ## What a step of the native side adds and takes -/

/-- One call executed (`k = 1`) or another native event (`k = 0`): a promise is settled when its block is done, and a
component's `submit()` is called at the end of a call's way. -/
structure Moves (n n' : Native D) (k : Nat) : Prop where
  submits : ∃ new, n'.submits = n.submits ++ new ∧ new.length + n'.launched + n'.posted ≤ n.launched + n.posted + k
  settled : ∃ new, n'.settled = n.settled ++ new ∧ new.length + n'.posted = n.posted + k

theorem moves_of_same {n n' : Native D} (h1 : n'.submits = n.submits) (h2 : n'.settled = n.settled)
    (h3 : n'.launched = n.launched) (h4 : n'.posted = n.posted) : Moves n n' 0 := by
  refine ⟨⟨[], by rw [h1, List.append_nil], ?_⟩, ⟨[], by rw [h2, List.append_nil], ?_⟩⟩
  · rw [h3, h4, List.length_nil]
    omega
  · rw [h4, List.length_nil]
    omega

section Android

variable {s s' : Android.Card.Submit.State}

theorem moves_android {k : Nat} {new : List (Android.Card.Submit.PromiseId × String × Bool)}
    {done : List (Android.Card.Submit.PromiseId × Except Android.Card.Submit.Rejection Bool)}
    (h1 : s'.started = s.started ++ new) (h2 : s'.settled = s.settled ++ done)
    (h3 : new.length + s'.launched.length + s'.posted.length ≤ s.launched.length + s.posted.length + k)
    (h4 : done.length + s'.posted.length = s.posted.length + k) :
    Moves (D := D) (.android s) (.android s') k := by
  refine ⟨⟨new.map Prod.snd, ?_, ?_⟩,
    ⟨done.map fun p => (p.2.mapError (·.message)).map fun _ => (), ?_, ?_⟩⟩
  · rw [Native.submits, h1, List.map_append, Native.submits]
  · rw [List.length_map]
    exact h3
  · rw [Native.settled, h2, List.map_append, Native.settled]
  · rw [List.length_map]
    exact h4

theorem length_erase_add_one {α : Type*} [BEq α] [LawfulBEq α] {a : α} {l : List α} (h : a ∈ l) :
    (l.erase a).length + 1 = l.length := by
  rw [List.length_erase_of_mem h]
  have := List.length_pos_of_mem h
  omega

theorem moves_android_submit (id : String) : Moves (D := D) (.android s) (.android (s.submit id)) 1 := by
  unfold Android.Card.Submit.State.submit
  dsimp only
  split
  · refine moves_android (List.append_nil _).symm rfl ?_ ?_
    · simp [Android.Card.Submit.State.settle]
    · simp [Android.Card.Submit.State.settle, Nat.add_comm]
  · refine moves_android (List.append_nil _).symm (List.append_nil _).symm ?_ ?_
    · simp [Nat.add_assoc]
    · simp

theorem moves_runPosted {p : Android.Card.Submit.PromiseId} {v : Android.Card.ViewId} (h : (p, v) ∈ s.posted) :
    Moves (D := D) (.android s) (.android (s.runPosted p v)) 0 := by
  have hlen := length_erase_add_one h
  unfold Android.Card.Submit.State.runPosted Android.Card.Submit.State.submitFromJs
  dsimp only
  split
  · refine moves_android (List.append_nil _).symm rfl ?_ ?_
    · simp only [Android.Card.Submit.State.settle, List.length_nil]
      omega
    · simp only [Android.Card.Submit.State.settle, List.length_singleton]
      omega
  · refine moves_android (List.append_nil _).symm rfl ?_ ?_
    · simp only [Android.Card.Submit.State.settle, List.length_append, List.length_singleton, List.length_nil]
      omega
    · simp only [Android.Card.Submit.State.settle, List.length_singleton]
      omega

theorem moves_runLaunched {p : Android.Card.Submit.PromiseId} {session : String} (h : (p, session) ∈ s.launched)
    (throws : Bool) : Moves (D := D) (.android s) (.android (s.runLaunched p session throws)) 0 := by
  have hlen := length_erase_add_one h
  refine moves_android rfl (List.append_nil _).symm ?_ ?_
  · simp only [Android.Card.Submit.State.runLaunched, List.length_singleton]
    omega
  · simp [Android.Card.Submit.State.runLaunched]

end Android

section Ios

/-- The traces of submissions from JavaScript are the same. -/
structure Silent (s s' : Ios.State D) : Prop where
  submitted : s'.submitted = s.submitted
  settled : s'.settled = s.settled

theorem Silent.trans {s s' s'' : Ios.State D} (h : Silent s s') (h' : Silent s' s'') : Silent s s'' :=
  ⟨h'.submitted.trans h.submitted, h'.settled.trans h.settled⟩

theorem silent_takeContinuation (s : Ios.State D) (v : Ios.ViewId) (r : String) (result : Ios.Result D) :
    Silent s (s.takeContinuation v r result) := by
  unfold Ios.State.takeContinuation
  split <;> exact ⟨rfl, rfl⟩

theorem silent_route (s : Ios.State D) (r : String) (order : List (String × List Ios.ViewId))
    {respond : Ios.State D → Ios.ViewId → Ios.State D} (h : ∀ s v, Silent s (respond s v)) :
    Silent s (s.route r order respond) :=
  Ios.State.route_keeps (P := Silent s) (fun hs => hs.trans ⟨rfl, rfl⟩) (fun t v hs => hs.trans (h t v)) ⟨rfl, rfl⟩ r
    order

theorem silent_maybeInitialize (s : Ios.State D) (v : Ios.ViewId) : Silent s (s.maybeInitialize v) := by
  unfold Ios.State.maybeInitialize
  split
  · exact ⟨rfl, rfl⟩
  · split
    · split <;> exact ⟨rfl, rfl⟩
    · exact ⟨rfl, rfl⟩

theorem silent_register (s : Ios.State D) (v : Ios.ViewId) : Silent s (s.register v) := by
  unfold Ios.State.register
  split <;> exact ⟨rfl, rfl⟩

theorem silent_step (Session : Set String) (decode : String → Option D) (s : Ios.State D) {e : Ios.Event}
    (he : ∀ id order, e ≠ .submit id order) : Silent s ((Ios.machine Session decode).step s e) := by
  cases e with
  | create v c =>
      have hview : Silent s (s.setView v ((s.view v).create c)) := ⟨rfl, rfl⟩
      exact hview.trans (silent_register _ v)
  | setProperty v p =>
      have hset : Silent s (s.setView v ((s.view v).set p)) := ⟨rfl, rfl⟩
      exact Ios.State.setProperty_keeps hset (fun t h => h.trans (silent_register t v)) fun t h =>
        h.trans (silent_maybeInitialize t v)
  | beginInitialize t => exact Ios.State.beginInitialize_keeps (P := Silent s) ⟨rfl, rfl⟩ fun _ => ⟨rfl, rfl⟩
  | finishInitialize t c =>
      exact Ios.State.finishInitialize_keeps (P := Silent s) ⟨rfl, rfl⟩ (fun _ => ⟨rfl, rfl⟩) fun _ _ h =>
        h.trans ⟨rfl, rfl⟩
  | onChange v c => exact ⟨rfl, rfl⟩
  | dealloc v => exact ⟨rfl, rfl⟩
  | deinit v => exact ⟨rfl, rfl⟩
  | submit id order => exact absurd rfl (he id order)
  | bridgeHandleSubmit v id secret data r => exact ⟨rfl, rfl⟩
  | bridgeOnTokenized v r => exact ⟨rfl, rfl⟩
  | handleSubmitResponse r success data order =>
      exact silent_route s r order fun s v => silent_takeContinuation s v r _
  | handleTokenizedResponse r accepted message order =>
      exact silent_route s r order fun s v => silent_takeContinuation s v r _

theorem moves_ios {s s' : Ios.State D} {new : List (Ios.ViewId × Ios.Submittable)}
    {done : String × Except Ios.Rejection Unit} (h1 : s'.submitted = s.submitted ++ new)
    (h2 : s'.settled = s.settled ++ [done]) (h3 : new.length ≤ 1) : Moves (.ios s) (.ios s') 1 := by
  refine ⟨⟨new.map fun c => (c.2.session, false), ?_, ?_⟩, ⟨[done.2.mapError (·.message)], ?_, rfl⟩⟩
  · rw [Native.submits, h1, List.map_append, Native.submits]
  · rw [List.length_map]
    exact h3
  · rw [Native.settled, h2, List.map_append, Native.settled, List.map_singleton]

theorem moves_ios_submit (s : Ios.State D) (id : String) (order : List (String × List Ios.ViewId)) :
    Moves (.ios s) (.ios (Ios.ApplePayModule.submit s id order)) 1 := by
  have hcame := Ios.Registry.submit_cameOut s id order
  cases hpicked : ((s.targets id).find? s.canSubmit).or ((order.flatMap Prod.snd).find? s.canSubmit) with
  | none =>
      rw [hpicked] at hcame
      obtain ⟨hsub, hset⟩ := Ios.ApplePayModule.submit_of_none hcame
      exact moves_ios (hsub.trans (List.append_nil _).symm) hset (Nat.zero_le _)
  | some v =>
      rw [hpicked] at hcame
      obtain ⟨⟨c, -, hsub⟩, hset⟩ := Ios.ApplePayModule.submit_of_picked hcame
      exact moves_ios hsub hset (le_refl _)

end Ios

/-- **A native call** settles one promise, now or when its block is done, and submits once at most. -/
theorem moves_submit (n : Native D) (id : String) (order : List (String × List Ios.ViewId)) :
    Moves n (n.submit id order) 1 := by
  cases n with
  | android s => exact moves_android_submit id
  | ios s => exact moves_ios_submit s id order

/-- **Every other native event** goes on with the calls there are. -/
theorem moves_step {Session : Set String} {decode : String → Option D} (n : Native D) {e : NativeEvent}
    (ha : n.Allowed Session decode e) : Moves n (n.step Session decode e) 0 := by
  cases n with
  | android s =>
      cases e with
      | ios e => exact absurd ha id
      | android e =>
          obtain ⟨hne, ha⟩ := ha
          cases e with
          | card e => exact moves_of_same rfl rfl rfl rfl
          | submit id => exact absurd rfl (hne id)
          | runPosted p v => exact moves_runPosted ha
          | runLaunched p session throws => exact moves_runLaunched ha throws
  | ios s =>
      cases e with
      | android e => exact absurd ha id
      | ios e =>
          have hsilent := silent_step Session decode s ha.1
          refine moves_of_same ?_ ?_ rfl rfl
          · exact congrArg (List.map fun c => (c.2.session, false)) hsilent.submitted
          · exact congrArg (List.map fun p => p.2.mapError (·.message)) hsilent.settled

/-! ## What the guard keeps -/

/-- A press waits for one thing at a time: its call, its block, or the outcome of its promise; and there is one press
at most, for which `isSubmittingFromJs` stands. -/
structure Inv (s : State D) : Prop where
  paying : s.app.paying = s.calls.length + s.native.posted + s.promises.length
  one : s.app.paying ≤ 1
  flag : s.app.isSubmittingFromJs = decide (s.app.paying ≠ 0)

/-- All that is left of the payments: calls, blocks, coroutines and unanswered requests. -/
def State.underWay (s : State D) : Nat :=
  s.calls.length + s.native.posted + s.native.launched + s.pending.length

theorem moveTo_promises {s : State D} {n : Native D} {k : Nat} (h : Moves s.native n k) :
    (s.moveTo n).promises.length + n.posted = s.promises.length + s.native.posted + k := by
  obtain ⟨new, hnew, hlen⟩ := h.settled
  have hp : (s.moveTo n).promises = s.promises ++ new := by
    rw [State.moveTo, hnew, List.drop_left]
  rw [hp, List.length_append]
  omega

theorem moveTo_pending {s : State D} {n : Native D} {k : Nat} (h : Moves s.native n k) :
    (s.moveTo n).pending.length + n.launched + n.posted ≤
      s.pending.length + s.native.launched + s.native.posted + k := by
  obtain ⟨new, hnew, hlen⟩ := h.submits
  have hlength : n.submits.length - s.native.submits.length = new.length := by
    rw [hnew, List.length_append, Nat.add_sub_cancel_left]
  have hadd := List.length_filter_le (fun i => n.submits[i]?.any fun c => !c.2)
    (List.range' s.native.submits.length new.length)
  rw [List.length_range'] at hadd
  rw [State.moveTo, hlength, List.length_append]
  omega

/-- A call of a component's `submit()` is the end of some call's way. -/
theorem Moves.of_submits {s : State D} {n : Native D} {k : Nat} (h : Moves s.native n k) {x : String}
    (hx : Submits s (s.moveTo n) x) : 1 ≤ s.native.launched + s.native.posted + k := by
  obtain ⟨new, hnew, hlen⟩ := h.submits
  change x ∈ (n.submits.drop s.native.submits.length).map Prod.fst at hx
  rw [hnew, List.drop_left] at hx
  have := List.length_pos_of_mem hx
  rw [List.length_map] at this
  omega

theorem payEnabled_cases {s : Js.App.State} (h : Js.App.payEnabled s = true) :
    (∃ id, s.paymentSession.id = some (.str id) ∧ id ≠ "") ∧ s.isSubmittingFromJs = false := by
  obtain ⟨hready, hflag⟩ := Bool.and_eq_true_iff.mp h
  refine ⟨?_, by simpa using hflag⟩
  have hready : Js.App.isSessionReady s = some true := of_decide_eq_true hready
  unfold Js.App.isSessionReady at hready
  have hid : Js.App.trimmedNonempty s.paymentSession.id = some true := by
    cases ht : Js.App.trimmedNonempty s.paymentSession.id with
    | none =>
        rw [ht] at hready
        cases hready
    | some b =>
        cases b with
        | true => rfl
        | false =>
            rw [ht] at hready
            cases hready
  unfold Js.App.trimmedNonempty at hid
  split at hid
  · next id heq =>
      refine ⟨id, heq, ?_⟩
      rintro rfl
      cases hid
  · cases hid

/-- The App's other events leave the button's state alone. -/
theorem apart_step (J : JsonText) (toLowerCase : String → String) (s : Js.App.State) {e : Js.App.Event}
    (h : Apart e) :
    ((Js.App.machine J toLowerCase).step s e).paying = s.paying ∧
      ((Js.App.machine J toLowerCase).step s e).isSubmittingFromJs = s.isSubmittingFromJs := by
  cases e with
  | pay => exact absurd h id
  | finishPay outcome => exact absurd h id
  | handleSubmit sessionData => exact absurd h id
  | finishHandleSubmit k id reply => exact absurd h fun h => h
  | finishStart n reply =>
      change (Js.App.finishStart s n reply).paying = _ ∧ (Js.App.finishStart s n reply).isSubmittingFromJs = _
      unfold Js.App.finishStart
      cases Js.App.readSession reply <;> exact ⟨rfl, rfl⟩
  | handleTokenized tokenizationResult =>
      simp only [Js.App.machine]
      split <;> exact ⟨rfl, rfl⟩
  | startPayment => exact ⟨rfl, rfl⟩
  | paymentSuccess paymentId => exact ⟨rfl, rfl⟩
  | paymentError component errorMessage => exact ⟨rfl, rfl⟩
  | closeFlow => exact ⟨rfl, rfl⟩

theorem beginHandleSubmit_paying (s : Js.App.State) (sessionData : SessionData) :
    (Js.App.beginHandleSubmit s sessionData).paying = s.paying ∧
      (Js.App.beginHandleSubmit s sessionData).isSubmittingFromJs = s.isSubmittingFromJs := by
  unfold Js.App.beginHandleSubmit
  split <;> exact ⟨rfl, rfl⟩

variable {J : JsonText} {toLowerCase : String → String} {Session : Set String} {decode : String → Option D}
  {platform : Platform}

theorem inv_init : Inv (machine J toLowerCase Session decode platform).init := by
  cases platform <;> exact ⟨rfl, Nat.zero_le _, rfl⟩

/-- Neither the payment's own request and answer nor anything else in the App touches what a press waits for. -/
theorem Inv.of_same {s s' : State D} (h : Inv s) (happ : s'.app.paying = s.app.paying ∧
    s'.app.isSubmittingFromJs = s.app.isSubmittingFromJs) (hcalls : s'.calls = s.calls) (hnative : s'.native = s.native)
    (hpromises : s'.promises = s.promises) : Inv s' := by
  refine ⟨?_, ?_, ?_⟩
  · rw [happ.1, hcalls, hnative, hpromises]
    exact h.paying
  · rw [happ.1]
    exact h.one
  · rw [happ.1, happ.2]
    exact h.flag

theorem Inv.pay {s : State D} (h : Inv s) (hen : Js.App.payEnabled s.app = true) :
    Inv s.pay ∧ s.calls = [] ∧ s.native.posted = 0 ∧ s.pay.calls.length = 1 := by
  obtain ⟨⟨id, hid, hne⟩, hflag⟩ := payEnabled_cases hen
  have hzero : s.app.paying = 0 := by
    have hf := h.flag
    rw [hflag] at hf
    simpa using hf.symm
  have hparts := h.paying
  rw [hzero] at hparts
  have hcalls : s.calls = [] := List.length_eq_zero_iff.mp (by omega)
  have hpay : s.pay.calls = [id] := by
    simp only [State.pay, hid, if_neg hne, hcalls, List.nil_append]
  have happ : s.pay.app.paying = 1 ∧ s.pay.app.isSubmittingFromJs = true := by
    have htruthy : Js.Value.truthy s.app.paymentSession.id = true := by
      rw [hid]
      exact decide_eq_true hne
    simp only [State.pay, Js.App.beginPay, htruthy, if_true, hzero]
    exact ⟨trivial, trivial⟩
  refine ⟨⟨?_, ?_, ?_⟩, hcalls, by omega, by rw [hpay, List.length_singleton]⟩
  · rw [happ.1, hpay]
    change 1 = 1 + s.native.posted + s.promises.length
    omega
  · rw [happ.1]
  · rw [happ.1, happ.2]
    rfl

theorem Inv.moduleSubmit {s : State D} (h : Inv s) {id : String} (hid : id ∈ s.calls)
    (order : List (String × List Ios.ViewId)) : Inv (s.moduleSubmit id order) := by
  have hlen := length_erase_add_one hid
  have hmove := moveTo_promises (s := { s with calls := s.calls.erase id }) (moves_submit s.native id order)
  refine ⟨?_, h.one, h.flag⟩
  have hparts := h.paying
  change s.app.paying = (s.calls.erase id).length + (s.native.submit id order).posted +
    (s.moduleSubmit id order).promises.length
  change (s.moduleSubmit id order).promises.length + _ = s.promises.length + s.native.posted + 1 at hmove
  omega

theorem Inv.native {s : State D} (h : Inv s) {e : NativeEvent} (he : s.native.Allowed Session decode e) :
    Inv (s.moveTo (s.native.step Session decode e)) := by
  have hmove := moveTo_promises (s := s) (moves_step s.native he)
  refine ⟨?_, h.one, h.flag⟩
  have hparts := h.paying
  change s.app.paying = s.calls.length + (s.native.step Session decode e).posted +
    (s.moveTo (s.native.step Session decode e)).promises.length
  omega

theorem Inv.promise {s : State D} (h : Inv s) {outcome : Except Js.Error Unit} (ho : outcome ∈ s.promises) :
    Inv (s.promise outcome) := by
  have hlen := length_erase_add_one ho
  have happ : (s.promise outcome).app.paying = s.app.paying - 1 ∧
      (s.promise outcome).app.isSubmittingFromJs = false := by
    cases outcome <;> exact ⟨rfl, rfl⟩
  have hparts := h.paying
  have hone := h.one
  refine ⟨?_, ?_, ?_⟩
  · rw [happ.1]
    change s.app.paying - 1 = s.calls.length + s.native.posted + (s.promises.erase outcome).length
    omega
  · rw [happ.1]
    omega
  · have hzero : s.app.paying - 1 = 0 := by omega
    rw [happ.1, happ.2, hzero]
    rfl

theorem inv_step (s : State D) (e : Event) (h : Inv s)
    (ha : (machine J toLowerCase Session decode platform).allowed s e) :
    Inv ((machine J toLowerCase Session decode platform).step s e) := by
  cases e with
  | pay => exact (h.pay ha).1
  | moduleSubmit id order => exact h.moduleSubmit ha.1 order
  | native e => exact h.native ha
  | promise outcome => exact h.promise ha
  | handleSubmit n sessionData =>
      have happ := beginHandleSubmit_paying s.app sessionData
      change Inv (s.handleSubmit n sessionData)
      unfold State.handleSubmit
      split <;> exact h.of_same happ rfl rfl rfl
  | answer n k id reply => exact h.of_same ⟨rfl, rfl⟩ rfl rfl rfl
  | app e => exact h.of_same (apart_step J toLowerCase s.app ha.1) rfl rfl rfl

/-! ## One payment at a time -/

/-- A step starts no second payment: a press finds none under way, and everything else goes on with the one there is. -/
theorem underWay_step {s : State D} {e : Event} (h : Inv s) (hone : s.underWay ≤ 1)
    (ha : (machine J toLowerCase Session decode platform).allowed s e) (hc : PaysInTurn s e) :
    ((machine J toLowerCase Session decode platform).step s e).underWay ≤ 1 := by
  unfold State.underWay at hone
  cases e with
  | pay =>
      obtain ⟨-, -, hposted, hcalls⟩ := h.pay ha
      obtain ⟨hlaunched, hpending⟩ := hc
      change s.pay.calls.length + s.native.posted + s.native.launched + s.pending.length ≤ 1
      rw [hcalls, hposted, hlaunched, hpending]
      exact le_refl _
  | moduleSubmit id order =>
      have hlen := length_erase_add_one ha.1
      have hmove := moveTo_pending (s := { s with calls := s.calls.erase id }) (moves_submit s.native id order)
      change (s.moduleSubmit id order).pending.length + _ + _ ≤
        s.pending.length + s.native.launched + s.native.posted + 1 at hmove
      change (s.calls.erase id).length + (s.native.submit id order).posted + (s.native.submit id order).launched +
        (s.moduleSubmit id order).pending.length ≤ 1
      omega
  | native e =>
      have hmove := moveTo_pending (s := s) (moves_step s.native ha)
      change s.calls.length + (s.native.step Session decode e).posted + (s.native.step Session decode e).launched +
        (s.moveTo (s.native.step Session decode e)).pending.length ≤ 1
      omega
  | promise outcome => exact hone
  | handleSubmit n sessionData =>
      have herase := List.length_erase_le (a := n) (l := s.pending)
      change (s.handleSubmit n sessionData).underWay ≤ 1
      unfold State.handleSubmit State.underWay
      split
      · dsimp only
        omega
      · dsimp only
        omega
      · exact hone
  | answer n k id reply =>
      have herase := List.length_erase_le (a := n) (l := s.pending)
      change s.calls.length + s.native.posted + s.native.launched + (s.pending.erase n).length ≤ 1
      omega
  | app e => exact hone

/-- With one payment at a time, the component whose `submit()` is called has no request waiting. -/
theorem not_submits_of_pending {s : State D} {e : Event} (hone : s.underWay ≤ 1)
    (ha : (machine J toLowerCase Session decode platform).allowed s e) {x : String} (hx : s.Pending x) :
    ¬ Submits s ((machine J toLowerCase Session decode platform).step s e) x := by
  obtain ⟨n, hn, -⟩ := hx
  have hpos := List.length_pos_of_mem hn
  unfold State.underWay at hone
  intro hsub
  have hsame : ∀ s' : State D, s'.native = s.native → ¬ Submits s s' x := by
    intro s' hs' h
    rw [Submits, hs', List.drop_length] at h
    cases h
  cases e with
  | moduleSubmit id order =>
      have hmove := Moves.of_submits (s := { s with calls := s.calls.erase id }) (moves_submit s.native id order) hsub
      have hcalls := List.length_pos_of_mem ha.1
      omega
  | native e =>
      have hmove := Moves.of_submits (s := s) (moves_step s.native ha) hsub
      change 1 ≤ s.native.launched + s.native.posted + 0 at hmove
      omega
  | pay => exact hsame _ rfl hsub
  | promise outcome => exact hsame _ rfl hsub
  | handleSubmit n sessionData =>
      refine hsame (s.handleSubmit n sessionData) ?_ hsub
      unfold State.handleSubmit
      split <;> rfl
  | answer n k id reply => exact hsame _ rfl hsub
  | app e => exact hsame _ rfl hsub

/-- **In every run** in which Pay is pressed only when the earlier payments are over, no `submit()` of a session's
component is called while a request of that session waits. -/
theorem no_double_submit (J : JsonText) (toLowerCase : String → String) (Session : Set String)
    (decode : String → Option D) (platform : Platform) (es : List Event) (e : Event)
    (h : ((machine J toLowerCase Session decode platform).restrict PaysInTurn).Admits
      (machine J toLowerCase Session decode platform).init (es ++ [e])) (x : String)
    (hx : ((machine J toLowerCase Session decode platform).run
      (machine J toLowerCase Session decode platform).init es).Pending x) :
    ¬ Submits ((machine J toLowerCase Session decode platform).run
        (machine J toLowerCase Session decode platform).init es)
      ((machine J toLowerCase Session decode platform).run
        (machine J toLowerCase Session decode platform).init (es ++ [e])) x := by
  obtain ⟨hes, ⟨ha, -⟩, -⟩ := (Machine.admits_append _ _ _ _).mp h
  have hinit : Inv (machine J toLowerCase Session decode platform).init ∧
      (machine J toLowerCase Session decode platform).init.underWay ≤ 1 := by
    refine ⟨inv_init, ?_⟩
    cases platform <;> exact Nat.zero_le _
  have hinv := Machine.run_induction
    (M := (machine J toLowerCase Session decode platform).restrict PaysInTurn)
    (I := fun s => Inv s ∧ s.underWay ≤ 1)
    (fun s e hs ha => ⟨inv_step s e hs.1 ha.1, underWay_step hs.1 hs.2 ha.1 ha.2⟩) hinit hes
  rw [Machine.run_append]
  exact not_submits_of_pending hinv.2 ha hx

/-! ## Samples -/

def sampleStart : List Event := [.app .startPayment, .app (.finishStart 0 (Js.App.sampleSession "ps_1"))]

def sampleView : Platform → List Event
  | .android => [.native (.android (.card (.initializeView 0 "ps_1" "pss" "pk" true))),
      .native (.android (.card (.finishCreation ⟨0, "ps_1", "pss", "pk"⟩ true)))]
  | .ios => [.native (.ios (.create 0 .card)), .native (.ios (.setProperty 0 (.paymentSessionID (some "ps_1")))),
      .native (.ios (.setProperty 0 (.paymentSessionSecret (some "pss")))),
      .native (.ios (.setProperty 0 (.publicKey (some "pk")))),
      .native (.ios (.beginInitialize ⟨0, "ps_1", "pss", "pk"⟩)),
      .native (.ios (.finishInitialize ⟨0, "ps_1", "pss", "pk"⟩ (.created (some true) true)))]

/-- The `p`-th press of Pay up to the last step before the component's `submit()`. -/
def samplePress (p : Nat) : Platform → List Event
  | .android => [.pay, .moduleSubmit "ps_1" [], .native (.android (.runPosted p 0)), .promise (.ok ())]
  | .ios => [.pay]

def sampleSubmit (p : Nat) : Platform → Event
  | .android => .native (.android (.runLaunched p "ps_1" false))
  | .ios => .moduleSubmit "ps_1" [("ps_1", [0])]

def samplePromise : Platform → List Event
  | .android => []
  | .ios => [.promise (.ok ())]

def sampleMachine (platform : Platform) : Machine (State Unit) Event :=
  machine Js.App.sampleJson String.toLower {"ps_1"} (fun _ => none) platform

/-- A declined payment, and a second one after it. -/
theorem no_double_submit_after_decline :
    let M := sampleMachine .android
    let es := sampleStart ++ sampleView .android ++ samplePress 0 .android ++ [sampleSubmit 0 .android,
      .handleSubmit 0 ⟨"ps_1", "pss", some "data"⟩, .answer 0 0 "ps_1" (.response 402 "declined")] ++
      samplePress 1 .android ++ [sampleSubmit 1 .android]
    let e := Event.handleSubmit 1 ⟨"ps_1", "pss", some "data"⟩
    (M.run M.init es).Pending "ps_1" ∧ ¬ Submits (M.run M.init es) (M.run M.init (es ++ [e])) "ps_1" := by
  intro M es e
  have hpending : (M.run M.init es).Pending "ps_1" := ⟨1, by decide, by decide⟩
  refine ⟨hpending, no_double_submit Js.App.sampleJson String.toLower {"ps_1"} (fun _ => none) .android es e ?_ "ps_1"
    hpending⟩
  have hin : ∀ {α : Type} (a : α), a ∈ [a] := List.mem_singleton_self
  exact ⟨⟨⟨trivial, rfl⟩, trivial⟩, ⟨⟨trivial, hin _⟩, trivial⟩, ⟨⟨nofun, rfl⟩, trivial⟩, ⟨⟨nofun, hin _⟩, trivial⟩,
    ⟨rfl, rfl, rfl⟩, ⟨⟨hin _, trivial⟩, trivial⟩, ⟨⟨nofun, hin _⟩, trivial⟩, ⟨hin _, trivial⟩,
    ⟨⟨nofun, hin _⟩, trivial⟩, ⟨⟨hin _, nofun, rfl⟩, trivial⟩, ⟨⟨hin _, hin _⟩, trivial⟩, ⟨rfl, rfl, rfl⟩,
    ⟨⟨hin _, trivial⟩, trivial⟩, ⟨⟨nofun, hin _⟩, trivial⟩, ⟨hin _, trivial⟩, ⟨⟨nofun, hin _⟩, trivial⟩,
    ⟨⟨hin _, nofun, rfl⟩, trivial⟩, trivial⟩

/-- **The promise settles before the payment is answered**, the button is free again, and a second press submits the
same session a second time: on Android and on iOS. -/
theorem second_press_submits_again :
    (∃ es e, (sampleMachine .android).Admits (sampleMachine .android).init (es ++ [e]) ∧
      ((sampleMachine .android).run (sampleMachine .android).init es).Pending "ps_1" ∧
      Submits ((sampleMachine .android).run (sampleMachine .android).init es)
        ((sampleMachine .android).run (sampleMachine .android).init (es ++ [e])) "ps_1") ∧
    ∃ es e, (sampleMachine .ios).Admits (sampleMachine .ios).init (es ++ [e]) ∧
      ((sampleMachine .ios).run (sampleMachine .ios).init es).Pending "ps_1" ∧
      Submits ((sampleMachine .ios).run (sampleMachine .ios).init es)
        ((sampleMachine .ios).run (sampleMachine .ios).init (es ++ [e])) "ps_1" := by
  constructor
  · refine ⟨sampleStart ++ sampleView .android ++ samplePress 0 .android ++ [sampleSubmit 0 .android] ++
      samplePress 1 .android, sampleSubmit 1 .android, ?_, ⟨0, ?_, rfl⟩, ?_⟩
    · exact ⟨⟨trivial, rfl⟩, ⟨trivial, List.mem_singleton_self _⟩, ⟨nofun, rfl⟩, ⟨nofun, List.mem_singleton_self _⟩,
        rfl, ⟨List.mem_singleton_self _, trivial⟩, ⟨nofun, List.mem_singleton_self _⟩, List.mem_singleton_self _,
        ⟨nofun, List.mem_singleton_self _⟩, rfl, ⟨List.mem_singleton_self _, trivial⟩,
        ⟨nofun, List.mem_singleton_self _⟩, List.mem_singleton_self _, ⟨nofun, List.mem_singleton_self _⟩, trivial⟩
    · exact List.mem_singleton_self _
    · exact List.mem_singleton_self _
  · refine ⟨sampleStart ++ sampleView .ios ++ samplePress 0 .ios ++ [sampleSubmit 0 .ios] ++ samplePromise .ios ++
      samplePress 1 .ios, sampleSubmit 1 .ios, ?_, ⟨0, ?_, rfl⟩, ?_⟩
    · refine ⟨⟨trivial, rfl⟩, ⟨trivial, List.mem_singleton_self _⟩, ⟨nofun, rfl⟩,
        ⟨nofun, rfl, Ios.Property.session_mem rfl⟩, ⟨nofun, rfl, nofun⟩, ⟨nofun, rfl, nofun⟩,
        ⟨nofun, List.mem_singleton_self _⟩, ⟨nofun, List.mem_singleton_self _⟩, rfl,
        ⟨List.mem_singleton_self _, List.Perm.refl _⟩,
        List.mem_singleton_self _, rfl, ⟨List.mem_singleton_self _, List.Perm.refl _⟩, trivial⟩
    · exact List.mem_singleton_self _
    · exact List.mem_singleton_self _

end FlowDemo.PayButton
