import FlowDemo.Android.Attempts
import FlowDemo.Android.Card.Mounted
import FlowDemo.Android.GooglePay.View

/-!
# Attempts of the card and the Google Pay views

Both classes of views as classes of `Attempts`. The coroutine of a card view catches every exception, that of a Google
Pay view only a `CheckoutError`; neither gives back what `initialize` wrote.
-/

namespace FlowDemo.Android

open Attempts (ViewClass)

namespace Card

theorem initializeView_other (s : State) (v : ViewId) (id secret key : String) (activity : Bool) {w : ViewId}
    (hw : w ≠ v) : (s.initializeView v id secret key activity).view w = s.view w := by
  cases h : (s.view v).hasInitialized with
  | true => rw [State.initializeView, if_pos h]
  | false => exact (Mounted.initialized_of_not h id secret key activity).other w hw

theorem initializeView_currentSessionData {s : State} {v : ViewId} (h : (s.view v).hasInitialized = false)
    (id secret key : String) (activity : Bool) :
    ((s.initializeView v id secret key activity).view v).currentSessionData = some { id := id, secret := secret } := by
  rw [State.initializeView, if_neg (by rw [h]; exact Bool.false_ne_true)]
  cases activity with
  | true => exact congrArg CardView.currentSessionData (State.setView_view_self s v _)
  | false =>
      refine (congrArg CardView.currentSessionData (State.setView_view_self _ v _)).trans ?_
      exact congrArg CardView.currentSessionData (State.setView_view_self s v _)

def requestEvent : Request → Event
  | .handleSubmit v raw requestId emits => .handleSubmit v raw requestId emits
  | .handleSubmitResponse requestId success data => .handleSubmitResponse requestId success data

theorem quiet_request (s : State) (r : Request) : Mounted.Quiet s ((machine ∅).step s (requestEvent r)) := by
  cases r <;> exact Mounted.quiet_step ∅ s _ nofun

theorem finishCreation_showing (s : State) (c : Creation) (created : Bool) (w : ViewId) :
    Mounted.showing ((s.finishCreation c created).view w) = Mounted.showing (s.view w) :=
  (Mounted.quiet_step ∅ s (.finishCreation c created) nofun).showing w

def viewClass : ViewClass State where
  init := {}
  hasInitialized s v := (s.view v).hasInitialized
  currentSessionData s v := (s.view v).currentSessionData
  getView s id := s.getView id
  initializeView s v t activity :=
    s.initializeView v t.paymentSessionID t.paymentSessionSecret t.publicKey activity
  finishCreation s v t created :=
    s.finishCreation ⟨v, t.paymentSessionID, t.paymentSessionSecret, t.publicKey⟩ created
  request s r := (machine ∅).step s (requestEvent r)
  catches _ := true
  init_fresh _ := ⟨rfl, rfl⟩
  initializeView_initialized _ _ _ _ h := if_pos h
  initializeView_hasInitialized _ _ _ activity h := (Mounted.initialized_of_not h _ _ _ activity).hasInitialized
  initializeView_currentSessionData _ _ _ activity h := initializeView_currentSessionData h _ _ _ activity
  initializeView_other s v _ activity _ hw := by
    rw [initializeView_other s v _ _ _ activity hw]
    exact ⟨rfl, rfl⟩
  finishCreation_view s _ _ created w :=
    Prod.mk.inj (finishCreation_showing s _ created w)
  request_view s r w := Prod.mk.inj ((quiet_request s r).showing w)

end Card

namespace GooglePay

def showing (w : GooglePayView) : Bool × Option SessionData := (w.hasInitialized, w.currentSessionData)

theorem setView_showing (s : State) {v : ViewId} {w : GooglePayView} (h : showing w = showing (s.view v))
    (v' : ViewId) : showing ((s.setView v w).view v') = showing (s.view v') := by
  by_cases hv : v' = v
  · rw [hv, State.setView_view_self, h]
  · rw [State.setView_view_of_ne s w hv]

theorem onHandleSubmit_showing (s : State) (v : ViewId) (raw : String) (emits : Bool) (w : ViewId) :
    showing ((s.onHandleSubmit v raw emits).view w) = showing (s.view w) := by
  unfold State.onHandleSubmit
  split
  · rfl
  · cases emits <;> exact setView_showing s (by rfl) w

theorem respondAll_showing (s : State) (r : String) (success : Bool) (data : Option ReadableMap) (l : List ViewId)
    (w : ViewId) : showing ((s.respondAll r success data l).1.view w) = showing (s.view w) := by
  induction l generalizing s with
  | nil => rfl
  | cons v rest ih =>
      have hone : showing ((s.handleSubmitResponse v r success data).1.view w) = showing (s.view w) := by
        unfold State.handleSubmitResponse
        split
        · rfl
        · split <;> exact setView_showing s (by rfl) w
      cases h : (s.handleSubmitResponse v r success data).2 with
      | ok u =>
          rw [State.respondAll_cons_of_ok s h]
          exact (ih _).trans hone
      | error e =>
          rw [State.respondAll_cons_of_error s h]
          exact hone

/-- A request as an event of the Google Pay views, which draw no request ids. -/
def requestEvent : Request → Event
  | .handleSubmit v raw _ emits => .handleSubmit v raw emits
  | .handleSubmitResponse requestId success data => .handleSubmitResponse requestId success data

theorem request_showing (s : State) (r : Request) (w : ViewId) :
    showing ((machine.step s (requestEvent r)).view w) = showing (s.view w) := by
  cases r with
  | handleSubmit v raw requestId emits => exact onHandleSubmit_showing s v raw emits w
  | handleSubmitResponse requestId success data => exact respondAll_showing s requestId success data _ w

section Initialize

variable {s : State} {v : ViewId} (h : (s.view v).hasInitialized = false) (id secret : String) (activity : Bool)
include h

theorem initializeView_view : showing ((s.initializeView v id secret activity).view v) =
    (activity, some { id := id, secret := secret }) := by
  rw [State.initializeView, if_neg (by rw [h]; exact Bool.false_ne_true)]
  cases activity with
  | true => exact congrArg showing (State.setView_view_self s v _)
  | false =>
      refine (congrArg showing (State.setView_view_self _ v _)).trans ?_
      exact congrArg (fun w => (false, w.currentSessionData)) (State.setView_view_self s v _)

end Initialize

theorem initializeView_other (s : State) (v : ViewId) (id secret : String) (activity : Bool) {w : ViewId} (hw : w ≠ v) :
    (s.initializeView v id secret activity).view w = s.view w := by
  unfold State.initializeView
  split
  · rfl
  · cases activity with
    | true => exact State.setView_view_of_ne s _ hw
    | false => exact (State.setView_view_of_ne _ _ hw).trans (State.setView_view_of_ne s _ hw)

/-- **The Google Pay views.** An exception other than a `CheckoutError` is not caught. -/
def viewClass : ViewClass State where
  init := {}
  hasInitialized s v := (s.view v).hasInitialized
  currentSessionData s v := (s.view v).currentSessionData
  getView s id := s.registry.get id
  initializeView s v t activity := s.initializeView v t.paymentSessionID t.paymentSessionSecret activity
  finishCreation s _ _ _ := s
  request s r := machine.step s (requestEvent r)
  catches outcome := outcome ≠ .otherException
  init_fresh _ := ⟨rfl, rfl⟩
  initializeView_initialized s _ _ activity h := s.initializeView_of_initialized h _ _ activity
  initializeView_hasInitialized _ _ _ activity h := congrArg Prod.fst (initializeView_view h _ _ activity)
  initializeView_currentSessionData _ _ _ activity h := congrArg Prod.snd (initializeView_view h _ _ activity)
  initializeView_other s v _ activity _ hw := by
    rw [initializeView_other s v _ _ activity hw]
    exact ⟨rfl, rfl⟩
  finishCreation_view _ _ _ _ _ := ⟨rfl, rfl⟩
  request_view s r w := Prod.mk.inj (request_showing s r w)

end GooglePay

/-- **Attempts can be repeated in the runs whose attempts all succeed**, of card views and of Google Pay views, and in
no others. -/
theorem attempts_retryable_iff {es gs : List Attempts.Event}
    (hcard : (Attempts.machine Card.viewClass).Admits (Attempts.machine Card.viewClass).init es)
    (hpay : (Attempts.machine GooglePay.viewClass).Admits (Attempts.machine GooglePay.viewClass).init gs) :
    ((Attempts.machine Card.viewClass).Throughout (Attempts.Retryable Card.viewClass)
        (Attempts.machine Card.viewClass).init es ↔
      ((Attempts.machine Card.viewClass).restrict (Attempts.Succeeds Card.viewClass)).Admits
        (Attempts.machine Card.viewClass).init es) ∧
    ((Attempts.machine GooglePay.viewClass).Throughout (Attempts.Retryable GooglePay.viewClass)
        (Attempts.machine GooglePay.viewClass).init gs ↔
      ((Attempts.machine GooglePay.viewClass).restrict (Attempts.Succeeds GooglePay.viewClass)).Admits
        (Attempts.machine GooglePay.viewClass).init gs) :=
  ⟨Attempts.retryable_throughout_iff hcard, Attempts.retryable_throughout_iff hpay⟩

def sampleAttempt : Attempts.Attempt := ⟨0, ⟨"ps_1", "pss", "pk"⟩, ⟨false, none, none⟩⟩

def attemptRun (outcome : Outcome) : List Attempts.Event :=
  [.transaction 0 (Card.Mounted.sampleProps "ps_1") true, .finish sampleAttempt outcome,
    .transaction 0 (Card.Mounted.sampleProps "ps_2") true]

theorem attempts_retryable_created :
    (Attempts.machine Card.viewClass).Throughout (Attempts.Retryable Card.viewClass)
        (Attempts.machine Card.viewClass).init (attemptRun .created) ∧
      (Attempts.machine GooglePay.viewClass).Throughout (Attempts.Retryable GooglePay.viewClass)
        (Attempts.machine GooglePay.viewClass).init (attemptRun .created) := by
  have hcard : (Attempts.machine Card.viewClass).Admits (Attempts.machine Card.viewClass).init (attemptRun .created) :=
    ⟨⟨rfl, trivial⟩, ⟨rfl, by decide⟩, ⟨rfl, trivial⟩, trivial⟩
  have hpay : (Attempts.machine GooglePay.viewClass).Admits (Attempts.machine GooglePay.viewClass).init
      (attemptRun .created) := ⟨⟨rfl, trivial⟩, ⟨rfl, by decide⟩, ⟨rfl, trivial⟩, trivial⟩
  obtain ⟨hcards, hpays⟩ := attempts_retryable_iff hcard hpay
  refine ⟨hcards.mpr ?_, hpays.mpr ?_⟩
  · obtain ⟨h1, h2, h3, -⟩ := hcard
    exact ⟨⟨h1, fun _ _ => rfl⟩, ⟨h2, rfl⟩, ⟨h3, fun _ _ => rfl⟩, trivial⟩
  · obtain ⟨h1, h2, h3, -⟩ := hpay
    exact ⟨⟨h1, fun _ _ => rfl⟩, ⟨h2, rfl⟩, ⟨h3, fun _ _ => rfl⟩, trivial⟩

def leftover (hasInitialized : Bool) : Attempts.Footprint :=
  ⟨hasInitialized, some { id := "ps_1", secret := "pss" }, some 0⟩

/-- **A failed attempt leaves its footprint**, in either class: without an activity the session data and the
registration, after a `CheckoutError` the mark too, so that the next transaction starts no attempt. -/
theorem failed_attempt_sticks :
    let C := Attempts.machine Card.viewClass
    let G := Attempts.machine GooglePay.viewClass
    let early : List Attempts.Event := [.transaction 0 (Card.Mounted.sampleProps "ps_1") false]
    let late := attemptRun .checkoutError
    (C.Reachable (C.run C.init early) ∧ (C.run C.init early).failed = [(sampleAttempt, leftover false)] ∧
        ¬ Attempts.Retryable Card.viewClass (C.run C.init early)) ∧
      (C.Reachable (C.run C.init late) ∧ (C.run C.init late).failed = [(sampleAttempt, leftover true)] ∧
        (C.run C.init late).started = [(0, ⟨"ps_1", "pss", "pk"⟩)] ∧
        ¬ Attempts.Retryable Card.viewClass (C.run C.init late)) ∧
      (G.Reachable (G.run G.init early) ∧ (G.run G.init early).failed = [(sampleAttempt, leftover false)] ∧
        ¬ Attempts.Retryable GooglePay.viewClass (G.run G.init early)) ∧
      G.Reachable (G.run G.init late) ∧ (G.run G.init late).failed = [(sampleAttempt, leftover true)] ∧
        (G.run G.init late).started = [(0, ⟨"ps_1", "pss", "pk"⟩)] ∧
        ¬ Attempts.Retryable GooglePay.viewClass (G.run G.init late) := by
  intro C G early late
  have hleft : ∀ b, leftover b ≠ sampleAttempt.before := by decide
  have hcearly : (C.run C.init early).failed = [(sampleAttempt, leftover false)] := by decide
  have hclate : (C.run C.init late).failed = [(sampleAttempt, leftover true)] := by decide
  have hgearly : (G.run G.init early).failed = [(sampleAttempt, leftover false)] := by decide
  have hglate : (G.run G.init late).failed = [(sampleAttempt, leftover true)] := by decide
  refine ⟨⟨Machine.Reachable.of_admits ⟨⟨rfl, trivial⟩, trivial⟩, hcearly, fun h => ?_⟩,
    ⟨Machine.Reachable.of_admits ⟨⟨rfl, trivial⟩, ⟨rfl, by decide⟩, ⟨rfl, trivial⟩, trivial⟩, hclate, by decide,
      fun h => ?_⟩, ⟨Machine.Reachable.of_admits ⟨⟨rfl, trivial⟩, trivial⟩, hgearly, fun h => ?_⟩,
    Machine.Reachable.of_admits ⟨⟨rfl, trivial⟩, ⟨rfl, by decide⟩, ⟨rfl, trivial⟩, trivial⟩, hglate, by decide,
      fun h => ?_⟩
  · exact hleft false (h.restored _ (hcearly ▸ List.mem_singleton_self _))
  · exact hleft true (h.restored _ (hclate ▸ List.mem_singleton_self _))
  · exact hleft false (h.restored _ (hgearly ▸ List.mem_singleton_self _))
  · exact hleft true (h.restored _ (hglate ▸ List.mem_singleton_self _))

end FlowDemo.Android
