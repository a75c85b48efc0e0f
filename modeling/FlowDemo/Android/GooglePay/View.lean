import Mathlib.Logic.Function.Basic
import FlowDemo.Lib.LinkedMap
import FlowDemo.Lib.Machine
import FlowDemo.Android.Response

/-!
# The Google Pay views and their registry

A Google Pay view keys its continuations by its payment session id, and `GooglePayViewRegistry` keys the views by it
too. A response goes to every registered view, in the order of the registry; an exception of one view ends the round.

* `Inv`: a stored continuation is an unresumed call's, under that call's own id;
* `respondAll_of_ok`, `respondAll_of_error`: what a round does when reading the payload succeeds, and when it throws.
-/

namespace FlowDemo.Android.GooglePay

abbrev ViewId := Nat

/-- A suspended `handleSubmit` call: its place in the list of the calls. -/
abbrev Continuation := Nat

structure GooglePayView where
  hasInitialized : Bool := false
  currentSessionData : Option SessionData := none
  pendingContinuations : LinkedMap String Continuation := ∅

structure SubmitEvent where
  requestId : String
  sessionData : SessionData
  deriving DecidableEq

/-- A `handleSubmit` call: the view it was made on and its request id. -/
structure Call where
  view : ViewId
  requestId : String
  deriving DecidableEq

/-- All views, `GooglePayViewRegistry.views`, the calls made so far, and the traces that leave the views. -/
structure State where
  view : ViewId → GooglePayView := fun _ => {}
  registry : LinkedMap String ViewId := ∅
  calls : List Call := []
  emitted : List SubmitEvent := []
  resumed : List (Continuation × CustomApiCallResult) := []

namespace State

def setView (s : State) (v : ViewId) (w : GooglePayView) : State := { s with view := Function.update s.view v w }

def pending (s : State) (v : ViewId) (r : String) : Option Continuation := (s.view v).pendingContinuations.get r

/-! ## `GooglePayViewRegistry` -/

def registerView (s : State) (id : String) (v : ViewId) : State := { s with registry := s.registry.put id v }

def unregisterView (s : State) (id : String) : State := { s with registry := s.registry.remove id }

/-! ## `GooglePayView` -/

/-- `handleSubmit`, up to the suspension; `emits` is false when the bridge throws instead of delivering the event. -/
def handleSubmit (s : State) (v : ViewId) (sessionData : SessionData) (emits : Bool) : State :=
  let requestId := sessionData.id
  let s := { s.setView v { s.view v with
      pendingContinuations := (s.view v).pendingContinuations.put requestId s.calls.length } with
    calls := s.calls ++ [⟨v, requestId⟩] }
  if emits then { s with emitted := s.emitted ++ [⟨requestId, sessionData⟩] } else s

/-- The `handleSubmit` lambda of the component callback, up to the suspension. -/
def onHandleSubmit (s : State) (v : ViewId) (raw : String) (emits : Bool) : State :=
  match (s.view v).currentSessionData with
  | none => s
  | some base => s.handleSubmit v { base with sessionData := some raw } emits

def handleSubmitResponse (s : State) (v : ViewId) (requestId : String) (success : Bool)
    (data : Option ReadableMap) : State × Except NativeException Unit :=
  match (s.view v).pendingContinuations.get requestId with
  | none => (s, .ok ())
  | some c =>
      let s := s.setView v { s.view v with
        pendingContinuations := (s.view v).pendingContinuations.remove requestId }
      match responseResult success data with
      | .error e => (s, .error e)
      | .ok result => ({ s with resumed := s.resumed ++ [(c, result)] }, .ok ())

/-- `GooglePayView.initialize`; `activity` tells whether a `ComponentActivity` is at hand. -/
def initializeView (s : State) (v : ViewId) (paymentSessionID paymentSessionSecret : String) (activity : Bool) :
    State :=
  if (s.view v).hasInitialized then s
  else
    let s := s.setView v { s.view v with
      hasInitialized := true
      currentSessionData := some { id := paymentSessionID, secret := paymentSessionSecret } }
    let s := s.registerView paymentSessionID v
    if activity then s else s.setView v { s.view v with hasInitialized := false }

/-- `views.values.forEach { it.handleSubmitResponse(..) }` over the views `l`. -/
def respondAll (s : State) (requestId : String) (success : Bool) (data : Option ReadableMap) :
    List ViewId → State × Except NativeException Unit
  | [] => (s, .ok ())
  | v :: rest =>
      match s.handleSubmitResponse v requestId success data with
      | (s', .ok ()) => s'.respondAll requestId success data rest
      | (s', .error e) => (s', .error e)

/-- `v` is a value of the registry. -/
def Registered (s : State) (v : ViewId) : Prop := v ∈ s.registry.values

end State

/-- `GooglePayModule.handleSubmitResponse`: an exception is caught and logged. -/
def GooglePayModule.handleSubmitResponse (s : State) (requestId : String) (success : Bool)
    (data : Option ReadableMap) : State :=
  (s.respondAll requestId success data s.registry.values).1

/-! ## What each operation changes -/

theorem getElem?_concat_eq_some_iff {α : Type} (l : List α) (a b : α) (i : Nat) :
    (l ++ [a])[i]? = some b ↔ l[i]? = some b ∨ i = l.length ∧ a = b := by
  rw [List.getElem?_append]
  split
  · next hi => exact ⟨Or.inl, fun h => h.resolve_right fun hi' => absurd hi (hi'.1 ▸ Nat.lt_irrefl _)⟩
  · next hi =>
      have hnone : l[i]? = none := List.getElem?_eq_none (Nat.not_lt.mp hi)
      rw [hnone, List.getElem?_singleton]
      constructor
      · intro h
        split at h
        · exact Or.inr ⟨by omega, Option.some.inj h⟩
        · cases h
      · rintro (h | ⟨rfl, rfl⟩)
        · cases h
        · rw [if_pos (Nat.sub_self _)]

namespace State

variable (s : State)

@[simp] theorem setView_view_self (v : ViewId) (w : GooglePayView) : (s.setView v w).view v = w :=
  Function.update_self _ _ _

theorem setView_view_of_ne {v v' : ViewId} (w : GooglePayView) (h : v' ≠ v) :
    (s.setView v w).view v' = s.view v' :=
  Function.update_of_ne h _ _

theorem setView_pending (v : ViewId) (w : GooglePayView)
    (h : w.pendingContinuations = (s.view v).pendingContinuations) (v' : ViewId) (r : String) :
    (s.setView v w).pending v' r = s.pending v' r := by
  unfold pending
  by_cases hv : v' = v
  · rw [hv, setView_view_self, h]
  · rw [setView_view_of_ne s w hv]

theorem setView_put_pending (v : ViewId) (r : String) (c : Continuation) (v' : ViewId) (r' : String) :
    (s.setView v { s.view v with pendingContinuations := (s.view v).pendingContinuations.put r c }).pending v' r' =
      if v' = v ∧ r' = r then some c else s.pending v' r' := by
  unfold pending
  by_cases hv : v' = v
  · subst hv
    rw [setView_view_self, LinkedMap.get_put]
    simp only [true_and]
  · rw [setView_view_of_ne s _ hv, if_neg fun h => hv h.1]

theorem setView_remove_pending (v : ViewId) (r : String) (v' : ViewId) (r' : String) :
    (s.setView v { s.view v with pendingContinuations := (s.view v).pendingContinuations.remove r }).pending v' r' =
      if v' = v ∧ r' = r then none else s.pending v' r' := by
  unfold pending
  by_cases hv : v' = v
  · subst hv
    rw [setView_view_self, LinkedMap.get_remove]
    simp only [true_and]
  · rw [setView_view_of_ne s _ hv, if_neg fun h => hv h.1]

structure Submitted (t : State) (v : ViewId) (r : String) : Prop where
  pending : ∀ w k, t.pending w k = if w = v ∧ k = r then some s.calls.length else s.pending w k
  calls : t.calls = s.calls ++ [⟨v, r⟩]
  registry : t.registry = s.registry
  resumed : t.resumed = s.resumed

theorem Submitted.getElem?_calls {s t : State} {v : ViewId} {r : String} (h : s.Submitted t v r) (c : Continuation)
    (call : Call) : t.calls[c]? = some call ↔ s.calls[c]? = some call ∨ c = s.calls.length ∧ ⟨v, r⟩ = call := by
  rw [h.calls]
  exact getElem?_concat_eq_some_iff _ _ _ _

theorem handleSubmit_submitted (v : ViewId) (sessionData : SessionData) (emits : Bool) :
    s.Submitted (s.handleSubmit v sessionData emits) v sessionData.id := by
  cases emits <;> exact ⟨setView_put_pending s v sessionData.id s.calls.length, rfl, rfl, rfl⟩

/-- `initialize` touches the registry only at its session id, and no continuation. -/
structure Initialized (t : State) (v : ViewId) (id : String) : Prop where
  pending : ∀ w r, t.pending w r = s.pending w r
  calls : t.calls = s.calls
  registry : t.registry = s.registry.put id v
  resumed : t.resumed = s.resumed

theorem initializeView_of_initialized {v : ViewId} (h : (s.view v).hasInitialized = true) (id secret : String)
    (activity : Bool) : s.initializeView v id secret activity = s := by
  rw [initializeView, if_pos h]

theorem initializeView_initialized {v : ViewId} (h : (s.view v).hasInitialized = false) (id secret : String)
    (activity : Bool) : s.Initialized (s.initializeView v id secret activity) v id := by
  rw [initializeView, if_neg (by rw [h]; exact Bool.false_ne_true)]
  cases activity with
  | true => exact ⟨fun w r => setView_pending s v _ (by rfl) w r, rfl, rfl, rfl⟩
  | false =>
      refine ⟨fun w r => ?_, rfl, rfl, rfl⟩
      exact (setView_pending _ v _ (by rfl) w r).trans (setView_pending s v _ (by rfl) w r)

/-! ## A response -/

section Response

variable {r : String} {success : Bool} {data : Option ReadableMap}

theorem handleSubmitResponse_of_none {v : ViewId} (h : s.pending v r = none) :
    s.handleSubmitResponse v r success data = (s, .ok ()) := by
  unfold handleSubmitResponse
  rw [show (s.view v).pendingContinuations.get r = none from h]

theorem handleSubmitResponse_rest (v : ViewId) (r : String) (success : Bool) (data : Option ReadableMap) :
    (s.handleSubmitResponse v r success data).1.registry = s.registry ∧
      (s.handleSubmitResponse v r success data).1.calls = s.calls := by
  unfold handleSubmitResponse
  split
  · exact ⟨rfl, rfl⟩
  · split <;> exact ⟨rfl, rfl⟩

/-- It takes the continuation of the view away, whether or not the payload can be read. -/
theorem handleSubmitResponse_pending (v : ViewId) (r : String) (success : Bool) (data : Option ReadableMap)
    (w : ViewId) (k : String) : (s.handleSubmitResponse v r success data).1.pending w k =
      if w = v ∧ k = r then none else s.pending w k := by
  cases hc : s.pending v r with
  | none =>
      rw [handleSubmitResponse_of_none s hc]
      split
      · next h => rw [h.1, h.2, hc]
      · rfl
  | some c =>
      unfold handleSubmitResponse
      rw [show (s.view v).pendingContinuations.get r = some c from hc]
      cases responseResult success data <;> exact setView_remove_pending s v r w k

/-- A payload that can be read resumes it. -/
theorem handleSubmitResponse_of_ok {result : CustomApiCallResult} (hr : responseResult success data = .ok result)
    (v : ViewId) : (s.handleSubmitResponse v r success data).2 = .ok () ∧
      (s.handleSubmitResponse v r success data).1.resumed =
        s.resumed ++ ((s.pending v r).map fun c => (c, result)).toList := by
  cases hc : s.pending v r with
  | none =>
      rw [handleSubmitResponse_of_none s hc]
      exact ⟨rfl, (List.append_nil _).symm⟩
  | some c =>
      unfold handleSubmitResponse
      rw [show (s.view v).pendingContinuations.get r = some c from hc, hr]
      exact ⟨rfl, rfl⟩

/-- One that cannot be read does not, and ends the round if there was one to take. -/
theorem handleSubmitResponse_of_error {e : NativeException} (hr : responseResult success data = .error e)
    (v : ViewId) : (s.handleSubmitResponse v r success data).1.resumed = s.resumed ∧
      (s.handleSubmitResponse v r success data).2 = if (s.pending v r).isSome then .error e else .ok () := by
  cases hc : s.pending v r with
  | none =>
      rw [handleSubmitResponse_of_none s hc]
      exact ⟨rfl, rfl⟩
  | some c =>
      unfold handleSubmitResponse
      rw [show (s.view v).pendingContinuations.get r = some c from hc, hr]
      exact ⟨rfl, rfl⟩

theorem handleSubmitResponse_resumed (v : ViewId) (r : String) (success : Bool) (data : Option ReadableMap)
    (c : Continuation) : c ∈ (s.handleSubmitResponse v r success data).1.resumed.map Prod.fst ↔
      c ∈ s.resumed.map Prod.fst ∨ ¬ Throws success data ∧ s.pending v r = some c := by
  cases hr : responseResult success data with
  | ok result =>
      have hok : ¬ Throws success data := not_throws_of_responseResult_ok hr
      rw [(s.handleSubmitResponse_of_ok (r := r) hr v).2, List.map_append, List.mem_append]
      cases hc : s.pending v r with
      | none => simp
      | some d => simp [hok, eq_comm]
  | error e =>
      rw [(s.handleSubmitResponse_of_error (r := r) hr v).1]
      exact ⟨Or.inl, fun h => h.resolve_right fun hc => hc.1 (throws_of_responseResult_error hr)⟩

theorem respondAll_cons_of_ok {v : ViewId} (h : (s.handleSubmitResponse v r success data).2 = .ok ())
    (rest : List ViewId) : s.respondAll r success data (v :: rest) =
      (s.handleSubmitResponse v r success data).1.respondAll r success data rest := by
  rw [respondAll]
  cases hone : s.handleSubmitResponse v r success data with
  | mk s' o =>
      rw [hone] at h
      subst h
      rfl

theorem respondAll_cons_of_error {v : ViewId} {e : NativeException}
    (h : (s.handleSubmitResponse v r success data).2 = .error e) (rest : List ViewId) :
    (s.respondAll r success data (v :: rest)).1 = (s.handleSubmitResponse v r success data).1 := by
  rw [respondAll]
  cases hone : s.handleSubmitResponse v r success data with
  | mk s' o =>
      rw [hone] at h
      subst h
      rfl

theorem respondAll_rest (r : String) (success : Bool) (data : Option ReadableMap) (l : List ViewId) :
    (s.respondAll r success data l).1.registry = s.registry ∧ (s.respondAll r success data l).1.calls = s.calls := by
  induction l generalizing s with
  | nil => exact ⟨rfl, rfl⟩
  | cons v rest ih =>
      have hone := s.handleSubmitResponse_rest v r success data
      cases h : (s.handleSubmitResponse v r success data).2 with
      | ok u =>
          rw [respondAll_cons_of_ok s h]
          exact ⟨(ih _).1.trans hone.1, (ih _).2.trans hone.2⟩
      | error e =>
          rw [respondAll_cons_of_error s h]
          exact hone

/-- **A payload that can be read** resumes the request in every view of the round. -/
theorem respondAll_of_ok {result : CustomApiCallResult} (hr : responseResult success data = .ok result)
    (l : List ViewId) :
    (∀ w k, (s.respondAll r success data l).1.pending w k = if w ∈ l ∧ k = r then none else s.pending w k) ∧
      ∀ x, x ∈ (s.respondAll r success data l).1.resumed ↔
        x ∈ s.resumed ∨ x.2 = result ∧ ∃ w ∈ l, s.pending w r = some x.1 := by
  induction l generalizing s with
  | nil => simp [respondAll]
  | cons v rest ih =>
      have hp := s.handleSubmitResponse_pending v r success data
      obtain ⟨hdone, hresumed⟩ := s.handleSubmitResponse_of_ok (r := r) hr v
      rw [respondAll_cons_of_ok s hdone]
      obtain ⟨h1, h2⟩ := ih (s.handleSubmitResponse v r success data).1
      refine ⟨fun w k => ?_, fun x => ?_⟩
      · rw [h1, hp]
        by_cases hk : k = r
        · by_cases hw : w ∈ rest <;> by_cases hv : w = v <;> simp [hk, hw, hv]
        · simp [hk]
      · obtain ⟨c, result'⟩ := x
        have hnew : (c, result') ∈ ((s.pending v r).map fun c => (c, result)).toList ↔
            result' = result ∧ s.pending v r = some c := by
          simp only [Option.mem_toList, Option.map_eq_some_iff, Prod.mk.injEq]
          constructor
          · rintro ⟨d, hd, rfl, rfl⟩
            exact ⟨rfl, hd⟩
          · rintro ⟨rfl, hc⟩
            exact ⟨c, hc, rfl, rfl⟩
        rw [h2, hresumed, List.mem_append, hnew, or_assoc, ← and_or_left, List.exists_mem_cons_iff]
        refine or_congr_right (and_congr_right fun _ => ?_)
        -- a view that comes again in the round has nothing left to take
        by_cases hc : s.pending v r = some c
        · simp [hc]
        · simp only [hc, false_or, hp, and_true]
          refine exists_congr fun w => and_congr_right fun _ => ?_
          split
          · next hw => exact iff_of_false nofun (hw ▸ hc)
          · exact Iff.rfl

/-- **A payload that cannot be read** costs the first view of the round that waits for it its request. -/
theorem respondAll_of_error {e : NativeException} (hr : responseResult success data = .error e) (l : List ViewId) :
    (s.respondAll r success data l).1.resumed = s.resumed ∧
      ∀ w k, (s.respondAll r success data l).1.pending w k =
        if (l.find? fun v => (s.pending v r).isSome) = some w ∧ k = r then none else s.pending w k := by
  induction l with
  | nil => simp [respondAll]
  | cons v rest ih =>
      obtain ⟨hresumed, hdone⟩ := s.handleSubmitResponse_of_error (r := r) hr v
      cases hc : s.pending v r with
      | none =>
          rw [hc] at hdone
          rw [respondAll_cons_of_ok s hdone, handleSubmitResponse_of_none s hc, List.find?_cons_of_neg (by simp [hc])]
          exact ih
      | some c =>
          rw [hc] at hdone
          rw [respondAll_cons_of_error s hdone, List.find?_cons_of_pos (by simp [hc])]
          refine ⟨hresumed, fun w k => ?_⟩
          have hiff : (some v = some w ∧ k = r) ↔ (w = v ∧ k = r) := by rw [Option.some.injEq, eq_comm]
          rw [s.handleSubmitResponse_pending]
          simp only [hiff]

end Response

/-! ## The invariant -/

/-- A stored continuation is that of an unresumed call, under the call's own id and in its own view. -/
structure Inv : Prop where
  stored : ∀ v r c, s.pending v r = some c → s.calls[c]? = some ⟨v, r⟩ ∧ c ∉ s.resumed.map Prod.fst
  known : ∀ c ∈ s.resumed.map Prod.fst, c < s.calls.length

end State

inductive Event
  | initializeView (v : ViewId) (paymentSessionID paymentSessionSecret : String) (activity : Bool)
  | handleSubmit (v : ViewId) (raw : String) (emits : Bool)
  | handleSubmitResponse (requestId : String) (success : Bool) (data : Option ReadableMap)

/-- Any number of views, calls and responses, in any order. -/
def machine : Machine State Event where
  init := {}
  allowed _ _ := True
  step s e := match e with
    | .initializeView v id secret activity => s.initializeView v id secret activity
    | .handleSubmit v raw emits => s.onHandleSubmit v raw emits
    | .handleSubmitResponse r success data => GooglePayModule.handleSubmitResponse s r success data

theorem inv_init : machine.init.Inv := ⟨nofun, nofun⟩

theorem State.Inv.submitted {s t : State} (h : s.Inv) {v : ViewId} {r : String} (ht : s.Submitted t v r) : t.Inv := by
  refine ⟨fun w k c hc => ?_, fun c hc => ?_⟩
  · rw [ht.getElem?_calls, ht.resumed]
    rw [ht.pending] at hc
    split at hc
    · next he =>
        obtain rfl := Option.some.inj hc
        rw [he.1, he.2]
        exact ⟨Or.inr ⟨rfl, rfl⟩, fun hin => Nat.lt_irrefl _ (h.known _ hin)⟩
    · obtain ⟨h1, h2⟩ := h.stored w k c hc
      exact ⟨Or.inl h1, h2⟩
  · rw [ht.resumed] at hc
    rw [ht.calls, List.length_append]
    exact Nat.lt_add_right _ (h.known c hc)

theorem State.Inv.initialized {s t : State} (h : s.Inv) {v : ViewId} {id : String} (ht : s.Initialized t v id) :
    t.Inv := by
  refine ⟨fun w k c hc => ?_, ?_⟩
  · rw [ht.calls, ht.resumed]
    exact h.stored w k c ((ht.pending w k).symm.trans hc)
  · rw [ht.calls, ht.resumed]
    exact h.known

/-- **The turn of a view keeps the invariant.** -/
theorem State.Inv.handleSubmitResponse {s : State} (h : s.Inv) (v : ViewId) (r : String) (success : Bool)
    (data : Option ReadableMap) : (s.handleSubmitResponse v r success data).1.Inv := by
  obtain ⟨-, hcalls⟩ := s.handleSubmitResponse_rest v r success data
  have hresumed := s.handleSubmitResponse_resumed v r success data
  refine ⟨fun w k c hc => ?_, fun c hc => ?_⟩
  · rw [s.handleSubmitResponse_pending] at hc
    split at hc
    · cases hc
    · next hne =>
        obtain ⟨h1, h2⟩ := h.stored w k c hc
        refine ⟨hcalls ▸ h1, fun hin => ?_⟩
        rcases (hresumed c).mp hin with hin | ⟨-, hc'⟩
        · exact h2 hin
        · -- one continuation is stored in one place
          have heq := (h.stored v r c hc').1
          rw [h1] at heq
          obtain ⟨rfl, rfl⟩ := Call.mk.inj (Option.some.inj heq)
          exact hne ⟨rfl, rfl⟩
  · rw [hcalls]
    rcases (hresumed c).mp hc with hc | ⟨-, hc⟩
    · exact h.known c hc
    · exact (List.getElem?_eq_some_iff.mp (h.stored v r c hc).1).1

theorem State.Inv.respondAll {s : State} (h : s.Inv) (r : String) (success : Bool) (data : Option ReadableMap)
    (l : List ViewId) : (s.respondAll r success data l).1.Inv := by
  induction l generalizing s with
  | nil => exact h
  | cons v rest ih =>
      have hone := h.handleSubmitResponse v r success data
      cases hdone : (s.handleSubmitResponse v r success data).2 with
      | ok u =>
          rw [respondAll_cons_of_ok s hdone]
          exact ih hone
      | error e =>
          rw [respondAll_cons_of_error s hdone]
          exact hone

theorem inv_step (s : State) (e : Event) (h : s.Inv) (_ : machine.allowed s e) : (machine.step s e).Inv := by
  cases e with
  | initializeView v id secret activity =>
      change (s.initializeView v id secret activity).Inv
      cases hi : (s.view v).hasInitialized with
      | true =>
          rw [s.initializeView_of_initialized hi]
          exact h
      | false => exact h.initialized (s.initializeView_initialized hi id secret activity)
  | handleSubmit v raw emits =>
      change (s.onHandleSubmit v raw emits).Inv
      unfold State.onHandleSubmit
      split
      · exact h
      · exact h.submitted (s.handleSubmit_submitted v _ emits)
  | handleSubmitResponse r success data => exact h.respondAll r success data s.registry.values

theorem inv_reachable {s : State} (hs : machine.Reachable s) : s.Inv := hs.induction inv_init inv_step

end FlowDemo.Android.GooglePay
