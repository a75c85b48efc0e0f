import FlowDemo.Android.Manager
import FlowDemo.Android.Response
import FlowDemo.Lib.Machine

/-!
# Attempts to initialise a payment view

`initialize` begins in both Android views in the same way: it returns at once from a view that is initialised, else it
marks the view, stores the session data, registers the view under the session id, and looks for an activity. Without
one it takes the mark back and returns; with one it launches the coroutine that creates the component. `ViewClass` is
what the two classes have in common, the section below an attempt from its beginning to its end.

* `Retryable`: a view is marked exactly while an attempt is under way or after one has produced its component, an
  attempt that ends without a component leaves no footprint, and the next complete transaction starts a fresh one;
* `retryable_throughout_iff`: a run is so throughout exactly if every attempt finds an activity and produces its
  component.
-/

namespace FlowDemo.Android

/-- What JavaScript and the SDK do with a view besides: a submission and its response. A Google Pay submission has no
request id of its own. -/
inductive Request
  | handleSubmit (v : Nat) (raw requestId : String) (emits : Bool)
  | handleSubmitResponse (requestId : String) (success : Bool) (data : Option ReadableMap)

inductive Outcome
  | created
  | checkoutError
  | otherException
  deriving DecidableEq

namespace Attempts

/-- **A class of payment views**: its state, what an attempt reads and writes of it, and which exceptions its coroutine
catches. -/
structure ViewClass (σ : Type) where
  init : σ
  hasInitialized : σ → Nat → Bool
  currentSessionData : σ → Nat → Option SessionData
  getView : σ → String → Option Nat
  initializeView : σ → Nat → Triple → Bool → σ
  finishCreation : σ → Nat → Triple → Bool → σ
  request : σ → Request → σ
  catches : Outcome → Bool
  init_fresh : ∀ v, hasInitialized init v = false ∧ currentSessionData init v = none
  initializeView_initialized : ∀ s v t activity, hasInitialized s v = true → initializeView s v t activity = s
  initializeView_hasInitialized : ∀ s v t activity, hasInitialized s v = false →
    hasInitialized (initializeView s v t activity) v = activity
  initializeView_currentSessionData : ∀ s v t activity, hasInitialized s v = false →
    currentSessionData (initializeView s v t activity) v =
      some { id := t.paymentSessionID, secret := t.paymentSessionSecret }
  initializeView_other : ∀ s v t activity w, w ≠ v →
    hasInitialized (initializeView s v t activity) w = hasInitialized s w ∧
      currentSessionData (initializeView s v t activity) w = currentSessionData s w
  finishCreation_view : ∀ s v t created w, hasInitialized (finishCreation s v t created) w = hasInitialized s w ∧
    currentSessionData (finishCreation s v t created) w = currentSessionData s w
  request_view : ∀ s r w, hasInitialized (request s r) w = hasInitialized s w ∧
    currentSessionData (request s r) w = currentSessionData s w

/-- What an attempt writes: the mark, the session data, and the view filed under the session id. -/
structure Footprint where
  hasInitialized : Bool
  currentSessionData : Option SessionData
  registered : Option Nat
  deriving DecidableEq

/-- An attempt, with the footprint that was there before it. -/
structure Attempt where
  view : Nat
  triple : Triple
  before : Footprint
  deriving DecidableEq

/-- The views and their manager; the attempts started, those whose coroutine is under way, the views whose component
has been produced, and the attempts that ended without, with the footprint after them. An exception that is not caught
ends the app. -/
structure State (σ : Type) where
  views : σ
  managed : Managed := {}
  started : List (Nat × Triple) := []
  building : List Attempt := []
  produced : List Nat := []
  failed : List (Attempt × Footprint) := []
  crashed : Bool := false

inductive Event
  | transaction (v : Nat) (ps : List PropUpdate) (activity : Bool)
  | finish (a : Attempt) (outcome : Outcome)
  | request (r : Request)

section

variable {σ : Type} (C : ViewClass σ)

def footprint (s : σ) (v : Nat) (id : String) : Footprint :=
  ⟨C.hasInitialized s v, C.currentSessionData s v, C.getView s id⟩

namespace State

/-- `view.initialize` as `maybeInit` calls it: on a view that is not initialised it is an attempt, which ends at once
without an activity. -/
def initializeView (s : State σ) (v : Nat) (t : Triple) (activity : Bool) : State σ :=
  let views := C.initializeView s.views v t activity
  if C.hasInitialized s.views v then { s with views := views }
  else
    let a : Attempt := ⟨v, t, footprint C s.views v t.paymentSessionID⟩
    let s := { s with views := views, started := s.started ++ [(v, t)] }
    if activity then { s with building := s.building ++ [a] }
    else { s with failed := s.failed ++ [(a, footprint C views v t.paymentSessionID)] }

def transaction (s : State σ) (v : Nat) (ps : List PropUpdate) (activity : Bool) : State σ :=
  let s := { s with managed := s.managed.update v ps }
  match ViewManager.maybeInit (s.managed.tag v) with
  | none => s
  | some t => s.initializeView C v t activity

def finish (s : State σ) (a : Attempt) (outcome : Outcome) : State σ :=
  let views := C.finishCreation s.views a.view a.triple (outcome = .created)
  let s := { s with views := views, building := s.building.erase a }
  if outcome = .created then { s with produced := s.produced ++ [a.view] }
  else { s with
    failed := s.failed ++ [(a, footprint C views a.view a.triple.paymentSessionID)]
    crashed := !C.catches outcome }

def InProgress (s : State σ) (v : Nat) : Prop := ∃ a ∈ s.building, a.view = v

end State

def machine : Machine (State σ) Event where
  init := { views := C.init }
  allowed s e := s.crashed = false ∧ match e with
    | .finish a _ => a ∈ s.building
    | _ => True
  step s e := match e with
    | .transaction v ps activity => s.transaction C v ps activity
    | .finish a outcome => s.finish C a outcome
    | .request r => { s with views := C.request s.views r }

structure Retryable (s : State σ) : Prop where
  marked : ∀ v, C.hasInitialized s.views v = true ↔ s.InProgress v ∨ v ∈ s.produced
  restored : ∀ x ∈ s.failed, x.2 = x.1.before
  retries : ∀ v ps t activity, ¬ s.InProgress v → v ∉ s.produced →
    ((current (s.managed.ends v)).setAll ps).triple = some t →
    (s.transaction C v ps activity).started = s.started ++ [(v, t)]

/-- An attempt that is started finds an activity, and one that ends has produced its component. -/
def Succeeds (s : State σ) : Event → Prop
  | .transaction v ps activity => C.hasInitialized s.views v = false →
      ((current (s.managed.ends v)).setAll ps).triple ≠ none → activity = true
  | .finish _ outcome => outcome = .created
  | .request _ => True

/-- A view under way is marked and was not before; a view that is not marked has no session data, unless an attempt has
left its own. -/
structure Inv (s : State σ) : Prop where
  managed : s.managed.Inv
  building : ∀ a ∈ s.building, C.hasInitialized s.views a.view = true ∧ a.before.hasInitialized = false
  fresh : (∀ x ∈ s.failed, x.2 = x.1.before) →
    ∀ v, C.hasInitialized s.views v = false → C.currentSessionData s.views v = none

end

/-! ## What each step does -/

section

variable {σ : Type} {C : ViewClass σ} {s : State σ}

theorem transaction_eq (h : s.managed.Inv) (v : Nat) (ps : List PropUpdate) (activity : Bool) :
    s.transaction C v ps activity = match ((current (s.managed.ends v)).setAll ps).triple with
      | none => { s with managed := s.managed.update v ps }
      | some t => ({ s with managed := s.managed.update v ps } : State σ).initializeView C v t activity := by
  have hread : ViewManager.maybeInit ((s.managed.update v ps).tag v) =
      ((current (s.managed.ends v)).setAll ps).triple := by
    rw [((h.update v ps).keeps v).maybeInit_eq, Managed.ends_update, if_pos rfl, current_append]
  unfold State.transaction
  dsimp only
  rw [hread]

theorem initializeView_of_initialized {v : Nat} (h : C.hasInitialized s.views v = true) (t : Triple) (activity : Bool) :
    s.initializeView C v t activity = s := by
  unfold State.initializeView
  rw [if_pos h, C.initializeView_initialized _ _ _ _ h]

theorem initializeView_of_fresh {v : Nat} (h : C.hasInitialized s.views v = false) (t : Triple) :
    s.initializeView C v t true = { s with
      views := C.initializeView s.views v t true
      started := s.started ++ [(v, t)]
      building := s.building ++ [⟨v, t, footprint C s.views v t.paymentSessionID⟩] } := by
  unfold State.initializeView
  rw [if_neg (by rw [h]; exact Bool.false_ne_true), if_pos rfl]

theorem initializeView_without_activity {v : Nat} (h : C.hasInitialized s.views v = false) (t : Triple) :
    s.initializeView C v t false = { s with
      views := C.initializeView s.views v t false
      started := s.started ++ [(v, t)]
      failed := s.failed ++ [(⟨v, t, footprint C s.views v t.paymentSessionID⟩,
        footprint C (C.initializeView s.views v t false) v t.paymentSessionID)] } := by
  unfold State.initializeView
  rw [if_neg (by rw [h]; exact Bool.false_ne_true), if_neg Bool.false_ne_true]

theorem initializeView_marks {v : Nat} (h : C.hasInitialized s.views v = false) (t : Triple) (activity : Bool)
    (w : Nat) : C.hasInitialized (C.initializeView s.views v t activity) w =
      if w = v then activity else C.hasInitialized s.views w := by
  split
  · next hw => rw [hw, C.initializeView_hasInitialized _ _ _ _ h]
  · next hw => exact (C.initializeView_other _ _ _ _ _ hw).1

/-! ## Every step keeps the invariant -/

theorem Inv.update (h : Inv C s) (v : Nat) (ps : List PropUpdate) :
    Inv C { s with managed := s.managed.update v ps } :=
  ⟨h.managed.update v ps, h.building, h.fresh⟩

theorem Inv.initializeView (h : Inv C s) (v : Nat) (t : Triple) (activity : Bool) :
    Inv C (s.initializeView C v t activity) := by
  cases hv : C.hasInitialized s.views v with
  | true =>
      rw [initializeView_of_initialized hv]
      exact h
  | false =>
      have hmarks := fun activity => initializeView_marks hv t activity
      have hne : ∀ a ∈ s.building, a.view ≠ v := by
        rintro a ha rfl
        rw [(h.building a ha).1] at hv
        cases hv
      cases activity with
      | true =>
          rw [initializeView_of_fresh hv]
          refine ⟨h.managed, fun a ha => ?_, fun hkept w hw => ?_⟩
          · rcases List.mem_append.mp ha with ha | ha
            · exact ⟨(hmarks true a.view).trans ((if_neg (hne a ha)).trans (h.building a ha).1), (h.building a ha).2⟩
            · rw [List.mem_singleton.mp ha]
              exact ⟨C.initializeView_hasInitialized _ _ _ _ hv, hv⟩
          · have hmark := (hmarks true w).symm.trans hw
            by_cases hwv : w = v
            · rw [if_pos hwv] at hmark
              cases hmark
            · rw [if_neg hwv] at hmark
              exact (C.initializeView_other _ _ _ _ _ hwv).2.trans (h.fresh hkept w hmark)
      | false =>
          rw [initializeView_without_activity hv]
          refine ⟨h.managed, fun a ha => ?_, fun hkept w hw => ?_⟩
          · exact ⟨(hmarks false a.view).trans ((if_neg (hne a ha)).trans (h.building a ha).1), (h.building a ha).2⟩
          · by_cases hwv : w = v
            · -- the new footprint has session data, so the attempt before it would have had to leave some
              subst hwv
              have hbefore := h.fresh (fun x hx => hkept x (List.mem_append_left _ hx)) w hv
              have hafter := C.initializeView_currentSessionData s.views w t false hv
              have hsame := congrArg Footprint.currentSessionData
                (hkept _ (List.mem_append_right _ (List.mem_singleton_self _)))
              exact hsame.trans hbefore
            · refine (C.initializeView_other _ _ _ _ _ hwv).2.trans (h.fresh (fun x hx => hkept x
                (List.mem_append_left _ hx)) w ?_)
              exact (if_neg hwv).symm.trans ((hmarks false w).symm.trans hw)

theorem Inv.finish (h : Inv C s) (a : Attempt) (outcome : Outcome) : Inv C (s.finish C a outcome) := by
  have hview := C.finishCreation_view s.views a.view a.triple (outcome = .created)
  have hbuilding : ∀ b ∈ s.building.erase a, C.hasInitialized
      (C.finishCreation s.views a.view a.triple (outcome = .created)) b.view = true ∧ b.before.hasInitialized = false :=
    fun b hb => ⟨(hview b.view).1.trans (h.building b (List.mem_of_mem_erase hb)).1,
      (h.building b (List.mem_of_mem_erase hb)).2⟩
  have hfresh : (∀ x ∈ s.failed, x.2 = x.1.before) → ∀ v, C.hasInitialized
      (C.finishCreation s.views a.view a.triple (outcome = .created)) v = false → C.currentSessionData
      (C.finishCreation s.views a.view a.triple (outcome = .created)) v = none :=
    fun hkept v hv => (hview v).2.trans (h.fresh hkept v ((hview v).1.symm.trans hv))
  unfold State.finish
  dsimp only
  split
  · exact ⟨h.managed, hbuilding, hfresh⟩
  · exact ⟨h.managed, hbuilding, fun hkept => hfresh fun x hx => hkept x (List.mem_append_left _ hx)⟩

theorem inv_step (s : State σ) (e : Event) (h : Inv C s) (_ : (machine C).allowed s e) :
    Inv C ((machine C).step s e) := by
  cases e with
  | transaction v ps activity =>
      change Inv C (s.transaction C v ps activity)
      rw [transaction_eq h.managed]
      split
      · exact h.update v ps
      · next t _ => exact (h.update v ps).initializeView v t activity
  | finish a outcome => exact h.finish a outcome
  | request r =>
      have hview := C.request_view s.views r
      exact ⟨h.managed, fun a ha => ⟨(hview a.view).1.trans (h.building a ha).1, (h.building a ha).2⟩,
        fun hkept v hv => (hview v).2.trans (h.fresh hkept v ((hview v).1.symm.trans hv))⟩

theorem inv_init : Inv C (machine C).init :=
  ⟨Managed.inv_init, nofun, fun _ v _ => (C.init_fresh v).2⟩

/-! ## The steps after which attempts can be repeated -/

/-- A view that is neither under way nor done is not marked, so the next transaction starts an attempt. -/
theorem retryable_iff (h : Inv C s) : Retryable C s ↔
    (∀ v, C.hasInitialized s.views v = true ↔ s.InProgress v ∨ v ∈ s.produced) ∧ ∀ x ∈ s.failed, x.2 = x.1.before := by
  refine ⟨fun hr => ⟨hr.marked, hr.restored⟩, fun hr => ⟨hr.1, hr.2, fun v ps t activity hp hd ht => ?_⟩⟩
  have hv : C.hasInitialized s.views v = false :=
    Bool.eq_false_iff.mpr fun hmark => ((hr.1 v).mp hmark).elim hp hd
  rw [transaction_eq h.managed, ht]
  cases activity with
  | true =>
      exact congrArg State.started (initializeView_of_fresh (s := { s with managed := s.managed.update v ps }) hv t)
  | false =>
      exact congrArg State.started
        (initializeView_without_activity (s := { s with managed := s.managed.update v ps }) hv t)

theorem retryable_initializeView (h : Inv C s) (hr : Retryable C s) (v : Nat) (t : Triple) (activity : Bool) :
    Retryable C (s.initializeView C v t activity) ↔ (C.hasInitialized s.views v = false → activity = true) := by
  cases hv : C.hasInitialized s.views v with
  | true =>
      rw [initializeView_of_initialized hv]
      exact iff_of_true hr nofun
  | false =>
      rw [retryable_iff (h.initializeView v t activity)]
      cases activity with
      | true =>
          refine iff_of_true ?_ fun _ => rfl
          rw [initializeView_of_fresh hv]
          refine ⟨fun w => ?_, hr.restored⟩
          change C.hasInitialized (C.initializeView s.views v t true) w = true ↔ _
          rw [initializeView_marks hv]
          unfold State.InProgress
          simp only [List.mem_append, List.mem_singleton, or_and_right, exists_or, exists_eq_left]
          by_cases hwv : w = v
          · subst hwv
            simp
          · rw [if_neg hwv, hr.marked w]
            simp [State.InProgress, Ne.symm hwv]
      | false =>
          refine iff_of_false (fun hkept => ?_) fun himp => Bool.false_ne_true (himp rfl)
          rw [initializeView_without_activity hv] at hkept
          have hsame := congrArg Footprint.currentSessionData
            (hkept.2 _ (List.mem_append_right _ (List.mem_singleton_self _)))
          have hsome := (C.initializeView_currentSessionData s.views v t false hv).symm.trans hsame
          exact Option.some_ne_none _ (hsome.trans (h.fresh hr.restored v hv))

theorem retryable_finish (h : Inv C s) (hr : Retryable C s) {a : Attempt} (ha : a ∈ s.building) (outcome : Outcome) :
    Retryable C (s.finish C a outcome) ↔ outcome = .created := by
  have hview := C.finishCreation_view s.views a.view a.triple (outcome = .created)
  rw [retryable_iff (h.finish a outcome)]
  unfold State.finish
  dsimp only
  split
  · next hcreated =>
      refine iff_of_true ⟨fun w => ?_, hr.restored⟩ hcreated
      dsimp only
      rw [(hview w).1, hr.marked w]
      unfold State.InProgress
      constructor
      · rintro (⟨b, hb, rfl⟩ | hw)
        · by_cases hba : b = a
          · exact Or.inr (List.mem_append_right _ (hba ▸ List.mem_singleton_self _))
          · exact Or.inl ⟨b, (List.mem_erase_of_ne hba).mpr hb, rfl⟩
        · exact Or.inr (List.mem_append_left _ hw)
      · rintro (⟨b, hb, rfl⟩ | hw)
        · exact Or.inl ⟨b, List.mem_of_mem_erase hb, rfl⟩
        · rcases List.mem_append.mp hw with hw | hw
          · exact Or.inr hw
          · exact Or.inl ⟨a, ha, (List.mem_singleton.mp hw).symm⟩
  · next hfailed =>
      refine iff_of_false (fun hkept => ?_) hfailed
      have hsame := congrArg Footprint.hasInitialized
        (hkept.2 _ (List.mem_append_right _ (List.mem_singleton_self _)))
      obtain ⟨hmark, hbefore⟩ := h.building a ha
      have htrue := (hview a.view).1.trans hmark
      exact Bool.false_ne_true (hbefore.symm.trans (hsame.symm.trans htrue))

theorem retryable_step (s : State σ) (e : Event) (h : Inv C s) (hr : Retryable C s) (he : (machine C).allowed s e) :
    Retryable C ((machine C).step s e) ↔ Succeeds C s e := by
  cases e with
  | transaction v ps activity =>
      have hupdate : Retryable C { s with managed := s.managed.update v ps } :=
        (retryable_iff (h.update v ps)).mpr ⟨hr.marked, hr.restored⟩
      change Retryable C (s.transaction C v ps activity) ↔ _
      rw [transaction_eq h.managed]
      cases ht : ((current (s.managed.ends v)).setAll ps).triple with
      | none => exact iff_of_true hupdate fun _ hne => absurd ht hne
      | some t =>
          refine (retryable_initializeView (h.update v ps) hupdate v t activity).trans ?_
          exact ⟨fun himp hv _ => himp hv, fun himp hv => himp hv (ht ▸ Option.some_ne_none t)⟩
  | finish a outcome => exact retryable_finish h hr he.2 outcome
  | request r =>
      have hview := C.request_view s.views r
      refine iff_of_true ((retryable_iff (inv_step s (.request r) h he)).mpr ⟨fun v => ?_, hr.restored⟩) trivial
      exact (Bool.eq_iff_iff.mp (hview v).1).trans (hr.marked v)

theorem retryable_init : Retryable C (machine C).init := by
  refine (retryable_iff inv_init).mpr ⟨fun v => ?_, fun x hx => absurd hx List.not_mem_nil⟩
  refine iff_of_false (fun hv => ?_) (by rintro (⟨a, ha, -⟩ | hv) <;> contradiction)
  rw [show C.hasInitialized (machine C).init.views v = false from (C.init_fresh v).1] at hv
  cases hv

/-- **Attempts can be repeated throughout a run exactly if each of them succeeds.** -/
theorem retryable_throughout_iff {es : List Event} (h : (machine C).Admits (machine C).init es) :
    (machine C).Throughout (Retryable C) (machine C).init es ↔
      ((machine C).restrict (Succeeds C)).Admits (machine C).init es :=
  Machine.throughout_iff_restrict inv_step retryable_step inv_init retryable_init h

end

end Attempts

end FlowDemo.Android
