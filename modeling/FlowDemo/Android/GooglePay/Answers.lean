import FlowDemo.Android.GooglePay.View

/-!
# When Google Pay answers are not cross-wired

The views together with the answers JavaScript still has to send: a `handleSubmit` call that finds session data emits
one event, and each component listening to it sends one answer, carrying the event's request id, at any later time.
`answered` records which call each answer resumed. `neverCrosses_throughout_iff` says exactly which steps keep every
answer, sent or still to come, with the call whose event it answers.
-/

namespace FlowDemo.Android.GooglePay.Answers

/-- An answer to come: the call whose event it answers, and the id it carries. -/
structure Answer where
  call : Continuation
  requestId : String
  deriving DecidableEq

/-- The views, the answers to come, and for each resumed call the call whose answer resumed it. -/
structure State where
  pay : GooglePay.State := {}
  inFlight : List Answer := []
  answered : List (Continuation × Continuation) := []

/-- The calls resumed between `s` and `t`. -/
def newlyResumed (s t : GooglePay.State) : List Continuation :=
  (t.resumed.map Prod.fst).filter fun c => c ∉ s.resumed.map Prod.fst

namespace State

/-- A call whose event reaches `listeners` components. -/
def handleSubmit (s : State) (v : ViewId) (raw : String) (listeners : Nat) : State :=
  match (s.pay.view v).currentSessionData with
  | none => s
  | some base => { s with
      pay := s.pay.onHandleSubmit v raw true
      inFlight := s.inFlight ++ List.replicate listeners ⟨s.pay.calls.length, base.id⟩ }

def answer (s : State) (a : Answer) (success : Bool) (data : Option ReadableMap) : State :=
  let pay := GooglePayModule.handleSubmitResponse s.pay a.requestId success data
  { pay := pay
    inFlight := s.inFlight.erase a
    answered := s.answered ++ (newlyResumed s.pay pay).map fun c => (c, a.call) }

end State

inductive Event
  | initializeView (v : ViewId) (paymentSessionID paymentSessionSecret : String) (activity : Bool)
  | handleSubmit (v : ViewId) (raw : String) (listeners : Nat)
  | answer (a : Answer) (success : Bool) (data : Option ReadableMap)

/-- Any number of views and calls; every answer to come arrives once, in any order, with any result. -/
def machine : Machine State Event where
  init := {}
  allowed s e := match e with
    | .initializeView _ _ _ _ => True
    | .handleSubmit _ _ _ => True
    | .answer a _ _ => a ∈ s.inFlight
  step s e := match e with
    | .initializeView v id secret activity => { s with pay := s.pay.initializeView v id secret activity }
    | .handleSubmit v raw listeners => s.handleSubmit v raw listeners
    | .answer a success data => s.answer a success data

/-- The views are in order, and the answers to come are those of calls made. -/
structure Inv (s : State) : Prop where
  pay : s.pay.Inv
  known : ∀ a ∈ s.inFlight, a.call < s.pay.calls.length

theorem inv_init : Inv machine.init := ⟨GooglePay.inv_init, nofun⟩

theorem inv_step (s : State) (e : Event) (h : Inv s) (_ : machine.allowed s e) : Inv (machine.step s e) := by
  cases e with
  | initializeView v id secret activity =>
      refine ⟨GooglePay.inv_step s.pay (.initializeView v id secret activity) h.pay trivial, ?_⟩
      change ∀ a ∈ s.inFlight, a.call < (s.pay.initializeView v id secret activity).calls.length
      cases hi : (s.pay.view v).hasInitialized with
      | true =>
          rw [s.pay.initializeView_of_initialized hi]
          exact h.known
      | false =>
          rw [(s.pay.initializeView_initialized hi id secret activity).calls]
          exact h.known
  | handleSubmit v raw listeners =>
      change Inv (s.handleSubmit v raw listeners)
      have hpay := GooglePay.inv_step s.pay (.handleSubmit v raw true) h.pay trivial
      unfold State.handleSubmit
      cases hb : (s.pay.view v).currentSessionData with
      | none => exact h
      | some base =>
          have hsub : s.pay.Submitted (s.pay.onHandleSubmit v raw true) v base.id := by
            simp only [GooglePay.State.onHandleSubmit, hb]
            exact s.pay.handleSubmit_submitted v _ true
          refine ⟨hpay, fun a ha => ?_⟩
          change a.call < (s.pay.onHandleSubmit v raw true).calls.length
          rw [hsub.calls, List.length_append, List.length_singleton]
          rcases List.mem_append.mp ha with ha | ha
          · exact Nat.lt_succ_of_lt (h.known a ha)
          · rw [List.eq_of_mem_replicate ha]
            exact Nat.lt_succ_self _
  | answer a success data =>
      refine ⟨h.pay.respondAll a.requestId success data _, fun b hb => ?_⟩
      change b.call < (GooglePayModule.handleSubmitResponse s.pay a.requestId success data).calls.length
      rw [GooglePayModule.handleSubmitResponse, (GooglePay.State.respondAll_rest s.pay _ _ _ _).2]
      exact h.known b (List.mem_of_mem_erase hb)

/-! ## The property -/

/-- **No answer was, and none to come can be, handed to a call other than the one whose event it answers.** -/
def NeverCrosses (s : State) : Prop :=
  (∀ x ∈ s.answered, x.1 = x.2) ∧
    ∀ a ∈ s.inFlight, ∀ success data, ∀ x ∈ (s.answer a success data).answered, x.1 = x.2

/-- A registered view that waits under the id of an answer to come waits for that answer. -/
def Aligned (s : State) : Prop :=
  ∀ a ∈ s.inFlight, ∀ w, s.pay.Registered w → ∀ d, s.pay.pending w a.requestId = some d → d = a.call

theorem mem_newlyResumed {s : GooglePay.State} (h : s.Inv) {r : String} {success : Bool} {data : Option ReadableMap}
    {d : Continuation} :
    d ∈ newlyResumed s (GooglePayModule.handleSubmitResponse s r success data) ↔
      ¬ Throws success data ∧ ∃ w, s.Registered w ∧ s.pending w r = some d := by
  unfold newlyResumed
  rw [List.mem_filter, decide_eq_true_eq]
  cases hr : responseResult success data with
  | error e =>
      rw [GooglePayModule.handleSubmitResponse, (s.respondAll_of_error hr s.registry.values).1]
      exact iff_of_false (fun hd => hd.2 hd.1) (fun hd => hd.1 (throws_of_responseResult_error hr))
  | ok result =>
      have hok : ¬ Throws success data := not_throws_of_responseResult_ok hr
      have hres := (s.respondAll_of_ok (r := r) hr s.registry.values).2
      constructor
      · rintro ⟨hd, hnot⟩
        obtain ⟨x, hx, rfl⟩ := List.mem_map.mp hd
        rcases (hres x).mp hx with hx | ⟨-, w, hw, hp⟩
        · exact absurd (List.mem_map_of_mem hx) hnot
        · exact ⟨hok, w, hw, hp⟩
      · rintro ⟨-, w, hw, hp⟩
        exact ⟨List.mem_map.mpr ⟨(d, result), (hres _).mpr (Or.inr ⟨rfl, w, hw, hp⟩), rfl⟩, (h.stored w r d hp).2⟩

theorem neverCrosses_iff {s : State} (h : Inv s) :
    NeverCrosses s ↔ (∀ x ∈ s.answered, x.1 = x.2) ∧ Aligned s := by
  refine and_congr_right fun hpast => ⟨?_, ?_⟩
  · intro hnext a ha w hw d hd
    have hread : ¬ Throws false none := by
      rintro ⟨-, m, hm, -⟩
      cases hm
    have hnew : d ∈ newlyResumed s.pay (GooglePayModule.handleSubmitResponse s.pay a.requestId false none) :=
      (mem_newlyResumed h.pay).mpr ⟨hread, w, hw, hd⟩
    exact hnext a ha false none (d, a.call) (List.mem_append_right _ (List.mem_map_of_mem hnew))
  · intro halign a ha success data x hx
    rcases List.mem_append.mp hx with hx | hx
    · exact hpast x hx
    · obtain ⟨d, hd, rfl⟩ := List.mem_map.mp hx
      obtain ⟨-, w, hw, hp⟩ := (mem_newlyResumed h.pay).mp hd
      exact halign a ha w hw d hp

/-! ## Which steps keep the answers apart -/

/-- A registered view is asked only when no answer under its session id is still to come, and, if a component listens,
no other registered view waits under that id; a view is registered only when the answers to come under the ids it
waits for are its own. -/
def KeepsApart (s : State) : Event → Prop
  | .initializeView v _ _ _ => (s.pay.view v).hasInitialized = false →
      ∀ a ∈ s.inFlight, ∀ d, s.pay.pending v a.requestId = some d → d = a.call
  | .handleSubmit v _ listeners => ∀ base, (s.pay.view v).currentSessionData = some base →
      (s.pay.Registered v → ∀ a ∈ s.inFlight, a.requestId ≠ base.id) ∧
      (0 < listeners → ∀ w, w ≠ v → s.pay.Registered w → s.pay.pending w base.id = none)
  | .answer _ _ _ => True

section Steps

variable {s : State}

theorem aligned_initializeView (h : Aligned s) {v : ViewId} {id : String} {pay : GooglePay.State}
    (ht : s.pay.Initialized pay v id) :
    Aligned { s with pay := pay } ↔ ∀ a ∈ s.inFlight, ∀ d, s.pay.pending v a.requestId = some d → d = a.call := by
  have hself : pay.Registered v := by
    rw [GooglePay.State.Registered, ht.registry, LinkedMap.mem_values_iff]
    exact ⟨id, LinkedMap.get_put_self _ _ _⟩
  constructor
  · intro h' a ha d hd
    exact h' a ha v hself d ((ht.pending _ _).trans hd)
  · intro hv a ha w hw d hd
    have hd' : s.pay.pending w a.requestId = some d := (ht.pending _ _).symm.trans hd
    by_cases hwv : w = v
    · exact hv a ha d (hwv ▸ hd')
    · refine h a ha w ?_ d hd'
      change pay.Registered w at hw
      rw [GooglePay.State.Registered, ht.registry, LinkedMap.mem_values_iff] at hw
      obtain ⟨k, hk⟩ := hw
      rw [LinkedMap.get_put] at hk
      split at hk
      · exact absurd (Option.some.inj hk).symm hwv
      · exact (LinkedMap.mem_values_iff _ _).mpr ⟨k, hk⟩

theorem aligned_handleSubmit (hI : Inv s) (h : Aligned s) {v : ViewId} {r : String} {pay : GooglePay.State}
    (ht : s.pay.Submitted pay v r) (listeners : Nat) :
    Aligned { s with pay := pay, inFlight := s.inFlight ++ List.replicate listeners ⟨s.pay.calls.length, r⟩ } ↔
      (s.pay.Registered v → ∀ a ∈ s.inFlight, a.requestId ≠ r) ∧
      (0 < listeners → ∀ w, w ≠ v → s.pay.Registered w → s.pay.pending w r = none) := by
  have hreg : ∀ w, pay.Registered w ↔ s.pay.Registered w := fun w => by
    rw [GooglePay.State.Registered, GooglePay.State.Registered, ht.registry]
  constructor
  · intro h'
    refine ⟨fun hv a ha hr => ?_, fun hn w hwv hw => ?_⟩
    · -- the old answer would meet the new call
      have hnew := h' a (List.mem_append_left _ ha) v ((hreg v).mpr hv) s.pay.calls.length
        ((ht.pending v a.requestId).trans (if_pos ⟨rfl, hr⟩))
      exact absurd hnew (Nat.ne_of_gt (hI.known a ha))
    · cases hd : s.pay.pending w r with
      | none => rfl
      | some d =>
          -- the new answer would meet the old call
          have hin : (⟨s.pay.calls.length, r⟩ : Answer) ∈ List.replicate listeners ⟨s.pay.calls.length, r⟩ :=
            List.mem_replicate.mpr ⟨Nat.ne_of_gt hn, rfl⟩
          have hold := h' _ (List.mem_append_right _ hin) w ((hreg w).mpr hw) d
            ((ht.pending w r).trans ((if_neg fun he => hwv he.1).trans hd))
          have hlt := (List.getElem?_eq_some_iff.mp (hI.pay.stored w r d hd).1).1
          exact absurd hold (Nat.ne_of_lt hlt)
  · rintro ⟨hmail, hviews⟩ a ha w hw d hd
    have hw' : s.pay.Registered w := (hreg w).mp hw
    have hd' := (ht.pending w a.requestId).symm.trans hd
    rcases List.mem_append.mp ha with ha | ha
    · split at hd'
      · next he => exact absurd he.2 (hmail (he.1 ▸ hw') a ha)
      · exact h a ha w hw' d hd'
    · obtain ⟨hn, rfl⟩ := List.mem_replicate.mp ha
      split at hd'
      · exact (Option.some.inj hd').symm
      · next he =>
          rw [hviews (Nat.pos_of_ne_zero hn) w (fun hwv => he ⟨hwv, rfl⟩) hw'] at hd'
          cases hd'

theorem aligned_answer (h : Aligned s) (a : Answer) (success : Bool) (data : Option ReadableMap) :
    Aligned (s.answer a success data) := by
  intro b hb w hw d hd
  change (GooglePayModule.handleSubmitResponse s.pay a.requestId success data).Registered w at hw
  change (GooglePayModule.handleSubmitResponse s.pay a.requestId success data).pending w b.requestId = some d at hd
  rw [GooglePay.State.Registered, GooglePayModule.handleSubmitResponse,
    (GooglePay.State.respondAll_rest s.pay _ _ _ _).1] at hw
  refine h b (List.mem_of_mem_erase hb) w hw d ?_
  rw [GooglePayModule.handleSubmitResponse] at hd
  cases hr : responseResult success data with
  | ok result =>
      rw [(s.pay.respondAll_of_ok hr s.pay.registry.values).1] at hd
      split at hd
      · cases hd
      · exact hd
  | error e =>
      rw [(s.pay.respondAll_of_error hr s.pay.registry.values).2] at hd
      split at hd
      · cases hd
      · exact hd

end Steps

/-- **One step** lets no answer cross exactly when it keeps the answers apart. -/
theorem neverCrosses_step (s : State) (e : Event) (hI : Inv s) (hP : NeverCrosses s) (he : machine.allowed s e) :
    NeverCrosses (machine.step s e) ↔ KeepsApart s e := by
  have hI' := inv_step s e hI he
  obtain ⟨hpast, halign⟩ := (neverCrosses_iff hI).mp hP
  rw [neverCrosses_iff hI']
  cases e with
  | initializeView v id secret activity =>
      change ((∀ x ∈ s.answered, x.1 = x.2) ∧ Aligned { s with pay := s.pay.initializeView v id secret activity }) ↔
        ((s.pay.view v).hasInitialized = false → _)
      rw [and_iff_right hpast]
      cases hi : (s.pay.view v).hasInitialized with
      | true =>
          rw [s.pay.initializeView_of_initialized hi]
          exact iff_of_true halign (fun h => by cases h)
      | false =>
          rw [aligned_initializeView halign (s.pay.initializeView_initialized hi id secret activity)]
          exact ⟨fun h _ => h, fun h => h rfl⟩
  | handleSubmit v raw listeners =>
      change ((∀ x ∈ (s.handleSubmit v raw listeners).answered, x.1 = x.2) ∧
        Aligned (s.handleSubmit v raw listeners)) ↔ ∀ base, (s.pay.view v).currentSessionData = some base → _
      unfold State.handleSubmit
      cases hb : (s.pay.view v).currentSessionData with
      | none => exact iff_of_true ⟨hpast, halign⟩ (fun base h => by cases h)
      | some base =>
          have hsub : s.pay.Submitted (s.pay.onHandleSubmit v raw true) v base.id := by
            simp only [GooglePay.State.onHandleSubmit, hb]
            exact s.pay.handleSubmit_submitted v _ true
          dsimp only
          rw [and_iff_right hpast, aligned_handleSubmit hI halign hsub listeners]
          exact ⟨fun h base' hb' => Option.some.inj hb' ▸ h, fun h => h base rfl⟩
  | answer a success data =>
      exact iff_of_true ⟨hP.2 a he success data, aligned_answer halign a success data⟩ trivial

/-- **Google Pay answers stay with their calls throughout a run exactly when every step keeps them apart.** -/
theorem neverCrosses_throughout_iff {es : List Event} (hes : machine.Admits machine.init es) :
    machine.Throughout NeverCrosses machine.init es ↔ (machine.restrict KeepsApart).Admits machine.init es :=
  Machine.throughout_iff_restrict inv_step neverCrosses_step inv_init ⟨nofun, nofun⟩ hes

/-- A call answered before the next one is made. -/
theorem neverCrosses_throughout_in_turn :
    machine.Throughout NeverCrosses machine.init
      [.initializeView 0 "ps_1" "secret" true, .handleSubmit 0 "a" 1, .answer ⟨0, "ps_1"⟩ true none,
        .handleSubmit 0 "b" 1] := by
  have hadm : machine.Admits machine.init
      [.initializeView 0 "ps_1" "secret" true, .handleSubmit 0 "a" 1, .answer ⟨0, "ps_1"⟩ true none,
        .handleSubmit 0 "b" 1] := ⟨trivial, trivial, List.mem_singleton_self _, trivial, trivial⟩
  refine (neverCrosses_throughout_iff hadm).mpr
    ⟨⟨trivial, nofun⟩, ⟨trivial, fun base _ => ⟨fun _ => nofun, fun _ w hw hreg => ?_⟩⟩,
      ⟨List.mem_singleton_self _, trivial⟩, ⟨trivial, fun base _ => ⟨fun _ => nofun, fun _ w hw hreg => ?_⟩⟩, trivial⟩
  · exact absurd (List.mem_singleton.mp hreg) hw
  · exact absurd (List.mem_singleton.mp hreg) hw

/-- Two overlapping calls on one view, with one listening component: the answer to the first resumes the second. -/
theorem overlapping_calls_cross :
    let es := [Event.initializeView 0 "ps_1" "secret" true, .handleSubmit 0 "a" 1, .handleSubmit 0 "b" 1,
      .answer ⟨0, "ps_1"⟩ true none]
    machine.Admits machine.init es ∧ (machine.run machine.init es).answered = [(1, 0)] := by
  refine ⟨⟨trivial, trivial, trivial, ?_, trivial⟩, rfl⟩
  exact List.mem_cons_self

end FlowDemo.Android.GooglePay.Answers
