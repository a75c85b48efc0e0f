import FlowDemo.Android.GooglePay.View

/-!
# When no pending Google Pay submission is lost

A call is deliverable while its continuation is stored under its own id in its own view and the view is registered.
Both maps are keyed by the payment session id, so a second call on a view, or a second view of a session, puts over
the first. `deliverable_throughout_iff` says exactly which steps keep every unresumed call deliverable.
-/

namespace FlowDemo.Android.GooglePay

/-- **Every call that was not resumed can still be answered.** -/
def Deliverable (s : State) : Prop :=
  ∀ c call, s.calls[c]? = some call → c ∉ s.resumed.map Prod.fst →
    s.pending call.view call.requestId = some c ∧ s.Registered call.view

/-- The steps that lose no call: a call on a registered view that waits for nothing under the session id, an
`initialize` that displaces no waiting view (unless another key leads to it), and a response that can be read or that
nobody waits for. -/
def LosesNothing (s : State) : Event → Prop
  | .initializeView v id _ _ => (s.view v).hasInitialized = false →
      ∀ w, s.registry.get id = some w → w ≠ v →
        (∀ r, s.pending w r = none) ∨ ∃ k, k ≠ id ∧ s.registry.get k = some w
  | .handleSubmit v _ _ => ∀ base, (s.view v).currentSessionData = some base →
      s.pending v base.id = none ∧ s.Registered v
  | .handleSubmitResponse r success data => Throws success data → ∀ v, s.pending v r = none

section Steps

variable {s t : State}

theorem deliverable_submitted (hI : s.Inv) (hD : Deliverable s) {v : ViewId} {r : String} (ht : s.Submitted t v r) :
    Deliverable t ↔ s.pending v r = none ∧ s.Registered v := by
  have hreg : ∀ w, t.Registered w ↔ s.Registered w := fun w => by rw [State.Registered, State.Registered, ht.registry]
  constructor
  · intro h
    refine ⟨?_, ?_⟩
    · cases hp : s.pending v r with
      | none => rfl
      | some d =>
          -- the call whose continuation is overwritten
          obtain ⟨h1, h2⟩ := hI.stored v r d hp
          have hd := (List.getElem?_eq_some_iff.mp h1).1
          have hlost := (h d ⟨v, r⟩ ((ht.getElem?_calls _ _).mpr (Or.inl h1)) (by rw [ht.resumed]; exact h2)).1
          rw [ht.pending, if_pos ⟨rfl, rfl⟩] at hlost
          exact absurd (Option.some.inj hlost) (Nat.ne_of_gt hd)
    · refine (hreg v).mp (h s.calls.length ⟨v, r⟩ ?_ ?_).2
      · exact (ht.getElem?_calls _ _).mpr (Or.inr ⟨rfl, rfl⟩)
      · rw [ht.resumed]
        exact fun hin => Nat.lt_irrefl _ (hI.known _ hin)
  · rintro ⟨hnone, hv⟩ c call hcall hres
    rw [ht.resumed] at hres
    rcases (ht.getElem?_calls _ _).mp hcall with hcall | ⟨hlen, rfl⟩
    · obtain ⟨h1, h2⟩ := hD c call hcall hres
      refine ⟨?_, (hreg _).mpr h2⟩
      rw [ht.pending, if_neg]
      · exact h1
      · rintro ⟨hw, hr⟩
        rw [hw, hr, hnone] at h1
        cases h1
    · refine ⟨?_, (hreg v).mpr hv⟩
      rw [ht.pending, if_pos ⟨rfl, rfl⟩, hlen]

theorem registered_initialized {v : ViewId} {id : String} (ht : s.Initialized t v id) (w : ViewId) :
    t.Registered w ↔ w = v ∨ ∃ k, k ≠ id ∧ s.registry.get k = some w := by
  rw [State.Registered, ht.registry, LinkedMap.mem_values_iff]
  constructor
  · rintro ⟨k, hk⟩
    rw [LinkedMap.get_put] at hk
    split at hk
    · exact Or.inl (Option.some.inj hk).symm
    · next hne => exact Or.inr ⟨k, hne, hk⟩
  · rintro (rfl | ⟨k, hne, hk⟩)
    · exact ⟨id, LinkedMap.get_put_self _ _ _⟩
    · exact ⟨k, (LinkedMap.get_put_of_ne _ _ hne).trans hk⟩

theorem deliverable_initialized (hI : s.Inv) (hD : Deliverable s) {v : ViewId} {id : String}
    (ht : s.Initialized t v id) :
    Deliverable t ↔ ∀ w, s.registry.get id = some w → w ≠ v →
      (∀ r, s.pending w r = none) ∨ ∃ k, k ≠ id ∧ s.registry.get k = some w := by
  constructor
  · intro h w _ hwv
    by_cases hp : ∀ r, s.pending w r = none
    · exact Or.inl hp
    · obtain ⟨r, hr⟩ := not_forall.mp hp
      obtain ⟨c, hc⟩ := Option.ne_none_iff_exists'.mp hr
      obtain ⟨h1, h2⟩ := hI.stored w r c hc
      have hreg := (h c ⟨w, r⟩ (by rw [ht.calls]; exact h1) (by rw [ht.resumed]; exact h2)).2
      exact Or.inr (((registered_initialized ht w).mp hreg).resolve_left hwv)
  · intro hcond c call hcall hres
    rw [ht.calls] at hcall
    rw [ht.resumed] at hres
    obtain ⟨h1, h2⟩ := hD c call hcall hres
    refine ⟨(ht.pending _ _).trans h1, (registered_initialized ht _).mpr ?_⟩
    obtain ⟨k, hk⟩ := (LinkedMap.mem_values_iff _ _).mp h2
    by_cases hkid : k = id
    · subst hkid
      by_cases hwv : call.view = v
      · exact Or.inl hwv
      · rcases hcond call.view hk hwv with hnone | hother
        · rw [hnone] at h1
          cases h1
        · exact Or.inr hother
    · exact Or.inr ⟨k, hkid, hk⟩

theorem registered_handleSubmitResponse (s : State) (r : String) (success : Bool) (data : Option ReadableMap)
    (w : ViewId) : (GooglePayModule.handleSubmitResponse s r success data).Registered w ↔ s.Registered w := by
  rw [State.Registered, State.Registered, GooglePayModule.handleSubmitResponse,
    (State.respondAll_rest s r success data s.registry.values).1]

/-- A payload that can be read settles what it reaches, and loses nothing. -/
theorem deliverable_response_of_ok (hD : Deliverable s) {r : String} {success : Bool} {data : Option ReadableMap}
    {result : CustomApiCallResult} (hres : responseResult success data = .ok result) :
    Deliverable (GooglePayModule.handleSubmitResponse s r success data) := by
  have hcalls := (State.respondAll_rest s r success data s.registry.values).2
  obtain ⟨hp, hresumed⟩ := State.respondAll_of_ok s hres s.registry.values
  intro c call hcall hnot
  have hnot' : c ∉ s.resumed.map Prod.fst := by
    intro hin
    obtain ⟨x, hx, rfl⟩ := List.mem_map.mp hin
    exact hnot (List.mem_map_of_mem ((hresumed x).mpr (Or.inl hx)))
  obtain ⟨h1, h2⟩ := hD c call (hcalls ▸ hcall) hnot'
  refine ⟨?_, (registered_handleSubmitResponse s r success data _).mpr h2⟩
  refine (hp call.view call.requestId).trans ?_
  rw [if_neg]
  · exact h1
  · rintro ⟨hin, hr⟩
    refine hnot (List.mem_map.mpr ⟨(c, result), (hresumed _).mpr (Or.inr ⟨rfl, call.view, hin, ?_⟩), rfl⟩)
    exact hr ▸ h1

theorem find_waiting {v : ViewId} {r : String} {c : Continuation} (hv : s.Registered v) (hc : s.pending v r = some c) :
    ∃ f d, s.registry.values.find? (fun v => (s.pending v r).isSome) = some f ∧ s.pending f r = some d := by
  have hsome : (s.registry.values.find? fun v => (s.pending v r).isSome).isSome := by
    rw [List.find?_isSome]
    exact ⟨v, hv, by rw [hc]; rfl⟩
  obtain ⟨f, hf⟩ := Option.isSome_iff_exists.mp hsome
  have hwaits : (s.pending f r).isSome := List.find?_some (p := fun v => (s.pending v r).isSome) hf
  obtain ⟨d, hd⟩ := Option.isSome_iff_exists.mp hwaits
  exact ⟨f, d, hf, hd⟩

/-- A payload that cannot be read costs the first registered view that waits its request. -/
theorem deliverable_response_of_error (hI : s.Inv) (hD : Deliverable s) {r : String} {success : Bool}
    {data : Option ReadableMap} {e : NativeException} (hres : responseResult success data = .error e) :
    Deliverable (GooglePayModule.handleSubmitResponse s r success data) ↔ ∀ v, s.pending v r = none := by
  have hreg := registered_handleSubmitResponse s r success data
  have hcalls := (State.respondAll_rest s r success data s.registry.values).2
  obtain ⟨hresumed, hp⟩ := State.respondAll_of_error s hres s.registry.values
  constructor
  · intro h v
    cases hc : s.pending v r with
    | none => rfl
    | some c =>
        obtain ⟨h1, h2⟩ := hI.stored v r c hc
        have hv : s.Registered v := (hreg v).mp
          (h c ⟨v, r⟩ (hcalls.symm ▸ h1) (by rw [GooglePayModule.handleSubmitResponse, hresumed]; exact h2)).2
        obtain ⟨f, d, hf, hd⟩ := find_waiting hv hc
        obtain ⟨h3, h4⟩ := hI.stored f r d hd
        have hlost := (h d ⟨f, r⟩ (hcalls.symm ▸ h3)
          (by rw [GooglePayModule.handleSubmitResponse, hresumed]; exact h4)).1
        rw [GooglePayModule.handleSubmitResponse, hp, if_pos ⟨hf, rfl⟩] at hlost
        cases hlost
  · intro hnone c call hcall hnot
    rw [GooglePayModule.handleSubmitResponse, hresumed] at hnot
    obtain ⟨h1, h2⟩ := hD c call (hcalls ▸ hcall) hnot
    refine ⟨?_, (hreg _).mpr h2⟩
    rw [GooglePayModule.handleSubmitResponse, hp, if_neg]
    · exact h1
    · rintro ⟨-, hr⟩
      rw [hr, hnone] at h1
      cases h1

theorem deliverable_response (hI : s.Inv) (hD : Deliverable s) (r : String) (success : Bool)
    (data : Option ReadableMap) :
    Deliverable (GooglePayModule.handleSubmitResponse s r success data) ↔
      (Throws success data → ∀ v, s.pending v r = none) := by
  cases hres : responseResult success data with
  | ok result =>
      have hok : ¬ Throws success data := not_throws_of_responseResult_ok hres
      exact iff_of_true (deliverable_response_of_ok hD hres) fun h => absurd h hok
  | error e =>
      have hbad : Throws success data := throws_of_responseResult_error hres
      rw [deliverable_response_of_error hI hD hres]
      exact ⟨fun h _ => h, fun h => h hbad⟩

end Steps

/-- **One step** keeps every call deliverable exactly when it loses nothing. -/
theorem deliverable_step (s : State) (e : Event) (hI : s.Inv) (hD : Deliverable s) (_ : machine.allowed s e) :
    Deliverable (machine.step s e) ↔ LosesNothing s e := by
  cases e with
  | initializeView v id secret activity =>
      change Deliverable (s.initializeView v id secret activity) ↔ ((s.view v).hasInitialized = false → _)
      cases hi : (s.view v).hasInitialized with
      | true =>
          rw [s.initializeView_of_initialized hi]
          exact iff_of_true hD (fun h => by cases h)
      | false =>
          rw [deliverable_initialized hI hD (s.initializeView_initialized hi id secret activity)]
          exact ⟨fun h _ => h, fun h => h rfl⟩
  | handleSubmit v raw emits =>
      change Deliverable (s.onHandleSubmit v raw emits) ↔ ∀ base, (s.view v).currentSessionData = some base → _
      unfold State.onHandleSubmit
      cases hb : (s.view v).currentSessionData with
      | none => exact iff_of_true hD (fun base h => by cases h)
      | some base =>
          dsimp only
          rw [deliverable_submitted hI hD (s.handleSubmit_submitted v _ emits)]
          exact ⟨fun h base' hb' => Option.some.inj hb' ▸ h, fun h => h base rfl⟩
  | handleSubmitResponse r success data => exact deliverable_response hI hD r success data

/-- Every list of events is a run. -/
theorem admits_all (s : State) (es : List Event) : machine.Admits s es := by
  induction es generalizing s with
  | nil => trivial
  | cons e es ih => exact ⟨trivial, ih _⟩

/-- **No pending Google Pay submission is lost, at any point of a run, exactly when no step of the run loses one.** -/
theorem deliverable_throughout_iff (es : List Event) :
    machine.Throughout Deliverable machine.init es ↔ (machine.restrict LosesNothing).Admits machine.init es :=
  Machine.throughout_iff_restrict inv_step deliverable_step inv_init nofun (admits_all _ es)

/-- Two overlapping calls on one view: the first is not resumed, and its continuation is gone. -/
theorem overlapping_calls_lose_one :
    let s := machine.run machine.init
      [.initializeView 0 "ps_1" "secret" true, .handleSubmit 0 "a" true, .handleSubmit 0 "b" true]
    machine.Reachable s ∧ s.calls[0]? = some ⟨0, "ps_1"⟩ ∧ s.resumed.map Prod.fst = [] ∧
      s.pending 0 "ps_1" = some 1 ∧ ¬ Deliverable s := by
  intro s
  refine ⟨Machine.Reachable.of_admits (admits_all _ _), rfl, rfl, by decide, fun h => ?_⟩
  have hkept := (h 0 ⟨0, "ps_1"⟩ rfl (List.not_mem_nil)).1
  revert hkept
  decide

end FlowDemo.Android.GooglePay
