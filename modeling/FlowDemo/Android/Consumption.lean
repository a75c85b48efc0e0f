import FlowDemo.Android.Card.Protocol
import FlowDemo.Android.GooglePay.View

/-!
# What a response does to the request it is for

Both Android views remove a continuation before they read the payload, and their modules catch whatever reading it
throws. `response_settles_iff` says exactly when a response leaves a pending request settled: resumed, or still
pending and registered.
-/

namespace FlowDemo.Android

namespace Card

/-- The request `c`, pending in `v` under `r` before, has been resumed, or can still be. -/
def Settled (s : State) (v : ViewId) (r : String) (c : Continuation) : Prop :=
  (∃ result, (c, result) ∈ s.resumed) ∨ (s.pending v r = some c ∧ s.registry.get r = some v)

variable {Session : Set String}

theorem pending_unresumed {s : State} (hs : (machine Session).Reachable s) {v : ViewId} {r : String}
    {c : Continuation} (hc : s.pending v r = some c) :
    s.registry.get r = some v ∧ ∀ result, (c, result) ∉ s.resumed := by
  obtain ⟨es, hes, rfl⟩ := hs
  obtain ⟨hadm, hrel⟩ := (Interleaving.atomic Session).run_rel (Interleaving.atomic Session).init hes
  obtain ⟨ha, htr⟩ := (Interleaving.exchange Session).run_rel (Interleaving.exchange Session).init hadm
  rw [show (Interleaving.machine Session).run (Interleaving.machine Session).init _ = _ from hrel] at htr
  have hrs : r ∉ Session := htr.inv.pending_not_session hc
  have hreg := (Interleaving.pending_iff_registered hes v hrs).mp ⟨c, hc⟩
  refine ⟨hreg, fun result hin => ?_⟩
  have hwait := (htr.waiting r c).mpr ⟨nofun, v, hreg, hc⟩
  obtain ⟨done, h1, h2⟩ := htr.served
  change State.resumed _ = _ at h2
  rw [h2, List.mem_filterMap] at hin
  obtain ⟨⟨d, a⟩, hd, hr⟩ := hin
  obtain ⟨_, -, he⟩ := Option.map_eq_some_iff.mp hr
  have hdc : d = c := congrArg Prod.fst he
  have hsound := Exchange.sound_run Exchange.sound_init ha
  refine hsound.waiting_unserved r c hwait a ?_
  rw [h1, ← hdc]
  exact List.mem_append_left _ hd

theorem settled_iff {s : State} (hs : (machine Session).Reachable s) {v : ViewId} {r : String} {c : Continuation}
    (hc : s.pending v r = some c) (success : Bool) (data : Option ReadableMap) :
    Settled (CardModule.handleSubmitResponse s r success data) v r c ↔ ¬ Throws success data := by
  obtain ⟨hreg, hnot⟩ := pending_unresumed hs hc
  have heq : CardModule.handleSubmitResponse s r success data =
      ((s.unregisterView r).takeContinuation v r success data).1 := by
    unfold CardModule.handleSubmitResponse
    rw [show s.getView r = some v from hreg]
    rfl
  have hpend := (s.unregisterView r).takeContinuation_pending v r success data v r
  have hres := (s.unregisterView r).takeContinuation_resumed v r success data
  rw [State.unregisterView_pending, hc] at hres
  unfold Settled
  rw [heq, hpend, if_pos ⟨rfl, rfl⟩, hres]
  cases hr : responseResult success data with
  | ok result =>
      refine iff_of_true (Or.inl ⟨result, List.mem_append_right _ ?_⟩) (not_throws_of_responseResult_ok hr)
      simp [Except.toOption]
  | error e =>
      refine iff_of_false ?_ (not_not.mpr (throws_of_responseResult_error hr))
      rintro (⟨result, hin⟩ | ⟨h, -⟩)
      · exact hnot result (by simpa [Except.toOption, State.unregisterView] using hin)
      · cases h

end Card

namespace GooglePay

def Settled (s : State) (v : ViewId) (r : String) (c : Continuation) : Prop :=
  (∃ result, (c, result) ∈ s.resumed) ∨ (s.pending v r = some c ∧ s.Registered v)

def State.firstWaiting (s : State) (r : String) : Option ViewId :=
  s.registry.values.find? fun v => (s.pending v r).isSome

theorem settled_iff {s : State} (hs : machine.Reachable s) {v : ViewId} {r : String} {c : Continuation}
    (hc : s.pending v r = some c) (success : Bool) (data : Option ReadableMap) :
    Settled (GooglePayModule.handleSubmitResponse s r success data) v r c ↔
      s.Registered v ∧ (Throws success data → s.firstWaiting r ≠ some v) := by
  obtain ⟨hcall, hnot⟩ := (inv_reachable hs).stored v r c hc
  have hnot' : ∀ result, (c, result) ∉ s.resumed := fun result hin => hnot (List.mem_map_of_mem hin)
  have hreg : (GooglePayModule.handleSubmitResponse s r success data).Registered v ↔ s.Registered v := by
    rw [State.Registered, GooglePayModule.handleSubmitResponse, (s.respondAll_rest r success data _).1]
    rfl
  unfold Settled
  rw [hreg]
  cases hr : responseResult success data with
  | ok result =>
      obtain ⟨hp, hres⟩ := s.respondAll_of_ok (r := r) hr s.registry.values
      have hok : ¬ Throws success data := not_throws_of_responseResult_ok hr
      rw [GooglePayModule.handleSubmitResponse, hp]
      constructor
      · rintro (⟨result', hin⟩ | ⟨-, hv⟩)
        · rcases (hres _).mp hin with hin | ⟨-, w, hw, hwc⟩
          · exact absurd hin (hnot' result')
          · -- the view that was resumed is `v` itself
            have := ((inv_reachable hs).stored w r c hwc).1
            rw [hcall] at this
            obtain ⟨rfl, -⟩ := Call.mk.inj (Option.some.inj this)
            exact ⟨hw, fun h => absurd h hok⟩
        · exact ⟨hv, fun h => absurd h hok⟩
      · rintro ⟨hv, -⟩
        exact Or.inl ⟨result, (hres _).mpr (Or.inr ⟨rfl, v, hv, hc⟩)⟩
  | error e =>
      obtain ⟨hres, hp⟩ := s.respondAll_of_error (r := r) hr s.registry.values
      have hbad : Throws success data := throws_of_responseResult_error hr
      rw [GooglePayModule.handleSubmitResponse, hp, hres, hc]
      constructor
      · rintro (⟨result, hin⟩ | ⟨hkept, hv⟩)
        · exact absurd hin (hnot' result)
        · refine ⟨hv, fun _ hfirst => ?_⟩
          rw [if_pos ⟨hfirst, rfl⟩] at hkept
          cases hkept
      · rintro ⟨hv, hfirst⟩
        exact Or.inr ⟨if_neg fun h => hfirst hbad h.1, hv⟩

end GooglePay

/-- **When a response settles a pending request.** In a card view, exactly when its payload can be read. In a Google
Pay view, exactly when the view is still registered and, if the payload cannot be read, another registered view takes
the exception before it. -/
theorem response_settles_iff (Session : Set String) :
    (∀ s, (Card.machine Session).Reachable s → ∀ v r c, s.pending v r = some c → ∀ success data,
      (Card.Settled (Card.CardModule.handleSubmitResponse s r success data) v r c ↔ ¬ Throws success data)) ∧
    ∀ s, GooglePay.machine.Reachable s → ∀ v r c, s.pending v r = some c → ∀ success data,
      (GooglePay.Settled (GooglePay.GooglePayModule.handleSubmitResponse s r success data) v r c ↔
        s.Registered v ∧ (Throws success data → s.firstWaiting r ≠ some v)) :=
  ⟨fun _ hs _ _ _ hc success data => Card.settled_iff hs hc success data,
    fun _ hs _ _ _ hc success data => GooglePay.settled_iff hs hc success data⟩

def waitingCard : List Card.Event := [.initializeView 0 "ps_1" "secret" "key" true, .handleSubmit 0 "raw" "req-1" true]

theorem waitingCard_reachable :
    (Card.machine {"ps_1"}).Reachable ((Card.machine {"ps_1"}).run (Card.machine {"ps_1"}).init waitingCard) :=
  Machine.Reachable.of_admits ⟨rfl, ⟨fun h => absurd (show "req-1" = "ps_1" from h) (by decide), by decide⟩, trivial⟩

theorem response_settles_text :
    Card.Settled (Card.CardModule.handleSubmitResponse
      ((Card.machine {"ps_1"}).run (Card.machine {"ps_1"}).init waitingCard) "req-1" false
      (some [("error", .str "declined")])) 0 "req-1" 0 := by
  refine ((response_settles_iff {"ps_1"}).1 _ waitingCard_reachable 0 "req-1" 0 (by rfl) _ _).mpr ?_
  rintro ⟨-, m, hm, v, hv, -, hs⟩
  obtain rfl := Option.some.inj hm
  exact hs "declined" (Option.some.inj hv).symm

/-- An error answer whose `error` is an object consumes the request: removed, unregistered and never resumed. -/
theorem object_error_consumes :
    let s := (Card.machine {"ps_1"}).run (Card.machine {"ps_1"}).init waitingCard
    (Card.machine {"ps_1"}).Reachable s ∧ s.pending 0 "req-1" = some 0 ∧
      ¬ Card.Settled (Card.CardModule.handleSubmitResponse s "req-1" false
        (some [("error", .obj [("code", .str "declined")])])) 0 "req-1" 0 := by
  intro s
  refine ⟨waitingCard_reachable, rfl, ?_⟩
  rintro (⟨result, hin⟩ | ⟨h, -⟩)
  · have hnil : (Card.CardModule.handleSubmitResponse s "req-1" false
        (some [("error", .obj [("code", .str "declined")])])).resumed = [] := rfl
    rw [hnil] at hin
    exact List.not_mem_nil hin
  · have hnone : (Card.CardModule.handleSubmitResponse s "req-1" false
        (some [("error", .obj [("code", .str "declined")])])).pending 0 "req-1" = none := rfl
    rw [hnone] at h
    cases h

end FlowDemo.Android
