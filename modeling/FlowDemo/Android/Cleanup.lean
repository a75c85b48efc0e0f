import FlowDemo.Android.Card.Cleanup
import FlowDemo.Android.GooglePay.Cleanup

/-!
# What submissions and responses leave in the maps

`submissions_clean_iff` puts both views together: when nothing is left of a `handleSubmit` call that has returned.
`unasked_changes_nothing_iff` is about the other end: a response to the card that no call waits for.
-/

namespace FlowDemo.Android

/-- **What is left of the calls that have returned.** In both views a step of a call stays at the call's own key. A
run of the card views leaves nothing of a returned call exactly if the bridge delivers the event of every call; one of
the Google Pay views, whose key is the payment session, if besides no call returns that took the place of one that
waits. -/
theorem submissions_clean_iff (Session : Set String) :
    (Card.Cleanup.OwnKeyOnly Session ∧
      ∀ es, (Card.Cleanup.machine Session).Admits (Card.Cleanup.machine Session).init es →
        ((Card.Cleanup.machine Session).Throughout Card.Cleanup.Clean (Card.Cleanup.machine Session).init es ↔
          ((Card.Cleanup.machine Session).restrict Card.Cleanup.Delivers).Admits (Card.Cleanup.machine Session).init
            es)) ∧
    GooglePay.Cleanup.OwnKeyOnly ∧
      ∀ es, GooglePay.Cleanup.machine.Admits GooglePay.Cleanup.machine.init es →
        (GooglePay.Cleanup.machine.Throughout GooglePay.Cleanup.Clean GooglePay.Cleanup.machine.init es ↔
          (GooglePay.Cleanup.machine.restrict GooglePay.Cleanup.LeavesNothing).Admits GooglePay.Cleanup.machine.init
            es) :=
  ⟨⟨Card.Cleanup.ownKeyOnly Session, fun _ h => Card.Cleanup.clean_throughout_iff h⟩,
    GooglePay.Cleanup.ownKeyOnly, fun _ h => GooglePay.Cleanup.clean_throughout_iff h⟩

def sampleCall : Card.Interleaving.Call :=
  ⟨0, "req-1", 0, { id := "ps_1", secret := "secret", sessionData := some "raw" }⟩

/-- A card call whose event the bridge delivers or not. -/
def cardCall (emits : Bool) : List Card.Interleaving.Event :=
  [.initializeView 0 "ps_1" "secret" "pk" true, .store 0 "raw" "req-1", .register sampleCall emits]

theorem cardCall_admits (emits : Bool) :
    (Card.Cleanup.machine {"ps_1"}).Admits (Card.Cleanup.machine {"ps_1"}).init (cardCall emits) :=
  ⟨rfl, ⟨fun h => absurd (show "req-1" = "ps_1" from h) (by decide), by decide⟩, List.mem_singleton_self _, trivial⟩

/-- Each view answers a call that found nothing under its key. -/
theorem submissions_clean_answered :
    (Card.Cleanup.machine {"ps_1"}).Throughout Card.Cleanup.Clean (Card.Cleanup.machine {"ps_1"}).init
      (cardCall true ++ [.lookup "req-1" true (some []), .unregister, .resume]) ∧
    GooglePay.Cleanup.machine.Throughout GooglePay.Cleanup.Clean GooglePay.Cleanup.machine.init
      [.initializeView 0 "ps_1" "secret" true, .handleSubmit 0 "raw" true,
        .handleSubmitResponse 0 "ps_1" true (some [])] := by
  have hcard : (Card.Cleanup.machine {"ps_1"}).Admits (Card.Cleanup.machine {"ps_1"}).init
      (cardCall true ++ [.lookup "req-1" true (some []), .unregister, .resume]) :=
    (Machine.admits_append _ _ _ _).mpr ⟨cardCall_admits true, rfl, ⟨_, rfl, rfl⟩, ⟨_, rfl, rfl⟩, trivial⟩
  have hpay : GooglePay.Cleanup.machine.Admits GooglePay.Cleanup.machine.init
      [.initializeView 0 "ps_1" "secret" true, .handleSubmit 0 "raw" true,
        .handleSubmitResponse 0 "ps_1" true (some [])] := ⟨trivial, trivial, trivial, trivial⟩
  constructor
  · refine ((submissions_clean_iff {"ps_1"}).1.2 _ hcard).mpr ?_
    obtain ⟨h1, h2, h3, h4, h5, h6, -⟩ := hcard
    exact ⟨⟨h1, trivial⟩, ⟨h2, trivial⟩, ⟨h3, rfl⟩, ⟨h4, trivial⟩, ⟨h5, trivial⟩, ⟨h6, trivial⟩, trivial⟩
  · refine ((submissions_clean_iff {"ps_1"}).2.2 _ hpay).mpr ?_
    refine ⟨⟨trivial, trivial⟩, ⟨trivial, fun _ => rfl⟩, ⟨trivial, fun _ c d hc hd => ?_⟩, trivial⟩
    obtain rfl := Option.some.inj hc
    cases hd

/-- The bridge throws, and the card keeps the call's continuation and registration; a Google Pay call returns, and the
one whose place it took can never be answered. -/
theorem returned_calls_leave_traces :
    let M := Card.Cleanup.machine {"ps_1"}
    let s := M.run M.init (cardCall false)
    let G := GooglePay.Cleanup.machine
    let t := G.run G.init [.initializeView 0 "ps_1" "secret" true, .handleSubmit 0 "raw" true,
      .handleSubmit 0 "raw" true, .handleSubmitResponse 0 "ps_1" true (some [])]
    (M.Reachable s ∧ s.Returned 0 ∧ s.base.card.pending 0 "req-1" = some 0 ∧
        s.base.card.registry.get "req-1" = some 0 ∧ ¬ Card.Cleanup.Clean s) ∧
      G.Reachable t ∧ t.Returned 1 ∧ ¬ t.Returned 0 ∧ t.found = [none, some 0] ∧ t.pay.pending 0 "ps_1" = none ∧
        ¬ GooglePay.Cleanup.Clean t := by
  intro M s G t
  have hs : s.Returned 0 := Or.inl (List.mem_singleton_self _)
  have ht : t.Returned 1 := Or.inr (List.mem_singleton_self _)
  have ht' : ¬ t.Returned 0 := by
    rintro (h | h)
    · cases h
    · exact absurd (List.mem_singleton.mp h) (by decide)
  refine ⟨⟨Machine.Reachable.of_admits (cardCall_admits false), hs, rfl, rfl, fun h => ?_⟩,
    Machine.Reachable.of_admits ⟨trivial, trivial, trivial, trivial, trivial⟩, ht, ht', rfl, rfl, fun h => ?_⟩
  · cases (h sampleCall (List.mem_singleton_self _) hs).1
  · rcases (h 1 ⟨0, "ps_1"⟩ rfl ht).2 0 rfl with h | h | ⟨later, hlater, h⟩
    · exact ht' h
    · cases h
    · have hlen : later < 2 := (List.getElem?_eq_some_iff.mp h).1
      exact absurd hlater (Nat.not_lt.mpr (Nat.lt_succ_iff.mp hlen))

/-! ## A response that nobody waits for -/

namespace Card

/-- No continuation is resumed, and both maps are as they were. -/
structure Unchanged (s t : State) : Prop where
  resumed : t.resumed = s.resumed
  pendingContinuations : ∀ v, (t.view v).pendingContinuations = (s.view v).pendingContinuations
  registry : t.registry = s.registry

theorem getView_of_unasked {Session : Set String} {s : Interleaving.State}
    (hs : (Interleaving.machine Session).Reachable s) {k : String} (hk : ∀ v, s.card.pending v k = none)
    (hkey : k ∉ Session) : s.card.getView k = none := by
  have hinv := hs.induction (Interleaving.inv_init Session) Interleaving.inv_step
  cases hg : s.card.getView k with
  | none => rfl
  | some v =>
      obtain ⟨c, hc⟩ := hinv.registered v k hkey hg
      rw [hk v] at hc
      cases hc

/-- **A response that no view waits for changes nothing exactly if** its key is no payment session that leads to a
view. -/
theorem unasked_changes_nothing_iff {Session : Set String} {s : Interleaving.State}
    (hs : (Interleaving.machine Session).Reachable s) {k : String} (hk : ∀ v, s.card.pending v k = none)
    (success : Bool) (data : Option ReadableMap) :
    Unchanged s.card (CardModule.handleSubmitResponse s.card k success data) ↔
      (k ∈ Session → s.card.getView k = none) := by
  cases hg : s.card.getView k with
  | none =>
      have hsame : CardModule.handleSubmitResponse s.card k success data = s.card := by
        simp only [CardModule.handleSubmitResponse, hg]
      rw [hsame]
      exact iff_of_true ⟨rfl, fun _ => rfl, rfl⟩ fun _ => rfl
  | some v =>
      have hsession : k ∈ Session := by
        by_contra hkey
        rw [getView_of_unasked hs hk hkey] at hg
        cases hg
      refine iff_of_false (fun h => ?_) fun h => Option.some_ne_none v (h hsession)
      have hreg : (CardModule.handleSubmitResponse s.card k success data).registry = s.card.registry.remove k := by
        simp only [CardModule.handleSubmitResponse, hg]
        exact ((s.card.unregisterView k).takeContinuation_frame v k success data).1
      have hgone : s.card.getView k = none := by
        rw [State.getView, ← h.registry, hreg, LinkedMap.get_remove, if_pos rfl]
      rw [hg] at hgone
      cases hgone

/-- An id of a request that was answered before. -/
theorem unasked_changes_nothing_unknown :
    let M := Interleaving.machine {"ps_1"}
    let s := M.run M.init [.initializeView 0 "ps_1" "secret" "pk" true]
    Unchanged s.card (CardModule.handleSubmitResponse s.card "req-1" false none) := by
  intro M s
  have hs : M.Reachable s := Machine.Reachable.of_admits ⟨rfl, trivial⟩
  have hk : ∀ v, s.card.pending v "req-1" = none := fun v =>
    (State.initializeView_frame {} 0 "ps_1" "secret" "pk" true).pending v "req-1"
  exact (unasked_changes_nothing_iff hs hk false none).mpr fun _ => rfl

/-- A response for the payment session itself takes the view's registration away. -/
theorem session_response_unregisters :
    let M := Interleaving.machine {"ps_1"}
    let s := M.run M.init [.initializeView 0 "ps_1" "secret" "pk" true]
    let t := CardModule.handleSubmitResponse s.card "ps_1" false none
    M.Reachable s ∧ (∀ v, s.card.pending v "ps_1" = none) ∧ s.card.getView "ps_1" = some 0 ∧
      t.getView "ps_1" = none ∧ ¬ Unchanged s.card t := by
  intro M s t
  refine ⟨Machine.Reachable.of_admits ⟨rfl, trivial⟩, fun v => ?_, rfl, rfl, fun h => ?_⟩
  · exact (State.initializeView_frame {} 0 "ps_1" "secret" "pk" true).pending v "ps_1"
  · have hgone : t.registry = s.card.registry := h.registry
    exact absurd (congrArg (·.get "ps_1") hgone) (by decide)

end Card

end FlowDemo.Android
