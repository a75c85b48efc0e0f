import FlowDemo.Android.GooglePay.View

/-!
# What a Google Pay submission leaves behind

The key of a continuation is the payment session, so a call puts its own over that of an earlier one. The machine below
records what each call found under its key and the calls that ended in an exception of the bridge; the turns of the
views in a round of a response are steps of their own.

* `Clean`: nothing is left of a call that has returned, and what it had found is back;
* `clean_throughout_iff`: a run is clean exactly if the bridge delivers every event and no call returns that took the
  place of one that waits.
-/

namespace FlowDemo.Android.GooglePay.Cleanup

/-- The views, with what each call found under its key and the calls that the bridge has made throw. -/
structure State where
  pay : GooglePay.State := {}
  found : List (Option Continuation) := []
  thrown : List Continuation := []

/-- A response is a round over the views; other threads may come between the turns of two views. -/
inductive Event
  | initializeView (v : ViewId) (paymentSessionID paymentSessionSecret : String) (activity : Bool)
  | handleSubmit (v : ViewId) (raw : String) (emits : Bool)
  | handleSubmitResponse (v : ViewId) (requestId : String) (success : Bool) (data : Option ReadableMap)

namespace State

/-- A call that finds session data is recorded with what it finds under its key. -/
def handleSubmit (s : State) (v : ViewId) (raw : String) (emits : Bool) : State :=
  match (s.pay.view v).currentSessionData with
  | none => s
  | some base =>
      { pay := s.pay.onHandleSubmit v raw emits
        found := s.found ++ [s.pay.pending v base.id]
        thrown := if emits then s.thrown else s.thrown ++ [s.pay.calls.length] }

def step (s : State) : Event → State
  | .initializeView v id secret activity => { s with pay := s.pay.initializeView v id secret activity }
  | .handleSubmit v raw emits => s.handleSubmit v raw emits
  | .handleSubmitResponse v r success data => { s with pay := (s.pay.handleSubmitResponse v r success data).1 }

/-- The callback that waits for `c` has its result: an exception, or what `c` was resumed with. -/
def Returned (s : State) (c : Continuation) : Prop := c ∈ s.thrown ∨ c ∈ s.pay.resumed.map Prod.fst

end State

def machine : Machine State Event where
  init := {}
  allowed _ _ := True
  step := State.step

/-- **Nothing is left of a call that has returned**: its continuation is gone, and what it had found under its key is
there, unless that call has returned too or a later one has come. -/
def Clean (s : State) : Prop :=
  ∀ c call, s.pay.calls[c]? = some call → s.Returned c →
    s.pay.pending call.view call.requestId ≠ some c ∧
      ∀ d, s.found[c]? = some (some d) → s.Returned d ∨ s.pay.pending call.view call.requestId = some d ∨
        ∃ later > c, s.pay.calls[later]? = some call

/-- The bridge delivers the event of a call, and no call returns that took the place of one that waits. -/
def LeavesNothing (s : State) : Event → Prop
  | .initializeView _ _ _ _ => True
  | .handleSubmit v _ emits => (s.pay.view v).currentSessionData ≠ none → emits = true
  | .handleSubmitResponse v r success data => ¬ Throws success data →
      ∀ c d, s.pay.pending v r = some c → s.found[c]? = some (some d) → s.Returned d

def ownKey (s : State) : Event → Option (ViewId × String)
  | .initializeView _ _ _ _ => none
  | .handleSubmit v _ _ => (s.pay.view v).currentSessionData.map fun base => (v, base.id)
  | .handleSubmitResponse v r _ _ => some (v, r)

/-- A step of a call changes the continuations at the call's own key only, and never the registry. -/
def OwnKeyOnly : Prop :=
  ∀ s e key, ownKey s e = some key → (s.step e).pay.registry = s.pay.registry ∧
    ∀ w k, (w, k) ≠ key → (s.step e).pay.pending w k = s.pay.pending w k

/-- What waits is the latest call of its key, and what a call had found was an earlier one of the same key. -/
structure Inv (s : State) : Prop where
  pay : s.pay.Inv
  found : s.found.length = s.pay.calls.length
  latest : ∀ v r c, s.pay.pending v r = some c → ∀ later > c, s.pay.calls[later]? ≠ some ⟨v, r⟩
  older : ∀ (c d : Continuation) call, s.pay.calls[c]? = some call → s.found[c]? = some (some d) →
    d < c ∧ s.pay.calls[d]? = some call
  thrown : ∀ c ∈ s.thrown, c < s.pay.calls.length

theorem inv_init : Inv machine.init :=
  ⟨GooglePay.inv_init, rfl, (fun _ _ _ h => by cases h), (fun _ _ _ h => by cases h), fun _ h => by cases h⟩

/-! ## What a turn does -/

/-- **The turn of `v`** takes its continuation under `r` away and, if the payload can be read, resumes it. -/
structure Turn (s t : GooglePay.State) (v : ViewId) (r : String) (success : Bool) (data : Option ReadableMap) :
    Prop where
  pending : ∀ w k, t.pending w k = if w = v ∧ k = r then none else s.pending w k
  calls : t.calls = s.calls
  registry : t.registry = s.registry
  resumed : ∀ c, c ∈ t.resumed.map Prod.fst ↔
    c ∈ s.resumed.map Prod.fst ∨ ¬ Throws success data ∧ s.pending v r = some c

theorem turn_handleSubmitResponse (s : GooglePay.State) (v : ViewId) (r : String) (success : Bool)
    (data : Option ReadableMap) : Turn s (s.handleSubmitResponse v r success data).1 v r success data := by
  obtain ⟨hreg, hcalls⟩ := s.handleSubmitResponse_rest v r success data
  exact ⟨s.handleSubmitResponse_pending v r success data, hcalls, hreg,
    s.handleSubmitResponse_resumed v r success data⟩

/-! ## Every step keeps the invariant -/

variable {s : State}

theorem Inv.mono (h : Inv s) {t : GooglePay.State} (ht : t.Inv) (hcalls : t.calls = s.pay.calls)
    (hpending : ∀ v r c, t.pending v r = some c → s.pay.pending v r = some c) : Inv { s with pay := t } := by
  refine ⟨ht, hcalls ▸ h.found, fun v r c hc => ?_, ?_, ?_⟩
  · change ∀ later > c, t.calls[later]? ≠ some ⟨v, r⟩
    rw [hcalls]
    exact h.latest v r c (hpending v r c hc)
  · change ∀ (c d : Continuation) call, t.calls[c]? = some call → _
    rw [hcalls]
    exact h.older
  · change ∀ c ∈ s.thrown, c < t.calls.length
    rw [hcalls]
    exact h.thrown

theorem handleSubmit_of_none {v : ViewId} (h : (s.pay.view v).currentSessionData = none) (raw : String) (emits : Bool) :
    s.handleSubmit v raw emits = s := by
  simp only [State.handleSubmit, h]

theorem handleSubmit_of_some {v : ViewId} {base : SessionData} (h : (s.pay.view v).currentSessionData = some base)
    (raw : String) (emits : Bool) :
    s.pay.Submitted (s.handleSubmit v raw emits).pay v base.id ∧
      (s.handleSubmit v raw emits).found = s.found ++ [s.pay.pending v base.id] ∧
      (s.handleSubmit v raw emits).thrown = if emits then s.thrown else s.thrown ++ [s.pay.calls.length] := by
  simp only [State.handleSubmit, h, GooglePay.State.onHandleSubmit]
  exact ⟨s.pay.handleSubmit_submitted v { base with sessionData := some raw } emits, trivial, trivial⟩

theorem Inv.handleSubmit (h : Inv s) (v : ViewId) (raw : String) (emits : Bool) : Inv (s.handleSubmit v raw emits) := by
  cases hdata : (s.pay.view v).currentSessionData with
  | none =>
      rw [handleSubmit_of_none hdata]
      exact h
  | some base =>
      obtain ⟨ht, hfound, hthrown⟩ := handleSubmit_of_some hdata raw emits
      refine ⟨h.pay.submitted ht, ?_, fun w k c hc later hlater hcall => ?_, fun c d call hcall hd => ?_,
        fun c hc => ?_⟩
      · rw [hfound, ht.calls, List.length_append, List.length_append, h.found]
        rfl
      · rw [ht.pending] at hc
        rcases (ht.getElem?_calls _ _).mp hcall with hcall | ⟨rfl, hnew⟩
        · have hold := (List.getElem?_eq_some_iff.mp hcall).1
          split at hc
          · exact absurd (Option.some.inj hc ▸ hlater) (Nat.not_lt.mpr hold.le)
          · exact h.latest w k c hc later hlater hcall
        · obtain ⟨rfl, rfl⟩ := Call.mk.inj hnew
          rw [if_pos ⟨rfl, rfl⟩] at hc
          exact Nat.lt_irrefl _ (Option.some.inj hc ▸ hlater)
      · rw [hfound, getElem?_concat_eq_some_iff] at hd
        rw [ht.getElem?_calls] at hcall ⊢
        rcases hd with hd | ⟨hlast, hd⟩
        · rcases hcall with hcall | ⟨rfl, -⟩
          · obtain ⟨h1, h2⟩ := h.older c d call hcall hd
            exact ⟨h1, Or.inl h2⟩
          · exact absurd (List.getElem?_eq_some_iff.mp hd).1 (h.found ▸ Nat.lt_irrefl _)
        · rcases hcall with hcall | ⟨rfl, rfl⟩
          · exact absurd (List.getElem?_eq_some_iff.mp hcall).1 (by rw [hlast, h.found]; exact Nat.lt_irrefl _)
          · -- the new call found what waited under its key
            obtain ⟨hstored, -⟩ := h.pay.stored v base.id d hd
            exact ⟨(List.getElem?_eq_some_iff.mp hstored).1, Or.inl hstored⟩
      · rw [ht.calls, List.length_append, List.length_singleton]
        rw [hthrown] at hc
        split at hc
        · exact Nat.lt_succ_of_lt (h.thrown c hc)
        · rcases List.mem_append.mp hc with hc | hc
          · exact Nat.lt_succ_of_lt (h.thrown c hc)
          · rw [List.mem_singleton.mp hc]
            exact Nat.lt_succ_self _

theorem initializeView_same (s : GooglePay.State) (v : ViewId) (id secret : String) (activity : Bool) :
    (∀ w k, (s.initializeView v id secret activity).pending w k = s.pending w k) ∧
      (s.initializeView v id secret activity).calls = s.calls ∧
      (s.initializeView v id secret activity).resumed = s.resumed := by
  cases hi : (s.view v).hasInitialized with
  | true =>
      rw [s.initializeView_of_initialized hi]
      exact ⟨fun _ _ => rfl, rfl, rfl⟩
  | false =>
      have ht := s.initializeView_initialized hi id secret activity
      exact ⟨ht.pending, ht.calls, ht.resumed⟩

theorem inv_step (s : State) (e : Event) (h : Inv s) (_ : machine.allowed s e) : Inv (machine.step s e) := by
  cases e with
  | initializeView v id secret activity =>
      obtain ⟨hp, hcalls, -⟩ := initializeView_same s.pay v id secret activity
      exact h.mono (GooglePay.inv_step s.pay (.initializeView v id secret activity) h.pay trivial) hcalls
        fun w k c hc => (hp w k).symm.trans hc
  | handleSubmit v raw emits => exact h.handleSubmit v raw emits
  | handleSubmitResponse v r success data =>
      have ht := turn_handleSubmitResponse s.pay v r success data
      refine h.mono (h.pay.handleSubmitResponse v r success data) ht.calls fun w k c hc => ?_
      rw [ht.pending] at hc
      split at hc
      · cases hc
      · exact hc

/-! ## The steps that leave nothing -/

theorem clean_handleSubmit (h : Inv s) (hc : Clean s) (v : ViewId) (raw : String) (emits : Bool) :
    Clean (s.handleSubmit v raw emits) ↔ ((s.pay.view v).currentSessionData ≠ none → emits = true) := by
  cases hdata : (s.pay.view v).currentSessionData with
  | none =>
      rw [handleSubmit_of_none hdata]
      exact iff_of_true hc fun hne => absurd rfl hne
  | some base =>
      obtain ⟨ht, hfound, hthrown⟩ := handleSubmit_of_some hdata raw emits
      cases emits with
      | false =>
          refine iff_of_false (fun hclean => ?_) fun hemits => Bool.false_ne_true (hemits (Option.some_ne_none _))
          refine (hclean s.pay.calls.length ⟨v, base.id⟩ ?_ (Or.inl ?_)).1 ?_
          · exact (ht.getElem?_calls _ _).mpr (Or.inr ⟨rfl, rfl⟩)
          · rw [hthrown]
            exact List.mem_append_right _ (List.mem_singleton_self _)
          · rw [ht.pending, if_pos ⟨rfl, rfl⟩]
      | true =>
          refine iff_of_true (fun c call hcall hret => ?_) fun _ => rfl
          have hmono : ∀ d, s.Returned d ↔ (s.handleSubmit v raw true).Returned d := fun d => by
            rw [State.Returned, State.Returned, ht.resumed, hthrown]
            rfl
          have hret := (hmono c).mpr hret
          have hold : c < s.pay.calls.length := hret.elim (h.thrown c) (h.pay.known c)
          rw [ht.calls, List.getElem?_append_left hold] at hcall
          obtain ⟨hgone, hback⟩ := hc c call hcall hret
          rw [ht.pending, ht.calls, hfound, List.getElem?_append_left (h.found ▸ hold)]
          by_cases hkey : call.view = v ∧ call.requestId = base.id
          · rw [if_pos hkey]
            refine ⟨fun he => absurd hold (Option.some.inj he ▸ Nat.lt_irrefl _), fun d _ => Or.inr (Or.inr ?_)⟩
            obtain ⟨rfl, hid⟩ := hkey
            refine ⟨s.pay.calls.length, hold, ?_⟩
            rw [List.getElem?_concat_length, ← hid]
          · rw [if_neg hkey]
            refine ⟨hgone, fun d hd => ?_⟩
            rcases hback d hd with hd | hd | ⟨later, hlater, hd⟩
            · exact Or.inl ((hmono d).mp hd)
            · exact Or.inr (Or.inl hd)
            · refine Or.inr (Or.inr ⟨later, hlater, ?_⟩)
              rw [List.getElem?_append_left (List.getElem?_eq_some_iff.mp hd).1]
              exact hd

theorem clean_turn (h : Inv s) (hc : Clean s) (v : ViewId) (r : String) (success : Bool) (data : Option ReadableMap) :
    Clean (s.step (.handleSubmitResponse v r success data)) ↔
      (¬ Throws success data → ∀ c d, s.pay.pending v r = some c → s.found[c]? = some (some d) → s.Returned d) := by
  have ht := turn_handleSubmitResponse s.pay v r success data
  have hret : ∀ c, (s.step (.handleSubmitResponse v r success data)).Returned c ↔
      s.Returned c ∨ ¬ Throws success data ∧ s.pay.pending v r = some c := fun c => by
    rw [State.Returned, State.Returned, or_assoc]
    exact or_congr_right (ht.resumed c)
  have hpending : ∀ w k, (s.step (.handleSubmitResponse v r success data)).pay.pending w k =
      if w = v ∧ k = r then none else s.pay.pending w k := ht.pending
  have hcalls : (s.step (.handleSubmitResponse v r success data)).pay.calls = s.pay.calls := ht.calls
  constructor
  · intro hclean hok c d hwaits hd
    obtain ⟨hcall, -⟩ := h.pay.stored v r c hwaits
    obtain ⟨hlt, -⟩ := h.older c d _ hcall hd
    rcases (hclean c ⟨v, r⟩ (hcalls ▸ hcall) ((hret c).mpr (Or.inr ⟨hok, hwaits⟩))).2 d hd with
      hd | hd | ⟨later, hlater, hd⟩
    · refine ((hret d).mp hd).resolve_right fun hsame => ?_
      rw [hwaits] at hsame
      exact Nat.lt_irrefl _ (Option.some.inj hsame.2 ▸ hlt)
    · rw [hpending, if_pos ⟨rfl, rfl⟩] at hd
      cases hd
    · exact absurd (hcalls ▸ hd) (h.latest v r c hwaits later hlater)
  · intro hcond c call hcall hc'
    rw [hcalls] at hcall
    rw [hpending, hcalls]
    have hkeep : ∀ d, s.Returned d → (s.step (.handleSubmitResponse v r success data)).Returned d :=
      fun d hd => (hret d).mpr (Or.inl hd)
    rcases (hret c).mp hc' with hold | ⟨hok, hwaits⟩
    · obtain ⟨hgone, hback⟩ := hc c call hcall hold
      refine ⟨fun he => hgone ?_, fun d hd => ?_⟩
      · split at he
        · cases he
        · exact he
      · rcases hback d hd with hd' | hd' | hd'
        · exact Or.inl (hkeep d hd')
        · -- an earlier call does not wait where a later one has been made
          obtain ⟨hlt, hsame⟩ := h.older c d call hcall hd
          exact absurd hcall (h.latest _ _ d hd' c hlt)
        · exact Or.inr (Or.inr hd')
    · obtain ⟨hstored, -⟩ := h.pay.stored v r c hwaits
      rw [hcall] at hstored
      obtain rfl := Option.some.inj hstored
      rw [if_pos ⟨rfl, rfl⟩]
      exact ⟨nofun, fun d hd => Or.inl (hkeep d (hcond hok c d hwaits hd))⟩

theorem clean_step (s : State) (e : Event) (h : Inv s) (hc : Clean s) (_ : machine.allowed s e) :
    Clean (machine.step s e) ↔ LeavesNothing s e := by
  cases e with
  | initializeView v id secret activity =>
      obtain ⟨hp, hcalls, hres⟩ := initializeView_same s.pay v id secret activity
      refine iff_of_true (fun c call hcall hret => ?_) trivial
      have hmono : ∀ d, (machine.step s (.initializeView v id secret activity)).Returned d ↔ s.Returned d := fun d =>
        or_congr_right (by rw [← hres]; rfl)
      obtain ⟨hgone, hback⟩ := hc c call (hcalls ▸ hcall) ((hmono c).mp hret)
      refine ⟨fun he => hgone ((hp _ _).symm.trans he), fun d hd => ?_⟩
      rcases hback d hd with hd | hd | ⟨later, hlater, hd⟩
      · exact Or.inl ((hmono d).mpr hd)
      · exact Or.inr (Or.inl ((hp _ _).trans hd))
      · exact Or.inr (Or.inr ⟨later, hlater, (congrArg (·[later]?) hcalls).trans hd⟩)
  | handleSubmit v raw emits => exact clean_handleSubmit h hc v raw emits
  | handleSubmitResponse v r success data => exact clean_turn h hc v r success data

/-- **The steps of a call stay at the call's own key.** -/
theorem ownKeyOnly : OwnKeyOnly := by
  intro s e key hkey
  cases e with
  | initializeView v id secret activity => cases hkey
  | handleSubmit v raw emits =>
      obtain ⟨base, hdata, rfl⟩ := Option.map_eq_some_iff.mp hkey
      obtain ⟨ht, -⟩ := handleSubmit_of_some hdata raw emits
      refine ⟨ht.registry, fun w k hne => (ht.pending w k).trans (if_neg ?_)⟩
      rintro ⟨rfl, rfl⟩
      exact hne rfl
  | handleSubmitResponse v r success data =>
      obtain rfl := Option.some.inj hkey
      have ht := turn_handleSubmitResponse s.pay v r success data
      refine ⟨ht.registry, fun w k hne => (ht.pending w k).trans (if_neg ?_)⟩
      rintro ⟨rfl, rfl⟩
      exact hne rfl

/-- **A run of the Google Pay views is clean throughout exactly if** the bridge delivers the event of every call, and
no call returns that took the place of one that waits. -/
theorem clean_throughout_iff {es : List Event} (h : machine.Admits machine.init es) :
    machine.Throughout Clean machine.init es ↔ (machine.restrict LeavesNothing).Admits machine.init es :=
  Machine.throughout_iff_restrict inv_step clean_step inv_init (fun _ _ h => by cases h) h

end FlowDemo.Android.GooglePay.Cleanup
