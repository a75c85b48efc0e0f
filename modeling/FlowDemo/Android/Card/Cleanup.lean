import Mathlib.Data.List.Pairwise
import FlowDemo.Android.Card.Interleaving

/-!
# What a card submission leaves behind

A `handleSubmit` call writes its continuation and registers its view, and only the response takes both out again. The
machine below records every call and the calls that ended in an exception of the bridge.

* `Clean`: nothing is left of a call that has returned;
* `ownKeyOnly`: the steps of a call work at its own id;
* `clean_throughout_iff`: a run is clean exactly if the bridge delivers every event.
-/

namespace FlowDemo.Android.Card.Cleanup

open Interleaving (Call)

/-- The protocol, with the `handleSubmit` calls that got as far as their continuation and those that the bridge has
made throw. -/
structure State where
  base : Interleaving.State := {}
  calls : List Call := []
  thrown : List Continuation := []

/-- One step of a thread; a call that stores its continuation is recorded, and so is one whose event throws. -/
def step (Session : Set String) (s : State) (e : Interleaving.Event) : State :=
  { base := (Interleaving.machine Session).step s.base e
    calls := match e with
      | .store v raw r => s.calls ++ ((s.base.card.view v).currentSessionData.map fun base =>
          (⟨v, r, s.base.card.calls, { base with sessionData := some raw }⟩ : Call)).toList
      | _ => s.calls
    thrown := match e with
      | .register call false => s.thrown ++ [call.continuation]
      | _ => s.thrown }

def machine (Session : Set String) : Machine State Interleaving.Event where
  init := {}
  allowed s e := (Interleaving.machine Session).allowed s.base e
  step := step Session

/-- The callback that waits for `c` has its result: an exception, or what `c` was resumed with. -/
def State.Returned (s : State) (c : Continuation) : Prop :=
  c ∈ s.thrown ∨ c ∈ s.base.card.resumed.map Prod.fst

/-- **Nothing is left of a call that has returned**, neither its continuation nor its registration. -/
def Clean (s : State) : Prop :=
  ∀ call ∈ s.calls, s.Returned call.continuation →
    s.base.card.pending call.view call.requestId = none ∧ s.base.card.registry.get call.requestId = none

def Delivers (_ : State) : Interleaving.Event → Prop
  | .register _ emits => emits = true
  | _ => True

def requestId (s : State) : Interleaving.Event → Option String
  | .store _ _ r => some r
  | .register call _ => some call.requestId
  | .unregister | .resume => s.base.answering.map Interleaving.Response.requestId
  | _ => none

/-- A step of a call changes the maps at the call's own id only. -/
def OwnKeyOnly (Session : Set String) : Prop :=
  ∀ s e r, requestId s e = some r → ∀ k ≠ r, (step Session s e).base.card.registry.get k = s.base.card.registry.get k ∧
    ∀ w, (step Session s e).base.card.pending w k = s.base.card.pending w k

/-- Every continuation is one recorded call's, and the counters are ahead of all of them. -/
structure Inv (Session : Set String) (s : State) : Prop where
  base : Interleaving.Inv Session s.base
  known : ∀ call ∈ s.calls, call.requestId ∈ s.base.card.issued ∧ call.continuation < s.base.card.calls
  apart : s.calls.Pairwise Call.Apart
  held : ∀ v r c, s.base.card.pending v r = some c →
    ∃ call ∈ s.calls, call.view = v ∧ call.requestId = r ∧ call.continuation = c
  storing : ∀ call ∈ s.base.storing, call ∈ s.calls
  returned : ∀ c, s.Returned c → c < s.base.card.calls

variable {Session : Set String} {s : State}

theorem Inv.not_session (h : Inv Session s) {call : Call} (hcall : call ∈ s.calls) : call.requestId ∉ Session :=
  h.base.issued _ (h.known call hcall).1

theorem Inv.call_eq (h : Inv Session s) {a b : Call} (ha : a ∈ s.calls) (hb : b ∈ s.calls)
    (hab : a.requestId = b.requestId ∨ a.continuation = b.continuation) : a = b := by
  by_contra hne
  have hapart := h.apart.forall ha hb hne
  exact hab.elim hapart.1 hapart.2

/-! ## Steps that record no call -/

/-- A step that records no call stores nothing and answers none but recorded ones. -/
theorem Inv.mono (h : Inv Session s) {t : State} (hbase : Interleaving.Inv Session t.base) (hcalls : t.calls = s.calls)
    (hissued : t.base.card.issued = s.base.card.issued) (hcount : t.base.card.calls = s.base.card.calls)
    (hpending : ∀ v r c, t.base.card.pending v r = some c → s.base.card.pending v r = some c)
    (hstoring : ∀ call ∈ t.base.storing, call ∈ s.base.storing)
    (hreturned : ∀ c, t.Returned c → c < s.base.card.calls) : Inv Session t := by
  refine ⟨hbase, ?_, hcalls ▸ h.apart, ?_, ?_, hcount ▸ hreturned⟩
  · rw [hcalls, hissued, hcount]
    exact h.known
  · rw [hcalls]
    exact fun v r c hc => h.held v r c (hpending v r c hc)
  · rw [hcalls]
    exact fun call hcall => h.storing call (hstoring call hcall)

/-- **A step is clean** that stores and registers nothing under the id of a returned call, if the calls it lets return
leave nothing. -/
theorem Clean.mono (h : Clean s) {t : State} (hcalls : t.calls = s.calls)
    (hpending : ∀ call ∈ s.calls, s.base.card.pending call.view call.requestId = none →
      t.base.card.pending call.view call.requestId = none)
    (hregistry : ∀ call ∈ s.calls, s.base.card.registry.get call.requestId = none →
      t.base.card.registry.get call.requestId = none)
    (hnew : ∀ call ∈ s.calls, t.Returned call.continuation → s.Returned call.continuation ∨
      t.base.card.pending call.view call.requestId = none ∧ t.base.card.registry.get call.requestId = none) :
    Clean t := by
  intro call hcall hret
  rw [hcalls] at hcall
  rcases hnew call hcall hret with hret | hdone
  · obtain ⟨hp, hg⟩ := h call hcall hret
    exact ⟨hpending call hcall hp, hregistry call hcall hg⟩
  · exact hdone

/-- The ids of the calls are no session ids, so `initialize` registers under none of them. -/
theorem initializeView_registry (h : Inv Session s) {call : Call} (hcall : call ∈ s.calls) (v : ViewId) {id : String}
    (secret key : String) (activity : Bool) (hid : id ∈ Session) :
    (s.base.card.initializeView v id secret key activity).registry.get call.requestId =
      s.base.card.registry.get call.requestId := by
  have hne : call.requestId ≠ id := fun he => h.not_session hcall (he ▸ hid)
  rcases (s.base.card.initializeView_frame v id secret key activity).registry with hreg | hreg
  · rw [hreg]
  · rw [hreg, LinkedMap.get_put_of_ne _ _ hne]

/-! ## Every step keeps the invariant -/

theorem step_store_of_none {v : ViewId} (h : (s.base.card.view v).currentSessionData = none) (raw r : String) :
    step Session s (.store v raw r) = s := by
  change State.mk (s.base.store v raw r) (s.calls ++ (Option.map _ (s.base.card.view v).currentSessionData).toList)
    s.thrown = s
  rw [s.base.store_of_none h, h, Option.map_none, Option.toList_none, List.append_nil]

theorem step_store_of_some {v : ViewId} {base : SessionData}
    (h : (s.base.card.view v).currentSessionData = some base) (raw r : String) :
    step Session s (.store v raw r) =
      { base := s.base.store v raw r
        calls := s.calls ++ [⟨v, r, s.base.card.calls, { base with sessionData := some raw }⟩]
        thrown := s.thrown } := by
  change State.mk (s.base.store v raw r) (s.calls ++ (Option.map _ (s.base.card.view v).currentSessionData).toList)
    s.thrown = _
  rw [h]
  rfl

theorem Inv.store (h : Inv Session s) (v : ViewId) (raw : String) {r : String}
    (hr : s.base.card.FreshId Session r) : Inv Session (step Session s (.store v raw r)) := by
  have hbase := Interleaving.inv_store h.base v raw hr
  cases hdata : (s.base.card.view v).currentSessionData with
  | none =>
      rw [step_store_of_none hdata]
      exact h
  | some base =>
      rw [s.base.store_of_some hdata] at hbase
      rw [step_store_of_some hdata, s.base.store_of_some hdata]
      have hp := s.base.card.storeContinuation_pending v r
      refine ⟨hbase, fun call hcall => ?_, ?_, fun w k c hc => ?_, fun call hcall => ?_, fun c hc => ?_⟩
      · change call.requestId ∈ s.base.card.issued ++ [r] ∧ call.continuation < s.base.card.calls + 1
        rcases List.mem_append.mp hcall with hcall | hcall
        · obtain ⟨h1, h2⟩ := h.known call hcall
          exact ⟨List.mem_append_left _ h1, Nat.lt_succ_of_lt h2⟩
        · rw [List.mem_singleton.mp hcall]
          exact ⟨List.mem_append_right _ (List.mem_singleton_self _), Nat.lt_succ_self _⟩
      · refine List.pairwise_append.mpr ⟨h.apart, List.pairwise_singleton _ _, fun call hcall new hnew => ?_⟩
        obtain ⟨h1, h2⟩ := h.known call hcall
        rw [List.mem_singleton.mp hnew]
        exact ⟨fun he => hr.2 ((show call.requestId = r from he) ▸ h1), Nat.ne_of_lt h2⟩
      · change (s.base.card.storeContinuation v r).pending w k = some c at hc
        rw [hp] at hc
        split at hc
        · next he => exact ⟨_, List.mem_append_right _ (List.mem_singleton_self _), he.1.symm, he.2.symm,
            Option.some.inj hc⟩
        · obtain ⟨call, hcall, hrest⟩ := h.held w k c hc
          exact ⟨call, List.mem_append_left _ hcall, hrest⟩
      · rcases List.mem_append.mp hcall with hcall | hcall
        · exact List.mem_append_left _ (h.storing call hcall)
        · exact List.mem_append_right _ hcall
      · exact Nat.lt_succ_of_lt (h.returned c hc)

theorem Inv.register (h : Inv Session s) {call : Call} (emits : Bool) (hcall : call ∈ s.base.storing) :
    Inv Session (step Session s (.register call emits)) := by
  obtain ⟨hi, hn, hres⟩ := s.base.register_frame call emits
  refine h.mono (Interleaving.inv_register h.base emits hcall) rfl hi hn (fun w r c hc => ?_) (fun other hother => ?_)
    fun c hc => ?_
  · exact (s.base.register_pending call emits w r).symm.trans hc
  · exact ((s.base.mem_register_storing call emits other).mp hother).1
  · rcases hc with hc | hc
    · cases emits with
      | true => exact h.returned c (Or.inl hc)
      | false =>
          rcases List.mem_append.mp hc with hc | hc
          · exact h.returned c (Or.inl hc)
          · rw [List.mem_singleton.mp hc]
            exact (h.known call (h.storing call hcall)).2
    · exact h.returned c (Or.inr (hres ▸ hc))

theorem resumed_resume {p : Interleaving.Response} (hpa : s.base.answering = some p) {c : Continuation}
    (hc : c ∈ s.base.resume.card.resumed.map Prod.fst) :
    c ∈ s.base.card.resumed.map Prod.fst ∨ s.base.card.pending p.view p.requestId = some c := by
  rw [Interleaving.State.resume_of_answering hpa] at hc
  change c ∈ (s.base.card.takeContinuation p.view p.requestId p.success p.data).1.resumed.map Prod.fst at hc
  rw [Card.State.takeContinuation_resumed, List.map_append] at hc
  rcases List.mem_append.mp hc with hc | hc
  · exact Or.inl hc
  · obtain ⟨x, hx, rfl⟩ := List.mem_map.mp hc
    obtain ⟨d, hd, hmap⟩ := List.mem_filterMap.mp hx
    obtain ⟨result, -, rfl⟩ := Option.map_eq_some_iff.mp hmap
    exact Or.inr (Option.mem_toList.mp hd)

theorem Inv.resume (h : Inv Session s) (hat : s.base.At .unregistered) : Inv Session (step Session s .resume) := by
  have hbase := Interleaving.inv_resume h.base hat
  obtain ⟨p, hpa, -⟩ := hat
  have hp := Interleaving.State.resume_pending hpa
  have hstep := Interleaving.State.resume_of_answering hpa
  obtain ⟨-, hcount, hissued⟩ := s.base.card.takeContinuation_frame p.view p.requestId p.success p.data
  refine h.mono hbase rfl ?_ ?_ (fun w r c hc => ?_) (fun other hother => ?_) fun c hc => ?_
  · change s.base.resume.card.issued = _
    rw [hstep, hissued]
  · change s.base.resume.card.calls = _
    rw [hstep, hcount]
  · change s.base.resume.card.pending w r = some c at hc
    rw [hp] at hc
    split at hc
    · cases hc
    · exact hc
  · change other ∈ s.base.resume.storing at hother
    rw [hstep] at hother
    exact hother
  · rcases hc with hc | hc
    · exact h.returned c (Or.inl hc)
    · rcases resumed_resume hpa hc with hc | hc
      · exact h.returned c (Or.inr hc)
      · exact (h.base.known _ _ c hc).2

theorem inv_step (s : State) (e : Interleaving.Event) (h : Inv Session s) (he : (machine Session).allowed s e) :
    Inv Session ((machine Session).step s e) := by
  have hbase := Interleaving.inv_step s.base e h.base he
  change Inv Session (step Session s e)
  cases e with
  | initializeView v id secret key activity =>
      have hf := s.base.card.initializeView_frame v id secret key activity
      refine h.mono hbase rfl hf.issued hf.calls (fun w r c hc => (hf.pending w r).symm.trans hc) (fun _ hx => hx)
        fun c hc => h.returned c (hc.imp_right fun hin => hf.resumed ▸ hin)
  | finishCreation c created =>
      obtain ⟨hp, -, hn, hi, hres⟩ := s.base.card.finishCreation_frame c created
      refine h.mono hbase rfl hi hn (fun w r c hc => (hp w r).symm.trans hc) (fun _ hx => hx)
        fun c hc => h.returned c (hc.imp_right fun hin => hres ▸ hin)
  | store v raw r => exact h.store v raw he
  | register call emits => exact h.register emits he
  | lookup r success data =>
      obtain ⟨hcard, hst⟩ := s.base.lookup_card r success data
      refine h.mono hbase rfl (congrArg _ hcard) (congrArg _ hcard) (fun w k c hc => ?_) (fun _ hx => hst ▸ hx)
        fun c hc => h.returned c (hc.imp_right fun hin => hcard ▸ hin)
      rw [← hcard]
      exact hc
  | unregister =>
      obtain ⟨p, hpa, -⟩ := he
      have hstep : (step Session s .unregister).base = _ := Interleaving.State.unregister_of_answering hpa
      refine h.mono hbase rfl (by rw [hstep]; rfl) (by rw [hstep]; rfl) (fun w r c hc => ?_) (fun x hx => ?_)
        fun c hc => h.returned c (hc.imp_right fun hin => ?_)
      · rw [hstep] at hc
        exact hc
      · rw [hstep] at hx
        exact hx
      · rw [hstep] at hin
        exact hin
  | resume => exact h.resume he

theorem inv_init : Inv Session (machine Session).init :=
  ⟨Interleaving.inv_init Session, nofun, List.Pairwise.nil, nofun, nofun, fun c hc => by
    rcases hc with hc | hc <;> cases hc⟩

/-! ## The steps that leave nothing -/

theorem Clean.store (h : Inv Session s) (hc : Clean s) (v : ViewId) (raw : String) {r : String}
    (hr : s.base.card.FreshId Session r) : Clean (step Session s (.store v raw r)) := by
  cases hdata : (s.base.card.view v).currentSessionData with
  | none =>
      rw [step_store_of_none hdata]
      exact hc
  | some base =>
      rw [step_store_of_some hdata, s.base.store_of_some hdata]
      intro call hcall hret
      rcases List.mem_append.mp hcall with hcall | hcall
      · obtain ⟨hp, hg⟩ := hc call hcall hret
        have hne : call.requestId ≠ r := fun he => hr.2 (he ▸ (h.known call hcall).1)
        refine ⟨?_, hg⟩
        change (s.base.card.storeContinuation v r).pending call.view call.requestId = none
        rw [Card.State.storeContinuation_pending, if_neg fun he => hne he.2, hp]
      · -- the new call has not returned
        rw [List.mem_singleton.mp hcall] at hret
        exact absurd (h.returned _ hret) (Nat.lt_irrefl _)

theorem clean_register (h : Inv Session s) (hc : Clean s) {call : Call} (emits : Bool)
    (hcall : call ∈ s.base.storing) : Clean (step Session s (.register call emits)) ↔ emits = true := by
  have hmem := h.storing call hcall
  have hwaits := (h.base.storing call hcall).1
  have hp := s.base.register_pending call emits
  have hg := s.base.register_registry call emits
  have hres := (s.base.register_frame call emits).2.2
  cases emits with
  | false =>
      refine iff_of_false (fun hclean => ?_) Bool.false_ne_true
      have hnone := (hclean call hmem (Or.inl (List.mem_append_right _ (List.mem_singleton_self _)))).1
      change (s.base.register call false).card.pending _ _ = none at hnone
      rw [hp, hwaits] at hnone
      cases hnone
  | true =>
      refine iff_of_true (fun other hother hret => ?_) rfl
      have hret : s.Returned other.continuation := hret.imp_right fun hin => hres ▸ hin
      obtain ⟨hnone, hreg⟩ := hc other hother hret
      refine ⟨(hp _ _).trans hnone, (hg _).trans ?_⟩
      rw [if_neg, hreg]
      intro he
      obtain rfl := h.call_eq hother hmem (Or.inl he)
      rw [hnone] at hwaits
      cases hwaits

theorem Clean.resume (h : Inv Session s) (hc : Clean s) (hat : s.base.At .unregistered) :
    Clean (step Session s .resume) := by
  obtain ⟨p, hpa, hun⟩ := hat
  have hp := Interleaving.State.resume_pending hpa
  have hg : s.base.resume.card.registry = s.base.card.registry := by
    rw [Interleaving.State.resume_of_answering hpa]
    exact (s.base.card.takeContinuation_frame p.view p.requestId p.success p.data).1
  refine hc.mono rfl (fun call _ hnone => (hp _ _).trans ?_) (fun call _ hnone => ?_) fun call hcall hret => ?_
  · rw [hnone, ite_self]
  · change s.base.resume.card.registry.get _ = none
    rw [hg, hnone]
  · rcases hret with hret | hret
    · exact Or.inl (Or.inl hret)
    · rcases resumed_resume hpa hret with hret | hwaits
      · exact Or.inl (Or.inr hret)
      · -- the call resumed is the one that the response is for
        obtain ⟨other, hother, hv, hr, hcont⟩ := h.held _ _ _ hwaits
        obtain rfl := h.call_eq hother hcall (Or.inr hcont)
        refine Or.inr ⟨(hp _ _).trans (if_pos ⟨hv, hr⟩), ?_⟩
        change s.base.resume.card.registry.get _ = none
        rw [hg, hr]
        exact (h.base.taking p hpa (hr ▸ h.not_session hcall) hun).1

theorem clean_step (s : State) (e : Interleaving.Event) (h : Inv Session s) (hc : Clean s)
    (he : (machine Session).allowed s e) : Clean ((machine Session).step s e) ↔ Delivers s e := by
  change Clean (step Session s e) ↔ _
  cases e with
  | initializeView v id secret key activity =>
      have hf := s.base.card.initializeView_frame v id secret key activity
      refine iff_of_true (hc.mono rfl (fun call _ hp => (hf.pending _ _).trans hp) (fun call hcall hg => ?_)
        fun call _ hret => Or.inl (hret.imp_right fun hin => hf.resumed ▸ hin)) trivial
      exact (initializeView_registry h hcall v secret key activity he).trans hg
  | finishCreation c created =>
      obtain ⟨hp, hreg, -, -, hres⟩ := s.base.card.finishCreation_frame c created
      refine iff_of_true (hc.mono rfl (fun call _ hnone => (hp _ _).trans hnone) (fun call _ hnone => ?_)
        fun call _ hret => Or.inl (hret.imp_right fun hin => hres ▸ hin)) trivial
      change (s.base.card.finishCreation c created).registry.get _ = none
      rw [hreg, hnone]
  | store v raw r => exact iff_of_true (hc.store h v raw he) trivial
  | register call emits => exact clean_register h hc emits he
  | lookup r success data =>
      have hcard := (s.base.lookup_card r success data).1
      refine iff_of_true (hc.mono rfl (fun call _ hnone => ?_) (fun call _ hnone => ?_)
        fun call _ hret => Or.inl (hret.imp_right fun hin => hcard ▸ hin)) trivial
      · rw [← hcard] at hnone
        exact hnone
      · rw [← hcard] at hnone
        exact hnone
  | unregister =>
      obtain ⟨p, hpa, -⟩ := he
      have hg := Interleaving.State.unregister_registry hpa
      have hstep : (step Session s .unregister).base = _ := Interleaving.State.unregister_of_answering hpa
      refine iff_of_true (hc.mono rfl (fun call _ hnone => ?_) (fun call _ hnone => (hg _).trans ?_)
        fun call _ hret => Or.inl (hret.imp_right fun hin => ?_)) trivial
      · rw [hstep]
        exact hnone
      · rw [hnone, ite_self]
      · rw [hstep] at hin
        exact hin
  | resume => exact iff_of_true (hc.resume h he) trivial

/-- **The steps of a call stay at the call's own id.** -/
theorem ownKeyOnly (Session : Set String) : OwnKeyOnly Session := by
  intro s e r hr k hk
  cases e with
  | initializeView v id secret key activity => cases hr
  | finishCreation c created => cases hr
  | lookup r' success data => cases hr
  | store v raw r' =>
      obtain rfl := Option.some.inj hr
      change (s.base.store v raw r').card.registry.get k = _ ∧ ∀ w, (s.base.store v raw r').card.pending w k = _
      cases hdata : (s.base.card.view v).currentSessionData with
      | none =>
          rw [s.base.store_of_none hdata]
          exact ⟨rfl, fun _ => rfl⟩
      | some base =>
          rw [s.base.store_of_some hdata]
          refine ⟨rfl, fun w => ?_⟩
          exact (s.base.card.storeContinuation_pending v r' w k).trans (if_neg fun he => hk he.2)
  | register call emits =>
      obtain rfl := Option.some.inj hr
      exact ⟨(s.base.register_registry call emits k).trans (if_neg hk), fun w => s.base.register_pending call emits w k⟩
  | unregister =>
      obtain ⟨p, hpa, rfl⟩ := Option.map_eq_some_iff.mp hr
      refine ⟨(Interleaving.State.unregister_registry hpa k).trans (if_neg hk), fun w => ?_⟩
      change s.base.unregister.card.pending w k = _
      rw [Interleaving.State.unregister_of_answering hpa]
      rfl
  | resume =>
      obtain ⟨p, hpa, rfl⟩ := Option.map_eq_some_iff.mp hr
      refine ⟨?_, fun w => (Interleaving.State.resume_pending hpa w k).trans (if_neg fun he => hk he.2)⟩
      change s.base.resume.card.registry.get k = _
      rw [Interleaving.State.resume_of_answering hpa]
      exact congrArg (·.get k) (s.base.card.takeContinuation_frame p.view p.requestId p.success p.data).1

/-- **A run of the card views is clean throughout exactly if** the bridge delivers the event of every call. -/
theorem clean_throughout_iff {es : List Interleaving.Event} (h : (machine Session).Admits (machine Session).init es) :
    (machine Session).Throughout Clean (machine Session).init es ↔
      ((machine Session).restrict Delivers).Admits (machine Session).init es :=
  Machine.throughout_iff_restrict inv_step clean_step inv_init nofun h

end FlowDemo.Android.Card.Cleanup
