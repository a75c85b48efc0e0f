import FlowDemo.Lib.Exchange
import FlowDemo.Android.Card.View

/-!
# The submit protocol, one map update at a time

`handleSubmit` runs on SDK threads, `initialize` on the UI thread and `CardModule.handleSubmitResponse` on the one
native-modules thread. Here every update of `pendingContinuations` or of `CardViewRegistry` is a step of its own:

* `store`, `register`: the two halves of a `handleSubmit` call; any number of calls may stand between them;
* `lookup`, `unregister`, `resume`: the three stages of a response, one response at a time.

`Inv` says where the continuation of a request id is at each of these points. From it, `exchange` simulates every
run by the abstract exchange of `Lib.Exchange`: a call opens when its view is registered under its id, an answer
arrives when the response is looked up.
-/

namespace FlowDemo.Android.Card.Interleaving

open Exchange (Move Table)

/-- A `handleSubmit` call that has stored its continuation and not yet registered its view. -/
structure Call where
  view : ViewId
  requestId : String
  continuation : Continuation
  sessionData : SessionData
  deriving DecidableEq

/-- Two calls share neither id nor continuation. -/
def Call.Apart (a b : Call) : Prop := a.requestId ≠ b.requestId ∧ a.continuation ≠ b.continuation

instance : Std.Symm Call.Apart := ⟨fun _ _ h => ⟨Ne.symm h.1, Ne.symm h.2⟩⟩

inductive Stage
  | found
  | unregistered
  deriving DecidableEq

/-- The response the native-modules thread is working on, after it found `view` in the registry. -/
structure Response where
  view : ViewId
  requestId : String
  success : Bool
  data : Option ReadableMap
  stage : Stage

structure State where
  card : Card.State := {}
  storing : List Call := []
  answering : Option Response := none

/-- One step of a thread, each with at most one map update. -/
inductive Event
  | initializeView (v : ViewId) (paymentSessionID paymentSessionSecret publicKey : String) (activity : Bool)
  | finishCreation (c : Creation) (created : Bool)
  | store (v : ViewId) (raw requestId : String)
  | register (call : Call) (emits : Bool)
  | lookup (requestId : String) (success : Bool) (data : Option ReadableMap)
  | unregister
  | resume

namespace State

def store (s : State) (v : ViewId) (raw requestId : String) : State :=
  match (s.card.view v).currentSessionData with
  | none => s
  | some base => { s with
      card := s.card.storeContinuation v requestId
      storing := s.storing ++ [⟨v, requestId, s.card.calls, { base with sessionData := some raw }⟩] }

def register (s : State) (call : Call) (emits : Bool) : State :=
  { s with
    card := (s.card.registerView call.requestId call.view).emitEvent ⟨call.requestId, call.sessionData⟩ emits
    storing := s.storing.filter fun other => other.requestId ≠ call.requestId }

def lookup (s : State) (requestId : String) (success : Bool) (data : Option ReadableMap) : State :=
  match s.card.getView requestId with
  | none => s
  | some v => { s with answering := some ⟨v, requestId, success, data, .found⟩ }

def unregister (s : State) : State :=
  match s.answering with
  | none => s
  | some r => { s with
      card := s.card.unregisterView r.requestId
      answering := some { r with stage := .unregistered } }

def resume (s : State) : State :=
  match s.answering with
  | none => s
  | some r => { s with
      card := (s.card.takeContinuation r.view r.requestId r.success r.data).1
      answering := none }

def At (s : State) (stage : Stage) : Prop := ∃ r, s.answering = some r ∧ r.stage = stage

end State

def machine (Session : Set String) : Machine State Event where
  init := {}
  allowed s e := match e with
    | .initializeView _ id _ _ _ => id ∈ Session
    | .finishCreation c _ => c ∈ s.card.creations
    | .store _ _ r => s.card.FreshId Session r
    | .register call _ => call ∈ s.storing
    | .lookup _ _ _ => s.answering = none
    | .unregister => s.At .found
    | .resume => s.At .unregistered
  step s e := match e with
    | .initializeView v id secret key activity =>
        { s with card := s.card.initializeView v id secret key activity }
    | .finishCreation c created => { s with card := s.card.finishCreation c created }
    | .store v raw r => s.store v raw r
    | .register call emits => s.register call emits
    | .lookup r success data => s.lookup r success data
    | .unregister => s.unregister
    | .resume => s.resume

/-! ## What each step changes -/

namespace State

variable (s : State)

theorem store_of_none {v : ViewId} (h : (s.card.view v).currentSessionData = none) (raw r : String) :
    s.store v raw r = s := by
  simp only [store, h]

theorem store_of_some {v : ViewId} {base : SessionData} (h : (s.card.view v).currentSessionData = some base)
    (raw r : String) : s.store v raw r = { s with
      card := s.card.storeContinuation v r
      storing := s.storing ++ [⟨v, r, s.card.calls, { base with sessionData := some raw }⟩] } := by
  simp only [store, h]

theorem register_pending (call : Call) (emits : Bool) (w : ViewId) (r : String) :
    (s.register call emits).card.pending w r = s.card.pending w r := by simp [register]

theorem register_registry (call : Call) (emits : Bool) (r : String) :
    (s.register call emits).card.registry.get r =
      if r = call.requestId then some call.view else s.card.registry.get r := by
  simp only [register, Card.State.emitEvent_registry]
  exact LinkedMap.get_put _ _ _ _

theorem mem_register_storing (call : Call) (emits : Bool) (other : Call) :
    other ∈ (s.register call emits).storing ↔ other ∈ s.storing ∧ other.requestId ≠ call.requestId := by
  simp [register]

theorem register_frame (call : Call) (emits : Bool) :
    (s.register call emits).card.issued = s.card.issued ∧ (s.register call emits).card.calls = s.card.calls ∧
      (s.register call emits).card.resumed = s.card.resumed := by
  simp [register, Card.State.registerView]

theorem lookup_card (r : String) (success : Bool) (data : Option ReadableMap) :
    (s.lookup r success data).card = s.card ∧ (s.lookup r success data).storing = s.storing := by
  unfold lookup
  split <;> exact ⟨rfl, rfl⟩

variable {s} {p : Response}

theorem unregister_of_answering (h : s.answering = some p) : s.unregister = { s with
    card := s.card.unregisterView p.requestId
    answering := some { p with stage := .unregistered } } := by
  simp only [unregister, h]

theorem unregister_registry (h : s.answering = some p) (r : String) :
    s.unregister.card.registry.get r = if r = p.requestId then none else s.card.registry.get r := by
  rw [unregister_of_answering h]
  exact LinkedMap.get_remove _ _ _

theorem resume_of_answering (h : s.answering = some p) : s.resume = { s with
    card := (s.card.takeContinuation p.view p.requestId p.success p.data).1
    answering := none } := by
  simp only [resume, h]

theorem resume_pending (h : s.answering = some p) (w : ViewId) (r : String) :
    s.resume.card.pending w r = if w = p.view ∧ r = p.requestId then none else s.card.pending w r := by
  rw [resume_of_answering h]
  exact s.card.takeContinuation_pending p.view p.requestId p.success p.data w r

end State

/-! ## Where a continuation is -/

/-- The view of `r` is being registered: a call stands between its two updates. -/
def Storing (s : State) (v : ViewId) (r : String) : Prop :=
  ∃ call ∈ s.storing, call.view = v ∧ call.requestId = r

/-- The view of `r` has been unregistered and its continuation not yet taken. -/
def Taking (s : State) (v : ViewId) (r : String) : Prop :=
  ∃ p, s.answering = some p ∧ p.stage = .unregistered ∧ p.view = v ∧ p.requestId = r

/-- **The protocol invariant.** A stored continuation is registered, or its call is about to register it, or the
response that will take it has just unregistered it; each request id has one holder. -/
structure Inv (Session : Set String) (s : State) : Prop where
  known : ∀ v r c, s.card.pending v r = some c → r ∈ s.card.issued ∧ c < s.card.calls
  issued : ∀ r ∈ s.card.issued, r ∉ Session
  holder : ∀ v w r c d, s.card.pending v r = some c → s.card.pending w r = some d → v = w
  place : ∀ v r c, s.card.pending v r = some c → s.card.registry.get r = some v ∨ Storing s v r ∨ Taking s v r
  registered : ∀ v r, r ∉ Session → s.card.registry.get r = some v → ∃ c, s.card.pending v r = some c
  storing : ∀ call ∈ s.storing, s.card.pending call.view call.requestId = some call.continuation ∧
    s.card.registry.get call.requestId = none
  storing_ids : s.storing.Pairwise Call.Apart
  found : ∀ p, s.answering = some p → p.requestId ∉ Session → p.stage = .found →
    s.card.registry.get p.requestId = some p.view
  taking : ∀ p, s.answering = some p → p.requestId ∉ Session → p.stage = .unregistered →
    s.card.registry.get p.requestId = none ∧ (∃ c, s.card.pending p.view p.requestId = some c) ∧
      ∀ call ∈ s.storing, call.requestId ≠ p.requestId

/-- The clauses of the invariant that speak of the continuations alone. -/
structure Owned (Session : Set String) (card : Card.State) : Prop where
  known : ∀ v r c, card.pending v r = some c → r ∈ card.issued ∧ c < card.calls
  issued : ∀ r ∈ card.issued, r ∉ Session
  holder : ∀ v w r c d, card.pending v r = some c → card.pending w r = some d → v = w

theorem inv_init (Session : Set String) : Inv Session (machine Session).init := by
  have hp : ∀ v r, (machine Session).init.card.pending v r = none := fun _ _ => rfl
  have hr : ∀ r, (machine Session).init.card.registry.get r = none := fun _ => rfl
  have ha : (machine Session).init.answering = none := rfl
  have hs : (machine Session).init.storing = [] := rfl
  have hi : (machine Session).init.card.issued = [] := rfl
  constructor <;> simp [hp, hr, ha, hs, hi]

variable {Session : Set String}

namespace Inv

variable {s : State}

theorem pending_not_session (h : Inv Session s) {v : ViewId} {r : String} {c : Continuation}
    (hp : s.card.pending v r = some c) : r ∉ Session :=
  h.issued r (h.known v r c hp).1

theorem pending_fresh (h : Inv Session s) {r : String} (hr : s.card.FreshId Session r) (v : ViewId) :
    s.card.pending v r = none := by
  cases hp : s.card.pending v r with
  | none => rfl
  | some c => exact absurd (h.known v r c hp).1 hr.2

theorem registry_fresh (h : Inv Session s) {r : String} (hr : s.card.FreshId Session r) :
    s.card.registry.get r = none := by
  cases hg : s.card.registry.get r with
  | none => rfl
  | some v =>
      obtain ⟨c, hc⟩ := h.registered v r hr.1 hg
      rw [h.pending_fresh hr v] at hc
      cases hc

theorem owned (h : Inv Session s) : Owned Session s.card := ⟨h.known, h.issued, h.holder⟩

end Inv

/-- Taking continuations away, and handing out no others, keeps them owned. -/
theorem Owned.of_pending {card card' : Card.State} (h : Owned Session card)
    (hp : ∀ v r c, card'.pending v r = some c → card.pending v r = some c) (hc : card'.calls = card.calls)
    (hi : card'.issued = card.issued) : Owned Session card' := by
  refine ⟨?_, ?_, ?_⟩
  · intro v r c hv
    rw [hi, hc]
    exact h.known v r c (hp v r c hv)
  · rw [hi]
    exact h.issued
  · intro v w r c d hv hw
    exact h.holder v w r c d (hp v r c hv) (hp w r d hw)

theorem Owned.storeContinuation {card : Card.State} (h : Owned Session card) (v : ViewId) {r : String}
    (hr : card.FreshId Session r) : Owned Session (card.storeContinuation v r) := by
  have hp := card.storeContinuation_pending v r
  have hold : ∀ {w r' c}, card.pending w r' = some c → r' ≠ r := by
    rintro w r' c hc rfl
    exact hr.2 (h.known w r' c hc).1
  refine ⟨?_, ?_, ?_⟩
  · intro w r' c hc
    change r' ∈ card.issued ++ [r] ∧ c < card.calls + 1
    rw [hp] at hc
    split at hc
    · next he =>
        obtain rfl := Option.some.inj hc
        exact ⟨by simp [he.2], Nat.lt_succ_self _⟩
    · obtain ⟨h1, h2⟩ := h.known w r' c hc
      exact ⟨List.mem_append_left _ h1, Nat.lt_succ_of_lt h2⟩
  · intro r' hr'
    rcases List.mem_append.mp hr' with hr' | hr'
    · exact h.issued r' hr'
    · rw [List.mem_singleton.mp hr']
      exact hr.1
  · intro w w' r' c d hc hd
    rw [hp] at hc hd
    split at hc
    · next he =>
        split at hd
        · next he' => rw [he.1, he'.1]
        · exact absurd he.2 (hold hd)
    · split at hd
      · next he' => exact absurd he'.2 (hold hc)
      · exact h.holder w w' r' c d hc hd

namespace Inv

variable {s : State}

theorem answering_pending (h : Inv Session s) {p : Response} (hp : s.answering = some p) (hps : p.requestId ∉ Session) :
    ∃ c, s.card.pending p.view p.requestId = some c := by
  cases hstage : p.stage with
  | found => exact h.registered _ _ hps (h.found p hp hps hstage)
  | unregistered => exact (h.taking p hp hps hstage).2.1

/-- A call between its two updates is not the one a response is for. -/
theorem answering_ne_storing (h : Inv Session s) {p : Response} (hp : s.answering = some p) {call : Call}
    (hcall : call ∈ s.storing) : p.requestId ≠ call.requestId := by
  intro he
  obtain ⟨hc, hnone⟩ := h.storing call hcall
  have hps : p.requestId ∉ Session := he ▸ h.pending_not_session hc
  cases hstage : p.stage with
  | found =>
      have hreg := h.found p hp hps hstage
      rw [he, hnone] at hreg
      cases hreg
  | unregistered => exact (h.taking p hp hps hstage).2.2 call hcall he.symm

/-- The invariant reads only the continuations, the registry off the session ids, the counters and the threads. -/
theorem congr (h : Inv Session s) {t : State} (hp : ∀ v r, t.card.pending v r = s.card.pending v r)
    (hr : ∀ r, r ∉ Session → t.card.registry.get r = s.card.registry.get r) (hc : t.card.calls = s.card.calls)
    (hi : t.card.issued = s.card.issued) (hst : t.storing = s.storing) (ha : t.answering = s.answering) :
    Inv Session t := by
  have howned := h.owned.of_pending (fun v r _ hv => (hp v r).symm.trans hv) hc hi
  constructor
  case known => exact howned.known
  case issued => exact howned.issued
  case holder => exact howned.holder
  case place =>
    intro v r c hv
    rw [hp] at hv
    rw [hr r (h.pending_not_session hv)]
    unfold Storing Taking
    rw [hst, ha]
    exact h.place v r c hv
  case registered =>
    intro v r hrs hg
    rw [hp]
    exact h.registered v r hrs ((hr r hrs).symm.trans hg)
  case storing =>
    intro call hcall
    rw [hst] at hcall
    obtain ⟨h1, h2⟩ := h.storing call hcall
    rw [hp, hr _ (h.pending_not_session h1)]
    exact ⟨h1, h2⟩
  case storing_ids =>
    rw [hst]
    exact h.storing_ids
  case found =>
    intro p hpa hps hstage
    rw [hr _ hps]
    exact h.found p (ha ▸ hpa) hps hstage
  case taking =>
    intro p hpa hps hstage
    rw [hr _ hps, hp, hst]
    exact h.taking p (ha ▸ hpa) hps hstage

end Inv

theorem inv_initializeView {s : State} (h : Inv Session s) (v : ViewId) {id : String} (secret key : String)
    (activity : Bool) (hid : id ∈ Session) :
    Inv Session { s with card := s.card.initializeView v id secret key activity } := by
  have hf := s.card.initializeView_frame v id secret key activity
  refine h.congr hf.pending (fun r hr => ?_) hf.calls hf.issued rfl rfl
  have hne : r ≠ id := fun he => hr (he ▸ hid)
  rcases hf.registry with hreg | hreg
  · rw [hreg]
  · rw [hreg, LinkedMap.get_put_of_ne _ _ hne]

theorem inv_store {s : State} (h : Inv Session s) (v : ViewId) (raw : String) {r : String}
    (hr : s.card.FreshId Session r) : Inv Session (s.store v raw r) := by
  cases hbase : (s.card.view v).currentSessionData with
  | none =>
      rw [s.store_of_none hbase]
      exact h
  | some base =>
      rw [s.store_of_some hbase]
      have hp := s.card.storeContinuation_pending v r
      have hold : ∀ {w r' c}, s.card.pending w r' = some c → r' ≠ r := by
        rintro w r' c hc rfl
        rw [h.pending_fresh hr w] at hc
        cases hc
      have hkeep : ∀ {w r' c}, s.card.pending w r' = some c →
          (s.card.storeContinuation v r).pending w r' = some c := by
        intro w r' c hc
        rw [hp, if_neg fun he => hold hc he.2, hc]
      have howned := h.owned.storeContinuation v hr
      constructor
      case known => exact howned.known
      case issued => exact howned.issued
      case holder => exact howned.holder
      case place =>
        intro w r' c hc
        change (s.card.storeContinuation v r).pending w r' = some c at hc
        rw [hp] at hc
        split at hc
        · next he =>
            exact Or.inr (Or.inl ⟨_, List.mem_append_right _ (List.mem_singleton_self _), he.1.symm, he.2.symm⟩)
        · rcases h.place w r' c hc with hg | ⟨call, hcall, hv⟩ | ht
          · exact Or.inl hg
          · exact Or.inr (Or.inl ⟨call, List.mem_append_left _ hcall, hv⟩)
          · exact Or.inr (Or.inr ht)
      case registered =>
        intro w r' hr' hg
        obtain ⟨c, hc⟩ := h.registered w r' hr' hg
        exact ⟨c, hkeep hc⟩
      case storing =>
        intro call hcall
        rcases List.mem_append.mp hcall with hcall | hcall
        · obtain ⟨h1, h2⟩ := h.storing call hcall
          exact ⟨hkeep h1, h2⟩
        · rw [List.mem_singleton.mp hcall]
          refine ⟨?_, h.registry_fresh hr⟩
          change (s.card.storeContinuation v r).pending v r = _
          rw [hp, if_pos ⟨rfl, rfl⟩]
      case storing_ids =>
        refine List.pairwise_append.mpr ⟨h.storing_ids, List.pairwise_singleton _ _, fun call hcall new hnew => ?_⟩
        obtain ⟨h1, -⟩ := h.storing call hcall
        rw [List.mem_singleton.mp hnew]
        exact ⟨hold h1, Nat.ne_of_lt (h.known _ _ _ h1).2⟩
      case found =>
        exact h.found
      case taking =>
        intro p hpa hps hstage
        obtain ⟨h1, ⟨c, hc⟩, h3⟩ := h.taking p hpa hps hstage
        refine ⟨h1, ⟨c, hkeep hc⟩, fun call hcall => ?_⟩
        rcases List.mem_append.mp hcall with hcall | hcall
        · exact h3 call hcall
        · rw [List.mem_singleton.mp hcall]
          exact Ne.symm (hold hc)

theorem inv_register {s : State} (h : Inv Session s) {call : Call} (emits : Bool) (hcall : call ∈ s.storing) :
    Inv Session (s.register call emits) := by
  obtain ⟨hc, -⟩ := h.storing call hcall
  have hp := s.register_pending call emits
  have hg := s.register_registry call emits
  have hmem := s.mem_register_storing call emits
  obtain ⟨hi, hn, -⟩ := s.register_frame call emits
  have ha : (s.register call emits).answering = s.answering := rfl
  have howned := h.owned.of_pending (fun w r _ hw => (hp w r).symm.trans hw) hn hi
  constructor
  case known => exact howned.known
  case issued => exact howned.issued
  case holder => exact howned.holder
  case place =>
    intro w r c hw
    rw [hp] at hw
    rw [hg]
    split
    · next hr =>
        subst hr
        exact Or.inl (congrArg some (h.holder call.view w _ _ _ hc hw))
    · next hr =>
        rcases h.place w r c hw with hreg | ⟨other, hother, hv, hid⟩ | ht
        · exact Or.inl hreg
        · exact Or.inr (Or.inl ⟨other, (hmem other).mpr ⟨hother, hid ▸ hr⟩, hv, hid⟩)
        · exact Or.inr (Or.inr ht)
  case registered =>
    intro w r hrs hreg
    rw [hg] at hreg
    rw [hp]
    split at hreg
    · next hr =>
        obtain rfl := Option.some.inj hreg
        exact ⟨_, hr ▸ hc⟩
    · exact h.registered w r hrs hreg
  case storing =>
    intro other hother
    obtain ⟨hother, hne⟩ := (hmem other).mp hother
    rw [hp, hg, if_neg hne]
    exact h.storing other hother
  case storing_ids =>
    exact h.storing_ids.filter _
  case found =>
    intro p hpa hps hstage
    rw [hg, if_neg (h.answering_ne_storing (ha ▸ hpa) hcall)]
    exact h.found p (ha ▸ hpa) hps hstage
  case taking =>
    intro p hpa hps hstage
    obtain ⟨h1, h2, h3⟩ := h.taking p (ha ▸ hpa) hps hstage
    rw [hg, if_neg (h.answering_ne_storing (ha ▸ hpa) hcall), hp]
    exact ⟨h1, h2, fun other hother => h3 other ((hmem other).mp hother).1⟩

theorem inv_lookup {s : State} (h : Inv Session s) (r : String) (success : Bool) (data : Option ReadableMap)
    (hidle : s.answering = none) : Inv Session (s.lookup r success data) := by
  unfold State.lookup
  cases hg : s.card.getView r with
  | none => exact h
  | some v =>
      refine ⟨h.known, h.issued, h.holder, ?_, h.registered, h.storing, h.storing_ids, ?_, ?_⟩
      · intro w r' c hc
        rcases h.place w r' c hc with hreg | hst | ⟨p, hpa, -⟩
        · exact Or.inl hreg
        · exact Or.inr (Or.inl hst)
        · rw [hidle] at hpa
          cases hpa
      · intro p hpa _ _
        obtain rfl := Option.some.inj hpa
        exact hg
      · intro p hpa _ hstage
        obtain rfl := Option.some.inj hpa
        cases hstage

theorem inv_unregister {s : State} (h : Inv Session s) (hat : s.At .found) : Inv Session s.unregister := by
  obtain ⟨p, hpa, hfound⟩ := hat
  have hg := State.unregister_registry hpa
  have hcard : s.unregister.card = s.card.unregisterView p.requestId := by rw [State.unregister_of_answering hpa]
  have hst : s.unregister.storing = s.storing := by rw [State.unregister_of_answering hpa]
  have ha : s.unregister.answering = some { p with stage := .unregistered } := by
    rw [State.unregister_of_answering hpa]
  have hp : ∀ w r, s.unregister.card.pending w r = s.card.pending w r := by
    intro w r
    rw [hcard, State.unregisterView_pending]
  have howned : Owned Session s.unregister.card :=
    h.owned.of_pending (fun w r _ hw => (hp w r).symm.trans hw) (by rw [hcard]; rfl) (by rw [hcard]; rfl)
  constructor
  case known => exact howned.known
  case issued => exact howned.issued
  case holder => exact howned.holder
  case place =>
    intro w r c hw
    rw [hp] at hw
    rw [hg]
    split
    · next hr =>
        -- the id of the response: its view was registered, so it holds the continuation
        subst hr
        obtain ⟨d, hd⟩ := h.answering_pending hpa (h.pending_not_session hw)
        exact Or.inr (Or.inr ⟨_, ha, rfl, h.holder p.view w _ _ _ hd hw, rfl⟩)
    · rcases h.place w r c hw with hreg | ⟨call, hcall, hv⟩ | ⟨q, hqa, hstage, -⟩
      · exact Or.inl hreg
      · exact Or.inr (Or.inl ⟨call, hst ▸ hcall, hv⟩)
      · rw [hpa] at hqa
        obtain rfl := Option.some.inj hqa
        rw [hfound] at hstage
        cases hstage
  case registered =>
    intro w r hrs hreg
    rw [hg] at hreg
    rw [hp]
    split at hreg
    · cases hreg
    · exact h.registered w r hrs hreg
  case storing =>
    intro call hcall
    rw [hst] at hcall
    obtain ⟨h1, h2⟩ := h.storing call hcall
    rw [hp, hg, h2, ite_self]
    exact ⟨h1, rfl⟩
  case storing_ids =>
    rw [hst]
    exact h.storing_ids
  case found =>
    intro q hqa _ hstage
    rw [ha] at hqa
    obtain rfl := Option.some.inj hqa
    cases hstage
  case taking =>
    intro q hqa hqs _
    rw [ha] at hqa
    obtain rfl := Option.some.inj hqa
    have hreg := h.found p hpa hqs hfound
    refine ⟨by rw [hg, if_pos rfl], ?_, ?_⟩
    · rw [hp]
      exact h.registered p.view _ hqs hreg
    · intro call hcall he
      rw [hst] at hcall
      have hnone := (h.storing call hcall).2
      rw [he] at hnone
      cases hreg.symm.trans hnone

theorem inv_resume {s : State} (h : Inv Session s) (hat : s.At .unregistered) : Inv Session s.resume := by
  obtain ⟨p, hpa, hun⟩ := hat
  have hcard : s.resume.card = (s.card.takeContinuation p.view p.requestId p.success p.data).1 := by
    rw [State.resume_of_answering hpa]
  have hst : s.resume.storing = s.storing := by rw [State.resume_of_answering hpa]
  have ha : s.resume.answering = none := by rw [State.resume_of_answering hpa]
  have hp := State.resume_pending hpa
  obtain ⟨hreg, hcalls, hissued⟩ := s.card.takeContinuation_frame p.view p.requestId p.success p.data
  have hlt : ∀ {w r c}, s.resume.card.pending w r = some c → s.card.pending w r = some c := by
    intro w r c hw
    rw [hp] at hw
    split at hw
    · cases hw
    · exact hw
  have howned : Owned Session s.resume.card :=
    h.owned.of_pending (fun w r c hw => hlt hw) (by rw [hcard, hcalls]) (by rw [hcard, hissued])
  constructor
  case known => exact howned.known
  case issued => exact howned.issued
  case holder => exact howned.holder
  case place =>
    intro w r c hw
    rw [hcard, hreg]
    rcases h.place w r c (hlt hw) with hg | ⟨call, hcall, hv⟩ | ⟨q, hqa, -, hqv, hqr⟩
    · exact Or.inl hg
    · exact Or.inr (Or.inl ⟨call, hst ▸ hcall, hv⟩)
    · rw [hpa] at hqa
      obtain rfl := Option.some.inj hqa
      rw [hp, if_pos ⟨hqv.symm, hqr.symm⟩] at hw
      cases hw
  case registered =>
    intro w r hrs hg
    rw [hcard, hreg] at hg
    obtain ⟨c, hc⟩ := h.registered w r hrs hg
    refine ⟨c, ?_⟩
    rw [hp, if_neg, hc]
    rintro ⟨-, rfl⟩
    rw [(h.taking p hpa hrs hun).1] at hg
    cases hg
  case storing =>
    intro call hcall
    rw [hst] at hcall
    obtain ⟨h1, h2⟩ := h.storing call hcall
    rw [hp, if_neg, hcard, hreg]
    · exact ⟨h1, h2⟩
    · rintro ⟨-, he⟩
      exact (h.taking p hpa (he ▸ h.pending_not_session h1) hun).2.2 call hcall he
  case storing_ids =>
    rw [hst]
    exact h.storing_ids
  case found =>
    intro q hqa
    rw [ha] at hqa
    cases hqa
  case taking =>
    intro q hqa
    rw [ha] at hqa
    cases hqa

theorem inv_step (s : State) (e : Event) (h : Inv Session s) (he : (machine Session).allowed s e) :
    Inv Session ((machine Session).step s e) := by
  cases e with
  | initializeView v id secret key activity => exact inv_initializeView h v secret key activity he
  | finishCreation c created =>
      obtain ⟨hp, hr, hc, hi, -⟩ := s.card.finishCreation_frame c created
      exact h.congr hp (fun r _ => congrArg (·.get r) hr) hc hi rfl rfl
  | store v raw r => exact inv_store h v raw he
  | register call emits => exact inv_register h emits he
  | lookup r success data => exact inv_lookup h r success data he
  | unregister => exact inv_unregister h he
  | resume => exact inv_resume h he

theorem inv_run {s : State} (h : Inv Session s) {es : List Event} (hes : (machine Session).Admits s es) :
    Inv Session ((machine Session).run s es) :=
  Machine.run_induction inv_step h hes

end FlowDemo.Android.Card.Interleaving
