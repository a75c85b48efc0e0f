import FlowDemo.Android.Manager
import FlowDemo.Android.Card.Submit

/-!
# Mounted card views

The card views under their view manager: they are created, get their props in transactions, and are unmounted, which
the registry never hears of. The rest goes on below, submissions from JavaScript included.

* `Quiet`: what everything but `initialize` leaves of the registry and the views;
* `LiveSessions`: a session id leads to a mounted view that was initialised for that session;
* `live_sessions_throughout_iff`: the transactions and the unmounts that keep it so.
-/

namespace FlowDemo.Android.Card.Mounted

inductive Phase
  | absent
  | mounted
  | unmounted
  deriving DecidableEq

/-- The views with their submissions, where they are in their life, and what the manager keeps of them. -/
structure State where
  submit : Submit.State := {}
  phase : ViewId → Phase := fun _ => .absent
  managed : Managed := {}

namespace State

/-- `view.initialize` as `maybeInit` calls it. An accepted call builds a session. -/
def initializeView (s : State) (v : ViewId) (t : Triple) (activity : Bool) : State :=
  { s with
    submit := { s.submit with
      card := s.submit.card.initializeView v t.paymentSessionID t.paymentSessionSecret t.publicKey activity }
    managed := if !(s.submit.card.view v).hasInitialized && activity then s.managed.build v t else s.managed }

/-- A transaction: the setters, then `onAfterUpdateTransaction`. -/
def transaction (s : State) (v : ViewId) (ps : List PropUpdate) (activity : Bool) : State :=
  let s := { s with managed := s.managed.update v ps }
  match ViewManager.maybeInit (s.managed.tag v) with
  | none => s
  | some t => s.initializeView v t activity

def setPhase (s : State) (v : ViewId) (phase : Phase) : State := { s with phase := Function.update s.phase v phase }

end State

inductive Event
  | create (v : ViewId)
  | transaction (v : ViewId) (ps : List PropUpdate) (activity : Bool)
  | unmount (v : ViewId)
  | submit (e : Submit.Event)

/-- `initialize` is called by the manager only; `onDetachedFromWindow` drops no more than the listeners for heights. -/
def machine (Session : Set String) : Machine State Event where
  init := {}
  allowed s e := match e with
    | .create v => s.phase v = .absent
    | .transaction v ps _ => s.phase v = .mounted ∧ ∀ id, .paymentSessionID (some id) ∈ ps → id ∈ Session
    | .unmount v => s.phase v = .mounted
    | .submit e => (∀ v id secret key activity, e ≠ .card (.initializeView v id secret key activity)) ∧
        (Submit.machine Session).allowed s.submit e
  step s e := match e with
    | .create v => s.setPhase v .mounted
    | .transaction v ps activity => s.transaction v ps activity
    | .unmount v => s.setPhase v .unmounted
    | .submit e => { s with submit := (Submit.machine Session).step s.submit e }

/-! ## The property -/

namespace State

/-- `v` is mounted, and the `initialize` it accepted was for the session `id`. -/
def Shows (s : State) (v : ViewId) (id : String) : Prop :=
  s.phase v = .mounted ∧ (s.submit.card.view v).hasInitialized = true ∧
    (s.submit.card.view v).currentSessionData.map SessionData.id = some id

/-- `id` leads to `v`: it is registered under it, or a call of `submit` for it waits to reach it. -/
def Leads (s : State) (id : String) (v : ViewId) : Prop :=
  s.submit.card.getView id = some v ∨ ∃ p, (p, v) ∈ s.submit.posted ∧ s.submit.asked[p]? = some id

end State

/-- **What is no request id leads to views that show it.** -/
def LiveSessions (s : State) : Prop := ∀ id v, s.Leads id v → id ∉ s.submit.card.issued → s.Shows v id

/-- A transaction initialises a view only with an activity at hand, and a view is unmounted only when no session leads
to it. -/
def KeepsSessions (s : State) : Event → Prop
  | .create _ => True
  | .transaction v ps activity => (s.submit.card.view v).hasInitialized = false →
      ViewManager.maybeInit (ps.foldl ViewManager.set (s.managed.tag v)) ≠ none → activity = true
  | .unmount v => ∀ id, s.Leads id v → id ∈ s.submit.card.issued
  | .submit _ => True

/-! ## The card views below -/

def showing (w : CardView) : Bool × Option SessionData := (w.hasInitialized, w.currentSessionData)

/-- **Quiet steps** initialise no view and register request ids only. -/
structure Quiet (s t : Card.State) : Prop where
  showing : ∀ w, showing (t.view w) = showing (s.view w)
  issued : s.issued ⊆ t.issued
  registry : ∀ id v, t.getView id = some v → id ∉ t.issued → s.getView id = some v

theorem Quiet.refl (s : Card.State) : Quiet s s := ⟨fun _ => rfl, List.Subset.refl _, fun _ _ h _ => h⟩

theorem setView_showing (s : Card.State) {v : ViewId} {w : CardView} (h : showing w = showing (s.view v))
    (v' : ViewId) : showing ((s.setView v w).view v') = showing (s.view v') := by
  by_cases hv : v' = v
  · rw [hv, State.setView_view_self, h]
  · rw [State.setView_view_of_ne s w hv]

theorem quiet_handleSubmit (s : Card.State) (v : ViewId) (sessionData : SessionData) (r : String) (emits : Bool) :
    Quiet s (s.handleSubmit v sessionData r emits) := by
  have hview : (s.handleSubmit v sessionData r emits).view = (s.storeContinuation v r).view := by
    cases emits <;> rfl
  have hissued : (s.handleSubmit v sessionData r emits).issued = s.issued ++ [r] := State.emitEvent_issued _ _ _
  have hreg : (s.handleSubmit v sessionData r emits).registry = s.registry.put r v := State.emitEvent_registry _ _ _
  refine ⟨fun w => ?_, ?_, fun id v' hget hid => ?_⟩
  · rw [hview]
    exact setView_showing s (by rfl) w
  · rw [hissued]
    exact List.subset_append_left _ _
  · have hne : id ≠ r := by
      rintro rfl
      exact hid (hissued ▸ List.mem_append_right _ (List.mem_singleton_self _))
    rw [State.getView, hreg, LinkedMap.get_put_of_ne _ _ hne] at hget
    exact hget

theorem takeContinuation_showing (s : Card.State) (v : ViewId) (r : String) (success : Bool)
    (data : Option ReadableMap) (w : ViewId) :
    showing ((s.takeContinuation v r success data).1.view w) = showing (s.view w) := by
  unfold State.takeContinuation
  split
  · rfl
  · split <;> exact setView_showing s (by rfl) w

theorem quiet_handleSubmitResponse (s : Card.State) (r : String) (success : Bool) (data : Option ReadableMap) :
    Quiet s (CardModule.handleSubmitResponse s r success data) := by
  unfold CardModule.handleSubmitResponse
  split
  · exact Quiet.refl s
  · next v _ =>
      obtain ⟨hreg, -, hissued⟩ := State.takeContinuation_frame (s.unregisterView r) v r success data
      refine ⟨takeContinuation_showing (s.unregisterView r) v r success data, ?_, fun id w hget _ => ?_⟩
      · change s.issued ⊆ ((s.unregisterView r).takeContinuation v r success data).1.issued
        rw [hissued]
        exact List.Subset.refl _
      · change ((s.unregisterView r).takeContinuation v r success data).1.registry.get id = some w at hget
        rw [hreg] at hget
        change (s.registry.remove r).get id = some w at hget
        rw [LinkedMap.get_remove] at hget
        split at hget
        · cases hget
        · exact hget

theorem quiet_step (Session : Set String) (s : Card.State) (e : Card.Event)
    (he : ∀ v id secret key activity, e ≠ .initializeView v id secret key activity) :
    Quiet s ((Card.machine Session).step s e) := by
  cases e with
  | initializeView v id secret key activity => exact absurd rfl (he v id secret key activity)
  | finishCreation c created =>
      cases created with
      | true => exact ⟨setView_showing { s with creations := s.creations.erase c } (by rfl), List.Subset.refl _,
          fun _ _ h _ => h⟩
      | false => exact ⟨fun _ => rfl, List.Subset.refl _, fun _ _ h _ => h⟩
  | handleSubmit v raw r emits =>
      change Quiet s (s.onHandleSubmit v raw r emits)
      unfold State.onHandleSubmit
      split
      · exact Quiet.refl s
      · exact quiet_handleSubmit s v _ r emits
  | handleSubmitResponse r success data => exact quiet_handleSubmitResponse s r success data

/-- **`initialize` on a view that is not initialised.** -/
structure Initialized (s t : Card.State) (v : ViewId) (id : String) (activity : Bool) : Prop where
  registry : ∀ k, t.getView k = if k = id then some v else s.getView k
  hasInitialized : (t.view v).hasInitialized = activity
  session : (t.view v).currentSessionData.map SessionData.id = some id
  other : ∀ w, w ≠ v → t.view w = s.view w
  issued : t.issued = s.issued

theorem initialized_of_not {s : Card.State} {v : ViewId} (h : (s.view v).hasInitialized = false)
    (id secret key : String) (activity : Bool) :
    Initialized s (s.initializeView v id secret key activity) v id activity := by
  have hget : ∀ k, (s.registry.put id v).get k = if k = id then some v else s.registry.get k :=
    fun k => LinkedMap.get_put s.registry id k v
  rw [Card.State.initializeView, if_neg (by rw [h]; exact Bool.false_ne_true)]
  cases activity with
  | true =>
      refine ⟨hget, ?_, ?_, fun w hw => State.setView_view_of_ne s _ hw, rfl⟩
      · exact congrArg CardView.hasInitialized (State.setView_view_self s v _)
      · exact congrArg (fun w => w.currentSessionData.map SessionData.id) (State.setView_view_self s v _)
  | false =>
      refine ⟨hget, ?_, ?_, fun w hw => ?_, rfl⟩
      · exact congrArg CardView.hasInitialized (State.setView_view_self _ v _)
      · refine (congrArg (fun w => w.currentSessionData.map SessionData.id) (State.setView_view_self _ v _)).trans ?_
        exact congrArg (fun w => w.currentSessionData.map SessionData.id) (State.setView_view_self s v _)
      · exact (State.setView_view_of_ne _ _ hw).trans (State.setView_view_of_ne s _ hw)

/-! ## The invariant -/

/-- Payment session ids and request ids are apart, and a call that waits is one of those made. -/
structure Inv (Session : Set String) (s : State) : Prop where
  managed : s.managed.Inv
  given : ∀ v id, (current (s.managed.ends v)).paymentSessionID = some id → id ∈ Session
  issued : ∀ r ∈ s.submit.card.issued, r ∉ Session
  submit : Submit.Inv s.submit

variable {Session : Set String} {s : State}

theorem setAll_id {p : Props} {ps : List PropUpdate} {id : String} (h : (p.setAll ps).paymentSessionID = some id) :
    p.paymentSessionID = some id ∨ .paymentSessionID (some id) ∈ ps := by
  induction ps generalizing p with
  | nil => exact Or.inl h
  | cons u ps ih =>
      rcases ih h with hp | hin
      · cases u with
        | paymentSessionID value =>
            obtain rfl : value = some id := hp
            exact Or.inr List.mem_cons_self
        | paymentSessionSecret value => exact Or.inl hp
        | publicKey value => exact Or.inl hp
        | other => exact Or.inl hp
      · exact Or.inr (List.mem_cons_of_mem _ hin)

theorem inv_init : Inv Session (machine Session).init :=
  ⟨Managed.inv_init, (fun _ _ h => nomatch h), nofun, @Submit.inv_init Session⟩

theorem Inv.update (h : Inv Session s) (v : ViewId) {ps : List PropUpdate}
    (hps : ∀ id, .paymentSessionID (some id) ∈ ps → id ∈ Session) :
    Inv Session { s with managed := s.managed.update v ps } := by
  refine ⟨h.managed.update v ps, fun w id hid => ?_, h.issued, h.submit⟩
  change (current ((s.managed.update v ps).ends w)).paymentSessionID = some id at hid
  rw [Managed.ends_update] at hid
  split at hid
  · rw [current_append] at hid
    exact (setAll_id hid).elim (h.given v id) (hps id)
  · exact h.given w id hid

theorem Inv.mem_session (h : Inv Session s) {v : ViewId} {t : Triple}
    (ht : ViewManager.maybeInit (s.managed.tag v) = some t) : t.paymentSessionID ∈ Session := by
  rw [(h.managed.keeps v).maybeInit_eq] at ht
  exact h.given v _ (congrArg Props.paymentSessionID (Props.props_of_triple ht)).symm

theorem Inv.initializeView (h : Inv Session s) {v : ViewId} {t : Triple}
    (ht : ViewManager.maybeInit (s.managed.tag v) = some t) (activity : Bool) :
    Inv Session (s.initializeView v t activity) := by
  constructor
  case managed =>
    change Managed.Inv (if _ then _ else _)
    split
    · exact h.managed.build ht
    · exact h.managed
  case given =>
    intro w id hid
    refine h.given w id ?_
    change (current ((if _ then _ else _ : Managed).ends w)).paymentSessionID = some id at hid
    split at hid <;> exact hid
  case issued =>
    have hissued := (Card.State.initializeView_frame s.submit.card v t.paymentSessionID t.paymentSessionSecret
      t.publicKey activity).issued
    change ∀ r ∈ (s.submit.card.initializeView v _ _ _ activity).issued, r ∉ Session
    rw [hissued]
    exact h.issued
  case submit => exact ⟨h.submit.once, h.submit.acted, h.submit.resolved, h.submit.outcome⟩

theorem Inv.transaction (h : Inv Session s) (v : ViewId) {ps : List PropUpdate}
    (hps : ∀ id, .paymentSessionID (some id) ∈ ps → id ∈ Session) (activity : Bool) :
    Inv Session (s.transaction v ps activity) := by
  have hupdate := h.update v hps
  unfold State.transaction
  dsimp only
  split
  · exact hupdate
  · next t ht => exact hupdate.initializeView ht activity

theorem issued_step (s : Card.State) (e : Card.Event) (he : (Card.machine Session).allowed s e)
    (h : ∀ r ∈ s.issued, r ∉ Session) : ∀ r ∈ ((Card.machine Session).step s e).issued, r ∉ Session := by
  cases e with
  | initializeView v id secret key activity =>
      change ∀ r ∈ (s.initializeView v id secret key activity).issued, r ∉ Session
      rw [(Card.State.initializeView_frame s v id secret key activity).issued]
      exact h
  | finishCreation c created =>
      change ∀ r ∈ (s.finishCreation c created).issued, r ∉ Session
      rw [(Card.State.finishCreation_frame s c created).2.2.2.1]
      exact h
  | handleSubmit v raw r emits =>
      change ∀ r' ∈ (s.onHandleSubmit v raw r emits).issued, r' ∉ Session
      unfold Card.State.onHandleSubmit
      split
      · exact h
      · intro r' hr'
        rw [show (s.handleSubmit v _ r emits).issued = s.issued ++ [r] from Card.State.emitEvent_issued _ _ _] at hr'
        rcases List.mem_append.mp hr' with hr' | hr'
        · exact h r' hr'
        · rw [List.mem_singleton.mp hr']
          exact he.1
  | handleSubmitResponse r success data =>
      change ∀ r' ∈ (CardModule.handleSubmitResponse s r success data).issued, r' ∉ Session
      unfold CardModule.handleSubmitResponse
      split
      · exact h
      · next v _ =>
          have hissued := (Card.State.takeContinuation_frame (s.unregisterView r) v r success data).2.2
          change ∀ r' ∈ ((s.unregisterView r).takeContinuation v r success data).1.issued, r' ∉ Session
          rw [hissued]
          exact h

theorem inv_step (s : State) (e : Event) (h : Inv Session s) (ha : (machine Session).allowed s e) :
    Inv Session ((machine Session).step s e) := by
  cases e with
  | create v => exact ⟨h.managed, h.given, h.issued, h.submit⟩
  | transaction v ps activity => exact h.transaction v ha.2 activity
  | unmount v => exact ⟨h.managed, h.given, h.issued, h.submit⟩
  | submit e =>
      refine ⟨h.managed, h.given, ?_, Submit.inv_step s.submit e h.submit ha.2⟩
      have hcard : ∀ t : Submit.State, t.card = s.submit.card → ∀ r ∈ t.card.issued, r ∉ Session := by
        intro t ht
        rw [ht]
        exact h.issued
      cases e with
      | card e => exact issued_step s.submit.card e ha.2 h.issued
      | submit id =>
          refine hcard (s.submit.submit id) ?_
          rcases s.submit.submit_cases id with ⟨v, heq⟩ | ⟨r, heq⟩ <;> rw [heq]
      | runPosted p v =>
          refine hcard (s.submit.runPosted p v) ?_
          unfold Submit.State.runPosted Submit.State.submitFromJs
          split <;> rfl
      | runLaunched p session throws => exact hcard (s.submit.runLaunched p session throws) rfl

/-! ## Which steps keep the sessions live -/

section Step

variable {t : State}

theorem LiveSessions.mono (h : LiveSessions s)
    (hleads : ∀ id v, t.Leads id v → id ∉ t.submit.card.issued → s.Leads id v ∧ id ∉ s.submit.card.issued)
    (hshows : ∀ v id, s.Shows v id → t.Shows v id) : LiveSessions t := by
  intro id v hlead hid
  obtain ⟨hlead', hid'⟩ := hleads id v hlead hid
  exact hshows v id (h id v hlead' hid')

/-- The views stay as they are, and what waits is sent where the registry leads. -/
theorem LiveSessions.of_card (h : LiveSessions s) (hcard : t.submit.card = s.submit.card)
    (hphase : t.phase = s.phase) (hposted : ∀ p v id, (p, v) ∈ t.submit.posted → t.submit.asked[p]? = some id →
      s.Leads id v) : LiveSessions t := by
  refine h.mono (fun id v hlead hid => ⟨?_, hcard ▸ hid⟩) fun v id hs => ?_
  · rcases hlead with hreg | ⟨p, hp, hasked⟩
    · exact Or.inl (hcard ▸ hreg)
    · exact hposted p v id hp hasked
  · rw [State.Shows, hcard, hphase]
    exact hs

theorem submit_posted (s : Submit.State) (id : String) {p : Submit.PromiseId} {v : ViewId}
    (hp : (p, v) ∈ (s.submit id).posted) :
    (p, v) ∈ s.posted ∨ p = s.asked.length ∧ s.card.getView id = some v := by
  unfold Submit.State.submit at hp
  cases hget : s.card.getView id with
  | none =>
      simp only [hget] at hp
      exact Or.inl hp
  | some w =>
      simp only [hget] at hp
      rcases List.mem_append.mp hp with hp | hp
      · exact Or.inl hp
      · obtain ⟨rfl, rfl⟩ := Prod.mk.inj (List.mem_singleton.mp hp)
        exact Or.inr ⟨rfl, rfl⟩

theorem submit_asked (s : Submit.State) (id : String) :
    (s.submit id).asked = s.asked ++ [id] ∧ (s.submit id).card = s.card := by
  rcases s.submit_cases id with ⟨v, heq⟩ | ⟨r, heq⟩ <;> exact ⟨by rw [heq], by rw [heq]⟩

theorem LiveSessions.submit (h : LiveSessions s) (hinv : Inv Session s) {e : Submit.Event}
    (he : ∀ v id secret key activity, e ≠ .card (.initializeView v id secret key activity)) :
    LiveSessions { s with submit := (Submit.machine Session).step s.submit e } := by
  cases e with
  | card e =>
      have hquiet := quiet_step Session s.submit.card e fun v id secret key activity heq =>
        he v id secret key activity (congrArg Submit.Event.card heq)
      refine h.mono (fun id v hlead hid => ⟨?_, fun hin => hid (hquiet.issued hin)⟩) fun v id hs => ⟨hs.1, ?_⟩
      · exact hlead.imp_left fun hreg => hquiet.registry id v hreg hid
      · have hshow := hquiet.showing v
        rw [showing, showing, Prod.mk.injEq] at hshow
        change (((Card.machine Session).step s.submit.card e).view v).hasInitialized = true ∧
          (((Card.machine Session).step s.submit.card e).view v).currentSessionData.map SessionData.id = some id
        rw [hshow.1, hshow.2]
        exact hs.2
  | submit id =>
      obtain ⟨hasked, hcard⟩ := submit_asked s.submit id
      refine h.of_card hcard rfl fun p v id' hp hid' => ?_
      change (s.submit.submit id).asked[p]? = some id' at hid'
      rw [hasked] at hid'
      rcases submit_posted s.submit id hp with hp | ⟨rfl, hget⟩
      · have hlt := List.mem_range.mp (hinv.submit.once.subset (List.mem_append_left _ (List.mem_map_of_mem hp)))
        rw [List.getElem?_append_left hlt] at hid'
        exact Or.inr ⟨p, hp, hid'⟩
      · rw [List.getElem?_concat_length] at hid'
        exact Or.inl (Option.some.inj hid' ▸ hget)
  | runPosted p v =>
      have hspec := Submit.State.runPosted_spec s.submit p v
      have hcard : (s.submit.runPosted p v).card = s.submit.card := by
        unfold Submit.State.runPosted Submit.State.submitFromJs
        split <;> rfl
      refine h.of_card hcard rfl fun q w id hq hid => ?_
      change (q, w) ∈ (s.submit.runPosted p v).posted at hq
      change (s.submit.runPosted p v).asked[q]? = some id at hid
      rw [hspec.posted] at hq
      rw [hspec.asked] at hid
      exact Or.inr ⟨q, List.mem_of_mem_erase hq, hid⟩
  | runLaunched p session throws => exact h.of_card rfl rfl fun q w id hq hid => Or.inr ⟨q, hq, hid⟩

/-- **An initialisation** keeps the sessions live exactly if there is an activity: without one it leaves the view
registered, and not initialised. -/
theorem live_initializeView (h : LiveSessions s) {v : ViewId} {t : Triple} (hv : s.phase v = .mounted)
    (ht : t.paymentSessionID ∉ s.submit.card.issued) (hinit : (s.submit.card.view v).hasInitialized = false)
    (activity : Bool) : LiveSessions (s.initializeView v t activity) ↔ activity = true := by
  have hspec := initialized_of_not hinit t.paymentSessionID t.paymentSessionSecret t.publicKey activity
  constructor
  · intro hlive
    have hreg : (s.initializeView v t activity).submit.card.getView t.paymentSessionID = some v :=
      (hspec.registry _).trans (if_pos rfl)
    exact hspec.hasInitialized.symm.trans (hlive _ v (Or.inl hreg) (hspec.issued ▸ ht)).2.1
  · intro hact id w hlead hid
    have hid' : id ∉ s.submit.card.issued := hspec.issued ▸ hid
    have hold : s.Leads id w → (s.initializeView v t activity).Shows w id := by
      intro hlead'
      have hshow := h id w hlead' hid'
      have hne : w ≠ v := by
        rintro rfl
        exact Bool.false_ne_true (hinit.symm.trans hshow.2.1)
      refine ⟨hshow.1, ?_⟩
      change ((s.submit.card.initializeView v _ _ _ activity).view w).hasInitialized = true ∧
        ((s.submit.card.initializeView v _ _ _ activity).view w).currentSessionData.map SessionData.id = some id
      rw [hspec.other w hne]
      exact hshow.2
    rcases hlead with hreg | hposted
    · change (s.submit.card.initializeView v _ _ _ activity).getView id = some w at hreg
      rw [hspec.registry] at hreg
      split at hreg
      · next heq =>
          obtain rfl := Option.some.inj hreg
          exact ⟨hv, hspec.hasInitialized.trans hact, heq ▸ hspec.session⟩
      · exact hold (Or.inl hreg)
    · exact hold (Or.inr hposted)

theorem live_transaction (hinv : Inv Session s) (h : LiveSessions s) {v : ViewId} (hv : s.phase v = .mounted)
    {ps : List PropUpdate} (hps : ∀ id, .paymentSessionID (some id) ∈ ps → id ∈ Session) (activity : Bool) :
    LiveSessions (s.transaction v ps activity) ↔ KeepsSessions s (.transaction v ps activity) := by
  have hupdate := hinv.update v hps
  have hlive : LiveSessions { s with managed := s.managed.update v ps } := h
  have htag : (s.managed.update v ps).tag v = ps.foldl ViewManager.set (s.managed.tag v) :=
    Function.update_self _ _ _
  unfold State.transaction KeepsSessions
  dsimp only
  rw [htag]
  cases hmay : ViewManager.maybeInit (ps.foldl ViewManager.set (s.managed.tag v)) with
  | none => exact iff_of_true hlive fun _ hne => absurd rfl hne
  | some t =>
      dsimp only
      have hid : t.paymentSessionID ∈ Session := hupdate.mem_session (by rw [← hmay, ← htag])
      cases hinit : (s.submit.card.view v).hasInitialized with
      | true =>
          refine iff_of_true (hlive.of_card ?_ rfl fun p w id hp ha => Or.inr ⟨p, hp, ha⟩) nofun
          exact if_pos hinit
      | false =>
          refine (live_initializeView hlive hv (fun hin => hinv.issued _ hin hid) hinit activity).trans ?_
          exact ⟨fun hact _ _ => hact, fun himp => himp rfl (Option.some_ne_none t)⟩

theorem live_unmount (h : LiveSessions s) (v : ViewId) :
    LiveSessions (s.setPhase v .unmounted) ↔ KeepsSessions s (.unmount v) := by
  constructor
  · intro hlive id hlead
    by_contra hid
    have hphase : Function.update s.phase v .unmounted v = .mounted := (hlive id v hlead hid).1
    rw [Function.update_self] at hphase
    cases hphase
  · intro hkeep id w hlead hid
    have hne : w ≠ v := by
      rintro rfl
      exact hid (hkeep id hlead)
    have hshow := h id w hlead hid
    exact ⟨(Function.update_of_ne hne _ _).trans hshow.1, hshow.2⟩

theorem live_step (s : State) (e : Event) (hinv : Inv Session s) (h : LiveSessions s)
    (ha : (machine Session).allowed s e) :
    LiveSessions ((machine Session).step s e) ↔ KeepsSessions s e := by
  cases e with
  | create v =>
      refine iff_of_true (h.mono (fun _ _ hlead hid => ⟨hlead, hid⟩) fun w id hs => ⟨?_, hs.2⟩) trivial
      change Function.update s.phase v .mounted w = .mounted
      rw [Function.update_apply]
      split
      · rfl
      · exact hs.1
  | transaction v ps activity => exact live_transaction hinv h ha.1 ha.2 activity
  | unmount v => exact live_unmount h v
  | submit e => exact iff_of_true (h.submit hinv ha.1) trivial

end Step

/-- **A run keeps the sessions live throughout exactly if** it initialises views only with an activity at hand and
unmounts only views that no session leads to. -/
theorem live_sessions_throughout_iff (Session : Set String) (es : List Event)
    (h : (machine Session).Admits (machine Session).init es) :
    (machine Session).Throughout LiveSessions (machine Session).init es ↔
      ((machine Session).restrict KeepsSessions).Admits (machine Session).init es :=
  Machine.throughout_iff_restrict inv_step live_step inv_init
    (by rintro id v (hreg | ⟨p, hp, -⟩) hid <;> contradiction) h

def sampleProps (id : String) : List PropUpdate :=
  [.paymentSessionID (some id), .paymentSessionSecret (some "pss"), .publicKey (some "pk")]

theorem sampleProps_mem {Session : Set String} (id : String) (h : id ∈ Session) :
    ∀ id', .paymentSessionID (some id') ∈ sampleProps id → id' ∈ Session := by
  intro id' hin
  obtain rfl : id' = id := by simpa [sampleProps] using hin
  exact h

/-- A view makes way for another one of its session, which takes its place in the registry first. -/
theorem live_sessions_throughout_remount :
    let M := machine {"ps_1"}
    let es : List Event := [.create 0, .transaction 0 (sampleProps "ps_1") true, .create 1,
      .transaction 1 (sampleProps "ps_1") true, .unmount 0, .submit (.submit "ps_1")]
    M.Throughout LiveSessions M.init es := by
  intro M es
  have hprops : ∀ id, .paymentSessionID (some id) ∈ sampleProps "ps_1" → id ∈ ({"ps_1"} : Set String) :=
    sampleProps_mem "ps_1" rfl
  have hadm : M.Admits M.init es :=
    ⟨rfl, ⟨by decide, hprops⟩, rfl, ⟨by decide, hprops⟩, rfl, ⟨nofun, trivial⟩, trivial⟩
  refine (live_sessions_throughout_iff {"ps_1"} es hadm).mpr ?_
  obtain ⟨h1, h2, h3, h4, h5, h6, -⟩ := hadm
  refine ⟨⟨h1, trivial⟩, ⟨h2, fun _ _ => rfl⟩, ⟨h3, trivial⟩, ⟨h4, fun _ _ => rfl⟩, ⟨h5, ?_⟩, ⟨h6, trivial⟩, trivial⟩
  rintro id (hreg | ⟨p, hp, -⟩)
  · have hother : ∀ x ∈ (M.run M.init (es.take 4)).submit.card.registry.entries, x.2 ≠ 0 := by decide
    exact absurd rfl (hother _ ((LinkedMap.get_eq_some_iff _ _ _).mp hreg))
  · cases hp

/-- **An unmounted view keeps its session**, and a submission for it waits to reach the view; and a view that gave up
on one session and shows another is still registered under the first. -/
theorem unmounted_view_registered :
    let M := machine {"ps_1", "ps_2"}
    let s := M.run M.init [.create 0, .transaction 0 (sampleProps "ps_1") true, .unmount 0, .submit (.submit "ps_1")]
    let t := M.run M.init [.create 0, .transaction 0 (sampleProps "ps_1") false,
      .transaction 0 (sampleProps "ps_2") true]
    (M.Reachable s ∧ s.phase 0 = .unmounted ∧ s.submit.card.getView "ps_1" = some 0 ∧ s.submit.posted = [(0, 0)] ∧
        s.submit.card.issued = [] ∧ ¬ LiveSessions s) ∧
      M.Reachable t ∧ t.submit.card.getView "ps_1" = some 0 ∧ t.Shows 0 "ps_2" ∧ ¬ LiveSessions t := by
  intro M s t
  have h1 : ∀ id, .paymentSessionID (some id) ∈ sampleProps "ps_1" → id ∈ ({"ps_1", "ps_2"} : Set String) :=
    sampleProps_mem "ps_1" (Or.inl rfl)
  have h2 : ∀ id, .paymentSessionID (some id) ∈ sampleProps "ps_2" → id ∈ ({"ps_1", "ps_2"} : Set String) :=
    sampleProps_mem "ps_2" (Or.inr rfl)
  have hs : s.submit.card.getView "ps_1" = some 0 := by decide
  have ht : t.submit.card.getView "ps_1" = some 0 := by decide
  refine ⟨⟨Machine.Reachable.of_admits ⟨rfl, ⟨by decide, h1⟩, rfl, ⟨nofun, trivial⟩, trivial⟩, by decide, hs,
    by decide, by decide, fun h => ?_⟩,
    Machine.Reachable.of_admits ⟨rfl, ⟨by decide, h1⟩, ⟨by decide, h2⟩, trivial⟩, ht,
    ⟨by decide, by decide, by decide⟩, fun h => ?_⟩
  · exact absurd (h "ps_1" 0 (Or.inl hs) (by decide)).1 (by decide)
  · exact absurd (h "ps_1" 0 (Or.inl ht) (by decide)).2.2 (by decide)

end FlowDemo.Android.Card.Mounted
