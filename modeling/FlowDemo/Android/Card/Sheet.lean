import FlowDemo.Sheet.Commits
import FlowDemo.Android.Card.Mounted

/-!
# The card in the sheet on Android

`App` with its commits above, the card views below. The renderer carries out what the commits ask for on the UI thread,
in order and later; the components, the requests, their responses and the calls of `submit` go on meanwhile.

* `Tracks`: the views have the phases and the props that the operations carried out so far come to;
* `sessions_stay_apart`: the SDK, the requests and the submissions are about sessions that the backend created, and a
  submission is one of the session it was asked for;
* `pay_reaches_card`: the view of the card on screen is the one that a press of Pay reaches.
-/

namespace FlowDemo.Android.Card.Sheet

open Js (JsonText)
open FlowDemo.Sheet (Op Card Host Mounted host outcome outcome_append Created)

structure State where
  sheet : FlowDemo.Sheet.State := {}
  performed : Nat := 0
  native : Mounted.State := {}

/-- An operation of the renderer as the view manager sees it. -/
def carryOut (activity : Bool) : Op → Mounted.Event
  | .create v => .create v
  | .transaction v ps => .transaction v ps activity
  | .unmount v => .unmount v

/-- `App` calls `submit` with the ids of its sessions, and its listeners answer the requests they heard. -/
def FromJs (Session : Set String) (s : Card.State) : Submit.Event → Prop
  | .submit id => id ∈ Session
  | .card (.handleSubmitResponse r _ _) => r ∈ s.issued
  | _ => True

inductive Event
  | sheet (e : FlowDemo.Sheet.Event)
  | perform (activity : Bool)
  | native (e : Submit.Event)

namespace State

def perform (s : State) (Session : Set String) (activity : Bool) : State :=
  match s.sheet.ops[s.performed]? with
  | none => s
  | some op => { s with
      performed := s.performed + 1
      native := (Mounted.machine Session).step s.native (carryOut activity op) }

/-- What was carried out so far comes to. -/
def host (s : State) : Host := s.sheet.carriedOut s.performed

end State

def machine (J : JsonText) (toLowerCase : String → String) (Session : Set String) : Machine State Event where
  init := {}
  allowed s e := match e with
    | .sheet e => (FlowDemo.Sheet.machine J toLowerCase .android Session).allowed s.sheet e
    | .perform _ => s.performed < s.sheet.ops.length
    | .native e => (Mounted.machine Session).allowed s.native (.submit e) ∧ FromJs Session s.native.submit.card e
  step s e := match e with
    | .sheet e => { s with sheet := (FlowDemo.Sheet.machine J toLowerCase .android Session).step s.sheet e }
    | .perform activity => s.perform Session activity
    | .native e => { s with native := (Mounted.machine Session).step s.native (.submit e) }

/-! ## The views follow the operations -/

/-- The phase of a view as the renderer knows it. -/
def phaseOf : FlowDemo.Sheet.Phase → Mounted.Phase
  | .absent => .absent
  | .mounted => .mounted
  | .unmounted => .unmounted

/-- **The views are what the operations carried out made them.** -/
structure Tracks (Session : Set String) (s : State) : Prop where
  sheet : FlowDemo.Sheet.Inv .android Session s.sheet
  performed : s.performed ≤ s.sheet.ops.length
  phase : ∀ v, s.native.phase v = phaseOf (s.host.phase v)
  ends : ∀ v, s.native.managed.ends v = s.host.ends v
  native : Mounted.Inv Session s.native

section

variable {J : JsonText} {toLowerCase : String → String} {Session : Set String} {s : State}

theorem Tracks.init (J : JsonText) (toLowerCase : String → String) (Session : Set String) :
    Tracks Session (machine J toLowerCase Session).init :=
  ⟨FlowDemo.Sheet.inv_init, Nat.le_refl _, fun _ => rfl, fun _ => rfl, Mounted.inv_init⟩

theorem host_sheet (J : JsonText) (toLowerCase : String → String) (Session : Set String)
    (h : s.performed ≤ s.sheet.ops.length) (e : FlowDemo.Sheet.Event) :
    ((machine J toLowerCase Session).step s (.sheet e)).host = s.host :=
  FlowDemo.Sheet.carriedOut_step J toLowerCase .android Session e h

theorem Tracks.sheetStep (h : Tracks Session s) {e : FlowDemo.Sheet.Event}
    (ha : (FlowDemo.Sheet.machine J toLowerCase .android Session).allowed s.sheet e) :
    Tracks Session ((machine J toLowerCase Session).step s (.sheet e)) := by
  have hhost := host_sheet J toLowerCase Session h.performed e
  refine ⟨FlowDemo.Sheet.inv_step s.sheet e h.sheet ha, ?_, fun v => ?_, fun v => ?_, h.native⟩
  · exact h.performed.trans (FlowDemo.Sheet.ops_step J toLowerCase .android Session s.sheet e).length_le
  · rw [hhost]
    exact h.phase v
  · rw [hhost]
    exact h.ends v

/-- **The next operation** fits the views. -/
theorem Tracks.next (h : Tracks Session s) (activity : Bool) (hlt : s.performed < s.sheet.ops.length) :
    ∃ op, s.sheet.ops[s.performed]? = some op ∧ (s.perform Session activity).host = s.host.perform op ∧
      (host Session).allowed s.host op ∧ (Mounted.machine Session).allowed s.native (carryOut activity op) := by
  have hget : s.sheet.ops[s.performed]? = some s.sheet.ops[s.performed] := List.getElem?_eq_getElem hlt
  have hallowed := h.sheet.next hget
  refine ⟨_, hget, ?_, hallowed, ?_⟩
  · unfold State.perform
    rw [hget]
    exact FlowDemo.Sheet.State.carriedOut_succ hget
  · cases hop : s.sheet.ops[s.performed] with
    | create v =>
        rw [hop] at hallowed
        exact (h.phase v).trans (congrArg phaseOf hallowed)
    | transaction v ps =>
        rw [hop] at hallowed
        exact ⟨(h.phase v).trans (congrArg phaseOf hallowed.1), hallowed.2⟩
    | unmount v =>
        rw [hop] at hallowed
        exact (h.phase v).trans (congrArg phaseOf hallowed)

theorem ends_transaction (n : Mounted.State) (v : ViewId) (ps : List PropUpdate) (activity : Bool) (w : ViewId) :
    (n.transaction v ps activity).managed.ends w =
      if w = v then n.managed.ends v ++ [(current (n.managed.ends v)).setAll ps] else n.managed.ends w := by
  rw [← Managed.ends_update]
  unfold Mounted.State.transaction
  dsimp only
  split
  · rfl
  · change (Managed.ends (if _ then _ else _)) w = _
    split <;> rfl

theorem Tracks.perform (h : Tracks Session s) (activity : Bool) (hlt : s.performed < s.sheet.ops.length) :
    Tracks Session (s.perform Session activity) := by
  obtain ⟨op, hget, hhost, -, ha⟩ := h.next activity hlt
  have hstep : s.perform Session activity = { s with
      performed := s.performed + 1
      native := (Mounted.machine Session).step s.native (carryOut activity op) } := by
    unfold State.perform
    rw [hget]
  have hnative : Mounted.Inv Session (s.perform Session activity).native := by
    rw [hstep]
    exact Mounted.inv_step s.native _ h.native ha
  refine ⟨hstep ▸ h.sheet, hstep ▸ hlt, fun v => ?_, fun v => ?_, hnative⟩
  · rw [hhost, hstep]
    cases op with
    | create w =>
        rw [FlowDemo.Sheet.Host.phase_create]
        change Function.update s.native.phase w .mounted v = _
        rw [Function.update_apply, h.phase v]
        split <;> rfl
    | transaction w ps =>
        rw [FlowDemo.Sheet.Host.phase_transaction]
        change (s.native.transaction w ps activity).phase v = _
        unfold Mounted.State.transaction
        dsimp only
        split <;> exact h.phase v
    | unmount w =>
        rw [FlowDemo.Sheet.Host.phase_unmount]
        change Function.update s.native.phase w .unmounted v = _
        rw [Function.update_apply, h.phase v]
        split <;> rfl
  · rw [hhost, hstep]
    cases op with
    | create w => exact h.ends v
    | transaction w ps =>
        rw [FlowDemo.Sheet.Host.ends_transaction]
        exact (ends_transaction s.native w ps activity v).trans (by rw [h.ends, h.ends])
    | unmount w => exact h.ends v

theorem Tracks.step (h : Tracks Session s) {e : Event} (ha : (machine J toLowerCase Session).allowed s e) :
    Tracks Session ((machine J toLowerCase Session).step s e) := by
  cases e with
  | sheet e => exact h.sheetStep ha
  | perform activity => exact h.perform activity ha
  | native e => exact ⟨h.sheet, h.performed, h.phase, h.ends, Mounted.inv_step s.native (.submit e) h.native ha.1⟩

end

/-! ## What the views are about -/

def Named (E : ViewId → List Props) (v : ViewId) (id : String) : Prop := ∃ p ∈ E v, p.paymentSessionID = some id

/-- The id and the secret stood at the end of a transaction of `v`. -/
def Stood (E : ViewId → List Props) (v : ViewId) (d : SessionData) : Prop :=
  ∃ t : Triple, t.props ∈ E v ∧ d.id = t.paymentSessionID ∧ d.secret = t.paymentSessionSecret

/-- **Every view is about sessions it was given**: registered, initialised, with a component, and in its requests. -/
structure About (Session : Set String) (E : ViewId → List Props) (c : Card.State) : Prop where
  registry : ∀ id ∈ Session, ∀ v, c.getView id = some v → Named E v id
  creations : ∀ x ∈ c.creations, Named E x.view x.paymentSessionID
  action : ∀ v session, (c.view v).submitAction = .component session → Named E v session
  data : ∀ v d, (c.view v).currentSessionData = some d → Stood E v d
  emitted : ∀ event ∈ c.emitted, ∃ v, Stood E v event.sessionData

/-- Every call of `submit` that waits goes to a view of its session; every submission is of the session asked for. -/
structure Apart (Session : Set String) (E : ViewId → List Props) (n : Submit.State) : Prop where
  card : About Session E n.card
  posted : ∀ p v, (p, v) ∈ n.posted → ∃ id, n.asked[p]? = some id ∧ Named E v id
  launched : ∀ x ∈ n.launched, n.asked[x.1]? = some x.2
  started : ∀ x ∈ n.started, n.asked[x.1]? = some x.2.1

section

variable {Session : Set String} {E E' : ViewId → List Props} {c : Card.State} {n : Submit.State}

theorem setView_congr {α : Type} (f : CardView → α) {v : ViewId} {w : CardView} (h : f w = f (c.view v))
    (v' : ViewId) : f ((c.setView v w).view v') = f (c.view v') := by
  by_cases hv : v' = v
  · rw [hv, State.setView_view_self, h]
  · rw [State.setView_view_of_ne c w hv]

theorem About.mono (h : About Session E c) (hsub : ∀ v, E v ⊆ E' v) : About Session E' c := by
  have hnamed : ∀ {v id}, Named E v id → Named E' v id := fun ⟨p, hp, hid⟩ => ⟨p, hsub _ hp, hid⟩
  have hstood : ∀ {v d}, Stood E v d → Stood E' v d := fun ⟨t, ht, hd⟩ => ⟨t, hsub _ ht, hd⟩
  refine ⟨fun id hid v hv => hnamed (h.registry id hid v hv), fun x hx => hnamed (h.creations x hx),
    fun v session hs => hnamed (h.action v session hs), fun v d hd => hstood (h.data v d hd), fun event he => ?_⟩
  obtain ⟨v, hv⟩ := h.emitted event he
  exact ⟨v, hstood hv⟩

theorem About.initializeView (h : About Session E c) {v : ViewId} {t : Triple} (ht : t.props ∈ E v)
    (activity : Bool) : About Session E
      (c.initializeView v t.paymentSessionID t.paymentSessionSecret t.publicKey activity) := by
  have hnamed : Named E v t.paymentSessionID := ⟨_, ht, rfl⟩
  have hregistry : ∀ id ∈ Session, ∀ w, (c.registry.put t.paymentSessionID v).get id = some w → Named E w id := by
    intro id hid w hw
    rw [LinkedMap.get_put] at hw
    split at hw
    · next heq =>
        rw [← Option.some.inj hw, heq]
        exact hnamed
    · exact h.registry id hid w hw
  have haction : ∀ (d : CardView), d.submitAction = (c.view v).submitAction → ∀ w session,
      ((c.setView v d).view w).submitAction = .component session → Named E w session := by
    intro d hd w session hs
    rw [setView_congr CardView.submitAction hd] at hs
    exact h.action w session hs
  have hdata : ∀ (d : CardView), d.currentSessionData =
      some { id := t.paymentSessionID, secret := t.paymentSessionSecret } → ∀ w x,
      ((c.setView v d).view w).currentSessionData = some x → Stood E w x := by
    intro d hd w x hx
    by_cases hw : w = v
    · rw [hw, State.setView_view_self, hd] at hx
      rw [hw, ← Option.some.inj hx]
      exact ⟨t, ht, rfl, rfl⟩
    · rw [State.setView_view_of_ne c d hw] at hx
      exact h.data w x hx
  unfold Card.State.initializeView
  split
  · exact h
  · cases activity with
    | true =>
        refine ⟨hregistry, fun x hx => ?_, haction _ (by rfl), hdata _ (by rfl), h.emitted⟩
        rcases List.mem_append.mp hx with hx | hx
        · exact h.creations x hx
        · rw [List.mem_singleton.mp hx]
          exact hnamed
    | false =>
        -- only `hasInitialized` is taken back
        refine ⟨hregistry, h.creations, fun w session hs => ?_, fun w x hx => ?_, h.emitted⟩
        · refine haction _ (by rfl) w session ((setView_congr CardView.submitAction ?_ w).symm.trans hs)
          rfl
        · refine hdata _ (by rfl) w x ((setView_congr CardView.currentSessionData ?_ w).symm.trans hx)
          rfl

theorem takeContinuation_action (c : Card.State) (v : ViewId) (r : String) (success : Bool)
    (data : Option ReadableMap) (w : ViewId) :
    ((c.takeContinuation v r success data).1.view w).submitAction = (c.view w).submitAction := by
  unfold State.takeContinuation
  split
  · rfl
  · split <;> exact setView_congr CardView.submitAction (by rfl) w

theorem takeContinuation_traces (c : Card.State) (v : ViewId) (r : String) (success : Bool)
    (data : Option ReadableMap) : (c.takeContinuation v r success data).1.emitted = c.emitted ∧
      (c.takeContinuation v r success data).1.creations = c.creations := by
  unfold State.takeContinuation
  split
  · exact ⟨rfl, rfl⟩
  · split <;> exact ⟨rfl, rfl⟩

theorem About.finishCreation (h : About Session E c) {x : Creation} (hx : x ∈ c.creations) (created : Bool)
    (hregistry : ∀ id ∈ Session, ∀ v, (c.finishCreation x created).getView id = some v → Named E v id)
    (hdata : ∀ v d, ((c.finishCreation x created).view v).currentSessionData = some d → Stood E v d) :
    About Session E (c.finishCreation x created) := by
  cases created with
  | false => exact ⟨hregistry, fun y hy => h.creations y (List.mem_of_mem_erase hy), h.action, hdata, h.emitted⟩
  | true =>
      refine ⟨hregistry, fun y hy => h.creations y (List.mem_of_mem_erase hy), fun v session hs => ?_, hdata,
        h.emitted⟩
      by_cases hv : v = x.view
      · have hact : ((State.setView { c with creations := c.creations.erase x } x.view _).view v).submitAction =
            .component session := hs
        rw [hv, State.setView_view_self] at hact
        rw [hv, ← SubmitAction.component.inj hact]
        exact h.creations x hx
      · refine h.action v session ?_
        rw [← hs]
        exact congrArg CardView.submitAction
          (State.setView_view_of_ne { c with creations := c.creations.erase x } _ hv).symm

theorem About.onHandleSubmit (h : About Session E c) (v : ViewId) (raw r : String) (emits : Bool)
    (hregistry : ∀ id ∈ Session, ∀ w, (c.onHandleSubmit v raw r emits).getView id = some w → Named E w id)
    (hdata : ∀ w d, ((c.onHandleSubmit v raw r emits).view w).currentSessionData = some d → Stood E w d) :
    About Session E (c.onHandleSubmit v raw r emits) := by
  cases hbase : (c.view v).currentSessionData with
  | none =>
      have hsame : c.onHandleSubmit v raw r emits = c := by
        unfold State.onHandleSubmit
        rw [hbase]
      rw [hsame]
      exact h
  | some base =>
      have hstep : c.onHandleSubmit v raw r emits =
          c.handleSubmit v { base with sessionData := some raw } r emits := by
        unfold State.onHandleSubmit
        rw [hbase]
      rw [hstep] at hregistry hdata ⊢
      refine ⟨hregistry, ?_, fun w session hs => h.action w session (Eq.trans ?_ hs), hdata, ?_⟩
      · cases emits <;> exact h.creations
      · cases emits <;> exact (setView_congr CardView.submitAction (by rfl) w).symm
      · cases emits with
        | false => exact h.emitted
        | true =>
            intro event hevent
            rcases List.mem_append.mp hevent with hevent | hevent
            · exact h.emitted event hevent
            · obtain ⟨t, ht, hid, hsecret⟩ := h.data v base hbase
              rw [List.mem_singleton.mp hevent]
              exact ⟨v, t, ht, hid, hsecret⟩

theorem About.handleSubmitResponse (h : About Session E c) (r : String) (success : Bool) (data : Option ReadableMap)
    (hregistry : ∀ id ∈ Session, ∀ w,
      (CardModule.handleSubmitResponse c r success data).getView id = some w → Named E w id)
    (hdata : ∀ w d,
      ((CardModule.handleSubmitResponse c r success data).view w).currentSessionData = some d → Stood E w d) :
    About Session E (CardModule.handleSubmitResponse c r success data) := by
  cases hget : c.getView r with
  | none =>
      have hsame : CardModule.handleSubmitResponse c r success data = c := by
        unfold CardModule.handleSubmitResponse
        rw [hget]
      rw [hsame]
      exact h
  | some v =>
      have hstep : CardModule.handleSubmitResponse c r success data =
          ((c.unregisterView r).takeContinuation v r success data).1 := by
        unfold CardModule.handleSubmitResponse
        rw [hget]
        rfl
      obtain ⟨hemitted, hcreations⟩ := takeContinuation_traces (c.unregisterView r) v r success data
      rw [hstep] at hregistry hdata ⊢
      refine ⟨hregistry, hcreations ▸ h.creations, fun w session hs => h.action w session (Eq.trans ?_ hs), hdata,
        hemitted ▸ h.emitted⟩
      exact (takeContinuation_action (c.unregisterView r) v r success data w).symm

/-- What the rest does to the traces. It leaves the views their data, and files no view under a session. -/
theorem About.rest (h : About Session E c) {e : Card.Event}
    (he : ∀ v id secret key activity, e ≠ .initializeView v id secret key activity)
    (ha : (Card.machine Session).allowed c e)
    (hissued : ∀ r ∈ ((Card.machine Session).step c e).issued, r ∉ Session) :
    About Session E ((Card.machine Session).step c e) := by
  have hquiet := Mounted.quiet_step Session c e he
  have hregistry : ∀ id ∈ Session, ∀ v, ((Card.machine Session).step c e).getView id = some v → Named E v id :=
    fun id hid v hv => h.registry id hid v (hquiet.registry id v hv fun hin => hissued id hin hid)
  have hdata : ∀ v d, (((Card.machine Session).step c e).view v).currentSessionData = some d → Stood E v d := by
    intro v d hd
    have hshow := congrArg Prod.snd (hquiet.showing v)
    exact h.data v d (hshow.symm.trans hd)
  cases e with
  | initializeView v id secret key activity => exact absurd rfl (he v id secret key activity)
  | finishCreation x created => exact h.finishCreation ha created hregistry hdata
  | handleSubmit v raw r emits => exact h.onHandleSubmit v raw r emits hregistry hdata
  | handleSubmitResponse r success data => exact h.handleSubmitResponse r success data hregistry hdata

/-! ## The submissions -/

theorem Apart.mono (h : Apart Session E n) (hsub : ∀ v, E v ⊆ E' v) : Apart Session E' n := by
  refine ⟨h.card.mono hsub, fun p v hp => ?_, h.launched, h.started⟩
  obtain ⟨id, hid, q, hq, hname⟩ := h.posted p v hp
  exact ⟨id, hid, q, hsub v hq, hname⟩

theorem getElem?_asked {asked : List String} {p : Nat} {id : String} (h : asked[p]? = some id) (id' : String) :
    (asked ++ [id'])[p]? = some id := by
  rw [List.getElem?_append_left (List.getElem?_eq_some_iff.mp h).1]
  exact h

theorem Apart.submit (h : Apart Session E n) {id : String} (hid : id ∈ Session) : Apart Session E (n.submit id) := by
  obtain ⟨hasked, hcard⟩ := Mounted.submit_asked n id
  have htraces : (n.submit id).launched = n.launched ∧ (n.submit id).started = n.started := by
    rcases n.submit_cases id with ⟨v, heq⟩ | ⟨r, heq⟩ <;> rw [heq] <;> exact ⟨rfl, rfl⟩
  refine ⟨hcard ▸ h.card, fun p v hp => ?_, fun x hx => ?_, fun x hx => ?_⟩
  · rw [hasked]
    rcases Mounted.submit_posted n id hp with hp | ⟨rfl, hget⟩
    · obtain ⟨id', hid', hname⟩ := h.posted p v hp
      exact ⟨id', getElem?_asked hid' id, hname⟩
    · exact ⟨id, List.getElem?_concat_length, h.card.registry id hid v hget⟩
  · rw [hasked]
    exact getElem?_asked (h.launched x (htraces.1 ▸ hx)) id
  · rw [hasked]
    exact getElem?_asked (h.started x (htraces.2 ▸ hx)) id

theorem runPosted_card (n : Submit.State) (p : Submit.PromiseId) (v : ViewId) : (n.runPosted p v).card = n.card := by
  unfold Submit.State.runPosted Submit.State.submitFromJs
  split <;> rfl

/-- **The block of a call launches a component of the session asked for**: its view was given one id only. -/
theorem Apart.runPosted (h : Apart Session E n)
    (hone : ∀ v, ∀ p ∈ E v, ∀ q ∈ E v, p.paymentSessionID = q.paymentSessionID) {p : Submit.PromiseId} {v : ViewId}
    (hp : (p, v) ∈ n.posted) : Apart Session E (n.runPosted p v) := by
  have hspec := Submit.State.runPosted_spec n p v
  refine ⟨runPosted_card n p v ▸ h.card, fun q w hq => ?_, fun x hx => ?_, fun x hx => ?_⟩
  · rw [hspec.posted] at hq
    rw [hspec.asked]
    exact h.posted q w (List.mem_of_mem_erase hq)
  · rw [hspec.launched] at hx
    rw [hspec.asked]
    rcases List.mem_append.mp hx with hx | hx
    · exact h.launched x hx
    · cases haction : (n.card.view v).submitAction with
      | notReady =>
          rw [haction] at hx
          cases hx
      | component session =>
          rw [haction] at hx
          obtain ⟨id, hid, q, hq, hname⟩ := h.posted p v hp
          obtain ⟨q', hq', hname'⟩ := h.card.action v session haction
          have hsame := hone v q hq q' hq'
          rw [hname, hname'] at hsame
          rw [List.mem_singleton.mp hx, ← Option.some.inj hsame]
          exact hid
  · rw [hspec.started] at hx
    rw [hspec.asked]
    exact h.started x hx

theorem Apart.runLaunched (h : Apart Session E n) {p : Submit.PromiseId} {session : String}
    (hp : (p, session) ∈ n.launched) (throws : Bool) : Apart Session E (n.runLaunched p session throws) := by
  refine ⟨h.card, h.posted, fun x hx => h.launched x (List.mem_of_mem_erase hx), fun x hx => ?_⟩
  rcases List.mem_append.mp hx with hx | hx
  · exact h.started x hx
  · rw [List.mem_singleton.mp hx]
    exact h.launched _ hp

end

/-! ## Sessions stay apart -/

section

variable {J : JsonText} {toLowerCase : String → String} {Session : Set String} {s : State}

theorem Tracks.oneId (h : Tracks Session s) : FlowDemo.Sheet.OneId s.host :=
  fun v p hp q hq => h.sheet.oneId rfl v p (FlowDemo.Sheet.ends_outcome (List.take_prefix _ _) v hp) q
    (FlowDemo.Sheet.ends_outcome (List.take_prefix _ _) v hq)

/-- What stood at the end of a transaction is a session that was created. -/
theorem Tracks.created (h : Tracks Session s) {v : ViewId} {t : Triple} (ht : t.props ∈ s.host.ends v) :
    Created s.sheet.app t :=
  h.sheet.created_of_mem ht

/-- A transaction initialises its view with what stood at its end, if at all. -/
theorem transaction_cases {n : Mounted.State} (h : Mounted.Inv Session n) (v : ViewId) (ps : List PropUpdate)
    (hps : ∀ id, .paymentSessionID (some id) ∈ ps → id ∈ Session) (activity : Bool) :
    ((n.transaction v ps activity).submit = n.submit ∧
        (current ((n.transaction v ps activity).managed.ends v)).triple = none) ∨
      ∃ t, (current ((n.transaction v ps activity).managed.ends v)).triple = some t ∧
        (n.transaction v ps activity).submit = { n.submit with
          card := n.submit.card.initializeView v t.paymentSessionID t.paymentSessionSecret t.publicKey activity } := by
  have hupdate := h.update v hps
  have hends : (n.transaction v ps activity).managed.ends v = (n.managed.update v ps).ends v := by
    rw [ends_transaction, Managed.ends_update]
  rw [hends, ← (hupdate.managed.keeps v).maybeInit_eq]
  unfold Mounted.State.transaction
  dsimp only
  cases hmay : ViewManager.maybeInit ((n.managed.update v ps).tag v) with
  | none => exact Or.inl ⟨rfl, rfl⟩
  | some t => exact Or.inr ⟨t, rfl, rfl⟩

theorem apart_perform (h : Tracks Session s) (hapart : Apart Session s.host.ends s.native.submit) (activity : Bool)
    (hlt : s.performed < s.sheet.ops.length) :
    Apart Session (s.perform Session activity).host.ends (s.perform Session activity).native.submit := by
  obtain ⟨op, hget, hhost, -, ha⟩ := h.next activity hlt
  have hends := (h.perform activity hlt).ends
  have hmono : Apart Session (s.perform Session activity).host.ends s.native.submit :=
    hapart.mono fun v => hhost ▸ s.host.ends_perform op v
  have hnative : (s.perform Session activity).native =
      (Mounted.machine Session).step s.native (carryOut activity op) := by
    unfold State.perform
    rw [hget]
  rw [hnative] at hends ⊢
  cases op with
  | create v => exact hmono
  | unmount v => exact hmono
  | transaction v ps =>
      rcases transaction_cases h.native v ps ha.2 activity with ⟨hsame, -⟩ | ⟨t, ht, hinit⟩
      · exact (show (Mounted.State.transaction _ v ps activity).submit = _ from hsame) ▸ hmono
      · refine (show (Mounted.State.transaction _ v ps activity).submit = _ from hinit) ▸ ?_
        have hstood : t.props ∈ (s.perform Session activity).host.ends v := by
          rw [← hends v]
          exact mem_of_current ht
        exact ⟨hmono.card.initializeView hstood activity, hmono.posted, hmono.launched, hmono.started⟩

theorem apart_native (h : Tracks Session s) (hapart : Apart Session s.host.ends s.native.submit) {e : Submit.Event}
    (ha : (Mounted.machine Session).allowed s.native (.submit e)) (hjs : FromJs Session s.native.submit.card e) :
    Apart Session s.host.ends ((Submit.machine Session).step s.native.submit e) := by
  cases e with
  | card e =>
      have hissued := (Mounted.inv_step s.native (.submit (.card e)) h.native ha).issued
      refine ⟨hapart.card.rest (fun v id secret key activity he => ?_) ha.2 hissued, hapart.posted, hapart.launched,
        hapart.started⟩
      exact ha.1 v id secret key activity (congrArg Submit.Event.card he)
  | submit id => exact hapart.submit hjs
  | runPosted p v => exact hapart.runPosted h.oneId ha.2
  | runLaunched p session throws => exact hapart.runLaunched ha.2 throws

theorem apart_step (h : Tracks Session s) (hapart : Apart Session s.host.ends s.native.submit) {e : Event}
    (ha : (machine J toLowerCase Session).allowed s e) :
    Apart Session ((machine J toLowerCase Session).step s e).host.ends
      ((machine J toLowerCase Session).step s e).native.submit := by
  cases e with
  | sheet e =>
      rw [host_sheet J toLowerCase Session h.performed e]
      exact hapart
  | perform activity => exact apart_perform h hapart activity ha
  | native e => exact apart_native h hapart ha.1 ha.2

theorem apart_init : Apart Session (fun _ => []) {} :=
  ⟨⟨nofun, nofun, nofun, nofun, nofun⟩, nofun, nofun, nofun⟩

/-- **The sessions of `App` stay apart**, however the renderer, the components, the requests and the presses of Pay
interleave, with an activity at hand or not: the SDK is given and the requests are about sessions that the backend
created, and what a call of `submit` launches or started is a component of the session it was called with. -/
theorem sessions_stay_apart (J : JsonText) (toLowerCase : String → String) (Session : Set String) {es : List Event}
    (h : (machine J toLowerCase Session).Admits (machine J toLowerCase Session).init es) :
    let s := (machine J toLowerCase Session).run (machine J toLowerCase Session).init es
    (∀ x ∈ s.native.managed.built, Created s.sheet.app x.2) ∧
      (∀ event ∈ s.native.submit.card.emitted, ∃ t, Created s.sheet.app t ∧
        event.sessionData.id = t.paymentSessionID ∧ event.sessionData.secret = t.paymentSessionSecret) ∧
      (∀ x ∈ s.native.submit.launched, s.native.submit.asked[x.1]? = some x.2) ∧
      ∀ x ∈ s.native.submit.started, s.native.submit.asked[x.1]? = some x.2.1 := by
  intro s
  have hinv : Tracks Session s ∧ Apart Session s.host.ends s.native.submit := by
    refine Machine.run_induction
      (I := fun s : State => Tracks Session s ∧ Apart Session s.host.ends s.native.submit)
      (fun s e hs he => ⟨hs.1.step he, apart_step hs.1 hs.2 he⟩) ⟨?_, apart_init⟩ h
    exact Tracks.init J toLowerCase Session
  obtain ⟨htracks, hapart⟩ := hinv
  refine ⟨fun x hx => ?_, fun event hevent => ?_, hapart.launched, hapart.started⟩
  · have hstood := htracks.native.managed.built x hx
    rw [htracks.ends] at hstood
    exact htracks.created hstood
  · obtain ⟨v, t, ht, hid, hsecret⟩ := hapart.card.emitted event hevent
    exact ⟨t, htracks.created ht, hid, hsecret⟩

/-! ## Pay reaches the card -/

/-- **The registry and the views are as the operations made them**, given an activity. -/
structure Follows (Session : Set String) (h : Host) (c : Card.State) : Prop where
  initialized : ∀ v, (c.view v).hasInitialized = (h.shown v).isSome
  data : ∀ v t, h.shown v = some t →
    (c.view v).currentSessionData = some { id := t.paymentSessionID, secret := t.paymentSessionSecret }
  leads : ∀ id ∈ Session, c.getView id = h.leads id

theorem follows_init : Follows Session {} {} := ⟨fun _ => rfl, nofun, fun _ _ => rfl⟩

variable {c : Card.State} {h : Host}

theorem getView_rest {e : Card.Event} (he : ∀ v id secret key activity, e ≠ .initializeView v id secret key activity)
    (ha : (Card.machine Session).allowed c e) (hjs : FromJs Session c (.card e)) (hissued : ∀ r ∈ c.issued, r ∉ Session)
    {id : String} (hid : id ∈ Session) : ((Card.machine Session).step c e).getView id = c.getView id := by
  cases e with
  | initializeView v id secret key activity => exact absurd rfl (he v id secret key activity)
  | finishCreation x created => cases created <;> rfl
  | handleSubmit v raw r emits =>
      have hne : id ≠ r := fun heq => ha.1 (heq ▸ hid)
      change (c.onHandleSubmit v raw r emits).registry.get id = c.registry.get id
      unfold State.onHandleSubmit
      split
      · rfl
      · rw [show (c.handleSubmit v _ r emits).registry = c.registry.put r v from State.emitEvent_registry _ _ _,
          LinkedMap.get_put_of_ne _ _ hne]
  | handleSubmitResponse r success data =>
      have hne : id ≠ r := fun heq => hissued r hjs (heq ▸ hid)
      change (CardModule.handleSubmitResponse c r success data).registry.get id = c.registry.get id
      unfold CardModule.handleSubmitResponse
      split
      · rfl
      · next v _ =>
          rw [show (State.handleSubmitResponse c v r success data).1.registry = c.registry.remove r from
            (State.takeContinuation_frame (c.unregisterView r) v r success data).1, LinkedMap.get_remove, if_neg hne]

theorem Follows.rest (hf : Follows Session h c) {e : Card.Event}
    (he : ∀ v id secret key activity, e ≠ .initializeView v id secret key activity)
    (ha : (Card.machine Session).allowed c e) (hjs : FromJs Session c (.card e))
    (hissued : ∀ r ∈ c.issued, r ∉ Session) : Follows Session h ((Card.machine Session).step c e) := by
  have hshowing := (Mounted.quiet_step Session c e he).showing
  refine ⟨fun v => ?_, fun v t ht => ?_, fun id hid => (getView_rest he ha hjs hissued hid).trans (hf.leads id hid)⟩
  · exact (congrArg Prod.fst (hshowing v)).trans (hf.initialized v)
  · exact (congrArg Prod.snd (hshowing v)).trans (hf.data v t ht)

/-- **`initialize` with an activity** does what the operation comes to. -/
theorem Follows.initializeView (hf : Follows Session h c) {v : ViewId} {t : Triple}
    (ht : (current (h.ends v)).triple = some t) : Follows Session (h.maybeInit v)
      (c.initializeView v t.paymentSessionID t.paymentSessionSecret t.publicKey true) := by
  cases hshown : h.shown v with
  | some u =>
      have hinit : (c.view v).hasInitialized = true := by rw [hf.initialized v, hshown, Option.isSome_some]
      rw [FlowDemo.Sheet.Host.maybeInit_of_shown hshown, Card.State.initializeView, if_pos hinit]
      exact hf
  | none =>
      have hinit : (c.view v).hasInitialized = false := by rw [hf.initialized v, hshown, Option.isSome_none]
      have hspec := Mounted.initialized_of_not hinit t.paymentSessionID t.paymentSessionSecret t.publicKey true
      rw [FlowDemo.Sheet.Host.maybeInit_of_fresh hshown ht]
      refine ⟨fun w => ?_, fun w u hu => ?_, fun id hid => ?_⟩
      · change _ = (Function.update h.shown v (some t) w).isSome
        rw [Function.update_apply]
        split
        · next hw => rw [hw, hspec.hasInitialized, Option.isSome_some]
        · next hw => rw [hspec.other w hw, hf.initialized w]
      · change Function.update h.shown v (some t) w = some u at hu
        rw [Function.update_apply] at hu
        split at hu
        · next hw =>
            obtain rfl := Option.some.inj hu
            rw [hw, Card.State.initializeView, if_neg (by rw [hinit]; exact Bool.false_ne_true)]
            exact congrArg CardView.currentSessionData (State.setView_view_self c v _)
        · next hw =>
            rw [hspec.other w hw]
            exact hf.data w u hu
      · rw [hspec.registry]
        change _ = Function.update h.leads t.paymentSessionID (some v) id
        rw [Function.update_apply, hf.leads id hid]

theorem follows_perform (h : Tracks Session s) (hf : Follows Session s.host s.native.submit.card)
    (hlt : s.performed < s.sheet.ops.length) :
    Follows Session (s.perform Session true).host (s.perform Session true).native.submit.card := by
  obtain ⟨op, hget, hhost, -, ha⟩ := h.next true hlt
  have hends := (h.perform true hlt).ends
  have hnative : (s.perform Session true).native = (Mounted.machine Session).step s.native (carryOut true op) := by
    unfold State.perform
    rw [hget]
  rw [hhost, hnative] at hends ⊢
  cases op with
  | create v => exact ⟨hf.initialized, hf.data, hf.leads⟩
  | unmount v => exact ⟨hf.initialized, hf.data, hf.leads⟩
  | transaction v ps =>
      have hset : Follows Session { s.host with
          ends := Function.update s.host.ends v (s.host.ends v ++ [(current (s.host.ends v)).setAll ps]) }
          s.native.submit.card := ⟨hf.initialized, hf.data, hf.leads⟩
      have hcur : (s.native.transaction v ps true).managed.ends v = _ :=
        (hends v).trans (congrFun FlowDemo.Sheet.Host.maybeInit_frame.2 v)
      rcases transaction_cases h.native v ps ha.2 true with ⟨hsame, hnone⟩ | ⟨t, ht, hinit⟩
      · rw [hcur] at hnone
        change Follows Session (FlowDemo.Sheet.Host.maybeInit _ v) (s.native.transaction v ps true).submit.card
        rw [hsame, FlowDemo.Sheet.Host.maybeInit_of_none hnone]
        exact hset
      · rw [hcur] at ht
        change Follows Session (FlowDemo.Sheet.Host.maybeInit _ v) (s.native.transaction v ps true).submit.card
        rw [hinit]
        exact hset.initializeView ht

/-- There is an activity whenever the renderer sets props. -/
def HasActivity (_ : State) (e : Event) : Prop := e ≠ .perform false

theorem follows_step (h : Tracks Session s) (hf : Follows Session s.host s.native.submit.card) {e : Event}
    (ha : (machine J toLowerCase Session).allowed s e) (hactivity : HasActivity s e) :
    Follows Session ((machine J toLowerCase Session).step s e).host
      ((machine J toLowerCase Session).step s e).native.submit.card := by
  cases e with
  | sheet e =>
      rw [host_sheet J toLowerCase Session h.performed e]
      exact hf
  | perform activity =>
      cases activity with
      | true => exact follows_perform h hf ha
      | false => exact absurd rfl hactivity
  | native e =>
      obtain ⟨ha, hjs⟩ := ha
      cases e with
      | card e =>
          refine hf.rest (fun v id secret key activity heq => ?_) ha.2 hjs h.native.issued
          exact ha.1 v id secret key activity (congrArg Submit.Event.card heq)
      | submit id => exact (Mounted.submit_asked s.native.submit id).2.symm ▸ hf
      | runPosted p v => exact (runPosted_card s.native.submit p v).symm ▸ hf
      | runLaunched p session throws => exact hf

/-- **Pay reaches the card on screen**, in every run with an activity at hand: once the renderer is done, the view of
the card is there and was initialised for the card's session, and a call of `submit` for that session posts its block
for this view. -/
theorem pay_reaches_card (J : JsonText) (toLowerCase : String → String) (Session : Set String) {es : List Event}
    (h : ((machine J toLowerCase Session).restrict HasActivity).Admits (machine J toLowerCase Session).init es) :
    let s := (machine J toLowerCase Session).run (machine J toLowerCase Session).init es
    ∀ m, s.sheet.mounted = some m → s.performed = s.sheet.ops.length →
      s.native.Shows m.view m.card.id ∧
        (s.native.submit.submit m.card.id).posted =
          s.native.submit.posted ++ [(s.native.submit.asked.length, m.view)] ∧
        ∃ t, Created s.sheet.app t ∧ t.paymentSessionID = m.card.id ∧
          (s.native.submit.card.view m.view).currentSessionData =
            some { id := t.paymentSessionID, secret := t.paymentSessionSecret } := by
  intro s m hm hdone
  have hinv : Tracks Session s ∧ Follows Session s.host s.native.submit.card := by
    refine Machine.run_induction (M := (machine J toLowerCase Session).restrict HasActivity)
      (I := fun s : State => Tracks Session s ∧ Follows Session s.host s.native.submit.card)
      (fun s e hs he => ⟨hs.1.step he.1, follows_step hs.1 hs.2 he.1 he.2⟩) ⟨?_, follows_init⟩ h
    exact Tracks.init J toLowerCase Session
  obtain ⟨htracks, hfollows⟩ := hinv
  have hhost : s.host = outcome s.sheet.ops := by
    change outcome (s.sheet.ops.take s.performed) = _
    rw [hdone, List.take_length]
  have hcard := htracks.sheet.card m hm
  obtain ⟨-, ⟨t, ht, hid⟩, hleads⟩ := htracks.sheet.shown rfl m hm
  rw [← hhost] at hcard ht hleads
  have hdata := hfollows.data m.view t ht
  have hstood : t.props ∈ s.host.ends m.view := by
    rw [hhost] at ht ⊢
    exact FlowDemo.Sheet.inv_outcome _ _ _ ht
  have hcreated := htracks.created hstood
  have hmem : m.card.id ∈ Session := by
    obtain ⟨-, x, hx, hxid, -⟩ := hcreated
    exact hid ▸ htracks.sheet.ids x hx _ hxid
  refine ⟨⟨?_, ?_, ?_⟩, ?_, t, hcreated, hid, hdata⟩
  · rw [htracks.phase, hcard.phase]
    rfl
  · rw [hfollows.initialized, ht]
    rfl
  · rw [hdata, ← hid]
    rfl
  · have hget : s.native.submit.card.getView m.card.id = some m.view := (hfollows.leads _ hmem).trans hleads
    unfold Submit.State.submit
    simp only [hget]

end

def cardOnScreen : List Event :=
  [.sheet (.app .startPayment),
    .sheet (.app (.finishStart 0 (.ok (.obj [("id", .str "ps_1"), ("payment_session_secret", .str "pss_1")])))),
    .sheet (.commit false (FlowDemo.Sheet.newProps "ps_1" "pss_1") false), .perform true, .perform true]

def paid : List Event :=
  [.native (.card (.finishCreation ⟨0, "ps_1", "pss_1", FlowDemo.Sheet.publicKey⟩ true)), .sheet (.app .pay),
    .native (.submit "ps_1"), .native (.runPosted 0 0), .native (.runLaunched 0 "ps_1" false),
    .native (.card (.handleSubmit 0 "raw-1" "req-1" true))]

def oneSession : Machine State Event := machine Js.App.sampleJson id {"ps_1"}

theorem commit_allowed {s : State} {c : Card} (hcrashed : s.sheet.crashed = false)
    (hrender : FlowDemo.Sheet.render s.sheet.app false = some (some c)) (hkept : s.sheet.kept c = none) :
    oneSession.allowed s (.sheet (.commit false (FlowDemo.Sheet.newProps c.id c.secret) false)) := by
  refine FlowDemo.Sheet.commit_allowed Js.App.sampleJson id .android {"ps_1"} hcrashed
    (fun h => absurd h Bool.false_ne_true) hrender ?_ false
  rw [hkept]
  exact FlowDemo.Sheet.fills_newProps c

theorem cardOnScreen_admits : oneSession.Admits oneSession.init cardOnScreen := by
  have hperform : ∀ {s : State}, s.performed < s.sheet.ops.length → oneSession.allowed s (.perform true) := fun h => h
  refine ⟨⟨rfl, rfl, nofun⟩, ?_, ?_, hperform (by decide +kernel), hperform (by decide +kernel), trivial⟩
  · exact FlowDemo.Sheet.finishStart_allowed Js.App.sampleJson id .android {"ps_1"} rfl (List.mem_singleton_self _) rfl
  · exact commit_allowed (c := ⟨"flow-scroll-ps_1", "ps_1", "pss_1"⟩) rfl (by decide +kernel) rfl

theorem paid_admits : oneSession.Admits oneSession.init (cardOnScreen ++ paid) := by
  have hcreated : ∀ {s : State} {x : Creation}, x ∈ s.native.submit.card.creations →
      oneSession.allowed s (.native (.card (.finishCreation x true))) := fun h => ⟨⟨nofun, h⟩, trivial⟩
  have hpay : ∀ {s : State}, s.sheet.crashed = false → Js.App.payEnabled s.sheet.app = true →
      oneSession.allowed s (.sheet (.app .pay)) := fun h1 h2 => ⟨h1, h2, nofun⟩
  have hposted : ∀ {s : State} {x : Submit.PromiseId × ViewId}, x ∈ s.native.submit.posted →
      oneSession.allowed s (.native (.runPosted x.1 x.2)) := fun h => ⟨⟨nofun, h⟩, trivial⟩
  have hlaunched : ∀ {s : State} {x : Submit.PromiseId × String}, x ∈ s.native.submit.launched →
      oneSession.allowed s (.native (.runLaunched x.1 x.2 false)) := fun h => ⟨⟨nofun, h⟩, trivial⟩
  have hrequest : ∀ {s : State} {r : String}, r ≠ "ps_1" → r ∉ s.native.submit.card.issued →
      oneSession.allowed s (.native (.card (.handleSubmit 0 "raw-1" r true))) :=
    fun h1 h2 => ⟨⟨nofun, h1, h2⟩, trivial⟩
  refine (Machine.admits_append _ _ _ _).mpr ⟨cardOnScreen_admits, ?_⟩
  refine ⟨hcreated (by decide +kernel), hpay (by decide +kernel) (by decide +kernel), ⟨⟨nofun, trivial⟩, rfl⟩,
    hposted (x := (0, 0)) (by decide +kernel), hlaunched (x := (0, "ps_1")) (by decide +kernel), ?_, trivial⟩
  exact hrequest (by decide) (by decide +kernel)

theorem sessions_stay_apart_paid :
    let s := oneSession.run oneSession.init (cardOnScreen ++ paid)
    (∀ x ∈ s.native.managed.built, Created s.sheet.app x.2) ∧
      (∀ event ∈ s.native.submit.card.emitted, ∃ t, Created s.sheet.app t ∧
        event.sessionData.id = t.paymentSessionID ∧ event.sessionData.secret = t.paymentSessionSecret) ∧
      (∀ x ∈ s.native.submit.started, s.native.submit.asked[x.1]? = some x.2.1) ∧
      s.native.managed.built.map Prod.fst = [0] ∧ s.native.submit.card.emitted.length = 1 ∧
      s.native.submit.started = [(0, "ps_1", false)] := by
  have h := sessions_stay_apart Js.App.sampleJson id {"ps_1"} paid_admits
  exact ⟨h.1, h.2.1, h.2.2.2, by decide +kernel, by decide +kernel, by decide +kernel⟩

theorem pay_reaches_card_on_screen :
    let s := oneSession.run oneSession.init cardOnScreen
    s.native.Shows 0 "ps_1" ∧ (s.native.submit.submit "ps_1").posted = [(0, 0)] := by
  have hactivity : ∀ e ∈ cardOnScreen, ∀ s, HasActivity s e := by
    simp [cardOnScreen, HasActivity]
  have h := pay_reaches_card Js.App.sampleJson id {"ps_1"}
    (Machine.admits_restrict cardOnScreen_admits hactivity) ⟨0, "flow-scroll-ps_1", "ps_1", "pss_1"⟩
    rfl (by decide +kernel)
  exact ⟨h.1, h.2.1⟩

end FlowDemo.Android.Card.Sheet
