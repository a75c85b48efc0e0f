import FlowDemo.Lib.Effects
import FlowDemo.Lib.Machine

/-!
# The submit listeners of the mounted components

`CardView.tsx`, `ApplePayView.tsx` and `GooglePayView.tsx` each subscribe, in an effect, to a device event their
native view emits, and call the component's `handleSubmit` from the listener. A device event goes to every
subscription of its name. On iOS the listeners look at the `component` member of the event; on Android they look at
nothing.

* `treeMachine`: components mount, unmount and change their handler or their session, in any order and number;
* `Inv`: the mounted components have one subscription each, theirs;
* `submit_event_handled_once_iff`: when a submit event is handled by its own component alone.
-/

namespace FlowDemo.Js

inductive Platform
  | android
  | ios
  deriving DecidableEq

inductive ComponentKind
  | card
  | applePay
  | googlePay
  deriving DecidableEq

abbrev ComponentId := Nat

/-- A component with a `handleSubmit` handler, and the session its native view was initialised with. The view keeps that
one, whatever session the component renders with later. -/
structure Component where
  kind : ComponentKind
  viewSessionID : String
  viewSessionSecret : String
  deriving DecidableEq

structure SessionData where
  id : String
  secret : String
  sessionData : Option String := none
  deriving DecidableEq

/-- The `sessionData` member of a submit event; only the iOS views say which `component` they are. -/
structure SubmitBody where
  component : Option String
  requestId : String
  id : String
  secret : String
  sessionData : Option String

structure SubmitEvent where
  name : String
  sessionData : SubmitBody

/-- A subscription of a component: the event it is for and the `component` it insists on, if any. -/
structure Subscription where
  owner : ComponentId
  eventName : String
  component : Option String
  deriving DecidableEq

def Subscription.receives (sub : Subscription) (e : SubmitEvent) : Bool :=
  sub.eventName = e.name && (sub.component.all fun c => e.sessionData.component = some c)

/-- The `handleSubmit` effect of a component: what it subscribes to on platform `p`, if anything. -/
def handleSubmitEffect (p : Platform) (kind : ComponentKind) (owner : ComponentId) : Option Subscription :=
  match p, kind with
  | .android, .card => some ⟨owner, "onCardHandleSubmit", none⟩
  | .ios, .card => some ⟨owner, "onHandleSubmit", some "card"⟩
  | .ios, .applePay => some ⟨owner, "onHandleSubmit", some "applepay"⟩
  | .android, .googlePay => some ⟨owner, "onHandleSubmit", none⟩
  | .android, .applePay => none
  | .ios, .googlePay => none

/-- The event the native view of `c` emits for a submit request, where `c` has a native view: with the session that view
was initialised with. -/
def nativeSubmitEvent (p : Platform) (c : Component) (requestId raw : String) : Option SubmitEvent :=
  let body : Option String → SubmitBody := fun component =>
    ⟨component, requestId, c.viewSessionID, c.viewSessionSecret, some raw⟩
  match p, c.kind with
  | .android, .card => some ⟨"onCardHandleSubmit", body none⟩
  | .ios, .card => some ⟨"onHandleSubmit", body (some "card")⟩
  | .ios, .applePay => some ⟨"onHandleSubmit", body (some "applepay")⟩
  | .android, .googlePay => some ⟨"onHandleSubmit", body none⟩
  | .android, .applePay => none
  | .ios, .googlePay => none

def Component.session (c : Component) (raw : String) : SessionData :=
  { id := c.viewSessionID, secret := c.viewSessionSecret, sessionData := some raw }

/-! ## Mounting -/

structure Tree where
  mounted : LinkedMap ComponentId Component := ∅
  subscriptions : List Subscription := []

inductive TreeEvent
  | mount (k : ComponentId) (c : Component)
  | unmount (k : ComponentId)
  | changeHandler (k : ComponentId)
  /-- a render with another session and the same handler: no effect runs, and the native view keeps its session -/
  | changeSession (k : ComponentId) (paymentSessionID paymentSessionSecret : String)

namespace Tree

/-- `subscription.remove()` -/
def unsubscribe (t : Tree) (k : ComponentId) : Tree :=
  { t with subscriptions := t.subscriptions.filter fun sub => sub.owner ≠ k }

def subscribe (t : Tree) (p : Platform) (k : ComponentId) (kind : ComponentKind) : Tree :=
  { t with subscriptions := t.subscriptions ++ (handleSubmitEffect p kind k).toList }

def mount (t : Tree) (p : Platform) (k : ComponentId) (c : Component) : Tree :=
  { t with mounted := t.mounted.put k c }.subscribe p k c.kind

def unmount (t : Tree) (k : ComponentId) : Tree :=
  { t with mounted := t.mounted.remove k }.unsubscribe k

/-- A new `handleSubmit` cleans the effect up and runs it again. -/
def changeHandler (t : Tree) (p : Platform) (k : ComponentId) : Tree :=
  match t.mounted.get k with
  | none => t
  | some c => (t.unsubscribe k).subscribe p k c.kind

/-- The `handleSubmit` calls an event causes: whose handler, with which session data. -/
def invoked (t : Tree) (e : SubmitEvent) : List (ComponentId × SessionData) :=
  (t.subscriptions.filter fun sub => sub.receives e).map fun sub =>
    (sub.owner, { id := e.sessionData.id, secret := e.sessionData.secret, sessionData := e.sessionData.sessionData })

end Tree

def treeMachine (p : Platform) : Machine Tree TreeEvent where
  init := {}
  allowed t e := match e with
    | .mount k _ => t.mounted.get k = none
    | .unmount _ => True
    | .changeHandler _ => True
    | .changeSession _ _ _ => True
  step t e := match e with
    | .mount k c => t.mount p k c
    | .unmount k => t.unmount k
    | .changeHandler k => t.changeHandler p k
    | .changeSession _ _ _ => t

/-! ## One subscription a component -/

/-- The subscriptions are those of the mounted components' effects, one each. -/
structure Tree.Inv (p : Platform) (t : Tree) : Prop where
  owned : ∀ sub ∈ t.subscriptions, ∃ c, t.mounted.get sub.owner = some c ∧
    handleSubmitEffect p c.kind sub.owner = some sub
  subscribed : ∀ k c sub, t.mounted.get k = some c → handleSubmitEffect p c.kind k = some sub →
    sub ∈ t.subscriptions
  nodup : (t.subscriptions.map Subscription.owner).Nodup

theorem handleSubmitEffect_owner {p : Platform} {kind : ComponentKind} {k : ComponentId} {sub : Subscription}
    (h : handleSubmitEffect p kind k = some sub) : sub.owner = k := by
  cases p <;> cases kind <;> cases h <;> rfl

def handleSubmitEffects (p : Platform) : Effects ComponentId Component Subscription where
  owner := Subscription.owner
  run k c := handleSubmitEffect p c.kind k
  owner_run := handleSubmitEffect_owner

section Steps

variable {p : Platform} {t : Tree}

theorem Tree.inv_iff : Inv p t ↔ (handleSubmitEffects p).Synced t.mounted t.subscriptions :=
  ⟨fun h => ⟨h.owned, h.subscribed, h.nodup⟩, fun h => ⟨h.owned, h.subscribed, h.nodup⟩⟩

theorem Tree.inv_mount (h : Inv p t) {k : ComponentId} (hk : t.mounted.get k = none) (c : Component) :
    Inv p (t.mount p k c) :=
  inv_iff.mpr ((inv_iff.mp h).add hk c)

theorem Tree.inv_unmount (h : Inv p t) (k : ComponentId) : Inv p (t.unmount k) :=
  inv_iff.mpr ((inv_iff.mp h).cleanup (fun _ hne => LinkedMap.get_remove_of_ne _ hne) (LinkedMap.get_remove_self _ _))

theorem Tree.inv_changeHandler (h : Inv p t) (k : ComponentId) : Inv p (t.changeHandler p k) := by
  unfold changeHandler
  cases hk : t.mounted.get k with
  | none => exact h
  | some c => exact inv_iff.mpr ((inv_iff.mp h).rerun (fun _ _ => rfl) hk)

theorem Tree.inv_step (t : Tree) (e : TreeEvent) (h : Inv p t) (he : (treeMachine p).allowed t e) :
    Inv p ((treeMachine p).step t e) := by
  cases e with
  | mount k c => exact inv_mount h he c
  | unmount k => exact inv_unmount h k
  | changeHandler k => exact inv_changeHandler h k
  | changeSession k id secret => exact h

theorem Tree.inv_reachable (ht : (treeMachine p).Reachable t) : Inv p t :=
  ht.induction ⟨nofun, nofun, List.nodup_nil⟩ Tree.inv_step

end Steps

/-! ## Who handles an event -/

/-- The effect of one kind receives the native events of that kind and of no other. -/
theorem receives_iff {p : Platform} {c : Component} {requestId raw : String} {e : SubmitEvent}
    (he : nativeSubmitEvent p c requestId raw = some e) {kind : ComponentKind} {k : ComponentId}
    {sub : Subscription} (hsub : handleSubmitEffect p kind k = some sub) :
    sub.receives e = true ↔ kind = c.kind := by
  obtain ⟨ck, id, secret⟩ := c
  cases p <;> cases kind <;> cases hsub <;> cases ck <;> cases he <;> simp [Subscription.receives]

theorem handleSubmitEffect_of_native {p : Platform} {c : Component} {requestId raw : String} {e : SubmitEvent}
    (he : nativeSubmitEvent p c requestId raw = some e) (k : ComponentId) :
    ∃ sub, handleSubmitEffect p c.kind k = some sub := by
  obtain ⟨ck, id, secret⟩ := c
  cases p <;> cases ck <;> cases he <;> exact ⟨_, rfl⟩

theorem nativeSubmitEvent_session {p : Platform} {c : Component} {requestId raw : String} {e : SubmitEvent}
    (he : nativeSubmitEvent p c requestId raw = some e) :
    ({ id := e.sessionData.id, secret := e.sessionData.secret, sessionData := e.sessionData.sessionData } :
      SessionData) = c.session raw := by
  obtain ⟨ck, id, secret⟩ := c
  cases p <;> cases ck <;> cases he <;> rfl

/-- **A submit event is handled once, by the component whose native view emitted it and with the session that view was
initialised with, exactly when no other component of its kind is mounted.** -/
theorem submit_event_handled_once_iff {p : Platform} {t : Tree} (ht : (treeMachine p).Reachable t)
    {k : ComponentId} {c : Component} (hk : t.mounted.get k = some c) {requestId raw : String} {e : SubmitEvent}
    (he : nativeSubmitEvent p c requestId raw = some e) :
    t.invoked e = [(k, c.session raw)] ↔
      ∀ k' c', t.mounted.get k' = some c' → c'.kind = c.kind → k' = k := by
  have hinv := Tree.inv_reachable ht
  unfold Tree.invoked
  rw [nativeSubmitEvent_session he]
  obtain ⟨sub, hsub⟩ := handleSubmitEffect_of_native he k
  have hmem := hinv.subscribed k c sub hk hsub
  have howner := handleSubmitEffect_owner hsub
  constructor
  · intro hone k' c' hk' hkind
    obtain ⟨sub', hsub'⟩ := handleSubmitEffect_of_native he k'
    rw [← hkind] at hsub'
    have hmem' := hinv.subscribed k' c' sub' hk' hsub'
    have hrec : sub'.receives e = true := (receives_iff he hsub').mpr hkind
    have hin : (sub'.owner, c.session raw) ∈
        (t.subscriptions.filter fun s => s.receives e).map fun s => (s.owner, c.session raw) :=
      List.mem_map.mpr ⟨sub', List.mem_filter.mpr ⟨hmem', hrec⟩, rfl⟩
    rw [hone, List.mem_singleton, handleSubmitEffect_owner hsub'] at hin
    exact (Prod.mk.inj hin).1
  · intro honly
    have hsingle : (t.subscriptions.filter fun s => s.receives e) = [sub] := by
      refine Effects.filter_eq_singleton (List.Nodup.of_map _ hinv.nodup) hmem ?_
      intro other hother
      obtain ⟨c', hc', heff⟩ := hinv.owned other hother
      rw [receives_iff he heff]
      constructor
      · intro hkind
        have hok : other.owner = k := honly _ c' hc' hkind
        rw [hok, hkind, hsub] at heff
        exact (Option.some.inj heff).symm
      · rintro rfl
        rw [howner, hk] at hc'
        rw [← Option.some.inj hc']
    rw [hsingle, List.map_singleton, howner]

/-- A card view and a Google Pay view on Android: the card's request is the card's alone. -/
theorem submit_event_handled_once_beside_googlePay :
    let t := (treeMachine .android).run (treeMachine .android).init
      [.mount 0 ⟨.card, "ps_1", "secret_1"⟩, .mount 1 ⟨.googlePay, "ps_1", "secret_1"⟩, .changeHandler 0,
        .changeSession 0 "ps_2" "secret_2"]
    ∀ e, nativeSubmitEvent .android ⟨.card, "ps_1", "secret_1"⟩ "req-1" "raw" = some e →
      t.invoked e = [(0, ⟨"ps_1", "secret_1", some "raw"⟩)] := by
  intro t e he
  have ht : (treeMachine .android).Reachable t := Machine.Reachable.of_admits ⟨rfl, rfl, trivial, trivial, trivial⟩
  refine (submit_event_handled_once_iff ht (k := 0) (c := ⟨.card, "ps_1", "secret_1"⟩) rfl he).mpr ?_
  intro k' c' hk' hkind
  have hentry : (k', c') ∈ t.mounted.entries := (LinkedMap.get_eq_some_iff _ _ _).mp hk'
  have hall : ∀ x ∈ t.mounted.entries, x.2.kind = .card → x.1 = 0 := by decide
  exact hall _ hentry hkind

/-- Two card views on Android, for two sessions: both handlers run, and the second is given the session of the
first. -/
theorem two_card_views_both_handle :
    let t := (treeMachine .android).run (treeMachine .android).init
      [.mount 0 ⟨.card, "ps_1", "secret_1"⟩, .mount 1 ⟨.card, "ps_2", "secret_2"⟩]
    (treeMachine .android).Reachable t ∧
      ∃ e, nativeSubmitEvent .android ⟨.card, "ps_1", "secret_1"⟩ "req-1" "raw" = some e ∧
        t.invoked e = [(0, ⟨"ps_1", "secret_1", some "raw"⟩), (1, ⟨"ps_1", "secret_1", some "raw"⟩)] := by
  intro t
  exact ⟨Machine.Reachable.of_admits ⟨rfl, rfl, trivial⟩, _, rfl, by decide⟩

end FlowDemo.Js
