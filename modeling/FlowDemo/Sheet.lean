import FlowDemo.Props
import FlowDemo.Js.AppState
import FlowDemo.Js.Listeners

/-!
# The card in the sheet

`App` renders a `CardView` for a payment session that is ready, in a scroll view with the session's key. A commit
compares what is rendered with what is there: under the same key the card gets the props that changed, under another it
makes way for a new one. The renderer carries out what the commits ask for, one operation after the other.

* `machine`: `App` and its commits;
* `host`: what the operations come to, whoever carries them out.
-/

namespace FlowDemo.Sheet

open Js (JsonText Platform)
open Js.App (isSessionReady readSession)

/-! ## What is rendered -/

def publicKey : String := "pk_sbox_u57rqbpjsrmyjpyrycxk42jbnuz"

/-- The `CardView` of the sheet: the key of the scroll view around it, and its session. -/
structure Card where
  key : String
  id : String
  secret : String
  deriving DecidableEq

def Card.triple (c : Card) : Triple := ⟨c.id, c.secret, publicKey⟩

def scrollKey (showingFlow : Bool) (id : String) : String :=
  "flow-scroll-" ++ if showingFlow then (if id = "" then "open" else id) else "closed"

/-- The modal's children are there while it is visible; it may keep them while it closes. -/
def childrenShown (s : Js.App.State) (keepsChildren : Bool) : Bool := s.screen.showingFlow || keepsChildren

/-- The card `App` renders; the outer `none` where it throws. A session that is ready has texts for both members. -/
def render (s : Js.App.State) (keepsChildren : Bool) : Option (Option Card) :=
  (isSessionReady s).map fun ready =>
    if ready && childrenShown s keepsChildren then
      match s.paymentSession.id, s.paymentSession.secret with
      | some (.str id), some (.str secret) => some ⟨scrollKey s.screen.showingFlow id, id, secret⟩
      | _, _ => none
    else none

/-- The props that a card does not have yet; the others of the component start no session. -/
def changes (old : Option Card) (c : Card) : List PropUpdate :=
  (if old.map Card.id = some c.id then [] else [.paymentSessionID (some c.id)]) ++
    (if old.map Card.secret = some c.secret then [] else [.paymentSessionSecret (some c.secret)]) ++
    if old.isSome then [] else [.publicKey (some publicKey)]

/-! ## The tree and the commits -/

/-- What the renderer does to the native views, which it numbers as it creates them. -/
inductive Op
  | create (v : Nat)
  | transaction (v : Nat) (ps : List PropUpdate)
  | unmount (v : Nat)

structure Mounted where
  view : Nat
  card : Card

/-- `modal` says whether the modal's children are in the tree; after a render that throws there is no tree any more. -/
structure State where
  app : Js.App.State := {}
  modal : Bool := false
  mounted : Option Mounted := none
  views : Nat := 0
  ops : List Op := []
  crashed : Bool := false

namespace State

/-- The card that `c` updates: the one under its key. -/
def kept (s : State) (c : Card) : Option Mounted := s.mounted.filter fun m => m.card.key = c.key

def mountCard (s : State) (c : Card) (ps : List PropUpdate) : State :=
  { s with
    mounted := some ⟨s.views, c⟩
    views := s.views + 1
    ops := s.ops ++ [.create s.views, .transaction s.views ps] }

def unmountCard (s : State) : State :=
  match s.mounted with
  | none => s
  | some m => { s with
      mounted := none
      ops := s.ops ++ [.unmount m.view] }

def updateCard (s : State) (m : Mounted) (c : Card) (ps : List PropUpdate) : State :=
  { s with
    mounted := some ⟨m.view, c⟩
    ops := if ps.isEmpty then s.ops else s.ops ++ [.transaction m.view ps] }

/-- The new view comes before the old one goes, or after. -/
def replaceCard (s : State) (c : Card) (ps : List PropUpdate) (newFirst : Bool) : State :=
  match s.mounted with
  | some m =>
      if newFirst then { s.mountCard c ps with ops := (s.mountCard c ps).ops ++ [.unmount m.view] }
      else s.unmountCard.mountCard c ps
  | none => s.mountCard c ps

def commit (s : State) (card : Option Card) (ps : List PropUpdate) (newFirst : Bool) : State :=
  match card with
  | none => s.unmountCard
  | some c => match s.kept c with
    | some m => s.updateCard m c ps
    | none => s.replaceCard c ps newFirst

/-- What becomes of a render: nothing is left where it throws. -/
def afterRender (s : State) (rendered : Option (Option Card)) (modal : Bool) (ps : List PropUpdate)
    (newFirst : Bool) : State :=
  match rendered with
  | none => { s.unmountCard with
      modal := false
      crashed := true }
  | some card => { s.commit card ps newFirst with modal := modal }

end State

inductive Event
  | app (e : Js.App.Event)
  | commit (keepsChildren : Bool) (ps : List PropUpdate) (newFirst : Bool)

/-- The backend gives sessions with ids in `Session`. A modal keeps its children on iOS only; the props of a
transaction come in any order. -/
def machine (J : JsonText) (toLowerCase : String → String) (platform : Platform) (Session : Set String) :
    Machine State Event where
  init := {}
  allowed s e := s.crashed = false ∧ match e with
    | .app e => (Js.App.machine J toLowerCase).allowed s.app e ∧
        ∀ n reply session id, e = .finishStart n reply → readSession reply = .ok session →
          session.id = some (.str id) → id ∈ Session
    | .commit keepsChildren ps _ => (keepsChildren = true → platform = .ios ∧ s.modal = true) ∧
        ∀ c, render s.app keepsChildren = some (some c) →
          ∀ u, u ≠ .other → (u ∈ ps ↔ u ∈ changes ((s.kept c).map Mounted.card) c)
  step s e := match e with
    | .app e => { s with app := (Js.App.machine J toLowerCase).step s.app e }
    | .commit keepsChildren ps newFirst =>
        s.afterRender (render s.app keepsChildren) (childrenShown s.app keepsChildren) ps newFirst

/-! ## What the operations come to -/

inductive Phase
  | absent
  | mounted
  | unmounted
  deriving DecidableEq

/-- The props of each view at the end of each transaction, the session it was initialised with, and the view that was
initialised last for a session id. -/
structure Host where
  phase : Nat → Phase := fun _ => .absent
  ends : Nat → List Props := fun _ => []
  shown : Nat → Option Triple := fun _ => none
  leads : String → Option Nat := fun _ => none

namespace Host

/-- A view is initialised once, with the first triple at the end of a transaction. -/
def maybeInit (h : Host) (v : Nat) : Host :=
  match h.shown v, (current (h.ends v)).triple with
  | none, some t => { h with
      shown := Function.update h.shown v (some t)
      leads := Function.update h.leads t.paymentSessionID (some v) }
  | _, _ => h

def perform (h : Host) : Op → Host
  | .create v => { h with phase := Function.update h.phase v .mounted }
  | .transaction v ps =>
      { h with ends := Function.update h.ends v (h.ends v ++ [(current (h.ends v)).setAll ps]) }.maybeInit v
  | .unmount v => { h with phase := Function.update h.phase v .unmounted }

end Host

/-- The views as the renderer may treat them: each is created once, and gets props while it is there. -/
def host (Session : Set String) : Machine Host Op where
  init := {}
  allowed h op := match op with
    | .create v => h.phase v = .absent
    | .transaction v ps => h.phase v = .mounted ∧ ∀ id, .paymentSessionID (some id) ∈ ps → id ∈ Session
    | .unmount v => h.phase v = .mounted
  step h op := h.perform op

def outcome (ops : List Op) : Host := ops.foldl Host.perform {}

theorem outcome_append (ops ops' : List Op) : outcome (ops ++ ops') = ops'.foldl Host.perform (outcome ops) :=
  List.foldl_append

/-! ## What each operation changes -/

namespace Host

variable {h : Host} {v : Nat}

theorem maybeInit_frame : (h.maybeInit v).phase = h.phase ∧ (h.maybeInit v).ends = h.ends := by
  unfold maybeInit
  split <;> exact ⟨rfl, rfl⟩

theorem maybeInit_of_shown {t : Triple} (hshown : h.shown v = some t) : h.maybeInit v = h := by
  unfold maybeInit
  rw [hshown]

theorem maybeInit_of_none (ht : (current (h.ends v)).triple = none) : h.maybeInit v = h := by
  unfold maybeInit
  rw [ht]
  split
  · next heq => cases heq
  · rfl

theorem maybeInit_of_fresh {t : Triple} (hshown : h.shown v = none) (ht : (current (h.ends v)).triple = some t) :
    h.maybeInit v = { h with
      shown := Function.update h.shown v (some t)
      leads := Function.update h.leads t.paymentSessionID (some v) } := by
  unfold maybeInit
  rw [hshown, ht]

theorem shown_maybeInit {w : Nat} {t : Triple} (ht : (h.maybeInit v).shown w = some t) :
    h.shown w = some t ∨ w = v ∧ (current (h.ends v)).triple = some t := by
  cases hshown : h.shown v with
  | some u => exact Or.inl (maybeInit_of_shown hshown ▸ ht)
  | none =>
      cases hcur : (current (h.ends v)).triple with
      | none => exact Or.inl (maybeInit_of_none hcur ▸ ht)
      | some u =>
          rw [maybeInit_of_fresh hshown hcur] at ht
          change Function.update h.shown v (some u) w = some t at ht
          rw [Function.update_apply] at ht
          split at ht
          · next hw => exact Or.inr ⟨hw, ht⟩
          · exact Or.inl ht

theorem phase_transaction (ps : List PropUpdate) : (h.perform (.transaction v ps)).phase = h.phase :=
  maybeInit_frame.1

theorem ends_transaction (ps : List PropUpdate) (w : Nat) : (h.perform (.transaction v ps)).ends w =
    if w = v then h.ends v ++ [(current (h.ends v)).setAll ps] else h.ends w :=
  (congrFun maybeInit_frame.2 w).trans (Function.update_apply _ _ _ _)

theorem phase_create (w : Nat) : (h.perform (.create v)).phase w = if w = v then .mounted else h.phase w :=
  Function.update_apply _ _ _ _

theorem phase_unmount (w : Nat) : (h.perform (.unmount v)).phase w = if w = v then .unmounted else h.phase w :=
  Function.update_apply _ _ _ _

/-- **A view is initialised with what stood at the end of a transaction.** -/
def Inv (h : Host) : Prop := ∀ v t, h.shown v = some t → t.props ∈ h.ends v

theorem Inv.perform (hinv : h.Inv) (op : Op) : (h.perform op).Inv := by
  cases op with
  | create v => exact hinv
  | unmount v => exact hinv
  | transaction v ps =>
      intro w t ht
      rw [ends_transaction]
      rcases shown_maybeInit ht with hold | ⟨rfl, hcur⟩
      · have hin := hinv w t hold
        split
        · next hw => exact List.mem_append_left _ (hw ▸ hin)
        · exact hin
      · change (current (Function.update h.ends w _ w)).triple = some t at hcur
        rw [Function.update_self] at hcur
        rw [if_pos rfl]
        exact mem_of_current hcur

end Host

theorem inv_outcome (ops : List Op) : (outcome ops).Inv := by
  unfold outcome
  have hrun : ∀ h : Host, h.Inv → (ops.foldl Host.perform h).Inv := by
    induction ops with
    | nil => exact fun _ h => h
    | cons op ops ih => exact fun h hinv => ih _ (hinv.perform op)
  exact hrun {} nofun

theorem Host.ends_perform (h : Host) (op : Op) (v : Nat) : h.ends v ⊆ (h.perform op).ends v := by
  intro p hp
  cases op with
  | create w => exact hp
  | unmount w => exact hp
  | transaction w ps =>
      rw [ends_transaction]
      split
      · next hv => exact List.mem_append_left _ (hv ▸ hp)
      · exact hp

theorem ends_outcome {ops ops' : List Op} (h : ops <+: ops') (v : Nat) :
    (outcome ops).ends v ⊆ (outcome ops').ends v := by
  obtain ⟨rest, rfl⟩ := h
  rw [outcome_append]
  generalize outcome ops = host
  induction rest generalizing host with
  | nil => exact List.Subset.refl _
  | cons op rest ih => exact List.Subset.trans (host.ends_perform op v) (ih _)

end FlowDemo.Sheet
