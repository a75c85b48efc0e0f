import Mathlib.Logic.Function.Basic
import FlowDemo.Props
import FlowDemo.Lib.LinkedMap

/-!
# The view managers

`CardViewManager` and `GooglePayViewManager` keep the props of a view in a map that is its tag, `null` as the empty
text, and call the view's `initialize` when a transaction has ended and all three props are there.

* `Keeps`: the tag says what JavaScript set;
* `maybeInit_eq`: what `initialize` is called with are the props at the end of the transaction.
-/

namespace FlowDemo.Android

abbrev Tag := Option (LinkedMap String String)

namespace ViewManager

/-- A setter of either manager: the map is made when there is none. -/
def setProp (tag : Tag) (name : String) (value : Option String) : Tag := some ((tag.getD ∅).put name (value.getD ""))

def setPaymentSessionID (tag : Tag) (value : Option String) : Tag := setProp tag "paymentSessionID" value

def setPaymentSessionSecret (tag : Tag) (value : Option String) : Tag := setProp tag "paymentSessionSecret" value

def setPublicKey (tag : Tag) (value : Option String) : Tag := setProp tag "publicKey" value

/-- The other setters write fields of the view. -/
def set (tag : Tag) : PropUpdate → Tag
  | .paymentSessionID value => setPaymentSessionID tag value
  | .paymentSessionSecret value => setPaymentSessionSecret tag value
  | .publicKey value => setPublicKey tag value
  | .other => tag

/-- `maybeInit` of either manager: what it calls `initialize` with, if it does. -/
def maybeInit (tag : Tag) : Option Triple :=
  match tag with
  | none => none
  | some tag => match tag.get "paymentSessionID", tag.get "paymentSessionSecret", tag.get "publicKey" with
    | some id, some secret, some key =>
        if !id.isEmpty && !secret.isEmpty && !key.isEmpty then some ⟨id, secret, key⟩ else none
    | _, _, _ => none

/-! ## The tag and the props -/

/-- A prop as the tag has it: what is absent is empty. -/
def read (tag : Tag) (name : String) : String := ((tag.getD ∅).get name).getD ""

theorem read_setProp (tag : Tag) (name : String) (value : Option String) (name' : String) :
    read (setProp tag name value) name' = if name' = name then value.getD "" else read tag name' := by
  simp only [read, setProp, Option.getD_some, LinkedMap.get_put]
  split <;> rfl

/-- **The tag keeps the props.** -/
structure Keeps (tag : Tag) (p : Props) : Prop where
  id : read tag "paymentSessionID" = p.paymentSessionID.getD ""
  secret : read tag "paymentSessionSecret" = p.paymentSessionSecret.getD ""
  key : read tag "publicKey" = p.publicKey.getD ""

theorem keeps_none : Keeps none {} := ⟨rfl, rfl, rfl⟩

theorem Keeps.set {tag : Tag} {p : Props} (h : Keeps tag p) (u : PropUpdate) :
    Keeps (ViewManager.set tag u) (p.set u) := by
  cases u with
  | paymentSessionID value =>
      exact ⟨(read_setProp _ _ _ _).trans (if_pos rfl),
        (read_setProp _ _ _ _).trans ((if_neg (by decide)).trans h.secret),
        (read_setProp _ _ _ _).trans ((if_neg (by decide)).trans h.key)⟩
  | paymentSessionSecret value =>
      exact ⟨(read_setProp _ _ _ _).trans ((if_neg (by decide)).trans h.id), (read_setProp _ _ _ _).trans (if_pos rfl),
        (read_setProp _ _ _ _).trans ((if_neg (by decide)).trans h.key)⟩
  | publicKey value =>
      exact ⟨(read_setProp _ _ _ _).trans ((if_neg (by decide)).trans h.id),
        (read_setProp _ _ _ _).trans ((if_neg (by decide)).trans h.secret), (read_setProp _ _ _ _).trans (if_pos rfl)⟩
  | other => exact h

theorem Keeps.setAll {tag : Tag} {p : Props} (h : Keeps tag p) (ps : List PropUpdate) :
    Keeps (ps.foldl ViewManager.set tag) (p.setAll ps) := by
  induction ps generalizing tag p with
  | nil => exact h
  | cons u ps ih => exact ih (h.set u)

theorem maybeInit_read (tag : Tag) : maybeInit tag =
    if (read tag "paymentSessionID").isEmpty || (read tag "paymentSessionSecret").isEmpty ||
        (read tag "publicKey").isEmpty then none
    else some ⟨read tag "paymentSessionID", read tag "paymentSessionSecret", read tag "publicKey"⟩ := by
  cases tag with
  | none => rfl
  | some tag =>
      unfold maybeInit read
      dsimp only
      rcases Option.eq_none_or_eq_some (tag.get "paymentSessionID") with h1 | ⟨id, h1⟩
      · simp [h1]
      rcases Option.eq_none_or_eq_some (tag.get "paymentSessionSecret") with h2 | ⟨secret, h2⟩
      · simp [h2]
      rcases Option.eq_none_or_eq_some (tag.get "publicKey") with h3 | ⟨key, h3⟩
      · simp [h3]
      simp only [h1, h2, h3, Option.getD_some]
      cases id.isEmpty <;> cases secret.isEmpty <;> cases key.isEmpty <;> rfl

/-- **`initialize` is called with the props as they are.** -/
theorem Keeps.maybeInit_eq {tag : Tag} {p : Props} (h : Keeps tag p) : maybeInit tag = p.triple := by
  rw [maybeInit_read, Props.triple_getD, h.id, h.secret, h.key]

end ViewManager

/-! ## The views of a manager -/

/-- The tags of the views, the props at the end of each transaction, and the sessions the SDK was given. -/
structure Managed where
  tag : Nat → Tag := fun _ => none
  ends : Nat → List Props := fun _ => []
  built : List (Nat × Triple) := []

namespace Managed

def update (m : Managed) (v : Nat) (ps : List PropUpdate) : Managed :=
  { m with
    tag := Function.update m.tag v (ps.foldl ViewManager.set (m.tag v))
    ends := Function.update m.ends v (m.ends v ++ [(current (m.ends v)).setAll ps]) }

def build (m : Managed) (v : Nat) (t : Triple) : Managed := { m with built := m.built ++ [(v, t)] }

/-- The tags keep the props, and a session is built with what stood at the end of a transaction. -/
structure Inv (m : Managed) : Prop where
  keeps : ∀ v, ViewManager.Keeps (m.tag v) (current (m.ends v))
  built : ∀ x ∈ m.built, x.2.props ∈ m.ends x.1

variable {m : Managed}

theorem inv_init : Inv {} := ⟨fun _ => ViewManager.keeps_none, nofun⟩

theorem ends_update (m : Managed) (v : Nat) (ps : List PropUpdate) (w : Nat) :
    (m.update v ps).ends w = if w = v then m.ends v ++ [(current (m.ends v)).setAll ps] else m.ends w := by
  change Function.update m.ends v _ w = _
  rw [Function.update_apply]

theorem Inv.update (h : Inv m) (v : Nat) (ps : List PropUpdate) : Inv (m.update v ps) := by
  constructor
  case keeps =>
    intro w
    rw [ends_update]
    change ViewManager.Keeps (Function.update m.tag v _ w) _
    rw [Function.update_apply]
    split
    · rw [current_append]
      exact (h.keeps v).setAll ps
    · exact h.keeps w
  case built =>
    intro x hx
    have hin := h.built x hx
    rw [ends_update]
    split
    · next hv => exact List.mem_append_left _ (hv ▸ hin)
    · exact hin

theorem Inv.fromTransactions (h : Inv m) : FromTransactions m.ends m.built := fromTransactions_iff.mpr h.built

theorem Inv.build (h : Inv m) {v : Nat} {t : Triple} (ht : ViewManager.maybeInit (m.tag v) = some t) :
    Inv (m.build v t) := by
  refine ⟨h.keeps, fun x hx => ?_⟩
  rcases List.mem_append.mp hx with hx | hx
  · exact h.built x hx
  · obtain rfl := List.mem_singleton.mp hx
    rw [(h.keeps v).maybeInit_eq] at ht
    exact mem_of_current ht

end Managed

end FlowDemo.Android
