import Mathlib.Data.Rat.Floor
import FlowDemo.Lib.Machine

/-!
# The height of the card's hosting view

`CardPayView.swift` gives the hosting view a height constraint and observes the scroll views below it: each change of a
content height queues a block that sets the constraint to that height. The height reported to JavaScript is the maximum
over all of them.

* `maxNestedScrollContentHeight_eq`: the recursive maximum is that of the scroll views `gatherScrollViews` lists;
* `measuredHeight_of_tall`: what is reported is that maximum, rounded up;
* `asTall_throughout_iff`: the constraint follows the maximum throughout a run exactly if the view is attached with the
  content as tall as the first constraint, and each block that empties the queue leaves it so.
-/

namespace FlowDemo.Ios.CardHeight

/-! ## The views -/

abbrev ScrollId := Nat

/-- A view, which may be a scroll view, and its subviews. -/
inductive UIView
  | node (scroll : Option ScrollId) (subviews : List UIView)

mutual

def gatherScrollViews : UIView → List ScrollId
  | .node scroll subviews => scroll.toList ++ gatherSubviews subviews

/-- The loop of `gatherScrollViews` over the subviews. -/
def gatherSubviews : List UIView → List ScrollId
  | [] => []
  | sub :: rest => gatherScrollViews sub ++ gatherSubviews rest

end

section

variable (contentHeight : ScrollId → ℚ)

mutual

def maxNestedScrollContentHeight : UIView → ℚ
  | .node none subviews => maxSubviews 0 subviews
  | .node (some scroll) subviews => maxSubviews (max 0 (contentHeight scroll)) subviews

/-- The loop of `maxNestedScrollContentHeight` over the subviews, from `maxHeight` on. -/
def maxSubviews (maxHeight : ℚ) : List UIView → ℚ
  | [] => maxHeight
  | subview :: rest => maxSubviews (max maxHeight (maxNestedScrollContentHeight subview)) rest

end

/-- The tallest content among the scroll views listed. -/
def tallest (scrolls : List ScrollId) : ℚ := scrolls.foldr (fun v height => max (contentHeight v) height) 0

theorem tallest_nonneg (scrolls : List ScrollId) : 0 ≤ tallest contentHeight scrolls := by
  induction scrolls with
  | nil => exact le_rfl
  | cons v rest ih => exact le_max_of_le_right ih

theorem tallest_append (xs ys : List ScrollId) :
    tallest contentHeight (xs ++ ys) = max (tallest contentHeight xs) (tallest contentHeight ys) := by
  induction xs with
  | nil => exact (max_eq_right (tallest_nonneg contentHeight ys)).symm
  | cons v rest ih =>
      change max (contentHeight v) (tallest contentHeight (rest ++ ys)) = _
      rw [ih, ← max_assoc]
      rfl

theorem tallest_congr {contentHeight contentHeight' : ScrollId → ℚ} {scrolls : List ScrollId}
    (h : ∀ v ∈ scrolls, contentHeight v = contentHeight' v) :
    tallest contentHeight scrolls = tallest contentHeight' scrolls := by
  induction scrolls with
  | nil => rfl
  | cons v rest ih =>
      have hrest := ih fun w hw => h w (List.mem_cons_of_mem v hw)
      change max (contentHeight v) (tallest contentHeight rest) = max (contentHeight' v) (tallest contentHeight' rest)
      rw [hrest, h v List.mem_cons_self]

theorem le_tallest {scrolls : List ScrollId} {v : ScrollId} (h : v ∈ scrolls) :
    contentHeight v ≤ tallest contentHeight scrolls := by
  induction scrolls with
  | nil => cases h
  | cons w rest ih =>
      rcases List.mem_cons.mp h with rfl | h
      · exact le_max_left _ _
      · exact le_max_of_le_right (ih h)

mutual

/-- **The recursive maximum is that of the scroll views gathered.** -/
theorem maxNestedScrollContentHeight_eq (view : UIView) :
    maxNestedScrollContentHeight contentHeight view = tallest contentHeight (gatherScrollViews view) := by
  obtain ⟨scroll, subviews⟩ := view
  rw [gatherScrollViews, tallest_append]
  cases scroll with
  | none => exact maxSubviews_eq le_rfl subviews
  | some scroll =>
      rw [maxNestedScrollContentHeight, maxSubviews_eq (le_max_left _ _), max_comm 0]
      rfl

theorem maxSubviews_eq {maxHeight : ℚ} (h : 0 ≤ maxHeight) (subviews : List UIView) :
    maxSubviews contentHeight maxHeight subviews =
      max maxHeight (tallest contentHeight (gatherSubviews subviews)) := by
  match subviews with
  | [] => exact (max_eq_left h).symm
  | subview :: rest =>
      rw [maxSubviews, maxSubviews_eq (le_max_of_le_left h) rest, maxNestedScrollContentHeight_eq subview,
        gatherSubviews, tallest_append, max_assoc]

end

end

/-! ## The card -/

/-- The sizes the environment answers with where no scroll view is tall. -/
structure Sizes where
  boundsHeight : ℚ
  fittedHeight : ℚ

/-- The hosting view is attached exactly if it has its height constraint. -/
structure State where
  hostView : UIView
  contentHeight : ScrollId → ℚ
  hostingControllerHeightConstraint : Option ℚ := none
  scrollObservations : List ScrollId := []
  queue : List ℚ := []
  lastEmittedHeight : Int := 0
  emitted : List Int := []

/-- `maxNestedScrollContentHeight(in: hostView)` -/
def State.nestedScrollHeight (s : State) : ℚ := maxNestedScrollContentHeight s.contentHeight s.hostView

def measuredHeight (s : State) (sizes : Sizes) : Int :=
  match s.hostingControllerHeightConstraint with
  | none => ⌈sizes.boundsHeight⌉
  | some _ =>
      if 10 < s.nestedScrollHeight then ⌈s.nestedScrollHeight⌉
      else if 10 < sizes.fittedHeight then ⌈sizes.fittedHeight⌉
      else ⌈sizes.boundsHeight⌉

def emitCardNativeHeight (s : State) (sizes : Sizes) : State :=
  if 0 < measuredHeight s sizes then
    if measuredHeight s sizes ≠ s.lastEmittedHeight then
      { s with lastEmittedHeight := measuredHeight s sizes, emitted := s.emitted ++ [measuredHeight s sizes] }
    else s
  else s

def attachSwiftUIView (s : State) : State := { s with hostingControllerHeightConstraint := some 420 }

/-- Changes are observed from now on; the heights as they are are not looked at. -/
def setupScrollObservations (s : State) : State :=
  match s.hostingControllerHeightConstraint with
  | none => { s with scrollObservations := [] }
  | some _ => { s with scrollObservations := gatherScrollViews s.hostView }

/-- The end of `initialize`. -/
def attach (s : State) (sizes : Sizes) : State :=
  emitCardNativeHeight (setupScrollObservations (attachSwiftUIView s)) sizes

def resize (s : State) (scroll : ScrollId) (height : ℚ) : State :=
  { s with contentHeight := Function.update s.contentHeight scroll height }

/-- The observation of a scroll view queues a block with the new height. -/
def observe (s : State) (newContentHeight : ℚ) : State :=
  if 10 < newContentHeight then { s with queue := s.queue ++ [newContentHeight] } else s

def changeContentSize (s : State) (scroll : ScrollId) (newContentHeight : ℚ) : State :=
  if scroll ∈ s.scrollObservations then observe (resize s scroll newContentHeight) newContentHeight
  else resize s scroll newContentHeight

/-- What the block sets the constraint to. -/
def pin (constant nextHeight : ℚ) : ℚ := if |constant - nextHeight| > 1 / 2 then nextHeight else constant

def runBlock (s : State) (sizes : Sizes) : State :=
  match s.queue with
  | [] => s
  | nextHeight :: queue =>
      emitCardNativeHeight
        { s with
          queue := queue
          hostingControllerHeightConstraint := s.hostingControllerHeightConstraint.map fun hc => pin hc nextHeight }
        sizes

inductive Event
  /-- `initialize` attaches the rendered view -/
  | attach (sizes : Sizes)
  | setupScrollObservations
  | changeContentSize (scroll : ScrollId) (newContentHeight : ℚ)
  | runBlock (sizes : Sizes)

def allowed (s : State) : Event → Prop
  | .attach _ => s.hostingControllerHeightConstraint = none
  | .setupScrollObservations => True
  | .changeContentSize _ newContentHeight => 10 < newContentHeight
  | .runBlock _ => s.queue ≠ []

def step (s : State) : Event → State
  | .attach sizes => attach s sizes
  | .setupScrollObservations => setupScrollObservations s
  | .changeContentSize scroll newContentHeight => changeContentSize s scroll newContentHeight
  | .runBlock sizes => runBlock s sizes

/-- A card that will render `hostView`, whose scroll views have the given heights. -/
def machine (hostView : UIView) (contentHeight : ScrollId → ℚ) : Machine State Event :=
  ⟨{ hostView := hostView, contentHeight := contentHeight }, allowed, step⟩

instance (s : State) : (e : Event) → Decidable (allowed s e)
  | .attach _ => inferInstanceAs (Decidable (s.hostingControllerHeightConstraint = none))
  | .setupScrollObservations => isTrue trivial
  | .changeContentSize _ newContentHeight => inferInstanceAs (Decidable (10 < newContentHeight))
  | .runBlock _ => inferInstanceAs (Decidable (s.queue ≠ []))

instance (hostView : UIView) (contentHeight : ScrollId → ℚ) (s : State) (e : Event) :
    Decidable ((machine hostView contentHeight).allowed s e) := inferInstanceAs (Decidable (allowed s e))

/-! ## What is reported -/

/-- Some scroll view has more than 10 points of content. -/
def State.Tall (s : State) : Prop := ∃ scroll ∈ gatherScrollViews s.hostView, 10 < s.contentHeight scroll

theorem State.Tall.lt_nestedScrollHeight {s : State} (h : s.Tall) : 10 < s.nestedScrollHeight := by
  obtain ⟨scroll, hmem, htall⟩ := h
  rw [State.nestedScrollHeight, maxNestedScrollContentHeight_eq]
  exact lt_of_lt_of_le htall (le_tallest s.contentHeight hmem)

/-- **What is reported is the tallest content, rounded up**, once a scroll view is tall. -/
theorem measuredHeight_of_tall {s : State} (h : s.Tall) (hattached : s.hostingControllerHeightConstraint ≠ none)
    (sizes : Sizes) : measuredHeight s sizes = ⌈s.nestedScrollHeight⌉ := by
  unfold measuredHeight
  split
  · next hnone => exact absurd hnone hattached
  · exact if_pos h.lt_nestedScrollHeight

theorem emitCardNativeHeight_eq (s : State) (sizes : Sizes) :
    ∃ last emitted, emitCardNativeHeight s sizes = { s with lastEmittedHeight := last, emitted := emitted } := by
  unfold emitCardNativeHeight
  split
  · split
    · exact ⟨_, _, rfl⟩
    · exact ⟨_, _, rfl⟩
  · exact ⟨_, _, rfl⟩

/-! ## The constraint and the content -/

/-- **The hosting view is as tall as its content**, but for half a point, once it is attached, a scroll view is tall and
no block is queued. -/
def AsTall (s : State) : Prop :=
  ∀ hc, s.hostingControllerHeightConstraint = some hc → s.Tall → s.queue = [] → |hc - s.nestedScrollHeight| ≤ 1 / 2

/-- When a step leaves the hosting view as tall as its content: the content that is there when it is attached fits the
first constraint, and the block that empties the queue carries the height of the tallest content or, where it leaves the
constraint alone, that one fits. -/
def FollowsTallest (s : State) : Event → Prop
  | .attach _ => s.Tall → |420 - s.nestedScrollHeight| ≤ 1 / 2
  | .runBlock _ => ∀ hc nextHeight, s.hostingControllerHeightConstraint = some hc → s.queue = [nextHeight] → s.Tall →
      if |hc - nextHeight| > 1 / 2 then |nextHeight - s.nestedScrollHeight| ≤ 1 / 2
      else |hc - s.nestedScrollHeight| ≤ 1 / 2
  | .setupScrollObservations => True
  | .changeContentSize _ _ => True

/-- Nothing is queued before the view is attached, and each scroll view is observed from then on. -/
structure Inv (s : State) : Prop where
  idle : s.hostingControllerHeightConstraint = none → s.queue = [] ∧ s.scrollObservations = []
  observed : s.hostingControllerHeightConstraint ≠ none → s.scrollObservations = gatherScrollViews s.hostView

theorem emitCardNativeHeight_inv {s : State} (sizes : Sizes) : Inv (emitCardNativeHeight s sizes) ↔ Inv s := by
  obtain ⟨last, emitted, h⟩ := emitCardNativeHeight_eq s sizes
  rw [h]
  exact ⟨fun hi => ⟨hi.idle, hi.observed⟩, fun hi => ⟨hi.idle, hi.observed⟩⟩

theorem emitCardNativeHeight_asTall {s : State} (sizes : Sizes) :
    AsTall (emitCardNativeHeight s sizes) ↔ AsTall s := by
  obtain ⟨last, emitted, h⟩ := emitCardNativeHeight_eq s sizes
  rw [h]
  exact Iff.rfl

theorem setupScrollObservations_of_attached {s : State} (h : s.hostingControllerHeightConstraint ≠ none) :
    setupScrollObservations s = { s with scrollObservations := gatherScrollViews s.hostView } := by
  unfold setupScrollObservations
  split
  · next hnone => exact absurd hnone h
  · rfl

theorem setupScrollObservations_of_detached {s : State} (h : s.hostingControllerHeightConstraint = none) :
    setupScrollObservations s = { s with scrollObservations := [] } := by
  unfold setupScrollObservations
  rw [h]

/-! ### What a change of a content height leaves as it is -/

section

variable {s : State} {scroll : ScrollId} (h : scroll ∉ gatherScrollViews s.hostView) (height : ℚ)

include h

theorem contentHeight_resize {v : ScrollId} (hv : v ∈ gatherScrollViews s.hostView) :
    (resize s scroll height).contentHeight v = s.contentHeight v := by
  apply Function.update_of_ne
  intro heq
  rw [heq] at hv
  exact h hv

theorem nestedScrollHeight_resize : (resize s scroll height).nestedScrollHeight = s.nestedScrollHeight := by
  rw [State.nestedScrollHeight, State.nestedScrollHeight, maxNestedScrollContentHeight_eq,
    maxNestedScrollContentHeight_eq]
  exact tallest_congr fun v hv => contentHeight_resize h height hv

theorem tall_resize : (resize s scroll height).Tall ↔ s.Tall := by
  apply exists_congr
  intro v
  apply and_congr_right
  intro hv
  rw [contentHeight_resize h height hv]

end

/-! ### Steps -/

section

variable {s : State}

theorem attach_inv (sizes : Sizes) : Inv (attach s sizes) := by
  have hattached : (attachSwiftUIView s).hostingControllerHeightConstraint ≠ none := Option.some_ne_none _
  rw [attach, emitCardNativeHeight_inv, setupScrollObservations_of_attached hattached]
  exact ⟨fun h => absurd h hattached, fun _ => rfl⟩

theorem setupScrollObservations_inv (h : Inv s) : Inv (setupScrollObservations s) := by
  by_cases hnone : s.hostingControllerHeightConstraint = none
  · rw [setupScrollObservations_of_detached hnone]
    exact ⟨fun _ => ⟨(h.idle hnone).1, rfl⟩, fun hne => absurd hnone hne⟩
  · rw [setupScrollObservations_of_attached hnone]
    exact ⟨fun hn => absurd hn hnone, fun _ => rfl⟩

theorem changeContentSize_inv (h : Inv s) (scroll : ScrollId) (newContentHeight : ℚ) :
    Inv (changeContentSize s scroll newContentHeight) := by
  unfold changeContentSize observe
  split
  · next hmem =>
      have hattached : s.hostingControllerHeightConstraint ≠ none := by
        intro hnone
        rw [(h.idle hnone).2] at hmem
        cases hmem
      split
      · exact ⟨fun hnone => absurd hnone hattached, fun _ => h.observed hattached⟩
      · exact ⟨h.idle, h.observed⟩
  · exact ⟨h.idle, h.observed⟩

theorem runBlock_inv (h : Inv s) (sizes : Sizes) : Inv (runBlock s sizes) := by
  unfold runBlock
  split
  · exact h
  · next nextHeight queue hq =>
      rw [emitCardNativeHeight_inv]
      constructor
      · intro hnone
        have hidle := h.idle (Option.map_eq_none_iff.mp hnone)
        rw [hq] at hidle
        exact absurd hidle.1 (List.cons_ne_nil _ _)
      · intro hsome
        exact h.observed fun hnone => hsome (Option.map_eq_none_iff.mpr hnone)

theorem step_inv (h : Inv s) (e : Event) : Inv (step s e) := by
  cases e with
  | attach sizes => exact attach_inv sizes
  | setupScrollObservations => exact setupScrollObservations_inv h
  | changeContentSize scroll newContentHeight => exact changeContentSize_inv h scroll newContentHeight
  | runBlock sizes => exact runBlock_inv h sizes

theorem attach_asTall (h : Inv s) (hdetached : s.hostingControllerHeightConstraint = none) (sizes : Sizes) :
    AsTall (attach s sizes) ↔ (s.Tall → |420 - s.nestedScrollHeight| ≤ 1 / 2) := by
  have hattached : (attachSwiftUIView s).hostingControllerHeightConstraint ≠ none := Option.some_ne_none _
  rw [attach, emitCardNativeHeight_asTall, setupScrollObservations_of_attached hattached]
  constructor
  · intro ht htall
    exact ht 420 rfl htall (h.idle hdetached).1
  · rintro ht hc hsome htall -
    rw [← Option.some.inj hsome]
    exact ht htall

theorem setupScrollObservations_asTall (hs : AsTall s) : AsTall (setupScrollObservations s) := by
  by_cases hnone : s.hostingControllerHeightConstraint = none
  · rw [setupScrollObservations_of_detached hnone]
    exact hs
  · rw [setupScrollObservations_of_attached hnone]
    exact hs

/-- The change of a scroll view below the hosting view queues a block, and no other changes the maximum. -/
theorem changeContentSize_asTall (h : Inv s) (hs : AsTall s) (scroll : ScrollId) {newContentHeight : ℚ}
    (htall : 10 < newContentHeight) : AsTall (changeContentSize s scroll newContentHeight) := by
  unfold changeContentSize
  split
  · rw [observe, if_pos htall]
    rintro hc - - hq
    exact absurd hq (List.append_ne_nil_of_right_ne_nil _ (List.cons_ne_nil _ _))
  · next hmem =>
      intro hc hsome htall' hq
      have hattached : s.hostingControllerHeightConstraint ≠ none := by
        rw [show s.hostingControllerHeightConstraint = some hc from hsome]
        exact Option.some_ne_none hc
      rw [h.observed hattached] at hmem
      rw [nestedScrollHeight_resize hmem]
      exact hs hc hsome ((tall_resize hmem newContentHeight).mp htall') hq

theorem runBlock_asTall (hqueue : s.queue ≠ []) (sizes : Sizes) :
    AsTall (runBlock s sizes) ↔ FollowsTallest s (.runBlock sizes) := by
  have hpin (hc nextHeight : ℚ) : |pin hc nextHeight - s.nestedScrollHeight| ≤ 1 / 2 ↔
      if |hc - nextHeight| > 1 / 2 then |nextHeight - s.nestedScrollHeight| ≤ 1 / 2
      else |hc - s.nestedScrollHeight| ≤ 1 / 2 := by
    unfold pin
    split
    · exact Iff.rfl
    · exact Iff.rfl
  unfold runBlock
  split
  · next hnil => exact absurd hnil hqueue
  · next nextHeight queue hq =>
      rw [emitCardNativeHeight_asTall]
      constructor
      · intro ht hc next hsome hlast htall
        obtain ⟨rfl, rfl⟩ := List.cons.inj (hq.symm.trans hlast)
        rw [← hpin]
        exact ht (pin hc nextHeight) (congrArg (Option.map fun hc => pin hc nextHeight) hsome) htall rfl
      · intro hf hc hsome htall hnil
        obtain ⟨hc, hold, rfl⟩ := Option.map_eq_some_iff.mp hsome
        have hlast : s.queue = [nextHeight] := by rw [hq, show queue = [] from hnil]
        exact (hpin hc nextHeight).mpr (hf hc nextHeight hold hlast htall)

theorem step_asTall (h : Inv s) (hs : AsTall s) {e : Event} (he : allowed s e) :
    AsTall (step s e) ↔ FollowsTallest s e := by
  cases e with
  | attach sizes => exact attach_asTall h he sizes
  | setupScrollObservations => exact iff_of_true (setupScrollObservations_asTall hs) trivial
  | changeContentSize scroll newContentHeight => exact iff_of_true (changeContentSize_asTall h hs scroll he) trivial
  | runBlock sizes => exact runBlock_asTall he sizes

end

/-! ## Runs -/

theorem inv_init (hostView : UIView) (contentHeight : ScrollId → ℚ) : Inv (machine hostView contentHeight).init :=
  ⟨fun _ => ⟨rfl, rfl⟩, fun h => absurd rfl h⟩

/-- **Throughout a run the hosting view is as tall as its content exactly if each step follows the tallest content.** -/
theorem asTall_throughout_iff {hostView : UIView} {contentHeight : ScrollId → ℚ} {es : List Event}
    (h : (machine hostView contentHeight).Admits (machine hostView contentHeight).init es) :
    (machine hostView contentHeight).Throughout AsTall (machine hostView contentHeight).init es ↔
      ((machine hostView contentHeight).restrict FollowsTallest).Admits (machine hostView contentHeight).init es := by
  apply Machine.throughout_iff_restrict (I := Inv)
  · exact fun s e hs _ => step_inv hs e
  · exact fun s e hs ht he => step_asTall hs ht he
  · exact inv_init hostView contentHeight
  · rintro hc hsome
    cases hsome
  · exact h

abbrev sampleMachine (scrolls : List ScrollId) : Machine State Event :=
  machine (.node none (scrolls.map fun v => .node (some v) [])) fun _ => 0

def sampleSizes : Sizes := ⟨300, 0⟩

/-- One scroll view, which gets its content once it is attached. -/
theorem asTall_throughout_form :
    (sampleMachine [0]).Throughout AsTall (sampleMachine [0]).init
      [.attach sampleSizes, .changeContentSize 0 500, .setupScrollObservations, .runBlock sampleSizes] := by
  have h : (sampleMachine [0]).Admits (sampleMachine [0]).init
      [.attach sampleSizes, .changeContentSize 0 500, .setupScrollObservations, .runBlock sampleSizes] :=
    by decide +kernel
  obtain ⟨h1, h2, h3, h4, -⟩ := id h
  refine (asTall_throughout_iff h).mpr ⟨⟨h1, ?_⟩, ⟨h2, trivial⟩, ⟨h3, trivial⟩, ⟨h4, ?_⟩, trivial⟩
  · rintro ⟨v, -, htall⟩
    exact absurd (show (10 : ℚ) < 0 from htall) (by norm_num)
  · intro hc nextHeight hsome hq _
    obtain rfl : 420 = hc := Option.some.inj hsome
    obtain rfl : 500 = nextHeight := (List.cons.inj hq).1
    rw [if_pos (by norm_num [abs_of_neg])]
    decide +kernel

/-- **The scroll view that changed last wins**: with contents of 500 and then of 100 points, the constraint ends at 100
where 500 are reported. And content that is there when the view is attached is not looked at: the constraint stays 420
where 300 are reported. -/
theorem last_change_wins :
    let M := sampleMachine [0, 1]
    let s := M.run M.init [.attach sampleSizes, .changeContentSize 0 500, .changeContentSize 1 100,
      .runBlock sampleSizes, .runBlock sampleSizes]
    let N := machine (.node (some 0) []) fun _ => 300
    let t := N.run N.init [.attach sampleSizes]
    (M.Reachable s ∧ s.queue = [] ∧ s.hostingControllerHeightConstraint = some 100 ∧ s.nestedScrollHeight = 500 ∧
        s.emitted = [300, 500] ∧ ¬ AsTall s) ∧
      N.Reachable t ∧ t.queue = [] ∧ t.hostingControllerHeightConstraint = some 420 ∧ t.nestedScrollHeight = 300 ∧
        t.emitted = [300] ∧ ¬ AsTall t := by
  intro M s N t
  have hs : s.hostingControllerHeightConstraint = some 100 := by decide +kernel
  have ht : t.hostingControllerHeightConstraint = some 420 := by decide +kernel
  have hs500 : s.nestedScrollHeight = 500 := by decide +kernel
  have ht300 : t.nestedScrollHeight = 300 := by decide +kernel
  have hsq : s.queue = [] := by decide +kernel
  have htq : t.queue = [] := by decide +kernel
  refine ⟨⟨Machine.Reachable.of_admits ?_, hsq, hs, hs500, by decide +kernel, ?_⟩,
    Machine.Reachable.of_admits ?_, htq, ht, ht300, by decide +kernel, ?_⟩
  · decide +kernel
  · intro htall
    have h := htall 100 hs ⟨0, by decide +kernel, by decide +kernel⟩ hsq
    rw [hs500] at h
    norm_num [abs_of_neg] at h
  · exact ⟨rfl, trivial⟩
  · intro htall
    have h := htall 420 ht ⟨0, by decide +kernel, by decide +kernel⟩ htq
    rw [ht300] at h
    norm_num [abs_of_pos] at h

end FlowDemo.Ios.CardHeight
