import FlowDemo.Ios.CardHeight
import FlowDemo.Lib.Reporter

/-!
# The heights the iOS card reports

`emitCardNativeHeight` of `CardPayView.swift` runs when the view is attached, at the end of each queued block, in
`layoutSubviews` and in the SDK's `onChange`. It measures the content as it is then, so that what is reported does not
depend on which scroll view a block was queued for.

* `Ledger`: what `emitCardNativeHeight` remembers is what it reported last;
* `Changes`: every height reported is positive and another one than the last;
* `upToDate_throughout_iff`: with no block queued the last report is of the tallest content, exactly if no scroll view
  takes the maximum down by shrinking to 10 points or less.
-/

namespace FlowDemo.Ios.CardHeight.Reported

inductive Event
  | card (e : CardHeight.Event)
  | layoutSubviews (sizes : Sizes)
  | onChange (sizes : Sizes)

/-- The scroll views are observed from here on if none is yet. -/
def layoutSubviews (s : State) (sizes : Sizes) : State :=
  emitCardNativeHeight (if s.scrollObservations = [] then setupScrollObservations s else s) sizes

/-- The SDK's `onChange`, but for the validity and the change event. -/
def onChange (s : State) (sizes : Sizes) : State := emitCardNativeHeight (setupScrollObservations s) sizes

/-- A content height may be any, also one that the observation drops. -/
def allowed (s : State) : Event → Prop
  | .card (.changeContentSize _ _) => True
  | .card e => CardHeight.allowed s e
  | _ => True

def step (s : State) : Event → State
  | .card e => CardHeight.step s e
  | .layoutSubviews sizes => layoutSubviews s sizes
  | .onChange sizes => onChange s sizes

def machine (hostView : UIView) (contentHeight : ScrollId → ℚ) : Machine State Event :=
  ⟨{ hostView := hostView, contentHeight := contentHeight }, allowed, step⟩

/-! ## The property -/

/-- **Every report is a change**: to a positive height, and never to the one reported last. -/
structure Changes (s : State) : Prop where
  positive : ∀ height ∈ s.emitted, 0 < height
  changes : s.emitted.IsChain (· ≠ ·)

/-- **The last report is of the tallest content**, once the view is attached, a scroll view is tall and no block is
queued. -/
def UpToDate (s : State) : Prop :=
  s.hostingControllerHeightConstraint ≠ none → s.Tall → s.queue = [] → s.emitted.getLast? = some ⌈s.nestedScrollHeight⌉

/-- The content that shrinks to 10 points or less, which nobody is told, leaves the maximum as it was, but for what is
rounded up. -/
def KeepsMaximum (s : State) : Event → Prop
  | .card (.changeContentSize scroll newContentHeight) => newContentHeight ≤ 10 →
      s.hostingControllerHeightConstraint ≠ none → s.queue = [] → (resize s scroll newContentHeight).Tall →
      ⌈(resize s scroll newContentHeight).nestedScrollHeight⌉ = ⌈s.nestedScrollHeight⌉
  | _ => True

/-! ## What is reported -/

/-- The reporter of a card, which remembers nothing before its first report. -/
def reporter (s : State) : Reporter Int Int :=
  ⟨if s.lastEmittedHeight = 0 then none else some s.lastEmittedHeight, s.emitted⟩

/-- The card has reported positive heights, and those that are changes. -/
def Ledger (s : State) : Prop := Reporter.Offered id (fun height => 0 < height) (reporter s)

theorem Ledger.changes {s : State} (h : Ledger s) : Changes s := by
  constructor
  · intro height hheight
    obtain ⟨_, hpos, rfl⟩ := h.mem hheight
    exact hpos
  · exact h.isChain fun _ _ _ _ heq => heq

theorem emitCardNativeHeight_of_nonpos {s : State} {sizes : Sizes} (h : measuredHeight s sizes ≤ 0) :
    emitCardNativeHeight s sizes = s := if_neg (not_lt.mpr h)

theorem reporter_emitCardNativeHeight {s : State} {sizes : Sizes} (h : 0 < measuredHeight s sizes) :
    reporter (emitCardNativeHeight s sizes) = (reporter s).offer id (measuredHeight s sizes) := by
  have hlast : (reporter s).last = some (measuredHeight s sizes) ↔ measuredHeight s sizes = s.lastEmittedHeight := by
    change (if s.lastEmittedHeight = 0 then none else some s.lastEmittedHeight) = _ ↔ _
    split
    · next h0 => simp [h0, h.ne']
    · rw [Option.some.injEq, eq_comm]
  rw [emitCardNativeHeight, if_pos h, Reporter.offer]
  split
  · next hne =>
      rw [if_neg fun hr => hne (hlast.mp hr)]
      unfold reporter
      rw [if_neg h.ne']
      rfl
  · next heq => rw [if_pos (hlast.mpr (not_not.mp heq))]

/-- **What every step does to the reporter**: it offers positive heights. -/
def Offers (s t : State) : Prop := Reporter.Fed id (fun height => 0 < height) (reporter s) (reporter t)

theorem offers_of_same {s t : State} (h : reporter t = reporter s) : Offers s t := by
  unfold Offers
  rw [h]
  exact Reporter.Fed.refl

theorem Offers.trans {s t u : State} (h : Offers s t) (h' : Offers t u) : Offers s u := Reporter.Fed.trans h h'

theorem Ledger.offers {s t : State} (h : Ledger s) (h' : Offers s t) : Ledger t := Reporter.Offered.fed h h'

theorem offers_emit (s : State) (sizes : Sizes) : Offers s (emitCardNativeHeight s sizes) := by
  by_cases hpos : 0 < measuredHeight s sizes
  · unfold Offers
    rw [reporter_emitCardNativeHeight hpos]
    exact Reporter.fed_offer hpos
  · rw [emitCardNativeHeight_of_nonpos (not_lt.mp hpos)]
    exact offers_of_same rfl

/-- **A report brings the last one up to date.** -/
theorem emitCardNativeHeight_upToDate {s : State} (h : Ledger s) (sizes : Sizes) :
    UpToDate (emitCardNativeHeight s sizes) := by
  have hledger := h.offers (offers_emit s sizes)
  obtain ⟨last, emitted, heq⟩ := emitCardNativeHeight_eq s sizes
  intro hattached htall _
  have htall' : s.Tall := by rwa [heq] at htall
  have hmeasured : measuredHeight s sizes = ⌈s.nestedScrollHeight⌉ := by
    apply measuredHeight_of_tall htall'
    rwa [heq] at hattached
  have hnested : (emitCardNativeHeight s sizes).nestedScrollHeight = s.nestedScrollHeight := by rw [heq]; rfl
  have hpos : 0 < measuredHeight s sizes := by
    rw [hmeasured]
    exact Int.ceil_pos.mpr (lt_trans (by norm_num) htall'.lt_nestedScrollHeight)
  have hlast : (reporter (emitCardNativeHeight s sizes)).last = some (measuredHeight s sizes) := by
    rw [reporter_emitCardNativeHeight hpos, Reporter.offer_last]
  calc (emitCardNativeHeight s sizes).emitted.getLast?
      = (reporter (emitCardNativeHeight s sizes)).last.map id := hledger.getLast?_eq
    _ = some (measuredHeight s sizes) := by rw [hlast]; rfl
    _ = some ⌈(emitCardNativeHeight s sizes).nestedScrollHeight⌉ := by rw [hmeasured, hnested]

/-! ## Steps -/

section

variable {s : State}

theorem reporter_setupScrollObservations (s : State) : reporter (setupScrollObservations s) = reporter s := by
  unfold setupScrollObservations
  split <;> rfl

theorem reporter_changeContentSize (s : State) (scroll : ScrollId) (newContentHeight : ℚ) :
    reporter (changeContentSize s scroll newContentHeight) = reporter s := by
  unfold changeContentSize observe
  split
  · split <;> rfl
  · rfl

theorem ledger_setupScrollObservations (h : Ledger s) : Ledger (setupScrollObservations s) := by
  unfold Ledger
  rw [reporter_setupScrollObservations]
  exact h

theorem runBlock_cases (s : State) (sizes : Sizes) :
    runBlock s sizes = s ∨ ∃ t, reporter t = reporter s ∧ runBlock s sizes = emitCardNativeHeight t sizes := by
  unfold runBlock
  split
  · exact Or.inl rfl
  · next nextHeight queue _ =>
      exact Or.inr ⟨{ s with
        queue := queue
        hostingControllerHeightConstraint := s.hostingControllerHeightConstraint.map fun hc => pin hc nextHeight },
        rfl, rfl⟩

theorem observing_cases (s : State) :
    (if s.scrollObservations = [] then setupScrollObservations s else s) = setupScrollObservations s ∨
      (if s.scrollObservations = [] then setupScrollObservations s else s) = s := by
  split
  · exact Or.inl rfl
  · exact Or.inr rfl

theorem layoutSubviews_cases (s : State) (sizes : Sizes) :
    layoutSubviews s sizes = onChange s sizes ∨ layoutSubviews s sizes = emitCardNativeHeight s sizes := by
  unfold layoutSubviews onChange
  rcases observing_cases s with h | h
  · rw [h]
    exact Or.inl rfl
  · rw [h]
    exact Or.inr rfl

theorem offers_step (s : State) (e : Event) : Offers s (step s e) := by
  have honChange : ∀ sizes, Offers s (onChange s sizes) := fun sizes =>
    (offers_of_same (reporter_setupScrollObservations s)).trans (offers_emit _ sizes)
  cases e with
  | card e =>
      cases e with
      | attach sizes =>
          have hattached : Offers s (setupScrollObservations (attachSwiftUIView s)) :=
            offers_of_same (reporter_setupScrollObservations (attachSwiftUIView s))
          exact hattached.trans (offers_emit _ sizes)
      | setupScrollObservations => exact offers_of_same (reporter_setupScrollObservations s)
      | changeContentSize scroll newContentHeight =>
          exact offers_of_same (reporter_changeContentSize s scroll newContentHeight)
      | runBlock sizes =>
          change Offers s (runBlock s sizes)
          rcases runBlock_cases s sizes with heq | ⟨t, ht, heq⟩
          · rw [heq]
            exact offers_of_same rfl
          · rw [heq]
            exact (offers_of_same ht).trans (offers_emit t sizes)
  | layoutSubviews sizes =>
      change Offers s (layoutSubviews s sizes)
      rcases layoutSubviews_cases s sizes with heq | heq
      · rw [heq]
        exact honChange sizes
      · rw [heq]
        exact offers_emit s sizes
  | onChange sizes => exact honChange sizes

theorem ledger_step (h : Ledger s) (e : Event) : Ledger (step s e) := h.offers (offers_step s e)

theorem inv_step (h : Inv s) (e : Event) : Inv (step s e) := by
  have honChange : ∀ sizes, Inv (onChange s sizes) := fun sizes =>
    (emitCardNativeHeight_inv sizes).mpr (setupScrollObservations_inv h)
  cases e with
  | card e => exact CardHeight.step_inv h e
  | layoutSubviews sizes =>
      change Inv (layoutSubviews s sizes)
      rcases layoutSubviews_cases s sizes with heq | heq
      · rw [heq]
        exact honChange sizes
      · rw [heq]
        exact (emitCardNativeHeight_inv sizes).mpr h
  | onChange sizes => exact honChange sizes

/-- Content that shrinks to 10 points or less makes nothing tall. -/
theorem tall_of_resize {scroll : ScrollId} {height : ℚ} (hsmall : height ≤ 10) (h : (resize s scroll height).Tall) :
    s.Tall := by
  obtain ⟨v, hv, htall⟩ := h
  refine ⟨v, hv, ?_⟩
  change 10 < Function.update s.contentHeight scroll height v at htall
  rw [Function.update_apply] at htall
  split at htall
  · exact absurd htall (not_lt.mpr hsmall)
  · exact htall

/-- A change of a content height queues a block, or is of no scroll view below the hosting view, or is the one that
nobody is told. -/
theorem changeContentSize_upToDate (h : Inv s) (hs : UpToDate s) (scroll : ScrollId) (newContentHeight : ℚ) :
    UpToDate (changeContentSize s scroll newContentHeight) ↔
      KeepsMaximum s (.card (.changeContentSize scroll newContentHeight)) := by
  unfold changeContentSize
  split
  · next hmem =>
      by_cases htall : 10 < newContentHeight
      · rw [observe, if_pos htall]
        refine iff_of_true (fun _ _ hq => ?_) fun hsmall => absurd htall (not_lt.mpr hsmall)
        exact absurd hq (List.append_ne_nil_of_right_ne_nil _ (List.cons_ne_nil _ _))
      · have hsmall : newContentHeight ≤ 10 := not_lt.mp htall
        rw [observe, if_neg htall]
        constructor
        · intro ht _ hattached hq htall'
          have hlast := ht hattached htall' hq
          rw [show (resize s scroll newContentHeight).emitted = s.emitted from rfl,
            hs hattached (tall_of_resize hsmall htall') hq] at hlast
          exact (Option.some.inj hlast).symm
        · intro hkeep hattached htall' hq
          rw [hkeep hsmall hattached hq htall']
          exact hs hattached (tall_of_resize hsmall htall') hq
  · next hmem =>
      by_cases hattached : s.hostingControllerHeightConstraint = none
      · exact iff_of_true (fun hne => absurd hattached hne) fun _ hne => absurd hattached hne
      · rw [h.observed hattached] at hmem
        have hnested := nestedScrollHeight_resize hmem newContentHeight
        refine iff_of_true (fun hne htall hq => ?_) fun _ _ _ _ => congrArg Int.ceil hnested
        rw [hnested]
        exact hs hne ((tall_resize hmem newContentHeight).mp htall) hq

theorem setupScrollObservations_upToDate (hs : UpToDate s) : UpToDate (setupScrollObservations s) := by
  unfold setupScrollObservations
  split
  · exact hs
  · exact hs

/-- **A step keeps the reports up to date exactly if it keeps the maximum** where nobody is told of a change. -/
theorem step_upToDate (h : Inv s) (hl : Ledger s) (hs : UpToDate s) {e : Event} (he : allowed s e) :
    UpToDate (step s e) ↔ KeepsMaximum s e := by
  have honChange : ∀ sizes, UpToDate (onChange s sizes) := fun sizes =>
    emitCardNativeHeight_upToDate (ledger_setupScrollObservations hl) sizes
  cases e with
  | card e =>
      cases e with
      | attach sizes =>
          have hattached : Ledger (attachSwiftUIView s) := hl
          exact iff_of_true (emitCardNativeHeight_upToDate (ledger_setupScrollObservations hattached) sizes) trivial
      | setupScrollObservations => exact iff_of_true (setupScrollObservations_upToDate hs) trivial
      | changeContentSize scroll newContentHeight => exact changeContentSize_upToDate h hs scroll newContentHeight
      | runBlock sizes =>
          refine iff_of_true ?_ trivial
          change UpToDate (runBlock s sizes)
          rcases runBlock_cases s sizes with heq | ⟨t, ht, heq⟩
          · rw [heq]
            exact hs
          · rw [heq]
            exact emitCardNativeHeight_upToDate (show Reporter.Offered _ _ (reporter t) from ht ▸ hl) sizes
  | layoutSubviews sizes =>
      refine iff_of_true ?_ trivial
      change UpToDate (layoutSubviews s sizes)
      rcases layoutSubviews_cases s sizes with heq | heq
      · rw [heq]
        exact honChange sizes
      · rw [heq]
        exact emitCardNativeHeight_upToDate hl sizes
  | onChange sizes => exact iff_of_true (honChange sizes) trivial

end

/-! ## Runs -/

/-- **Every height reported is a change, and the last report is of the tallest content, whenever no block is queued,
exactly in the runs** whose content that shrinks to 10 points or less leaves the maximum as it was. -/
theorem upToDate_throughout_iff {hostView : UIView} {contentHeight : ScrollId → ℚ} {es : List Event}
    (h : (machine hostView contentHeight).Admits (machine hostView contentHeight).init es) :
    (machine hostView contentHeight).Throughout Changes (machine hostView contentHeight).init es ∧
      ((machine hostView contentHeight).Throughout UpToDate (machine hostView contentHeight).init es ↔
        ((machine hostView contentHeight).restrict KeepsMaximum).Admits (machine hostView contentHeight).init es) := by
  have hinit : Inv (machine hostView contentHeight).init := CardHeight.inv_init hostView contentHeight
  have hledger : Ledger (machine hostView contentHeight).init := Reporter.offered_init
  constructor
  · exact Machine.throughout_of_invariant (I := Ledger) (fun _ e hs _ => ledger_step hs e) (fun _ hs => hs.changes)
      hledger h
  · apply Machine.throughout_iff_restrict (I := fun s => Inv s ∧ Ledger s)
    · exact fun s e hs _ => ⟨inv_step hs.1 e, ledger_step hs.2 e⟩
    · exact fun s e hs ht he => step_upToDate hs.1 hs.2 ht he
    · exact ⟨hinit, hledger⟩
    · exact fun hattached => absurd rfl hattached
    · exact h

instance (s : State) : (e : Event) → Decidable (allowed s e)
  | .card (.changeContentSize _ _) => isTrue trivial
  | .card (.attach sizes) => inferInstanceAs (Decidable (CardHeight.allowed s (.attach sizes)))
  | .card .setupScrollObservations => isTrue trivial
  | .card (.runBlock sizes) => inferInstanceAs (Decidable (CardHeight.allowed s (.runBlock sizes)))
  | .layoutSubviews _ => isTrue trivial
  | .onChange _ => isTrue trivial

instance (hostView : UIView) (contentHeight : ScrollId → ℚ) (s : State) (e : Event) :
    Decidable ((machine hostView contentHeight).allowed s e) := inferInstanceAs (Decidable (allowed s e))

instance (s : State) : Decidable s.Tall :=
  inferInstanceAs (Decidable (∃ scroll ∈ gatherScrollViews s.hostView, 10 < s.contentHeight scroll))

instance (s : State) : (e : Event) → Decidable (KeepsMaximum s e)
  | .card (.changeContentSize scroll newContentHeight) => inferInstanceAs (Decidable (newContentHeight ≤ 10 →
      s.hostingControllerHeightConstraint ≠ none → s.queue = [] → (resize s scroll newContentHeight).Tall →
      ⌈(resize s scroll newContentHeight).nestedScrollHeight⌉ = ⌈s.nestedScrollHeight⌉))
  | .card (.attach _) => isTrue trivial
  | .card .setupScrollObservations => isTrue trivial
  | .card (.runBlock _) => isTrue trivial
  | .layoutSubviews _ => isTrue trivial
  | .onChange _ => isTrue trivial

instance (hostView : UIView) (contentHeight : ScrollId → ℚ) (s : State) (e : Event) :
    Decidable (((machine hostView contentHeight).restrict KeepsMaximum).allowed s e) :=
  inferInstanceAs (Decidable (allowed s e ∧ KeepsMaximum s e))

/-- Two scroll views, the one that changed last the shorter: the reports follow the taller one. But when that one
shrinks to 5 points, the last report stays 500 where the content is 100. -/
theorem upToDate_two_scroll_views :
    let M := machine (.node none [.node (some 0) [], .node (some 1) []]) fun _ => 0
    let es : List Event := [.card (.attach sampleSizes), .card (.changeContentSize 0 500),
      .card (.changeContentSize 1 100), .card (.runBlock sampleSizes), .card (.runBlock sampleSizes)]
    let s := M.run M.init (es ++ [.card (.changeContentSize 0 5)])
    M.Throughout Changes M.init es ∧ M.Throughout UpToDate M.init es ∧ s.emitted = [300, 500] ∧ s.queue = [] ∧
      s.nestedScrollHeight = 100 ∧ ¬ UpToDate s := by
  intro M es s
  have hadm : M.Admits M.init es := by decide +kernel
  have hthrough := upToDate_throughout_iff hadm
  have hemitted : s.emitted = [300, 500] := by decide +kernel
  have hnested : s.nestedScrollHeight = 100 := by decide +kernel
  have hqueue : s.queue = [] := by decide +kernel
  refine ⟨hthrough.1, hthrough.2.mpr (by decide +kernel), hemitted, hqueue, hnested, fun hs => ?_⟩
  have hlast := hs (by decide +kernel) ⟨1, by decide +kernel, by decide +kernel⟩ hqueue
  rw [hemitted, hnested] at hlast
  exact absurd hlast (by norm_num)

end FlowDemo.Ios.CardHeight.Reported
