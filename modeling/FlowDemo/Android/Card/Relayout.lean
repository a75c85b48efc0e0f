import FlowDemo.Android.Card.Settling

/-!
# The heights of a card view whose content changes

The rendered child of `CardView.kt` changes its height at any time, is attached to the window and detached from it, and
what runs in between are the samples of the listeners and of `onChange`, the passes of Android's own layout, and the
posted runs of `layoutRunnable`. A sample may read a height the child was laid out with before it changed.

* `Ledger`: all of them report through `emitNativeHeightIfChanged`, and report changes to positive heights;
* `LaidOut`: what a run of `layoutRunnable` leaves behind until the content changes;
* `heights_throughout`: from then on the last event is of the child's height and no step adds one, exactly if the
  minimum height is not above it.
-/

namespace FlowDemo.Android.Card.Height.Relayout

/-- A card view, with its child attached to the window or not. `laidOut` keeps whether `layoutRunnable` has laid the
child out since it changed or was detached. -/
structure State extends Height.State where
  attached : Bool := false
  laidOut : Bool := false

/-- Without an attached child the height is that of the superclass. -/
def onMeasure (s : State) (superHeight : Int) : State :=
  if s.attached then { s with toState := Height.onMeasure s.toState }
  else { s with measuredHeight := superHeight }

/-- Without an attached child the superclass lays out what there is. -/
def onLayout (s : State) (superChildHeight : Int) : State :=
  if s.attached then { s with toState := Height.onLayout s.toState }
  else { s with childHeight := superChildHeight }

def layoutRunnable (s : State) (superHeight superChildHeight : Int) : State :=
  if 0 < s.width then
    let s := onLayout (onMeasure s superHeight) superChildHeight
    { s with
      toState := emitNativeHeightIfChanged s.toState s.measuredHeight
      laidOut := s.attached }
  else s

def sampleAndEmitHeight (s : State) : State :=
  if s.attached then { s with toState := Height.sampleAndEmitHeight s.toState } else s

def requestLayout (s : State) : State := { s with toState := Height.requestLayout s.toState }

/-- The SDK's `onChange`, but for the validity and the change event. -/
def onChange (s : State) : State := requestLayout (sampleAndEmitHeight s)

inductive Event
  | attach
  | detach
  | recompose (preferredHeight : Int)
  | resize (width : Int)
  | requestLayout
  /-- Android's own passes -/
  | measure (superHeight : Int)
  | layout (superChildHeight : Int)
  /-- the global-layout or the pre-draw listener runs `sampleAndEmitHeight` -/
  | sample
  | onChange
  /-- a posted `layoutRunnable` runs -/
  | layoutRunnable (superHeight superChildHeight : Int)

def allowed (s : State) : Event → Prop
  | .layoutRunnable _ _ => 0 < s.posted
  | _ => True

def step (s : State) : Event → State
  | .attach => { s with attached := true }
  | .detach => { s with attached := false, laidOut := false }
  | .recompose preferredHeight => { s with childPreferredHeight := preferredHeight, laidOut := false }
  | .resize width => { s with width := width }
  | .requestLayout => requestLayout s
  | .measure superHeight => onMeasure s superHeight
  | .layout superChildHeight => onLayout s superChildHeight
  | .sample => sampleAndEmitHeight s
  | .onChange => onChange s
  | .layoutRunnable superHeight superChildHeight =>
      layoutRunnable { s with posted := s.posted - 1 } superHeight superChildHeight

/-- A card view on a display of the given density, before its first layout. -/
def machine (density : ℚ) (suggestedMinimumHeight : Int) : Machine State Event :=
  ⟨{ density := density, width := 0, suggestedMinimumHeight := suggestedMinimumHeight, childPreferredHeight := 0 },
    allowed, step⟩

/-! ## What is reported -/

/-- **Every event is of a change**, in pixels, to a positive height. -/
def Changes (density : ℚ) (s : Height.State) : Prop :=
  ∃ heights : List Int, (∀ heightPx ∈ heights, 0 < heightPx) ∧ heights.IsChain (· ≠ ·) ∧
    s.emitted = heights.map (toDp density)

/-- The view has reported positive heights, and those that are changes. -/
def Ledger (density : ℚ) (s : Height.State) : Prop :=
  s.density = density ∧ Reporter.Offered (toDp density) (fun heightPx => 0 < heightPx) s.reporter

section

variable {density : ℚ} {s : Height.State} (h : Ledger density s)

include h

theorem Ledger.changes : Changes density s := by
  obtain ⟨-, offered, hoffered, heq⟩ := h
  refine ⟨offered.destutter (· ≠ ·), fun heightPx hmem => ?_, List.isChain_destutter _ _, ?_⟩
  · exact hoffered heightPx ((List.destutter_sublist _ offered).subset hmem)
  · calc s.emitted = (Reporter.run (toDp density) offered).reports := congrArg Reporter.reports heq
      _ = (offered.destutter (· ≠ ·)).map (toDp density) := Reporter.run_reports _ offered

theorem Ledger.getLast?_eq (hne : s.lastReportedHeightPx ≠ 0) :
    s.emitted.getLast? = some (toDp density s.lastReportedHeightPx) := by
  have hlast : s.reporter.last = some s.lastReportedHeightPx := if_neg hne
  have heq := h.2.getLast?_eq
  rw [hlast] at heq
  exact heq

end

/-- A sample does nothing, or reports and requests a layout or not. -/
theorem sample_cases (s : Height.State) :
    Height.sampleAndEmitHeight s = s ∨ ∃ heightPx,
      Height.sampleAndEmitHeight s = emitNativeHeightIfChanged s heightPx ∨
        Height.sampleAndEmitHeight s = Height.requestLayout (emitNativeHeightIfChanged s heightPx) := by
  unfold Height.sampleAndEmitHeight
  generalize (if s.childHeight ≤ 0 then s.childPreferredHeight else s.childHeight) = heightPx
  dsimp only
  split
  · right
    split
    · exact ⟨heightPx, Or.inr rfl⟩
    · exact ⟨heightPx, Or.inl rfl⟩
  · exact Or.inl rfl

/-- **What every step does to the view**: its density and its minimum height stay, and positive heights are offered. -/
structure Offers (s t : Height.State) : Prop where
  density : t.density = s.density
  minimum : t.suggestedMinimumHeight = s.suggestedMinimumHeight
  fed : Reporter.Fed (toDp s.density) (fun heightPx => 0 < heightPx) s.reporter t.reporter

section

variable {s t u : Height.State}

theorem offers_of_same (hdensity : t.density = s.density)
    (hminimum : t.suggestedMinimumHeight = s.suggestedMinimumHeight)
    (hlast : t.lastReportedHeightPx = s.lastReportedHeightPx) (hemitted : t.emitted = s.emitted) : Offers s t := by
  refine ⟨hdensity, hminimum, ?_⟩
  have heq : t.reporter = s.reporter := by
    unfold State.reporter
    rw [hlast, hemitted]
  exact heq ▸ Reporter.Fed.refl

theorem Offers.refl : Offers s s := offers_of_same rfl rfl rfl rfl

theorem Offers.trans (h : Offers s t) (h' : Offers t u) : Offers s u :=
  ⟨h'.density.trans h.density, h'.minimum.trans h.minimum, h.fed.trans (h.density ▸ h'.fed)⟩

theorem offers_emit (s : Height.State) (heightPx : Int) : Offers s (emitNativeHeightIfChanged s heightPx) := by
  by_cases hpos : 0 < heightPx
  · have hminimum : (emitNativeHeightIfChanged s heightPx).suggestedMinimumHeight = s.suggestedMinimumHeight := by
      rw [emitNativeHeightIfChanged_eq hpos]
    refine ⟨emitNativeHeightIfChanged_density s heightPx, hminimum, ?_⟩
    rw [reporter_emitNativeHeightIfChanged hpos]
    exact Reporter.fed_offer hpos
  · rw [emitNativeHeightIfChanged_of_nonpos (not_lt.mp hpos)]
    exact Offers.refl

theorem offers_sample (s : Height.State) : Offers s (Height.sampleAndEmitHeight s) := by
  rcases sample_cases s with heq | ⟨heightPx, heq | heq⟩
  · rw [heq]
    exact Offers.refl
  · rw [heq]
    exact offers_emit s heightPx
  · rw [heq]
    exact (offers_emit s heightPx).trans (offers_of_same rfl rfl rfl rfl)

theorem Offers.emitted (h : Offers s t) : s.emitted <+: t.emitted := h.fed.grows

theorem Ledger.offers {density : ℚ} (h : Ledger density s) (h' : Offers s t) : Ledger density t := by
  obtain ⟨rfl, hoffered⟩ := h
  exact ⟨h'.density, hoffered.fed h'.fed⟩

end

section

variable (s : State)

theorem offers_sampleAndEmitHeight : Offers s.toState (sampleAndEmitHeight s).toState := by
  unfold sampleAndEmitHeight
  split
  · exact offers_sample s.toState
  · exact Offers.refl

theorem offers_measure (superHeight : Int) : Offers s.toState (onMeasure s superHeight).toState := by
  unfold onMeasure
  split
  · have hmeasured : Offers s.toState { s.toState with measuredHeight := s.dimension } :=
      offers_of_same rfl rfl rfl rfl
    exact hmeasured.trans (offers_emit _ s.dimension)
  · exact offers_of_same rfl rfl rfl rfl

theorem offers_layout (superChildHeight : Int) : Offers s.toState (onLayout s superChildHeight).toState := by
  unfold onLayout
  split
  · exact offers_of_same rfl rfl rfl rfl
  · exact offers_of_same rfl rfl rfl rfl

theorem offers_layoutRunnable (superHeight superChildHeight : Int) :
    Offers s.toState (layoutRunnable s superHeight superChildHeight).toState := by
  unfold layoutRunnable
  split
  · exact ((offers_measure s superHeight).trans (offers_layout _ superChildHeight)).trans (offers_emit _ _)
  · exact Offers.refl

theorem offers_step (e : Event) : Offers s.toState (step s e).toState := by
  cases e with
  | measure superHeight => exact offers_measure s superHeight
  | layout superChildHeight => exact offers_layout s superChildHeight
  | sample => exact offers_sampleAndEmitHeight s
  | onChange => exact (offers_sampleAndEmitHeight s).trans (offers_of_same rfl rfl rfl rfl)
  | layoutRunnable superHeight superChildHeight =>
      have hposted : Offers s.toState { s with posted := s.posted - 1 }.toState := offers_of_same rfl rfl rfl rfl
      exact hposted.trans (offers_layoutRunnable _ superHeight superChildHeight)
  | _ => exact offers_of_same rfl rfl rfl rfl

end

/-! ## What the passes do -/

section

variable {s : State} (h : s.attached = true)

include h

theorem measure_attached (superHeight : Int) :
    onMeasure s superHeight =
      { s with toState := emitNativeHeightIfChanged { s.toState with measuredHeight := s.dimension } s.dimension } :=
  if_pos h

theorem layout_attached (superChildHeight : Int) :
    onLayout s superChildHeight = { s with childHeight := s.childPreferredHeight } := if_pos h

theorem sample_attached (hpos : 0 < s.childPreferredHeight) (hchild : s.childHeight = s.childPreferredHeight) :
    sampleAndEmitHeight s =
      { s with toState :=
          { emitNativeHeightIfChanged s.toState s.childPreferredHeight with
            posted := s.posted + if s.childPreferredHeight = s.lastReportedHeightPx then 0 else 1 } } := by
  have hheight : (if s.childHeight ≤ 0 then s.childPreferredHeight else s.childHeight) = s.childPreferredHeight := by
    rw [hchild, ite_self]
  unfold sampleAndEmitHeight Height.sampleAndEmitHeight
  simp only [if_pos h, hheight, if_pos hpos]
  rw [emitNativeHeightIfChanged_eq hpos]
  by_cases hlast : s.childPreferredHeight = s.lastReportedHeightPx
  · simp [hlast]
  · simp [hlast, Height.requestLayout]

end

/-! ## After a layout -/

/-- **What a run of `layoutRunnable` leaves behind**, until the content changes or is detached: the child is laid out
with its height, which was reported last if the minimum height is not above it. -/
structure LaidOut (s : State) : Prop where
  attached : s.attached = true
  childHeight : s.childHeight = s.childPreferredHeight
  last : s.suggestedMinimumHeight ≤ s.childPreferredHeight → 0 < s.childPreferredHeight →
    s.lastReportedHeightPx = s.childPreferredHeight

/-- `laidOut` is kept by the steps that leave what it says. -/
def Fresh (s : State) : Prop := s.laidOut = true → LaidOut s

theorem dimension_pos (s : Height.State) : 0 < s.dimension := by
  unfold State.dimension coerceAtLeast
  omega

theorem dimension_eq {s : Height.State} (hpos : 0 < s.childPreferredHeight)
    (hmin : s.suggestedMinimumHeight ≤ s.childPreferredHeight) : s.dimension = s.childPreferredHeight := by
  unfold State.dimension coerceAtLeast
  omega

theorem dimension_ne {s : Height.State} (hpos : 0 < s.childPreferredHeight)
    (hmin : ¬ s.suggestedMinimumHeight ≤ s.childPreferredHeight) : s.dimension ≠ s.childPreferredHeight := by
  unfold State.dimension coerceAtLeast
  omega

section

variable {s : State}

theorem laidOut_measure (h : LaidOut s) (superHeight : Int) : LaidOut (onMeasure s superHeight) := by
  rw [measure_attached h.attached, emitNativeHeightIfChanged_eq (dimension_pos s.toState)]
  exact ⟨h.attached, h.childHeight, fun hmin hpos => dimension_eq hpos hmin⟩

theorem laidOut_layout (h : LaidOut s) (superChildHeight : Int) : LaidOut (onLayout s superChildHeight) := by
  rw [layout_attached h.attached]
  exact ⟨h.attached, rfl, h.last⟩

theorem sample_of_nonpos (hchild : s.childHeight = s.childPreferredHeight) (hpos : ¬ 0 < s.childPreferredHeight) :
    sampleAndEmitHeight s = s := by
  have hheight : (if s.childHeight ≤ 0 then s.childPreferredHeight else s.childHeight) = s.childPreferredHeight := by
    rw [hchild, ite_self]
  unfold sampleAndEmitHeight Height.sampleAndEmitHeight
  simp only [hheight, if_neg hpos, ite_self]

theorem laidOut_sample (h : LaidOut s) : LaidOut (sampleAndEmitHeight s) := by
  by_cases hpos : 0 < s.childPreferredHeight
  · rw [sample_attached h.attached hpos h.childHeight, emitNativeHeightIfChanged_eq hpos]
    exact ⟨h.attached, h.childHeight, fun _ _ => rfl⟩
  · rw [sample_of_nonpos h.childHeight hpos]
    exact h

/-- **A run of `layoutRunnable` lays the child out**, whatever was reported before. -/
theorem layoutRunnable_attached (hw : 0 < s.width) (h : s.attached = true) (superHeight superChildHeight : Int) :
    layoutRunnable s superHeight superChildHeight =
      { s with
        toState := { emitNativeHeightIfChanged s.toState s.dimension with
          measuredHeight := s.dimension
          childHeight := s.childPreferredHeight }
        laidOut := true } := by
  have hpos := dimension_pos s.toState
  have hmeasured : (onMeasure s superHeight).attached = true := by
    rw [measure_attached h]
    exact h
  unfold layoutRunnable
  rw [if_pos hw]
  dsimp only
  rw [layout_attached hmeasured, measure_attached h, emitNativeHeightIfChanged_eq hpos,
    emitNativeHeightIfChanged_eq hpos]
  dsimp only
  rw [if_pos rfl, List.append_nil, emitNativeHeightIfChanged_eq hpos, h]

theorem fresh_layoutRunnable (h : Fresh s) (superHeight superChildHeight : Int) :
    Fresh (layoutRunnable s superHeight superChildHeight) := by
  by_cases hw : 0 < s.width
  · by_cases hattached : s.attached = true
    · rw [layoutRunnable_attached hw hattached, emitNativeHeightIfChanged_eq (dimension_pos s.toState)]
      exact fun _ => ⟨hattached, rfl, fun hmin hpos => dimension_eq hpos hmin⟩
    · have hnot : (layoutRunnable s superHeight superChildHeight).laidOut = false := by
        unfold layoutRunnable onMeasure
        rw [if_pos hw, if_neg hattached]
        unfold onLayout
        rw [if_neg hattached]
        exact Bool.eq_false_iff.mpr hattached
      intro hlaid
      rw [hnot] at hlaid
      cases hlaid
  · rw [layoutRunnable, if_neg hw]
    exact h

theorem fresh_of_laidOut {t : State} (hsame : t.laidOut = s.laidOut) (hpass : LaidOut s → LaidOut t) (h : Fresh s) :
    Fresh t := by
  intro hlaid
  rw [hsame] at hlaid
  exact hpass (h hlaid)

theorem laidOut_eq_measure (s : State) (superHeight : Int) : (onMeasure s superHeight).laidOut = s.laidOut := by
  unfold onMeasure
  split <;> rfl

theorem laidOut_eq_layout (s : State) (superChildHeight : Int) :
    (onLayout s superChildHeight).laidOut = s.laidOut := by
  unfold onLayout
  split <;> rfl

theorem laidOut_eq_sample (s : State) : (sampleAndEmitHeight s).laidOut = s.laidOut := by
  unfold sampleAndEmitHeight
  split <;> rfl

theorem fresh_step (h : Fresh s) (e : Event) : Fresh (step s e) := by
  have hsample : Fresh (sampleAndEmitHeight s) := fresh_of_laidOut (laidOut_eq_sample s) laidOut_sample h
  cases e with
  | attach => exact fun hlaid => ⟨rfl, (h hlaid).childHeight, (h hlaid).last⟩
  | detach => exact fun hlaid => absurd hlaid Bool.false_ne_true
  | recompose preferredHeight => exact fun hlaid => absurd hlaid Bool.false_ne_true
  | resize width => exact fun hlaid => ⟨(h hlaid).attached, (h hlaid).childHeight, (h hlaid).last⟩
  | requestLayout => exact fun hlaid => ⟨(h hlaid).attached, (h hlaid).childHeight, (h hlaid).last⟩
  | measure superHeight =>
      exact fresh_of_laidOut (laidOut_eq_measure s superHeight) (fun hl => laidOut_measure hl superHeight) h
  | layout superChildHeight =>
      exact fresh_of_laidOut (laidOut_eq_layout s superChildHeight) (fun hl => laidOut_layout hl superChildHeight) h
  | sample => exact hsample
  | onChange => exact fun hlaid => ⟨(hsample hlaid).attached, (hsample hlaid).childHeight, (hsample hlaid).last⟩
  | layoutRunnable superHeight superChildHeight =>
      have hposted : Fresh { s with posted := s.posted - 1 } := fun hlaid =>
        ⟨(h hlaid).attached, (h hlaid).childHeight, (h hlaid).last⟩
      exact fresh_layoutRunnable hposted superHeight superChildHeight

/-! ## Calm -/

def Calm (s : State) : Prop := ∀ e, allowed s e → (step s e).emitted = s.emitted

/-- **After a layout the view is calm exactly if the minimum height is not above the child's.** -/
theorem calm_iff (h : LaidOut s) (hpos : 0 < s.childPreferredHeight) :
    Calm s ↔ s.suggestedMinimumHeight ≤ s.childPreferredHeight := by
  constructor
  · intro hcalm
    by_contra hmin
    have hmeasure : s.dimension = s.lastReportedHeightPx := by
      have heq := hcalm (.measure 0) trivial
      rw [show step s (.measure 0) = onMeasure s 0 from rfl, measure_attached h.attached,
        emitNativeHeightIfChanged_eq (dimension_pos s.toState)] at heq
      exact (append_ite_eq_self _ _).mp heq
    have hsample : s.childPreferredHeight = s.lastReportedHeightPx := by
      have heq := hcalm .sample trivial
      rw [show step s .sample = sampleAndEmitHeight s from rfl, sample_attached h.attached hpos h.childHeight,
        emitNativeHeightIfChanged_eq hpos] at heq
      exact (append_ite_eq_self _ _).mp heq
    exact dimension_ne hpos hmin (hmeasure.trans hsample.symm)
  · intro hmin e _
    have hlast := h.last hmin hpos
    have hdim : s.dimension = s.lastReportedHeightPx := (dimension_eq hpos hmin).trans hlast.symm
    have hsample : (sampleAndEmitHeight s).emitted = s.emitted := by
      rw [sample_attached h.attached hpos h.childHeight, emitNativeHeightIfChanged_reported hlast.symm]
    cases e with
    | measure superHeight =>
        change (onMeasure s superHeight).emitted = s.emitted
        rw [measure_attached h.attached, emitNativeHeightIfChanged_eq (dimension_pos s.toState)]
        exact (append_ite_eq_self _ _).mpr hdim
    | layout superChildHeight =>
        change (onLayout s superChildHeight).emitted = s.emitted
        rw [layout_attached h.attached]
    | sample => exact hsample
    | onChange => exact hsample
    | layoutRunnable superHeight superChildHeight =>
        change (layoutRunnable { s with posted := s.posted - 1 } superHeight superChildHeight).emitted = s.emitted
        by_cases hw : 0 < s.width
        · rw [layoutRunnable_attached (s := { s with posted := s.posted - 1 }) hw h.attached,
            emitNativeHeightIfChanged_eq (dimension_pos _)]
          exact (append_ite_eq_self _ _).mpr hdim
        · rw [layoutRunnable, if_neg hw]
    | _ => rfl

end

/-! ## Runs -/

/-- What the events of a card view say at any time: the changes of a height, and after a layout the child's, which stays
the last one said exactly if the minimum height is not above it. -/
structure Reported (density : ℚ) (suggestedMinimumHeight : Int) (s : State) : Prop where
  changes : Changes density s.toState
  calm : s.laidOut = true → 0 < s.childPreferredHeight →
    (Calm s ↔ suggestedMinimumHeight ≤ s.childPreferredHeight)
  last : s.laidOut = true → 0 < s.childPreferredHeight → suggestedMinimumHeight ≤ s.childPreferredHeight →
    s.emitted.getLast? = some (toDp density s.childPreferredHeight)

structure Inv (density : ℚ) (suggestedMinimumHeight : Int) (s : State) : Prop where
  minimum : s.suggestedMinimumHeight = suggestedMinimumHeight
  ledger : Ledger density s.toState
  fresh : Fresh s

section

variable {density : ℚ} {suggestedMinimumHeight : Int} {s : State}

theorem inv_init : Inv density suggestedMinimumHeight (machine density suggestedMinimumHeight).init :=
  ⟨rfl, ⟨rfl, Reporter.offered_init⟩, fun hlaid => absurd hlaid Bool.false_ne_true⟩

theorem inv_step (h : Inv density suggestedMinimumHeight s) (e : Event) :
    Inv density suggestedMinimumHeight (step s e) :=
  ⟨(offers_step s e).minimum.trans h.minimum, h.ledger.offers (offers_step s e), fresh_step h.fresh e⟩

theorem Inv.reported (h : Inv density suggestedMinimumHeight s) : Reported density suggestedMinimumHeight s := by
  obtain ⟨rfl, hledger, hfresh⟩ := h
  refine ⟨hledger.changes, fun hlaid hpos => calm_iff (hfresh hlaid) hpos, fun hlaid hpos hmin => ?_⟩
  have hlast := (hfresh hlaid).last hmin hpos
  have hne : s.lastReportedHeightPx ≠ 0 := by
    rw [hlast]
    exact hpos.ne'
  rw [hledger.getLast?_eq hne, hlast]

end

/-- **The last event is of the child's height after each layout**, however the content changes, is attached and
detached. -/
theorem heights_throughout {density : ℚ} {suggestedMinimumHeight : Int} {es : List Event}
    (h : (machine density suggestedMinimumHeight).Admits (machine density suggestedMinimumHeight).init es) :
    (machine density suggestedMinimumHeight).Throughout (Reported density suggestedMinimumHeight)
      (machine density suggestedMinimumHeight).init es :=
  Machine.throughout_of_invariant (I := Inv density suggestedMinimumHeight) (fun _ e hs _ => inv_step hs e)
    (fun _ hs => hs.reported) inv_init h

instance (density : ℚ) (suggestedMinimumHeight : Int) (s : State) :
    (e : Event) → Decidable ((machine density suggestedMinimumHeight).allowed s e)
  | .layoutRunnable _ _ => inferInstanceAs (Decidable (0 < s.posted))
  | .attach | .detach | .recompose _ | .resize _ | .requestLayout | .measure _ | .layout _ | .sample | .onChange =>
      isTrue trivial

def growing : List Event :=
  [.resize 300, .recompose 200, .attach, .requestLayout, .layoutRunnable 0 0, .recompose 260, .sample, .onChange,
    .layoutRunnable 0 0]

/-- On a display of density 2 that is 100, and 130 from the layout on. -/
theorem heights_growing :
    (machine 2 0).Throughout (Reported 2 0) (machine 2 0).init growing ∧
      ((machine 2 0).run (machine 2 0).init growing).emitted = [100, 130] :=
  ⟨heights_throughout (by decide +kernel), by decide +kernel⟩

/-- **With a minimum height of 150 a card of 100 pixels is reported as either in turns.** -/
example :
    ((machine 1 150).run (machine 1 150).init
      [.resize 300, .recompose 100, .attach, .requestLayout, .layoutRunnable 0 0, .sample, .measure 0,
        .sample]).emitted = [150, 100, 150, 100] := by
  decide +kernel

end FlowDemo.Android.Card.Height.Relayout
