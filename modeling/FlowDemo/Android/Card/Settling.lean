import FlowDemo.Android.Card.Height

/-!
# When the heights of the card view settle

The listeners sample the child's own height, the layout pass measures the view with its suggested minimum height, and
both report to `emitNativeHeightIfChanged`. A sample that finds a new height requests a layout pass.

* `sampleAndEmitHeight_spec`, `layoutRunnable_spec`: what either pass reports, and when it does nothing;
* `TwoHeights.never_settles`, `Restless.never_quiet`: with two different heights there is an alternation without end;
* `settles_iff`: the heights settle exactly if the minimum is not above the child's height.
-/

namespace FlowDemo.Android.Card.Height

/-! ## The passes -/

inductive Pass
  /-- the global-layout or the pre-draw listener runs `sampleAndEmitHeight` -/
  | sample
  /-- a posted `layoutRunnable` runs -/
  | layout
  deriving DecidableEq

def Pass.run : Pass → State → State
  | .sample => sampleAndEmitHeight
  | .layout => layoutRunnable

def allowed (s : State) : Pass → Prop
  | .sample => True
  | .layout => 0 < s.posted

def step (s : State) : Pass → State
  | .sample => Pass.sample.run s
  | .layout => Pass.layout.run { s with posted := s.posted - 1 }

def machine (s : State) : Machine State Pass := ⟨s, allowed, step⟩

def Idle (s : State) (pass : Pass) : Prop := (pass.run s).emitted = s.emitted ∧ (pass.run s).posted = s.posted

/-- **Neither pass emits an event or requests a layout.** -/
def Settled (s : State) : Prop := ∀ pass, Idle s pass

/-- No pass that may run does: without a layout requested there is only the other. -/
def Quiet (s : State) : Prop := ∀ pass, allowed s pass → Idle s pass

/-- An alternation of samples with the layout passes requested: none runs that was not requested, and while one is
requested there is one to run. -/
structure Alternation (s : State) (passes : ℕ → Pass) : Prop where
  admits : (machine s).AdmitsForever s passes
  runs : ∀ n, 0 < ((machine s).run s (Machine.upTo passes n)).posted → ∃ k, n ≤ k ∧ passes k = .layout

/-! ## What a pass does -/

/-- The view has a width and its child a height, which the child has or has not been laid out with. -/
structure Rendered (s : State) : Prop where
  width : 0 < s.width
  preferred : 0 < s.childPreferredHeight
  laidOut : s.childHeight = 0 ∨ s.childHeight = s.childPreferredHeight

def State.dimension (s : State) : Int :=
  coerceAtLeast s.childPreferredHeight (coerceAtLeast s.suggestedMinimumHeight 1)

theorem emitNativeHeightIfChanged_reported {s : State} {heightPx : Int} (h : heightPx = s.lastReportedHeightPx) :
    emitNativeHeightIfChanged s heightPx = s := by
  rw [emitNativeHeightIfChanged, if_pos h, ite_self]

theorem emitNativeHeightIfChanged_new {s : State} {heightPx : Int} (hpos : 0 < heightPx)
    (h : heightPx ≠ s.lastReportedHeightPx) :
    emitNativeHeightIfChanged s heightPx =
      { s with lastReportedHeightPx := heightPx, emitted := s.emitted ++ [toDp s.density heightPx] } := by
  rw [emitNativeHeightIfChanged, if_neg (not_le.mpr hpos), if_neg h]
  rfl

theorem emitNativeHeightIfChanged_eq {s : State} {heightPx : Int} (hpos : 0 < heightPx) :
    emitNativeHeightIfChanged s heightPx =
      { s with
        lastReportedHeightPx := heightPx
        emitted := s.emitted ++ if heightPx = s.lastReportedHeightPx then [] else [toDp s.density heightPx] } := by
  by_cases h : heightPx = s.lastReportedHeightPx
  · rw [emitNativeHeightIfChanged_reported h, if_pos h, List.append_nil, h]
  · rw [emitNativeHeightIfChanged_new hpos h, if_neg h]

/-- The new state `t` differs from `s` by a report of `heightPx`, the requests, and what was measured and laid out. -/
structure Reports (s t : State) (heightPx : Int) : Prop where
  rendered : Rendered t
  preferred : t.childPreferredHeight = s.childPreferredHeight
  minimum : t.suggestedMinimumHeight = s.suggestedMinimumHeight
  last : t.lastReportedHeightPx = heightPx
  emitted : t.emitted = s.emitted ↔ heightPx = s.lastReportedHeightPx

theorem append_ite_eq_self {α : Type} {p : Prop} [Decidable p] (l : List α) (x : α) :
    (l ++ if p then [] else [x]) = l ↔ p := by
  by_cases hp : p
  · simp [hp]
  · simp [hp]

section

variable {s : State} (h : Rendered s)

include h

theorem dimension_pos : 0 < s.dimension := lt_of_lt_of_le h.preferred (le_max_left _ _)

theorem dimension_eq_iff :
    s.dimension = s.childPreferredHeight ↔ s.suggestedMinimumHeight ≤ s.childPreferredHeight := by
  have hc := h.preferred
  unfold State.dimension coerceAtLeast
  omega

theorem sampleAndEmitHeight_eq :
    sampleAndEmitHeight s =
      { emitNativeHeightIfChanged s s.childPreferredHeight with
        posted := s.posted + if s.childPreferredHeight = s.lastReportedHeightPx then 0 else 1 } := by
  have hheight : (if s.childHeight ≤ 0 then s.childPreferredHeight else s.childHeight) = s.childPreferredHeight := by
    obtain h0 | hc := h.laidOut
    · rw [if_pos h0.le]
    · rw [hc, ite_self]
  unfold sampleAndEmitHeight
  simp only [hheight, if_pos h.preferred]
  rw [emitNativeHeightIfChanged_eq h.preferred]
  by_cases hlast : s.childPreferredHeight = s.lastReportedHeightPx
  · simp [hlast]
  · simp [hlast, requestLayout]

theorem layoutRunnable_eq :
    layoutRunnable s =
      { emitNativeHeightIfChanged s s.dimension with
        measuredHeight := s.dimension
        childHeight := s.childPreferredHeight } := by
  have hpos := dimension_pos h
  have hmeasure : onMeasure s = { emitNativeHeightIfChanged s s.dimension with measuredHeight := s.dimension } := by
    rw [emitNativeHeightIfChanged_eq hpos]
    exact emitNativeHeightIfChanged_eq (s := { s with measuredHeight := s.dimension }) hpos
  rw [layoutRunnable, if_pos h.width, hmeasure, emitNativeHeightIfChanged_eq hpos]
  exact emitNativeHeightIfChanged_reported rfl

theorem sampleAndEmitHeight_reports : Reports s (sampleAndEmitHeight s) s.childPreferredHeight := by
  rw [sampleAndEmitHeight_eq h, emitNativeHeightIfChanged_eq h.preferred]
  exact ⟨⟨h.width, h.preferred, h.laidOut⟩, rfl, rfl, rfl, append_ite_eq_self _ _⟩

theorem layoutRunnable_reports : Reports s (layoutRunnable s) s.dimension := by
  rw [layoutRunnable_eq h, emitNativeHeightIfChanged_eq (dimension_pos h)]
  exact ⟨⟨h.width, h.preferred, Or.inr rfl⟩, rfl, rfl, rfl, append_ite_eq_self _ _⟩

theorem sampleAndEmitHeight_posted :
    (sampleAndEmitHeight s).posted =
      s.posted + if s.childPreferredHeight = s.lastReportedHeightPx then 0 else 1 := by
  rw [sampleAndEmitHeight_eq h]

theorem layoutRunnable_posted : (layoutRunnable s).posted = s.posted := by
  rw [layoutRunnable_eq h, emitNativeHeightIfChanged_eq (dimension_pos h)]

theorem idle_sample_iff : Idle s .sample ↔ s.childPreferredHeight = s.lastReportedHeightPx := by
  unfold Idle
  rw [show Pass.sample.run s = sampleAndEmitHeight s from rfl, (sampleAndEmitHeight_reports h).emitted,
    sampleAndEmitHeight_posted h]
  apply and_iff_left_of_imp
  intro hlast
  rw [if_pos hlast]
  rfl

theorem idle_layout_iff : Idle s .layout ↔ s.dimension = s.lastReportedHeightPx := by
  unfold Idle
  rw [show Pass.layout.run s = layoutRunnable s from rfl, (layoutRunnable_reports h).emitted, layoutRunnable_posted h]
  exact and_iff_left rfl

theorem settled_iff :
    Settled s ↔ s.childPreferredHeight = s.lastReportedHeightPx ∧ s.dimension = s.lastReportedHeightPx := by
  rw [← idle_sample_iff h, ← idle_layout_iff h]
  constructor
  · intro hs
    exact ⟨hs .sample, hs .layout⟩
  · rintro ⟨hsample, hlayout⟩ pass
    cases pass with
    | sample => exact hsample
    | layout => exact hlayout

theorem step_reports (pass : Pass) :
    Reports s (step s pass) (match pass with
      | .sample => s.childPreferredHeight
      | .layout => s.dimension) := by
  cases pass with
  | sample => exact sampleAndEmitHeight_reports h
  | layout =>
      have hr := layoutRunnable_reports (s := { s with posted := s.posted - 1 }) ⟨h.width, h.preferred, h.laidOut⟩
      exact ⟨hr.rendered, hr.preferred, hr.minimum, hr.last, hr.emitted⟩

end

theorem Reports.dimension {s t : State} {heightPx : Int} (hr : Reports s t heightPx) : t.dimension = s.dimension := by
  rw [State.dimension, State.dimension, hr.preferred, hr.minimum]

/-! ## Runs -/

section

variable {s : State} (h : Rendered s)

include h

theorem settled_step (hm : s.suggestedMinimumHeight ≤ s.childPreferredHeight) (pass : Pass) :
    Settled (step s pass) := by
  have hr := step_reports h pass
  have hdim : s.dimension = s.childPreferredHeight := (dimension_eq_iff h).mpr hm
  have hlast : (step s pass).lastReportedHeightPx = s.childPreferredHeight := by
    rw [hr.last]
    cases pass with
    | sample => rfl
    | layout => exact hdim
  rw [settled_iff hr.rendered, hr.dimension, hr.preferred, hlast]
  exact ⟨rfl, hdim⟩

end

/-- The two passes report two different heights. -/
structure TwoHeights (s : State) : Prop where
  rendered : Rendered s
  above : ¬ s.suggestedMinimumHeight ≤ s.childPreferredHeight

namespace TwoHeights

variable {s : State} (h : TwoHeights s)

include h

theorem ne : s.dimension ≠ s.childPreferredHeight := fun heq => h.above ((dimension_eq_iff h.rendered).mp heq)

theorem step (pass : Pass) : TwoHeights (step s pass) := by
  have hr := step_reports h.rendered pass
  refine ⟨hr.rendered, ?_⟩
  rw [hr.minimum, hr.preferred]
  exact h.above

theorem not_settled : ¬ Settled s := by
  rw [settled_iff h.rendered]
  rintro ⟨hsample, hlayout⟩
  exact h.ne (hlayout.trans hsample.symm)

/-- **There always is something to do**, unless the child's height was reported last and no layout is requested. -/
theorem not_quiet (hdue : s.childPreferredHeight ≠ s.lastReportedHeightPx ∨ 0 < s.posted) : ¬ Quiet s := by
  intro hq
  have hlast : s.childPreferredHeight = s.lastReportedHeightPx := (idle_sample_iff h.rendered).mp (hq .sample trivial)
  have hposted : 0 < s.posted := hdue.resolve_left (not_not.mpr hlast)
  have hdim : s.dimension = s.lastReportedHeightPx := (idle_layout_iff h.rendered).mp (hq .layout hposted)
  exact h.ne (hdim.trans hlast.symm)

end TwoHeights

/-- A layout pass whenever one is requested, and else a sample. -/
def pick (s : State) : Pass := if 0 < s.posted then .layout else .sample

theorem allowed_pick (s : State) : allowed s (pick s) := by
  unfold pick
  split
  · next hposted => exact hposted
  · trivial

theorem alternation_pick (s : State) : Alternation s ((machine s).schedule pick s) := by
  refine ⟨(machine s).admitsForever_schedule allowed_pick s, ?_⟩
  intro n hposted
  rw [(machine s).run_schedule] at hposted
  exact ⟨n, le_rfl, if_pos hposted⟩

/-- A view with two heights and a pass to run that will do something. -/
structure Restless (s : State) : Prop extends TwoHeights s where
  due : s.childPreferredHeight ≠ s.lastReportedHeightPx ∨ 0 < s.posted

/-- A layout pass reports the other height, and a sample of a height that is new requests a layout. -/
theorem Restless.step_pick {s : State} (h : Restless s) : Restless (step s (pick s)) := by
  have hr := step_reports h.rendered (pick s)
  refine ⟨h.toTwoHeights.step (pick s), ?_⟩
  unfold pick at hr ⊢
  split at hr
  · next hposted =>
      rw [if_pos hposted, hr.preferred, hr.last]
      exact Or.inl h.ne.symm
  · next hposted =>
      have hlast := h.due.resolve_right hposted
      rw [if_neg hposted]
      right
      change 0 < (sampleAndEmitHeight s).posted
      rw [sampleAndEmitHeight_posted h.rendered, if_neg hlast]
      exact Nat.succ_pos _

theorem TwoHeights.never_settles {s : State} (h : TwoHeights s) (n : ℕ) :
    ¬ Settled ((machine s).run s (Machine.upTo ((machine s).schedule pick s) n)) := by
  rw [(machine s).run_schedule]
  exact (Machine.picked_induction (M := machine s) (I := TwoHeights) (fun t ht => ht.step (pick t)) h n).not_settled

theorem Restless.never_quiet {s : State} (h : Restless s) (n : ℕ) :
    ¬ Quiet ((machine s).run s (Machine.upTo ((machine s).schedule pick s) n)) := by
  rw [(machine s).run_schedule]
  have hn := Machine.picked_induction (M := machine s) (I := Restless) (fun _ ht => ht.step_pick) h n
  exact hn.not_quiet hn.due

theorem quiet_of_reported {s : State} (h : Rendered s) (hlast : s.lastReportedHeightPx = s.childPreferredHeight)
    (hposted : s.posted = 0) : Quiet s := by
  intro pass hallowed
  cases pass with
  | sample => exact (idle_sample_iff h).mpr hlast.symm
  | layout => exact absurd hposted (Nat.pos_iff_ne_zero.mp hallowed)

/-- **The heights settle exactly if the minimum is not above the child's height**: then every alternation reaches a
state in which neither pass does anything. Leaving out a layout pass that is not requested, they also settle where the
child's height was reported last and no layout is requested. -/
theorem settles_iff {s : State} (h : Rendered s) :
    ((∀ passes, Alternation s passes → ∃ n, Settled ((machine s).run s (Machine.upTo passes n))) ↔
        s.suggestedMinimumHeight ≤ s.childPreferredHeight) ∧
      ((∀ passes, Alternation s passes → ∃ n, Quiet ((machine s).run s (Machine.upTo passes n))) ↔
        s.suggestedMinimumHeight ≤ s.childPreferredHeight ∨
          s.lastReportedHeightPx = s.childPreferredHeight ∧ s.posted = 0) := by
  have hsettles (hm : s.suggestedMinimumHeight ≤ s.childPreferredHeight) (passes : ℕ → Pass) :
      Settled ((machine s).run s (Machine.upTo passes 1)) := settled_step h hm (passes 0)
  refine ⟨⟨?_, fun hm passes _ => ⟨1, hsettles hm passes⟩⟩, ?_, ?_⟩
  · intro hall
    by_contra hm
    obtain ⟨n, hn⟩ := hall _ (alternation_pick s)
    exact TwoHeights.never_settles ⟨h, hm⟩ n hn
  · intro hall
    by_contra hne
    rw [not_or, not_and_or] at hne
    obtain ⟨n, hn⟩ := hall _ (alternation_pick s)
    have hdue : s.childPreferredHeight ≠ s.lastReportedHeightPx ∨ 0 < s.posted :=
      hne.2.imp Ne.symm Nat.pos_of_ne_zero
    exact Restless.never_quiet ⟨⟨h, hne.1⟩, hdue⟩ n hn
  · rintro (hm | ⟨hlast, hposted⟩) passes -
    · exact ⟨1, fun pass _ => hsettles hm passes pass⟩
    · exact ⟨0, quiet_of_reported h hlast hposted⟩

def sampleView (suggestedMinimumHeight : Int) : State :=
  { density := 1, width := 300, suggestedMinimumHeight := suggestedMinimumHeight, childPreferredHeight := 100 }

theorem sampleView_rendered (suggestedMinimumHeight : Int) : Rendered (sampleView suggestedMinimumHeight) :=
  ⟨show (0 : Int) < 300 by decide, show (0 : Int) < 100 by decide, Or.inl rfl⟩

/-- Without a minimum height, whatever pass comes first. -/
theorem sampleView_settles :
    Rendered (sampleView 0) ∧ ∀ passes, Alternation (sampleView 0) passes →
      ∃ n, Settled ((machine (sampleView 0)).run (sampleView 0) (Machine.upTo passes n)) :=
  ⟨sampleView_rendered 0, (settles_iff (sampleView_rendered 0)).1.mpr (by decide)⟩

/-- **With a minimum height of 150 pixels the two passes report in turns**, 100 and 150, and never settle. -/
theorem sampleView_never_settles :
    ((machine (sampleView 150)).run (sampleView 150) [.sample, .layout, .sample, .layout]).emitted =
        [100, 150, 100, 150] ∧
      ∃ passes, Alternation (sampleView 150) passes ∧ ∀ n,
        ¬ Quiet ((machine (sampleView 150)).run (sampleView 150) (Machine.upTo passes n)) ∧
          ¬ Settled ((machine (sampleView 150)).run (sampleView 150) (Machine.upTo passes n)) := by
  have htwo : TwoHeights (sampleView 150) := ⟨sampleView_rendered 150, by decide⟩
  refine ⟨by decide +kernel, _, alternation_pick (sampleView 150), fun n => ⟨?_, htwo.never_settles n⟩⟩
  exact Restless.never_quiet ⟨htwo, Or.inl (by decide)⟩ n

end FlowDemo.Android.Card.Height
