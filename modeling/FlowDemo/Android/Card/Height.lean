import Mathlib.Data.Rat.Floor
import FlowDemo.Lib.Machine
import FlowDemo.Lib.Reporter

/-!
# Heights of the card view

`emitNativeHeightIfChanged` of `CardView.kt` drops a height it reported last, in pixels, and emits the others in density
independent pixels. Its callers are the measuring of the view, the layout pass that `requestLayout` posts, and the
listeners that sample the child.

* `foldl_emitNativeHeightIfChanged`: the heights that are emitted are those of a reporter of the positive heights
  offered;
* `usable_iff`: the events are usable exactly if each positive height offered is a whole number of units.
-/

namespace FlowDemo.Android.Card.Height

/-! ## Numbers -/

/-- `Int.MAX_VALUE` -/
def maxValue : Int := 2147483647

/-- `Int.MIN_VALUE` -/
def minValue : Int := -2147483648

/-- `toInt` of an exact number: toward zero, and within the range. -/
def toInt (q : ℚ) : Int := max minValue (min maxValue (if 0 ≤ q then ⌊q⌋ else ⌈q⌉))

def coerceAtLeast (x minimumValue : Int) : Int := max x minimumValue

theorem toInt_of_nonneg {q : ℚ} (hq : 0 ≤ q) : toInt q = min maxValue ⌊q⌋ := by
  have hfloor : 0 ≤ ⌊q⌋ := Int.floor_nonneg.mpr hq
  rw [toInt, if_pos hq]
  apply max_eq_right
  apply le_min
  · decide
  · exact le_trans (by decide) hfloor

theorem toInt_intCast {k : Int} (h0 : 0 ≤ k) (h : k ≤ maxValue) : toInt (k : ℚ) = k := by
  rw [toInt_of_nonneg (by exact_mod_cast h0), Int.floor_intCast, min_eq_right h]

theorem le_toInt_iff {q : ℚ} (hq : 0 ≤ q) : q ≤ toInt q ↔ ∃ k : Int, q = k ∧ k ≤ maxValue := by
  constructor
  · intro h
    rw [toInt_of_nonneg hq] at h
    have hmax : min maxValue ⌊q⌋ ≤ maxValue := min_le_left _ _
    have hfloor : ((min maxValue ⌊q⌋ : Int) : ℚ) ≤ q := le_trans (Int.cast_le.mpr (min_le_right _ _)) (Int.floor_le q)
    exact ⟨min maxValue ⌊q⌋, le_antisymm h hfloor, hmax⟩
  · rintro ⟨k, rfl, hk⟩
    rw [toInt_intCast (by exact_mod_cast hq) hk]

/-! ## The view -/

/-- A view attached to the window with a rendered child. `childHeight` is the child's own height, 0 before its first
layout; measuring it always answers `childPreferredHeight`. `posted` counts the posted runs of `layoutRunnable`. -/
structure State where
  density : ℚ
  width : Int
  suggestedMinimumHeight : Int
  childPreferredHeight : Int
  childHeight : Int := 0
  measuredHeight : Int := 0
  lastReportedHeightPx : Int := 0
  posted : Nat := 0
  emitted : List Int := []

def emitNativeHeightIfChanged (s : State) (heightPx : Int) : State :=
  if heightPx ≤ 0 then s
  else if heightPx = s.lastReportedHeightPx then s
  else
    let heightDp := toInt (heightPx / s.density)
    { s with lastReportedHeightPx := heightPx, emitted := s.emitted ++ [heightDp] }

def requestLayout (s : State) : State := { s with posted := s.posted + 1 }

def onMeasure (s : State) : State :=
  let fallback := coerceAtLeast s.suggestedMinimumHeight 1
  let h := coerceAtLeast s.childPreferredHeight fallback
  emitNativeHeightIfChanged { s with measuredHeight := h } h

/-- The child is measured again and laid out with what it answers. -/
def onLayout (s : State) : State := { s with childHeight := s.childPreferredHeight }

def layoutRunnable (s : State) : State :=
  if 0 < s.width then
    let s := onLayout (onMeasure s)
    emitNativeHeightIfChanged s s.measuredHeight
  else s

def sampleAndEmitHeight (s : State) : State :=
  let h := if s.childHeight ≤ 0 then s.childPreferredHeight else s.childHeight
  if 0 < h then
    let prev := s.lastReportedHeightPx
    let s := emitNativeHeightIfChanged s h
    if h ≠ prev then requestLayout s else s
  else s

/-! ## What is emitted -/

/-- The height an event carries. -/
def toDp (density : ℚ) (heightPx : Int) : Int := toInt (heightPx / density)

def State.reporter (s : State) : Reporter Int Int :=
  ⟨if s.lastReportedHeightPx = 0 then none else some s.lastReportedHeightPx, s.emitted⟩

@[simp] theorem emitNativeHeightIfChanged_density (s : State) (heightPx : Int) :
    (emitNativeHeightIfChanged s heightPx).density = s.density := by
  unfold emitNativeHeightIfChanged
  split
  · rfl
  · split
    · rfl
    · rfl

theorem emitNativeHeightIfChanged_of_nonpos {s : State} {heightPx : Int} (h : heightPx ≤ 0) :
    emitNativeHeightIfChanged s heightPx = s := if_pos h

theorem reporter_emitNativeHeightIfChanged {s : State} {heightPx : Int} (h : 0 < heightPx) :
    (emitNativeHeightIfChanged s heightPx).reporter = s.reporter.offer (toDp s.density) heightPx := by
  have hlast : s.reporter.last = some heightPx ↔ heightPx = s.lastReportedHeightPx := by
    change (if s.lastReportedHeightPx = 0 then none else some s.lastReportedHeightPx) = some heightPx ↔ _
    split
    · next h0 => simp [h0, h.ne']
    · next h0 => rw [Option.some.injEq, eq_comm]
  rw [emitNativeHeightIfChanged, if_neg (not_le.mpr h), Reporter.offer]
  split
  · next heq => rw [if_pos (hlast.mpr heq)]
  · next hne =>
      rw [if_neg (fun hr => hne (hlast.mp hr))]
      unfold State.reporter
      rw [if_neg h.ne']
      rfl

/-- A view of the given density to which nothing was offered yet. -/
def State.fresh (density : ℚ) : State :=
  { density := density, width := 0, suggestedMinimumHeight := 0, childPreferredHeight := 0 }

def offer (density : ℚ) (offered : List Int) : State := offered.foldl emitNativeHeightIfChanged (State.fresh density)

theorem offer_concat (density : ℚ) (offered : List Int) (p : Int) :
    offer density (offered ++ [p]) = emitNativeHeightIfChanged (offer density offered) p := List.foldl_concat ..

theorem offer_density (density : ℚ) (offered : List Int) : (offer density offered).density = density := by
  induction offered using List.reverseRecOn with
  | nil => rfl
  | append_singleton offered p ih => rw [offer_concat, emitNativeHeightIfChanged_density, ih]

/-- **The events are the reports on the positive heights offered.** -/
theorem reporter_offer (density : ℚ) (offered : List Int) :
    (offer density offered).reporter = Reporter.run (toDp density) (offered.filter fun p => 0 < p) := by
  induction offered using List.reverseRecOn with
  | nil => rfl
  | append_singleton offered p ih =>
      rw [offer_concat, List.filter_append]
      by_cases hp : 0 < p
      · rw [reporter_emitNativeHeightIfChanged hp, ih, offer_density, ← Reporter.run_concat]
        simp [hp]
      · rw [emitNativeHeightIfChanged_of_nonpos (not_lt.mp hp), ih]
        simp [hp]

/-! ## Usable events -/

/-- After each of the offers: every event carries a positive height, no two in a row carry the same, and if the last
height offered is positive, the last event's height covers it. -/
def Usable (density : ℚ) (offered : List Int) : Prop :=
  ∀ pre, pre <+: offered →
    (∀ h ∈ (offer density pre).emitted, 0 < h) ∧ (offer density pre).emitted.IsChain (· ≠ ·) ∧
      ∀ p, pre.getLast? = some p → 0 < p →
        ∃ h : Int, (offer density pre).emitted.getLast? = some h ∧ (p : ℚ) ≤ h * density

/-- A whole number of units, within the range. -/
def Whole (density : ℚ) (p : Int) : Prop := ∃ k : Int, (p : ℚ) = k * density ∧ k ≤ maxValue

section

variable {density : ℚ} {offered : List Int}

theorem emitted_offer (density : ℚ) (offered : List Int) :
    (offer density offered).emitted = (Reporter.run (toDp density) (offered.filter fun p => 0 < p)).reports :=
  congrArg Reporter.reports (reporter_offer density offered)

theorem getLast?_emitted_offer {p : Int} (hlast : offered.getLast? = some p) (hp : 0 < p) :
    (offer density offered).emitted.getLast? = some (toDp density p) := by
  obtain ⟨before, rfl⟩ := List.getLast?_eq_some_iff.mp hlast
  rw [emitted_offer, Reporter.getLast?_reports, List.filter_append]
  simp [hp]

/-- The event of a positive height covers it exactly if the height is a whole number of units. -/
theorem le_toDp_mul_iff (hd : 0 < density) {p : Int} (hp : 0 < p) :
    (p : ℚ) ≤ toDp density p * density ↔ Whole density p := by
  have hq : 0 ≤ (p : ℚ) / density := div_nonneg (by exact_mod_cast hp.le) hd.le
  rw [← div_le_iff₀ hd, toDp, le_toInt_iff hq]
  apply exists_congr
  intro k
  rw [div_eq_iff hd.ne']

theorem Whole.toDp_eq (hd : 0 < density) {p : Int} (hp : 0 < p) (h : Whole density p) :
    0 < toDp density p ∧ (p : ℚ) = toDp density p * density := by
  obtain ⟨k, hk, hmax⟩ := h
  have hp' : (0 : ℚ) < k * density := by rw [← hk]; exact_mod_cast hp
  have hk0 : 0 < k := by exact_mod_cast (mul_pos_iff_of_pos_right hd).mp hp'
  have heq : toDp density p = k := by
    rw [toDp, hk, mul_div_cancel_right₀ _ hd.ne', toInt_intCast hk0.le hmax]
  rw [heq]
  exact ⟨hk0, hk⟩

/-- **The height events are usable exactly if each positive height offered is a whole number of units.** -/
theorem usable_iff (hd : 0 < density) (offered : List Int) :
    Usable density offered ↔ ∀ p ∈ offered, 0 < p → Whole density p := by
  constructor
  · intro h p hmem hp
    obtain ⟨pre, post, rfl⟩ := List.append_of_mem hmem
    have hpre : pre ++ [p] <+: pre ++ p :: post := ⟨post, by simp⟩
    have hlast : (pre ++ [p]).getLast? = some p := List.getLast?_concat
    obtain ⟨-, -, hcover⟩ := h _ hpre
    obtain ⟨height, hheight, hle⟩ := hcover p hlast hp
    rw [getLast?_emitted_offer hlast hp, Option.some.injEq] at hheight
    rw [← hheight] at hle
    exact (le_toDp_mul_iff hd hp).mp hle
  · intro h pre hpre
    have hwhole : ∀ p ∈ pre.filter fun p => 0 < p, 0 < toDp density p ∧ (p : ℚ) = toDp density p * density := by
      intro p hp
      obtain ⟨hmem, hpos⟩ := List.mem_filter.mp hp
      have hpos' : 0 < p := of_decide_eq_true hpos
      exact (h p (hpre.subset hmem) hpos').toDp_eq hd hpos'
    refine ⟨?_, ?_, ?_⟩
    · intro height hheight
      rw [emitted_offer] at hheight
      obtain ⟨p, hp, rfl⟩ := Reporter.mem_reports _ hheight
      exact (hwhole p hp).1
    · rw [emitted_offer]
      apply Reporter.isChain_reports
      intro p hp q hq heq
      have hpq : (p : ℚ) = q := by rw [(hwhole p hp).2, (hwhole q hq).2, heq]
      exact_mod_cast hpq
    · intro p hlast hp
      have hmem : p ∈ pre := List.mem_of_getLast? hlast
      exact ⟨_, getLast?_emitted_offer hlast hp, (le_toDp_mul_iff hd hp).mpr (h p (hpre.subset hmem) hp)⟩

end

/-- Even heights on a display of density 2, with one that is not positive between them. -/
theorem usable_even : Usable 2 [300, 0, 302, 302] := by
  apply (usable_iff (by norm_num) [300, 0, 302, 302]).mpr
  intro p hp _
  simp only [List.mem_cons, List.not_mem_nil, or_false] at hp
  obtain rfl | rfl | rfl | rfl := hp
  · exact ⟨150, by norm_num, by decide⟩
  · exact ⟨0, by norm_num, by decide⟩
  · exact ⟨151, by norm_num, by decide⟩
  · exact ⟨151, by norm_num, by decide⟩

/-- On a display of density 3, 301 and 302 pixels are reported as 100 twice, which covers 300 of them, and 2 pixels are
reported as 0. -/
theorem unusable_at_density_three :
    (offer 3 [301, 302]).emitted = [100, 100] ∧ (100 : ℚ) * 3 < 301 ∧ (offer 3 [2]).emitted = [0] ∧
      ¬ Usable 3 [301, 302] ∧ ¬ Usable 3 [2] := by
  have h301 : (offer 3 [301, 302]).emitted = [100, 100] := by decide +kernel
  have h2 : (offer 3 [2]).emitted = [0] := by decide +kernel
  refine ⟨h301, by norm_num, h2, ?_, ?_⟩
  · intro h
    obtain ⟨-, hchain, -⟩ := h [301, 302] (List.prefix_rfl)
    rw [h301] at hchain
    exact absurd hchain (by decide)
  · intro h
    obtain ⟨hpos, -⟩ := h [2] (List.prefix_rfl)
    exact absurd (hpos 0 (by rw [h2]; exact List.mem_singleton_self 0)) (by decide)

end FlowDemo.Android.Card.Height
