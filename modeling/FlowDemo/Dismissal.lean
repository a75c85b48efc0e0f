import FlowDemo.Android.Flow
import FlowDemo.Ios.Flow

/-!
# Dismissing the Flow overlay

Both modules remember the overlay they attached last. A dismissal takes that one off, and no later one can reach the
others.
-/

namespace FlowDemo

/-- **On either platform, dismissals leave nothing attached throughout a run exactly if** each overlay is attached when
no other is: each start on Android, each rendering block on iOS. -/
theorem dismissals_clear_iff (android : List Android.Flow.Event) (ios : List Ios.Flow.Event)
    (ha : Android.Flow.machine.Admits Android.Flow.machine.init android)
    (hi : Ios.Flow.machine.Admits Ios.Flow.machine.init ios) :
    (Android.Flow.machine.Throughout Android.Flow.DismissClears Android.Flow.machine.init android ↔
        (Android.Flow.machine.restrict Android.Flow.StartsAlone).Admits Android.Flow.machine.init android) ∧
      (Ios.Flow.machine.Throughout Ios.Flow.DismissClears Ios.Flow.machine.init ios ↔
        (Ios.Flow.machine.restrict Ios.Flow.RendersAlone).Admits Ios.Flow.machine.init ios) :=
  ⟨Android.Flow.clears_throughout_iff ha, Ios.Flow.clears_throughout_iff hi⟩

def sampleDictionary : List (String × Js.Json) := [("id", .str "ps_1"), ("payment_session_secret", .str "pss_1")]

def sampleInitialization : List Ios.Flow.Event :=
  [.initializeSession sampleDictionary, .finishInitialize 0 ⟨"ps_1", "pss_1"⟩ none, .runBlock true none]

/-- One overlay after the other: on Android two starts with a dismissal between them, on iOS a rendering that ends with
its payment and another one. -/
theorem dismissals_clear_one_by_one :
    let ps_1 : Android.Flow.PaymentSession := ⟨"ps_1", "pst_1", "pss_1"⟩
    let A := Android.Flow.machine
    let I := Ios.Flow.machine
    let android : List Android.Flow.Event := [.startPaymentSession ps_1 true, .runBlock, .dismissFlow true, .runBlock,
      .startPaymentSession ps_1 true, .runBlock]
    let ios : List Ios.Flow.Event := sampleInitialization ++ [.renderFlow, .runBlock true none,
      .onSuccess ⟨"ps_1", "pss_1"⟩ "pay_1", .renderFlow, .runBlock true none]
    A.Throughout Android.Flow.DismissClears A.init android ∧ I.Throughout Ios.Flow.DismissClears I.init ios := by
  intro ps_1 A I android ios
  have ha : A.Admits A.init android := by decide
  have hi : I.Admits I.init ios := by decide
  obtain ⟨h1, h2⟩ := dismissals_clear_iff android ios ha hi
  obtain ⟨a1, a2, a3, a4, a5, a6, -⟩ := ha
  obtain ⟨i1, i2, i3, i4, i5, i6, i7, i8, -⟩ := hi
  constructor
  · refine h1.mpr ⟨⟨a1, nofun⟩, ⟨a2, fun _ _ _ _ => rfl⟩, ⟨a3, nofun⟩, ⟨a4, fun _ _ _ heq => ?_⟩, ⟨a5, nofun⟩,
      ⟨a6, fun _ _ _ _ => rfl⟩, trivial⟩
    cases heq
  · refine h2.mpr ⟨⟨i1, nofun⟩, ⟨i2, nofun⟩, ⟨i3, fun _ _ _ _ heq => ?_⟩, ⟨i4, nofun⟩, ⟨i5, fun _ _ _ _ _ => rfl⟩,
      ⟨i6, nofun⟩, ⟨i7, nofun⟩, ⟨i8, fun _ _ _ _ _ => rfl⟩, trivial⟩
    cases heq

/-- **The first of two overlays stays** when both are attached: two starts on Android, two renderings on iOS, and two
dismissals. -/
theorem first_overlay_stays :
    let ps_1 : Android.Flow.PaymentSession := ⟨"ps_1", "pst_1", "pss_1"⟩
    let A := Android.Flow.machine
    let I := Ios.Flow.machine
    let s := A.run A.init [.startPaymentSession ps_1 true, .runBlock, .startPaymentSession ps_1 true, .runBlock,
      .dismissFlow true, .runBlock, .dismissFlow true, .runBlock]
    let t := I.run I.init (sampleInitialization ++ [.renderFlow, .runBlock true none, .renderFlow, .runBlock true none,
      .dismissFlow, .runBlock true none, .dismissFlow, .runBlock true none])
    (A.Reachable s ∧ s.posted = [] ∧ s.overlays.attached = [0] ∧ ¬ Android.Flow.DismissClears s) ∧
      I.Reachable t ∧ t.queue = [] ∧ t.overlays.attached = [0] ∧ ¬ Ios.Flow.DismissClears t := by
  intro ps_1 A I s t
  have hs : s.dismiss.overlays.attached = [0] := by decide
  have ht : t.dismissFlowView.overlays.attached = [0] := by decide
  refine ⟨⟨Machine.Reachable.of_admits (by decide), by decide, by decide, fun h => ?_⟩,
    Machine.Reachable.of_admits (by decide), by decide, by decide, fun h => ?_⟩
  · exact absurd (hs.symm.trans h) (by decide)
  · exact absurd (ht.symm.trans h) (by decide)

end FlowDemo
