import Mathlib.Data.List.Nodup
import FlowDemo.Ios.Submit

/-!
# What one iOS submission does besides its answer

`Registry.submit` asks views by `submitFromJS`, and a view that refuses emits an error event. The two passes are one
walk over the targets of the session followed by all targets, so a target of the session that refuses is met again:
`submit_oneOutcome_iff` says exactly when a call has one outcome.
-/

namespace FlowDemo.Ios

variable {D : Type}

def View.refusal (w : View) : List NativeEvent :=
  match w.submittableComponent with
  | none => [.paymentError w.viewClass.errorComponent (w.viewClass.title ++ " component is not ready yet") "NOT_READY"]
  | some c =>
      if c.isValid = false then
        [.paymentError w.viewClass.errorComponent (w.viewClass.title ++ " component is not valid") "INVALID"]
      else []

theorem View.length_refusal (w : View) : w.refusal.length = if w.ready then 0 else 1 := by
  unfold refusal ready
  cases w.submittableComponent with
  | none => rfl
  | some c => cases h : c.isValid <;> simp [h]

theorem View.refusal_of_ready {w : View} (h : w.ready = true) : w.refusal = [] := by
  rw [← List.length_eq_zero_iff, length_refusal, if_pos h]

theorem View.ready_of_refusal {w : View} (h : w.refusal = []) : w.ready = true := by
  by_contra hr
  have hlen := w.length_refusal
  rw [h, if_neg hr] at hlen
  cases hlen

namespace State

/-- The views whose `submitFromJS` a pass calls, in order. -/
def firstSubmitCalls (s : State D) : List ViewId → List ViewId
  | [] => []
  | v :: rest =>
      if s.Live v then
        match s.submitFromJS v with
        | (_, true) => [v]
        | (s', false) => v :: firstSubmitCalls s' rest
      else firstSubmitCalls s rest

def errors (s : State D) (calls : List ViewId) (v : ViewId) : Nat :=
  ((calls.filter (· = v)).flatMap fun w => (s.view w).refusal).length

variable (s : State D)

theorem submitFromJS_emitted (v : ViewId) : (s.submitFromJS v).1.emitted = s.emitted ++ (s.view v).refusal := by
  unfold submitFromJS View.refusal
  cases (s.view v).submittableComponent with
  | none => rfl
  | some c =>
      dsimp only
      split
      · rfl
      · exact (List.append_nil _).symm

theorem submitFromJS_done (v : ViewId) : (s.submitFromJS v).2 = (s.view v).ready := by
  cases h : (s.view v).ready with
  | true => exact (submitFromJS_of_ready s h).1
  | false => exact (submitFromJS_of_not_ready s h).1

theorem errors_eq (calls : List ViewId) (v : ViewId) :
    s.errors calls v = if (s.view v).ready then 0 else calls.count v := by
  unfold errors
  induction calls with
  | nil => exact (ite_self 0).symm
  | cons w rest ih =>
      by_cases hw : w = v
      · subst hw
        rw [List.filter_cons_of_pos (by simp), List.flatMap_cons, List.length_append, ih, View.length_refusal,
          List.count_cons_self]
        split
        · rfl
        · exact Nat.add_comm _ _
      · rw [List.filter_cons_of_neg (by simp [hw]), ih, List.count_cons_of_ne hw]

/-! ## One walk -/

theorem firstSubmitCalls_cons (v : ViewId) (rest : List ViewId) :
    s.firstSubmitCalls (v :: rest) = if s.Live v then
      match s.submitFromJS v with
      | (_, true) => [v]
      | (s', false) => v :: s'.firstSubmitCalls rest
    else s.firstSubmitCalls rest := rfl

theorem firstSubmitCalls_append (l l' : List ViewId) :
    s.firstSubmitCalls (l ++ l') = match s.firstSubmit l with
      | (_, true) => s.firstSubmitCalls l
      | (s', false) => s.firstSubmitCalls l ++ s'.firstSubmitCalls l' := by
  induction l generalizing s with
  | nil => rfl
  | cons v rest ih =>
      rw [List.cons_append, firstSubmitCalls_cons, firstSubmitCalls_cons, firstSubmit_cons]
      split
      · cases s.submitFromJS v with
        | mk s' done =>
            cases done with
            | true => rfl
            | false =>
                dsimp only
                rw [ih s']
                cases s'.firstSubmit rest with
                | mk s'' done => cases done <;> rfl
      · exact ih s

/-- The events of a pass are those of the views it calls. -/
theorem firstSubmit_emitted (l : List ViewId) :
    (s.firstSubmit l).1.emitted = s.emitted ++ (s.firstSubmitCalls l).flatMap fun v => (s.view v).refusal := by
  induction l generalizing s with
  | nil => exact (List.append_nil _).symm
  | cons v rest ih =>
      have hemitted := s.submitFromJS_emitted v
      have hview := (s.submitFromJS_same v).1.view
      rw [firstSubmit_cons, firstSubmitCalls_cons]
      split
      · cases hv : s.submitFromJS v with
        | mk s' done =>
            rw [hv] at hemitted hview
            cases done with
            | true => simpa using hemitted
            | false =>
                dsimp only at hemitted hview ⊢
                rw [ih s', hemitted, hview, List.flatMap_cons, List.append_assoc]
      · exact ih s

theorem firstSubmitCalls_of_none {l : List ViewId} (hlive : ∀ v ∈ l, s.Live v) (h : l.find? s.canSubmit = none) :
    s.firstSubmitCalls l = l := by
  induction l generalizing s with
  | nil => rfl
  | cons v rest ih =>
      have hl : s.Live v := hlive v (List.mem_cons_self ..)
      have hv : s.canSubmit v = false := by simpa using List.find?_eq_none.mp h v (List.mem_cons_self ..)
      have hdone : (s.submitFromJS v).2 = false := by
        rw [submitFromJS_done]
        simpa [canSubmit, hl] using hv
      have hview := (s.submitFromJS_same v).1.view
      rw [List.find?_cons_of_neg (by simp [hv])] at h
      rw [firstSubmitCalls_cons, if_pos hl]
      cases hs : s.submitFromJS v with
      | mk s' done =>
          rw [hs] at hdone hview
          subst hdone
          refine congrArg (v :: ·) (ih s' (fun w hw => ?_) ?_)
          · rw [Live, hview]
            exact hlive w (List.mem_cons_of_mem _ hw)
          · rw [canSubmit_congr hview]
            exact h

theorem mem_firstSubmitCalls_head {v : ViewId} {rest : List ViewId} (hlive : s.Live v) :
    v ∈ s.firstSubmitCalls (v :: rest) := by
  rw [firstSubmitCalls_cons, if_pos hlive]
  split <;> exact List.mem_cons_self ..

theorem firstSubmitCalls_of_head {v : ViewId} {rest : List ViewId} (h : s.canSubmit v = true) :
    s.firstSubmitCalls (v :: rest) = [v] := by
  obtain ⟨hlive, hready⟩ : s.Live v ∧ (s.view v).ready = true := by simpa [canSubmit] using h
  have hdone := s.submitFromJS_done v
  rw [hready] at hdone
  rw [firstSubmitCalls_cons, if_pos hlive]
  cases hs : s.submitFromJS v with
  | mk s' done =>
      rw [hs] at hdone
      subst hdone
      rfl

end State

/-! ## The whole call -/

namespace Registry

def submitCalls (s : State D) (sessionID : String) (order : List (String × List ViewId)) : List ViewId :=
  match s.sweep.firstSubmit ((s.sweep.views.get sessionID).getD []) with
  | (_, true) => s.sweep.firstSubmitCalls ((s.sweep.views.get sessionID).getD [])
  | (s', false) => s.sweep.firstSubmitCalls ((s.sweep.views.get sessionID).getD []) ++
      s'.firstSubmitCalls (order.flatMap Prod.snd)

/-- The views in the order in which they are met: those of the session, then all. -/
def met (s : State D) (sessionID : String) (order : List (String × List ViewId)) : List ViewId :=
  s.sweep.targets sessionID ++ order.flatMap Prod.snd

/-- **One outcome**: a single component is submitted and no error emitted, or none is and every live view emits at
most one error. -/
structure OneOutcome (s : State D) (sessionID : String) (order : List (String × List ViewId)) : Prop where
  accepted : (submit s sessionID order).2 = true →
    (∃ v, s.Submits (submit s sessionID order).1 v) ∧ (submit s sessionID order).1.emitted = s.emitted
  refused : (submit s sessionID order).2 = false →
    (submit s sessionID order).1.submitted = s.submitted ∧
      ∀ v, s.Live v → s.errors (submitCalls s sessionID order) v ≤ 1

variable {s : State D} {sid : String} {order : List (String × List ViewId)}

theorem submit_eq : submit s sid order = s.sweep.firstSubmit (met s sid order) :=
  (s.sweep.firstSubmit_append _ _).symm

theorem submitCalls_eq : submitCalls s sid order = s.sweep.firstSubmitCalls (met s sid order) :=
  (s.sweep.firstSubmitCalls_append _ _).symm

/-- **The error events of a call** are those of the views it calls. -/
theorem submit_emitted : (submit s sid order).1.emitted =
    s.emitted ++ (submitCalls s sid order).flatMap fun v => (s.view v).refusal := by
  rw [submit_eq, submitCalls_eq]
  exact s.sweep.firstSubmit_emitted _

theorem submit_cameOut_met : s.CameOut (submit s sid order).1 (submit s sid order).2
    ((met s sid order).find? s.canSubmit) := by
  rw [submit_eq]
  exact s.sweep.firstSubmit_cameOut _

theorem live_of_mem_met (ho : order.Perm s.sweep.views.entries) {v : ViewId} (h : v ∈ met s sid order) :
    s.Live v := by
  rcases List.mem_append.mp h with h | h
  · exact ((s.registered_sweep v sid).mp ((s.sweep.mem_targets_iff v sid).mp h)).2
  · exact ((mem_fallback_iff ho v).mp h).choose_spec.2

theorem find_met_eq_none_iff (ho : order.Perm s.sweep.views.entries) :
    (met s sid order).find? s.canSubmit = none ↔ ∀ v k, s.Registered v k → s.canSubmit v = false := by
  rw [List.find?_eq_none]
  constructor
  · intro h v k hk
    by_contra hcan
    have hcan := Bool.eq_true_of_not_eq_false hcan
    have hlive : s.Live v := by
      simp only [State.canSubmit, Bool.and_eq_true, decide_eq_true_eq] at hcan
      exact hcan.1
    exact h v (List.mem_append_right _ ((mem_fallback_iff ho v).mpr ⟨k, hk, hlive⟩)) hcan
  · intro h v hv
    have hreg : ∃ k, s.Registered v k := by
      rcases List.mem_append.mp hv with hv | hv
      · exact ⟨sid, ((s.registered_sweep v sid).mp ((s.sweep.mem_targets_iff v sid).mp hv)).1⟩
      · obtain ⟨k, hk, -⟩ := (mem_fallback_iff ho v).mp hv
        exact ⟨k, hk⟩
    obtain ⟨k, hk⟩ := hreg
    rw [h v k hk]
    exact Bool.false_ne_true

/-- No live view is filed twice. -/
def FiledOnce (s : State D) : Prop := (s.sweep.views.entries.flatMap Prod.snd).Nodup

/-- No view is met twice exactly if no live one is filed twice, and none under the session. -/
theorem nodup_met_iff (ho : order.Perm s.sweep.views.entries) :
    (met s sid order).Nodup ↔ (∀ v, s.Live v → ¬ s.Registered v sid) ∧ FiledOnce s := by
  have hall : (order.flatMap Prod.snd).Nodup ↔ FiledOnce s := (ho.flatMap_right Prod.snd).nodup_iff
  have hlate : ∀ v, v ∈ s.sweep.targets sid ↔ s.Registered v sid ∧ s.Live v := fun v =>
    (s.sweep.mem_targets_iff v sid).trans (s.registered_sweep v sid)
  unfold met
  rw [List.nodup_append, hall]
  constructor
  · rintro ⟨-, honce, hdisj⟩
    refine ⟨fun v hlive hreg => ?_, honce⟩
    exact hdisj v ((hlate v).mpr ⟨hreg, hlive⟩) v ((mem_fallback_iff ho v).mpr ⟨sid, hreg, hlive⟩) rfl
  · rintro ⟨hnone, honce⟩
    have hempty : s.sweep.targets sid = [] := by
      rw [List.eq_nil_iff_forall_not_mem]
      exact fun v hv => hnone v ((hlate v).mp hv).2 ((hlate v).mp hv).1
    rw [hempty]
    exact ⟨List.nodup_nil, honce, nofun⟩

/-- When some view met can submit, only a first one that refuses spoils the outcome. -/
theorem oneOutcome_iff_of_some (ho : order.Perm s.sweep.views.entries) {w : ViewId}
    (hfind : (met s sid order).find? s.canSubmit = some w) :
    OneOutcome s sid order ↔ ∃ v, (met s sid order).head? = some v ∧ s.canSubmit v = true := by
  have hcame : s.CameOut (submit s sid order).1 (submit s sid order).2 ((met s sid order).find? s.canSubmit) :=
    submit_cameOut_met
  rw [hfind] at hcame
  obtain ⟨hdone, hsub, -⟩ := hcame
  cases hmet : met s sid order with
  | nil =>
      rw [hmet] at hfind
      cases hfind
  | cons v rest =>
      have hv : v ∈ met s sid order := hmet ▸ List.mem_cons_self ..
      have hlive : s.Live v := live_of_mem_met ho hv
      have hcalls : submitCalls s sid order = s.sweep.firstSubmitCalls (v :: rest) := by rw [submitCalls_eq, hmet]
      constructor
      · intro h
        have hquiet := (h.accepted hdone).2
        rw [submit_emitted, List.append_right_eq_self, List.flatMap_eq_nil_iff] at hquiet
        have hready := View.ready_of_refusal (hquiet v (hcalls ▸ s.sweep.mem_firstSubmitCalls_head hlive))
        exact ⟨v, rfl, by simp [State.canSubmit, hlive, hready]⟩
      · rintro ⟨u, hu, hcan⟩
        obtain rfl := Option.some.inj hu
        have hready : (s.view v).ready = true := by simpa [State.canSubmit, hlive] using hcan
        refine ⟨fun _ => ⟨⟨w, hsub⟩, ?_⟩, fun h => absurd (hdone.symm.trans h) (by decide)⟩
        rw [submit_emitted, hcalls, s.sweep.firstSubmitCalls_of_head hcan, List.flatMap_singleton,
          View.refusal_of_ready hready, List.append_nil]

/-- When none can, every view met emits an error each time it is met. -/
theorem oneOutcome_iff_of_none (ho : order.Perm s.sweep.views.entries)
    (hfind : (met s sid order).find? s.canSubmit = none) : OneOutcome s sid order ↔ (met s sid order).Nodup := by
  have hcame : s.CameOut (submit s sid order).1 (submit s sid order).2 ((met s sid order).find? s.canSubmit) :=
    submit_cameOut_met
  rw [hfind] at hcame
  obtain ⟨hdone, hsub, -⟩ := hcame
  have hcalls : submitCalls s sid order = met s sid order := by
    rw [submitCalls_eq]
    exact s.sweep.firstSubmitCalls_of_none (fun v => live_of_mem_met ho) hfind
  have hrefuses : ∀ v ∈ met s sid order, (s.view v).ready = false := fun v hv => by
    simpa [State.canSubmit, live_of_mem_met ho hv] using List.find?_eq_none.mp hfind v hv
  constructor
  · refine fun h => List.nodup_iff_count_le_one.mpr fun v => ?_
    by_cases hv : v ∈ met s sid order
    · have hle := (h.refused hdone).2 v (live_of_mem_met ho hv)
      rwa [hcalls, State.errors_eq, hrefuses v hv, if_neg Bool.false_ne_true] at hle
    · exact (List.count_eq_zero.mpr hv).le.trans (Nat.zero_le 1)
  · intro hnodup
    refine ⟨fun h => absurd (hdone.symm.trans h) Bool.false_ne_true, fun _ => ⟨hsub, fun v _ => ?_⟩⟩
    rw [hcalls, State.errors_eq]
    split
    · exact Nat.zero_le 1
    · exact List.nodup_iff_count_le_one.mp hnodup v

/-- **One outcome exactly when** the first view met can submit, or no registered view can, none that is alive is filed
under the session and none filed twice. -/
theorem submit_oneOutcome_iff (ho : order.Perm s.sweep.views.entries) :
    OneOutcome s sid order ↔ (∃ v, (met s sid order).head? = some v ∧ s.canSubmit v = true) ∨
      ((∀ v k, s.Registered v k → s.canSubmit v = false) ∧ (∀ v, s.Live v → ¬ s.Registered v sid) ∧ FiledOnce s) := by
  have hnone : (met s sid order).find? s.canSubmit = none ↔ ∀ v k, s.Registered v k → s.canSubmit v = false :=
    find_met_eq_none_iff ho
  rw [← hnone, ← nodup_met_iff ho]
  cases hfind : (met s sid order).find? s.canSubmit with
  | some w =>
      rw [oneOutcome_iff_of_some ho hfind]
      exact ⟨Or.inl, fun h => h.resolve_right fun h => Option.some_ne_none w h.1⟩
  | none =>
      rw [oneOutcome_iff_of_none ho hfind]
      refine ⟨fun h => Or.inr ⟨rfl, h⟩, ?_⟩
      rintro (⟨v, hv, hcan⟩ | ⟨-, h⟩)
      · exact absurd hcan (List.find?_eq_none.mp hfind v (List.mem_of_mem_head? hv))
      · exact h

end Registry

/-- A submission that reaches a ready component at once. -/
theorem submit_oneOutcome_ready :
    let s := (machine (D := Unit) {"ps_1"} fun _ => none).run (machine {"ps_1"} fun _ => none).init readyRun
    Registry.OneOutcome s "ps_1" s.sweep.views.entries :=
  (Registry.submit_oneOutcome_iff (List.Perm.refl _)).mpr (Or.inl ⟨0, rfl, rfl⟩)

/-- A card view whose component is still being built, asked for by its session: it is met in both passes, and emits
its error twice. -/
theorem unready_view_errs_twice :
    let M := machine (D := Unit) {"ps_1"} fun _ => none
    let s := M.run M.init [.create 0 .card, .setProperty 0 (.paymentSessionID (some "ps_1"))]
    M.Reachable s ∧ (Registry.submit s "ps_1" s.sweep.views.entries).2 = false ∧
      s.errors (Registry.submitCalls s "ps_1" s.sweep.views.entries) 0 = 2 ∧
      ¬ Registry.OneOutcome s "ps_1" s.sweep.views.entries := by
  intro M s
  have hrefused : (Registry.submit s "ps_1" s.sweep.views.entries).2 = false := by decide
  have htwice : s.errors (Registry.submitCalls s "ps_1" s.sweep.views.entries) 0 = 2 := by decide
  refine ⟨Machine.Reachable.of_admits ⟨rfl, ⟨rfl, Property.session_mem rfl⟩, trivial⟩, hrefused, htwice, fun h => ?_⟩
  have hle := (h.refused hrefused).2 0 rfl
  rw [htwice] at hle
  exact absurd hle (by decide)

end FlowDemo.Ios
