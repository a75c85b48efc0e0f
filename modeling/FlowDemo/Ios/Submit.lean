import FlowDemo.Ios.Invariant

/-!
# Which component an iOS submission reaches

`ApplePayModule.submit` tries the targets filed under the session id it was asked for, in their order, and falls back
to any registered target. `submit_reaches` says which component is submitted and how the promise settles; a target
that was given no other id answers for the session itself, the fallback answers for whatever session it has.
-/

namespace FlowDemo.Ios

variable {D : Type}

namespace State

/-- A submission can use `v`: it is alive, and its component is there and valid. -/
def canSubmit (s : State D) (v : ViewId) : Bool := s.Live v && (s.view v).ready

def targets (s : State D) (k : String) : List ViewId := (s.views.get k).getD []

/-- The component of `v` is submitted, nothing else is. -/
def Submits (s t : State D) (v : ViewId) : Prop :=
  ∃ c, (s.view v).submittableComponent = some c ∧ t.submitted = s.submitted ++ [(v, c)]

variable (s : State D)

theorem mem_targets_iff (v : ViewId) (k : String) : v ∈ s.targets k ↔ s.Registered v k := by
  unfold targets Registered
  cases s.views.get k with
  | none => simp
  | some l => simp

theorem targets_sweep (k : String) : s.sweep.targets k = (s.targets k).filter fun v => s.Live v := by
  unfold targets sweep retain
  rw [LinkedMap.get_filterMapValues]
  cases s.views.get k with
  | none => rfl
  | some l =>
      change (if (l.filter fun v => s.Live v).isEmpty then none else some (l.filter fun v => s.Live v)).getD [] = _
      split
      · next he => exact (List.isEmpty_iff.mp he).symm
      · rfl

theorem submitFromJS_of_ready {v : ViewId} (h : (s.view v).ready = true) :
    (s.submitFromJS v).2 = true ∧ s.Submits (s.submitFromJS v).1 v ∧ (s.submitFromJS v).1.settled = s.settled := by
  obtain ⟨c, hc, hv⟩ := Option.any_eq_true _ _ |>.mp h
  have heq : s.submitFromJS v = ({ s with submitted := s.submitted ++ [(v, c)] }, true) := by
    simp [submitFromJS, hc, hv]
  rw [heq]
  exact ⟨rfl, ⟨c, hc, rfl⟩, rfl⟩

theorem submitFromJS_of_not_ready {v : ViewId} (h : (s.view v).ready = false) :
    (s.submitFromJS v).2 = false ∧ (s.submitFromJS v).1.submitted = s.submitted ∧
      (s.submitFromJS v).1.settled = s.settled := by
  unfold submitFromJS
  cases hc : (s.view v).submittableComponent with
  | none => exact ⟨rfl, rfl, rfl⟩
  | some c =>
      have hv : c.isValid = false := by simpa [View.ready, hc] using h
      dsimp only
      rw [if_pos hv]
      exact ⟨rfl, rfl, rfl⟩

/-- A try has come out at the picked target: that one is submitted, or none. -/
def CameOut (s t : State D) (done : Bool) : Option ViewId → Prop
  | none => done = false ∧ t.submitted = s.submitted ∧ t.settled = s.settled
  | some v => done = true ∧ s.Submits t v ∧ t.settled = s.settled

theorem canSubmit_congr {s s' : State D} (hview : s'.view = s.view) : s'.canSubmit = s.canSubmit := by
  funext v
  have hlive : s'.Live v ↔ s.Live v := by rw [Live, Live, hview]
  exact congrArg₂ and (decide_eq_decide.mpr hlive) (by rw [hview])

theorem CameOut.congr {s s' t : State D} {done : Bool} {picked : Option ViewId} (hview : s'.view = s.view)
    (hsub : s'.submitted = s.submitted) (hset : s'.settled = s.settled) (h : s'.CameOut t done picked) :
    s.CameOut t done picked := by
  cases picked with
  | none => exact ⟨h.1, h.2.1.trans hsub, h.2.2.trans hset⟩
  | some v =>
      obtain ⟨h1, ⟨c, hc, hs⟩, h3⟩ := h
      exact ⟨h1, ⟨c, hview ▸ hc, hsub ▸ hs⟩, h3.trans hset⟩

theorem firstSubmit_cons (v : ViewId) (rest : List ViewId) :
    s.firstSubmit (v :: rest) = if s.Live v then
      match s.submitFromJS v with
      | (s', true) => (s', true)
      | (s', false) => s'.firstSubmit rest
    else s.firstSubmit rest := rfl

theorem firstSubmit_append (l l' : List ViewId) :
    s.firstSubmit (l ++ l') = match s.firstSubmit l with
      | (s', true) => (s', true)
      | (s', false) => s'.firstSubmit l' := by
  induction l generalizing s with
  | nil => rfl
  | cons v rest ih =>
      rw [List.cons_append, firstSubmit_cons, firstSubmit_cons]
      split
      · cases s.submitFromJS v with
        | mk s' done =>
            cases done with
            | true => rfl
            | false => exact ih s'
      · exact ih s

/-- **The first target that can submit is the one that does.** -/
theorem firstSubmit_cameOut (l : List ViewId) :
    s.CameOut (s.firstSubmit l).1 (s.firstSubmit l).2 (l.find? s.canSubmit) := by
  induction l generalizing s with
  | nil => exact ⟨rfl, rfl, rfl⟩
  | cons v rest ih =>
      unfold firstSubmit
      by_cases hl : s.Live v
      · rw [if_pos hl]
        cases hr : (s.view v).ready with
        | true =>
            obtain ⟨h1, h2, h3⟩ := submitFromJS_of_ready s hr
            rw [List.find?_cons_of_pos (by simp [canSubmit, hl, hr])]
            cases hv : s.submitFromJS v with
            | mk s' b =>
                rw [hv] at h1 h2 h3
                subst h1
                exact ⟨rfl, h2, h3⟩
        | false =>
            obtain ⟨h1, h2, h3⟩ := submitFromJS_of_not_ready s hr
            have hview := (submitFromJS_same s v).1.view
            rw [List.find?_cons_of_neg (by simp [canSubmit, hr])]
            cases hv : s.submitFromJS v with
            | mk s' b =>
                rw [hv] at h1 h2 h3 hview
                subst h1
                have hrest := CameOut.congr hview h2 h3 (ih s')
                rw [canSubmit_congr hview] at hrest
                exact hrest
      · rw [if_neg hl, List.find?_cons_of_neg (by simp [canSubmit, hl])]
        exact ih s

end State

/-- **Both passes**: the first target of the session that can submit, or else the first target that can. -/
theorem Registry.submit_cameOut (s : State D) (sid : String) (order : List (String × List ViewId)) :
    s.CameOut (Registry.submit s sid order).1 (Registry.submit s sid order).2
      (((s.targets sid).find? s.canSubmit).or ((order.flatMap Prod.snd).find? s.canSubmit)) := by
  have hcan : s.sweep.canSubmit = s.canSubmit := State.canSubmit_congr rfl
  have hfind : (s.sweep.targets sid).find? s.canSubmit = (s.targets sid).find? s.canSubmit := by
    rw [State.targets_sweep, List.find?_filter]
    congr 1
    funext v
    simp [State.canSubmit]
  -- the two passes are one over the targets of the session followed by all
  have hwalk : Registry.submit s sid order = s.sweep.firstSubmit (s.sweep.targets sid ++ order.flatMap Prod.snd) :=
    (s.sweep.firstSubmit_append _ _).symm
  have hcame := s.sweep.firstSubmit_cameOut (s.sweep.targets sid ++ order.flatMap Prod.snd)
  rw [← hwalk, hcan, List.find?_append, hfind] at hcame
  exact State.CameOut.congr rfl rfl rfl hcame

section Module

variable {s : State D} {sid : String} {order : List (String × List ViewId)}

theorem ApplePayModule.submit_of_picked {v : ViewId}
    (h : s.CameOut (Registry.submit s sid order).1 (Registry.submit s sid order).2 (some v)) :
    s.Submits (ApplePayModule.submit s sid order) v ∧
      (ApplePayModule.submit s sid order).settled = s.settled ++ [(sid, .ok ())] := by
  obtain ⟨hdone, ⟨c, hc, hsub⟩, hset⟩ := h
  unfold ApplePayModule.submit
  cases hr : Registry.submit s sid order with
  | mk s' b =>
      rw [hr] at hdone hsub hset
      subst hdone
      exact ⟨⟨c, hc, hsub⟩, congrArg (· ++ _) hset⟩

theorem ApplePayModule.submit_of_none
    (h : s.CameOut (Registry.submit s sid order).1 (Registry.submit s sid order).2 none) :
    (ApplePayModule.submit s sid order).submitted = s.submitted ∧
      (ApplePayModule.submit s sid order).settled = s.settled ++ [(sid,
        .error ⟨"E_SUBMIT_TARGET_NOT_FOUND", "No ApplePayView found for paymentSessionID: " ++ sid⟩)] := by
  obtain ⟨hdone, hsub, hset⟩ := h
  unfold ApplePayModule.submit
  cases hr : Registry.submit s sid order with
  | mk s' b =>
      rw [hr] at hdone hsub hset
      subst hdone
      exact ⟨hsub, congrArg (· ++ _) hset⟩

theorem mem_fallback_iff (ho : order.Perm s.sweep.views.entries) (v : ViewId) :
    v ∈ order.flatMap Prod.snd ↔ ∃ k, s.Registered v k ∧ s.Live v := by
  rw [s.sweep.mem_order_iff ho]
  exact exists_congr fun k => s.registered_sweep v k

end Module

/-- **Which component `ApplePayModule.submit` reaches.** In any reachable state: the first target filed under the
session that can submit is submitted, and it stands for that session if it was never given another id; when no target
of the session can submit, some registered target that can is submitted instead, as the fallback; when there is none
either, nothing is submitted and the promise is rejected. The promise settles once. -/
theorem submit_reaches {Session : Set String} {decode : String → Option D} {s : State D}
    (hs : (machine Session decode).Reachable s) (sid : String) {order : List (String × List ViewId)}
    (ho : order.Perm s.sweep.views.entries) :
    (∀ v, (s.targets sid).find? s.canSubmit = some v →
      s.Submits (ApplePayModule.submit s sid order) v ∧
      (ApplePayModule.submit s sid order).settled = s.settled ++ [(sid, .ok ())] ∧
      ((∀ k ∈ (s.view v).givenIDs, k = sid) → (s.view v).initializedFor = some sid)) ∧
    ((∀ v ∈ s.targets sid, s.canSubmit v = false) →
      (∃ v k, s.Registered v k ∧ s.canSubmit v = true) →
      ∃ v k, s.Registered v k ∧ s.canSubmit v = true ∧ s.Submits (ApplePayModule.submit s sid order) v ∧
        (ApplePayModule.submit s sid order).settled = s.settled ++ [(sid, .ok ())]) ∧
    ((∀ v k, s.Registered v k → s.canSubmit v = false) →
      (ApplePayModule.submit s sid order).submitted = s.submitted ∧
      (ApplePayModule.submit s sid order).settled = s.settled ++ [(sid,
        .error ⟨"E_SUBMIT_TARGET_NOT_FOUND", "No ApplePayView found for paymentSessionID: " ++ sid⟩)]) := by
  have hinv := inv_reachable hs
  have hcame := Registry.submit_cameOut s sid order
  refine ⟨?_, ?_, ?_⟩
  · intro v hv
    rw [hv] at hcame
    obtain ⟨hsub, hset⟩ := ApplePayModule.submit_of_picked hcame
    refine ⟨hsub, hset, fun hgiven => ?_⟩
    obtain ⟨c, hc, -⟩ := hsub
    have hfor := hinv.built.component v c hc
    rw [hfor, hgiven c.session (hinv.built.given v _ hfor)]
  · rintro hnone ⟨w, k, hw, hcan⟩
    have hlive : s.Live w := by
      simp only [State.canSubmit, Bool.and_eq_true, decide_eq_true_eq] at hcan
      exact hcan.1
    rw [List.find?_eq_none.mpr (by simpa using hnone), Option.none_or] at hcame
    cases hfind : (order.flatMap Prod.snd).find? s.canSubmit with
    | none =>
        have := List.find?_eq_none.mp hfind w ((mem_fallback_iff ho w).mpr ⟨k, hw, hlive⟩)
        exact absurd hcan this
    | some v =>
        rw [hfind] at hcame
        obtain ⟨k', hk', -⟩ := (mem_fallback_iff ho v).mp (List.mem_of_find?_eq_some hfind)
        exact ⟨v, k', hk', List.find?_some hfind, ApplePayModule.submit_of_picked hcame⟩
  · intro hnone
    have hkeyed : (s.targets sid).find? s.canSubmit = none := by
      rw [List.find?_eq_none]
      intro v hv
      rw [hnone v sid ((s.mem_targets_iff v sid).mp hv)]
      exact Bool.false_ne_true
    have hany : (order.flatMap Prod.snd).find? s.canSubmit = none := by
      rw [List.find?_eq_none]
      intro v hv
      obtain ⟨k, hk, -⟩ := (mem_fallback_iff ho v).mp hv
      rw [hnone v k hk]
      exact Bool.false_ne_true
    rw [hkeyed, hany] at hcame
    exact ApplePayModule.submit_of_none hcame

def readyRun : List Event :=
  [.create 0 .card, .setProperty 0 (.paymentSessionID (some "ps_1")),
    .setProperty 0 (.paymentSessionSecret (some "secret")), .setProperty 0 (.publicKey (some "key")),
    .beginInitialize ⟨0, "ps_1", "secret", "key"⟩,
    .finishInitialize ⟨0, "ps_1", "secret", "key"⟩ (.created (some true) true)]

theorem readyRun_reachable :
    (machine (D := Unit) {"ps_1"} fun _ => none).Reachable
      ((machine {"ps_1"} fun _ => none).run (machine {"ps_1"} fun _ => none).init readyRun) := by
  refine Machine.Reachable.of_admits ⟨rfl, ⟨rfl, Property.session_mem rfl⟩, ⟨rfl, nofun⟩, ⟨rfl, nofun⟩, ?_, ?_, trivial⟩
  · exact List.mem_singleton_self _
  · exact List.mem_singleton_self _

theorem submit_reaches_ready :
    let s := (machine (D := Unit) {"ps_1"} fun _ => none).run (machine {"ps_1"} fun _ => none).init readyRun
    s.Submits (ApplePayModule.submit s "ps_1" s.sweep.views.entries) 0 ∧ (s.view 0).initializedFor = some "ps_1" := by
  intro s
  have hreach := (submit_reaches readyRun_reachable "ps_1" (List.Perm.refl _)).1 0 rfl
  exact ⟨hreach.1, hreach.2.2 (by decide)⟩

/-- **The fallback pays another session**: asked for `ps_2`, for which no view was ever initialized, the registry
submits the component created for `ps_1` and the promise resolves. -/
theorem submit_falls_back :
    let s := (machine (D := Unit) {"ps_1"} fun _ => none).run (machine {"ps_1"} fun _ => none).init readyRun
    (machine (D := Unit) {"ps_1"} fun _ => none).Reachable s ∧ (∀ v, (s.view v).initializedFor ≠ some "ps_2") ∧
      (ApplePayModule.submit s "ps_2" s.sweep.views.entries).submitted = [(0, ⟨"ps_1", true⟩)] ∧
      (ApplePayModule.submit s "ps_2" s.sweep.views.entries).settled = [("ps_2", .ok ())] := by
  intro s
  refine ⟨readyRun_reachable, ?_, rfl, rfl⟩
  intro v hv
  have hinv := inv_reachable readyRun_reachable
  have heq : "ps_2" = "ps_1" := hinv.filed.session v _ (hinv.built.given v _ hv)
  exact absurd heq (by decide)

end FlowDemo.Ios
