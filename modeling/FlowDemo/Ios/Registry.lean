import FlowDemo.Ios.View

/-!
# `ApplePayViewRegistry`

Weak references to the views, filed under every payment session id they were registered with. A response is delivered
to the targets filed under its request id or, there being none, to every live target; a submission tries the targets
of its session and then every live target. A Swift dictionary has no order of its own: where the source iterates over
one, `order` is the order of that iteration, some permutation of the entries.
-/

namespace FlowDemo.Ios

namespace State

variable {D : Type}

def key (w : View) : Option String :=
  match w.paymentSessionID with
  | some sid => if sid.isEmpty then none else some sid
  | none => none

def register (s : State D) (v : ViewId) : State D :=
  match key (s.view v) with
  | none => s
  | some k => { s with
      views := s.views.put k ((((s.views.get k).getD []).filter fun w => s.Live w ∧ w ≠ v) ++ [v]) }

/-- Keep the targets that pass `keep`, and the entries that keep some. -/
def retain (s : State D) (keep : ViewId → Bool) : State D :=
  { s with views := s.views.filterMapValues fun targets =>
      let remaining := targets.filter keep
      if remaining.isEmpty then none else some remaining }

def unregister (s : State D) (v : ViewId) : State D := s.retain fun w => s.Live w ∧ w ≠ v

def sweep (s : State D) : State D := s.retain fun w => s.Live w

/-- `weakTarget.target?` -/
def deliver (respond : State D → ViewId → State D) (s : State D) (v : ViewId) : State D :=
  if s.Live v then respond s v else s

/-- The routing both response functions share. -/
def route (s : State D) (requestId : String) (order : List (String × List ViewId))
    (respond : State D → ViewId → State D) : State D :=
  match s.views.get requestId with
  | some targets => targets.foldl (deliver respond) s
  | none => (order.flatMap Prod.snd).foldl (deliver respond) s.sweep

def firstSubmit (s : State D) : List ViewId → State D × Bool
  | [] => (s, false)
  | v :: rest =>
      if s.Live v then
        match s.submitFromJS v with
        | (s', true) => (s', true)
        | (s', false) => firstSubmit s' rest
      else firstSubmit s rest

/-- `v` is filed under `k`. -/
def Registered (s : State D) (v : ViewId) (k : String) : Prop := ∃ targets, s.views.get k = some targets ∧ v ∈ targets

end State

namespace Registry

variable {D : Type}

def handleSubmitResponse (decode : String → Option D) (s : State D) (requestId : String) (success : Bool)
    (data : Option (List (String × Js.Json))) (order : List (String × List ViewId)) : State D :=
  s.route requestId order fun s v => s.handleSubmitResponse decode v requestId success data

def handleTokenizedResponse (s : State D) (requestId : String) (accepted : Bool) (rejectionMessage : Option String)
    (order : List (String × List ViewId)) : State D :=
  s.route requestId order fun s v => s.handleTokenizedResponse v requestId accepted rejectionMessage

/-- `submit(sessionID:)`: the targets of the session first, then any target. -/
def submit (s : State D) (sessionID : String) (order : List (String × List ViewId)) : State D × Bool :=
  match s.sweep.firstSubmit ((s.sweep.views.get sessionID).getD []) with
  | (s', true) => (s', true)
  | (s', false) => s'.firstSubmit (order.flatMap Prod.snd)

end Registry

/-- `ApplePayModule.submit`, from the moment its block runs on the main queue. -/
def ApplePayModule.submit {D : Type} (s : State D) (paymentSessionID : String)
    (order : List (String × List ViewId)) : State D :=
  match Registry.submit s paymentSessionID order with
  | (s', true) => { s' with settled := s'.settled ++ [(paymentSessionID, .ok ())] }
  | (s', false) => { s' with settled := s'.settled ++ [(paymentSessionID,
      .error ⟨"E_SUBMIT_TARGET_NOT_FOUND", "No ApplePayView found for paymentSessionID: " ++ paymentSessionID⟩)] }

/-! ## What is registered -/

namespace State

variable {D : Type} (s : State D)

theorem registered_register {v : ViewId} {k₀ : String} (hk : key (s.view v) = some k₀) (w : ViewId) (k : String) :
    (s.register v).Registered w k ↔
      (k = k₀ ∧ (w = v ∨ s.Registered w k ∧ s.Live w)) ∨ (k ≠ k₀ ∧ s.Registered w k) := by
  have hviews : (s.register v).views =
      s.views.put k₀ ((((s.views.get k₀).getD []).filter fun w => s.Live w ∧ w ≠ v) ++ [v]) := by
    simp only [register, hk]
  unfold Registered
  rw [hviews]
  by_cases hkk : k = k₀
  · subst hkk
    rw [LinkedMap.get_put_self]
    simp only [Option.some.injEq, exists_eq_left', List.mem_append, List.mem_filter, List.mem_singleton,
      decide_eq_true_eq, true_and, ne_eq, not_true_eq_false, false_and, or_false]
    constructor
    · rintro (⟨hw, hl, -⟩ | hw)
      · cases hg : s.views.get k with
        | none => simp [hg] at hw
        | some targets => exact Or.inr ⟨⟨targets, rfl, by simpa [hg] using hw⟩, hl⟩
      · exact Or.inl hw
    · rintro (hw | ⟨⟨targets, hg, hw⟩, hl⟩)
      · exact Or.inr hw
      · by_cases hwv : w = v
        · exact Or.inr hwv
        · exact Or.inl ⟨by simpa [hg] using hw, hl, hwv⟩
  · rw [LinkedMap.get_put_of_ne _ _ hkk]
    simp [hkk]

theorem registered_retain (keep : ViewId → Bool) (w : ViewId) (k : String) :
    (s.retain keep).Registered w k ↔ s.Registered w k ∧ keep w = true := by
  have hget : (s.retain keep).views.get k = (s.views.get k).bind fun targets =>
      if (targets.filter keep).isEmpty then none else some (targets.filter keep) :=
    LinkedMap.get_filterMapValues _ _ k
  unfold Registered
  rw [hget]
  cases hg : s.views.get k with
  | none => simp
  | some targets =>
      simp only [Option.bind_some, Option.some.injEq, exists_eq_left']
      constructor
      · rintro ⟨l, hl, hw⟩
        split at hl
        · cases hl
        · obtain rfl := Option.some.inj hl
          exact List.mem_filter.mp hw
      · intro hw
        have hmem := List.mem_filter.mpr hw
        refine ⟨_, if_neg ?_, hmem⟩
        rw [List.isEmpty_iff]
        exact List.ne_nil_of_mem hmem

theorem registered_unregister (v w : ViewId) (k : String) :
    (s.unregister v).Registered w k ↔ s.Registered w k ∧ s.Live w ∧ w ≠ v := by
  rw [unregister, registered_retain, decide_eq_true_eq]

theorem registered_sweep (w : ViewId) (k : String) : s.sweep.Registered w k ↔ s.Registered w k ∧ s.Live w := by
  rw [sweep, registered_retain, decide_eq_true_eq]

theorem mem_order_iff {order : List (String × List ViewId)} (h : order.Perm s.views.entries) (v : ViewId) :
    v ∈ order.flatMap Prod.snd ↔ ∃ k, s.Registered v k := by
  simp only [List.mem_flatMap, h.mem_iff, Prod.exists, Registered, LinkedMap.get_eq_some_iff]

/-! ## Delivery -/

section Delivery

variable {s} {r : String} {result : Result D}

/-- **What every response and the sweep keep**, a routed response keeps. -/
theorem route_keeps {P : State D → Prop} {respond : State D → ViewId → State D} (hsweep : P s → P s.sweep)
    (hrespond : ∀ s v, P s → P (respond s v)) (h : P s) (r : String) (order : List (String × List ViewId)) :
    P (s.route r order respond) := by
  have hdeliver : ∀ (l : List ViewId) (s : State D), P s → P (l.foldl (deliver respond) s) := by
    intro l
    induction l with
    | nil => exact fun _ h => h
    | cons v rest ih =>
        intro s h
        refine ih _ ?_
        unfold deliver
        split
        · exact hrespond s v h
        · exact h
  unfold route
  split
  · exact hdeliver _ s h
  · exact hdeliver _ s.sweep (hsweep h)

theorem foldl_deliver_idle {l : List ViewId} (h : ∀ v ∈ l, s.pending result.channel v r = none) :
    l.foldl (deliver fun s v => s.takeContinuation v r result) s = s := by
  induction l with
  | nil => rfl
  | cons v rest ih =>
      have hv : deliver (fun s v => s.takeContinuation v r result) s v = s := by
        simp only [deliver, takeContinuation_of_none s (h v List.mem_cons_self), ite_self]
      rw [List.foldl_cons, hv]
      exact ih fun w hw => h w (List.mem_cons_of_mem _ hw)

/-- A response one live view of `l` waits for is taken by that view, and by no other. -/
theorem foldl_deliver_holder {l : List ViewId} {v : ViewId} (hv : v ∈ l) (hlive : s.Live v)
    (honly : ∀ w, w ≠ v → s.pending result.channel w r = none) :
    l.foldl (deliver fun s v => s.takeContinuation v r result) s = s.takeContinuation v r result := by
  induction l with
  | nil => cases hv
  | cons w rest ih =>
      rw [List.foldl_cons]
      by_cases hw : w = v
      · subst hw
        have hstep : deliver (fun s v => s.takeContinuation v r result) s w = s.takeContinuation w r result :=
          if_pos hlive
        rw [hstep]
        refine foldl_deliver_idle fun u _ => ?_
        rw [takeContinuation_pending]
        split
        · rfl
        · next hu => exact honly u fun he => hu ⟨rfl, he, rfl⟩
      · have hstep : deliver (fun s v => s.takeContinuation v r result) s w = s := by
          simp only [deliver, takeContinuation_of_none s (honly w hw), ite_self]
        rw [hstep]
        exact ih ((List.mem_cons.mp hv).resolve_left (Ne.symm hw))

end Delivery

end State

end FlowDemo.Ios
