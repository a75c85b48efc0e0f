import FlowDemo.Props
import FlowDemo.Ios.Machine

/-!
# Prop transactions on iOS

Every property observer of a payment view calls `maybeInitialize`, which captures the three props as they are in the
middle of a transaction and queues an `initialize`. The first one that runs builds the session.

* `setAll_tasks`: a transaction queues what the props pass through;
* `StaysConsistent`: no session is built with anything else than a triple from the end of a transaction, whichever
  queued `initialize` runs next;
* `consistent_throughout_iff`: the transactions that keep it so.
-/

namespace FlowDemo.Ios

variable {D : Type}

def Property.update : Property → PropUpdate
  | .paymentSessionID value => .paymentSessionID value
  | .paymentSessionSecret value => .paymentSessionSecret value
  | .publicKey value => .publicKey value
  | .paymentMethod _ => .other
  | .other => .other

/-- The three props an SDK session takes. -/
def View.props (w : View) : Props := ⟨w.paymentSessionID, w.paymentSessionSecret, w.publicKey⟩

def InitializeTask.triple (t : InitializeTask) : Triple := ⟨t.paymentSessionID, t.paymentSessionSecret, t.publicKey⟩

def InitializeTask.of (v : ViewId) (t : Triple) : InitializeTask :=
  ⟨v, t.paymentSessionID, t.paymentSessionSecret, t.publicKey⟩

namespace Transactions

/-- The views, their props at the end of each transaction, and the sessions the SDK was given. -/
structure State (D : Type) where
  ios : Ios.State D := {}
  ends : ViewId → List Props := fun _ => []
  built : List (ViewId × Triple) := []

/-- The session a step gives the SDK: that of an `initialize` which gets past its guard. -/
def begins (s : Ios.State D) : Ios.Event → List (ViewId × Triple)
  | .beginInitialize t => if (s.view t.view).hasInitialized then [] else [(t.view, t.triple)]
  | _ => []

/-- The properties of a transaction are set one by one, each with its `didSet`. -/
def setAll (s : Ios.State D) (v : ViewId) (ps : List Property) : Ios.State D :=
  ps.foldl (fun s p => s.setProperty v p) s

namespace State

def transaction (s : State D) (v : ViewId) (ps : List Property) : State D :=
  { s with
    ios := setAll s.ios v ps
    ends := Function.update s.ends v (s.ends v ++ [(current (s.ends v)).setAll (ps.map Property.update)]) }

def didMoveToWindow (s : State D) (v : ViewId) : State D := { s with ios := s.ios.maybeInitialize v }

end State

inductive Event
  | transaction (v : ViewId) (ps : List Property)
  | didMoveToWindow (v : ViewId)
  | ios (e : Ios.Event)

/-- Properties are set in transactions only. -/
def machine (Session : Set String) (decode : String → Option D) : Machine (State D) Event where
  init := {}
  allowed s e := match e with
    | .transaction v ps => s.ios.Live v ∧ ∀ id, .paymentSessionID (some id) ∈ ps → id ∈ Session
    | .didMoveToWindow v => s.ios.Live v
    | .ios e => (∀ v p, e ≠ .setProperty v p) ∧ (Ios.machine Session decode).allowed s.ios e
  step s e := match e with
    | .transaction v ps => s.transaction v ps
    | .didMoveToWindow v => s.didMoveToWindow v
    | .ios e => { s with
        ios := (Ios.machine Session decode).step s.ios e
        built := s.built ++ begins s.ios e }

/-! ## The property -/

def Consistent (s : State D) : Prop := FromTransactions s.ends s.built

/-- The sessions are consistent, and stay so whichever queued `initialize` runs next. -/
def StaysConsistent (Session : Set String) (decode : String → Option D) (s : State D) : Prop :=
  Consistent s ∧ ∀ t ∈ s.ios.tasks, Consistent ((machine Session decode).step s (.ios (.beginInitialize t)))

/-- A transaction of a view that is not initialised passes through no triple but its last one, and those that stood
at the end of an earlier one. -/
def KeepsTriples (s : State D) : Event → Prop
  | .transaction v ps => (s.ios.view v).hasInitialized = false →
      ∀ t ∈ (current (s.ends v)).passes (ps.map Property.update),
        t.props ∈ s.ends v ++ [(current (s.ends v)).setAll (ps.map Property.update)]
  | .didMoveToWindow _ => True
  | .ios _ => True

/-! ## What the observers queue -/

section Observers

variable (s : Ios.State D) (v : ViewId)

theorem props_set (w : View) (p : Property) : (w.set p).props = w.props.set p.update := by
  cases p <;> rfl

theorem maybeInitialize_view : (s.maybeInitialize v).view = s.view := by
  unfold State.maybeInitialize
  split
  · rfl
  · split
    · split <;> rfl
    · rfl

/-- **`maybeInitialize`** queues the triple of the view as it is. -/
theorem maybeInitialize_tasks : (s.maybeInitialize v).tasks =
    if (s.view v).hasInitialized then s.tasks
    else s.tasks ++ ((s.view v).props.triple.map (InitializeTask.of v)).toList := by
  unfold Ios.State.maybeInitialize View.props Props.triple
  split
  · rfl
  rcases Option.eq_none_or_eq_some (s.view v).paymentSessionID with h1 | ⟨id, h1⟩
  · simp [h1]
  rcases Option.eq_none_or_eq_some (s.view v).paymentSessionSecret with h2 | ⟨secret, h2⟩
  · simp [h1, h2]
  rcases Option.eq_none_or_eq_some (s.view v).publicKey with h3 | ⟨key, h3⟩
  · simp [h1, h2, h3]
  simp only [h1, h2, h3]
  split
  · simp
  · simp [InitializeTask.of]

theorem setProperty_eq (p : Property) :
    ∃ t, (s.setView v ((s.view v).set p)).SameViews t ∧ s.setProperty v p = t.maybeInitialize v := by
  cases p with
  | paymentSessionID value => exact ⟨_, Ios.State.register_same _ v, rfl⟩
  | _ => exact ⟨_, ⟨rfl, rfl, rfl, rfl, rfl, rfl⟩, rfl⟩

theorem setProperty_spec (p : Property) :
    ((s.setProperty v p).view v).props = (s.view v).props.set p.update ∧
      (∀ w, w ≠ v → (s.setProperty v p).view w = s.view w) ∧
      ((s.setProperty v p).view v).hasInitialized = (s.view v).hasInitialized ∧
      (s.setProperty v p).tasks = if (s.view v).hasInitialized then s.tasks
        else s.tasks ++ (((s.view v).props.set p.update).triple.map (InitializeTask.of v)).toList := by
  obtain ⟨t, hsame, heq⟩ := setProperty_eq s v p
  have hself : t.view v = (s.view v).set p := by rw [hsame.view, Ios.State.setView_view_self]
  have hinit : ((s.view v).set p).hasInitialized = (s.view v).hasInitialized := by cases p <;> rfl
  rw [heq, maybeInitialize_view, maybeInitialize_tasks, hself, props_set, hinit, hsame.tasks]
  refine ⟨rfl, fun w hw => ?_, rfl, rfl⟩
  rw [hsame.view, Ios.State.setView_view_of_ne s _ hw]

end Observers

/-- **A transaction** sets the props one after the other and queues what they pass through. -/
theorem setAll_spec (s : Ios.State D) (v : ViewId) (ps : List Property) :
    ((setAll s v ps).view v).props = (s.view v).props.setAll (ps.map Property.update) ∧
      (∀ w, w ≠ v → (setAll s v ps).view w = s.view w) ∧
      ((setAll s v ps).view v).hasInitialized = (s.view v).hasInitialized ∧
      (setAll s v ps).tasks = if (s.view v).hasInitialized then s.tasks
        else s.tasks ++ ((s.view v).props.passes (ps.map Property.update)).map (InitializeTask.of v) := by
  induction ps generalizing s with
  | nil =>
      refine ⟨rfl, fun _ _ => rfl, rfl, ?_⟩
      change s.tasks = if (s.view v).hasInitialized then s.tasks else s.tasks ++ []
      rw [List.append_nil, ite_self]
  | cons p ps ih =>
      obtain ⟨hprops, hother, hinit, htasks⟩ := setProperty_spec s v p
      obtain ⟨hprops', hother', hinit', htasks'⟩ := ih (s.setProperty v p)
      refine ⟨?_, fun w hw => (hother' w hw).trans (hother w hw), hinit'.trans hinit, ?_⟩
      · refine hprops'.trans ?_
        rw [hprops]
        rfl
      · refine htasks'.trans ?_
        rw [hinit, htasks, hprops]
        split
        · rfl
        · rw [List.append_assoc, List.map_cons, Props.passes, List.map_append]
          cases ((s.view v).props.set p.update).triple <;> rfl

/-! ## What the rest does -/

/-- **Calm steps** set no props, queue nothing, and take back no initialisation. -/
structure Calm (s t : Ios.State D) : Prop where
  props : ∀ w, (t.view w).props = (s.view w).props
  hasInitialized : ∀ w, (s.view w).hasInitialized = true → (t.view w).hasInitialized = true
  tasks : t.tasks ⊆ s.tasks

theorem Calm.trans {s t u : Ios.State D} (h : Calm s t) (h' : Calm t u) : Calm s u :=
  ⟨fun w => (h'.props w).trans (h.props w), fun w hw => h'.hasInitialized w (h.hasInitialized w hw),
    List.Subset.trans h'.tasks h.tasks⟩

theorem calm_update {s t : Ios.State D} {v : ViewId} {w : View} (hview : t.view = Function.update s.view v w)
    (hprops : w.props = (s.view v).props) (hinit : (s.view v).hasInitialized = true → w.hasInitialized = true)
    (htasks : t.tasks ⊆ s.tasks) : Calm s t := by
  refine ⟨fun u => ?_, fun u hu => ?_, htasks⟩
  · rw [hview, Function.update_apply]
    split
    · next hv => rw [hprops, hv]
    · rfl
  · rw [hview, Function.update_apply]
    split
    · next hv => exact hinit (hv ▸ hu)
    · exact hu

theorem calm_of_views {s t : Ios.State D} (hview : t.view = s.view) (htasks : t.tasks ⊆ s.tasks) : Calm s t :=
  ⟨fun w => by rw [hview], fun w hw => by rw [hview]; exact hw, htasks⟩

theorem calm_takeContinuation (s : Ios.State D) (v : ViewId) (r : String) (result : Result D) :
    Calm s (s.takeContinuation v r result) := by
  refine ⟨s.takeContinuation_congr View.props (fun w m ch => by cases ch <;> rfl) v r result, fun w hw => ?_, ?_⟩
  · rw [s.takeContinuation_congr View.hasInitialized (fun w m ch => by cases ch <;> rfl) v r result w]
    exact hw
  · rw [(s.takeContinuation_rest v r result).2.1]
    exact List.Subset.refl _

theorem calm_route (s : Ios.State D) (r : String) (order : List (String × List ViewId)) (result : Result D) :
    Calm s (s.route r order fun s v => s.takeContinuation v r result) :=
  Ios.State.route_keeps (P := Calm s) (fun h => h.trans (calm_of_views rfl (List.Subset.refl _)))
    (fun t v h => h.trans (calm_takeContinuation t v r result)) (calm_of_views rfl (List.Subset.refl _)) r order

theorem calm_step (Session : Set String) (decode : String → Option D) (s : Ios.State D) (e : Ios.Event)
    (he : ∀ v p, e ≠ .setProperty v p) : Calm s ((Ios.machine Session decode).step s e) := by
  have hsetPending : ∀ (v : ViewId) (m : LinkedMap String Continuation) (ch : Channel),
      ((s.view v).setPending m ch).props = (s.view v).props ∧
        ((s.view v).setPending m ch).hasInitialized = (s.view v).hasInitialized := by
    intro v m ch
    cases ch <;> exact ⟨rfl, rfl⟩
  cases e with
  | create v c =>
      have hview : Calm s (s.setView v ((s.view v).create c)) := calm_update rfl (by rfl) id (List.Subset.refl _)
      have hsame := Ios.State.register_same (s.setView v ((s.view v).create c)) v
      exact hview.trans (calm_of_views hsame.view fun x hx => hsame.tasks ▸ hx)
  | setProperty v p => exact absurd rfl (he v p)
  | beginInitialize t =>
      refine Ios.State.beginInitialize_keeps (P := Calm s) (calm_of_views rfl List.erase_subset) fun _ => ?_
      exact calm_update rfl (by rfl) (fun _ => rfl) List.erase_subset
  | finishInitialize t c =>
      refine Ios.State.finishInitialize_keeps (P := Calm s) (calm_of_views rfl (List.Subset.refl _)) (fun isValid => ?_)
        fun t e h => h.trans (calm_of_views rfl (List.Subset.refl _))
      exact calm_update rfl (by rfl) id (List.Subset.refl _)
  | onChange v c => exact calm_update rfl (by rfl) id (List.Subset.refl _)
  | dealloc v => exact calm_update rfl (by rfl) id (List.Subset.refl _)
  | deinit v => exact calm_of_views rfl (List.Subset.refl _)
  | submit id order =>
      have hsame := (ApplePayModule.submit_same s id order).1
      exact calm_of_views hsame.view fun x hx => hsame.tasks ▸ hx
  | bridgeHandleSubmit v id secret data r =>
      exact calm_update rfl (hsetPending v _ .submit).1 (fun h => (hsetPending v _ .submit).2.trans h)
        (List.Subset.refl _)
  | bridgeOnTokenized v r =>
      exact calm_update rfl (hsetPending v _ .tokenized).1 (fun h => (hsetPending v _ .tokenized).2.trans h)
        (List.Subset.refl _)
  | handleSubmitResponse r success data order => exact calm_route s r order _
  | handleTokenizedResponse r accepted message order => exact calm_route s r order _

/-! ## Which steps keep the triples -/

variable {Session : Set String} {decode : String → Option D} {s : State D}

/-- The history of the props ends with what the views have. -/
def Recorded (s : State D) : Prop := ∀ v, (s.ios.view v).props = current (s.ends v)

theorem ends_transaction (s : State D) (v : ViewId) (ps : List Property) (w : ViewId) :
    (s.transaction v ps).ends w =
      if w = v then s.ends v ++ [(current (s.ends v)).setAll (ps.map Property.update)] else s.ends w := by
  change Function.update s.ends v _ w = _
  rw [Function.update_apply]

theorem recorded_step (s : State D) (e : Event) (h : Recorded s) (ha : (machine Session decode).allowed s e) :
    Recorded ((machine Session decode).step s e) := by
  intro w
  cases e with
  | transaction v ps =>
      obtain ⟨hprops, hother, -, -⟩ := setAll_spec s.ios v ps
      change ((setAll s.ios v ps).view w).props = current ((s.transaction v ps).ends w)
      rw [ends_transaction]
      split
      · next hv => rw [hv, hprops, current_append, h v]
      · next hv => rw [hother w hv, h w]
  | didMoveToWindow v => exact (congrArg (fun f => (f w).props) (maybeInitialize_view s.ios v)).trans (h w)
  | ios e => exact ((calm_step Session decode s.ios e ha.1).props w).trans (h w)

theorem consistent_iff : Consistent s ↔ ∀ x ∈ s.built, x.2.props ∈ s.ends x.1 := fromTransactions_iff

theorem consistent_ios (e : Ios.Event) : Consistent ((machine Session decode).step s (.ios e)) ↔
    Consistent s ∧ ∀ x ∈ begins s.ios e, x.2.props ∈ s.ends x.1 := by
  rw [consistent_iff, consistent_iff]
  exact List.forall_mem_append

/-- What may run next is the queued task of a view that is not initialised yet. -/
theorem staysConsistent_iff : StaysConsistent Session decode s ↔
    Consistent s ∧ ∀ t ∈ s.ios.tasks, (s.ios.view t.view).hasInitialized = false → t.triple.props ∈ s.ends t.view := by
  refine and_congr_right fun hc => forall₂_congr fun t _ => ?_
  rw [consistent_ios, begins]
  cases (s.ios.view t.view).hasInitialized with
  | true => exact iff_of_true ⟨hc, nofun⟩ nofun
  | false =>
      constructor
      · exact fun h _ => h.2 _ (List.mem_singleton_self _)
      · exact fun h => ⟨hc, fun u hu => List.mem_singleton.mp hu ▸ h rfl⟩

theorem stays_transaction (hrec : Recorded s) (h : StaysConsistent Session decode s) (v : ViewId)
    (ps : List Property) :
    StaysConsistent Session decode (s.transaction v ps) ↔ KeepsTriples s (.transaction v ps) := by
  obtain ⟨hbuilt, htasks⟩ := staysConsistent_iff.mp h
  obtain ⟨-, hother, hinit, hqueue⟩ := setAll_spec s.ios v ps
  have hends : ∀ w p, p ∈ s.ends w → p ∈ (s.transaction v ps).ends w := by
    intro w p hp
    rw [ends_transaction]
    split
    · next hw => exact List.mem_append_left _ (hw ▸ hp)
    · exact hp
  have hself : (s.transaction v ps).ends v = _ := (ends_transaction s v ps v).trans (if_pos rfl)
  have hsame : ∀ w, ((setAll s.ios v ps).view w).hasInitialized = (s.ios.view w).hasInitialized := by
    intro w
    by_cases hw : w = v
    · rw [hw, hinit]
    · rw [hother w hw]
  rw [hrec v] at hqueue
  rw [staysConsistent_iff]
  constructor
  · rintro ⟨-, htasks'⟩ hv t ht
    have hin : InitializeTask.of v t ∈ (setAll s.ios v ps).tasks := by
      rw [hqueue, hv]
      exact List.mem_append_right _ (List.mem_map_of_mem ht)
    have hend := htasks' _ hin ((hsame v).trans hv)
    change t.props ∈ (s.transaction v ps).ends v at hend
    rwa [hself] at hend
  · intro hkeep
    refine ⟨consistent_iff.mpr fun x hx => hends _ _ (consistent_iff.mp hbuilt x hx), fun t ht hv => ?_⟩
    change t ∈ (setAll s.ios v ps).tasks at ht
    have hv' := (hsame t.view).symm.trans hv
    rw [hqueue] at ht
    cases hvinit : (s.ios.view v).hasInitialized with
    | true =>
        rw [hvinit, if_pos rfl] at ht
        exact hends _ _ (htasks t ht hv')
    | false =>
        rw [hvinit] at ht
        rcases List.mem_append.mp ht with ht | ht
        · exact hends _ _ (htasks t ht hv')
        · obtain ⟨triple, hin, rfl⟩ := List.mem_map.mp ht
          change triple.props ∈ (s.transaction v ps).ends v
          rw [hself]
          exact hkeep hvinit triple hin

theorem stays_didMoveToWindow (hrec : Recorded s) (h : StaysConsistent Session decode s) (v : ViewId) :
    StaysConsistent Session decode (s.didMoveToWindow v) := by
  obtain ⟨hbuilt, htasks⟩ := staysConsistent_iff.mp h
  refine staysConsistent_iff.mpr ⟨hbuilt, fun t ht hv => ?_⟩
  change ((s.ios.maybeInitialize v).view t.view).hasInitialized = false at hv
  change t ∈ (s.ios.maybeInitialize v).tasks at ht
  rw [maybeInitialize_view] at hv
  rw [maybeInitialize_tasks, hrec v] at ht
  split at ht
  · exact htasks t ht hv
  · rcases List.mem_append.mp ht with ht | ht
    · exact htasks t ht hv
    · obtain ⟨triple, htriple, rfl⟩ := Option.map_eq_some_iff.mp (Option.mem_toList.mp ht)
      exact mem_of_current htriple

theorem stays_ios (h : StaysConsistent Session decode s) {e : Ios.Event}
    (ha : (machine Session decode).allowed s (.ios e)) :
    StaysConsistent Session decode ((machine Session decode).step s (.ios e)) := by
  obtain ⟨hbuilt, htasks⟩ := staysConsistent_iff.mp h
  have hcalm := calm_step Session decode s.ios e ha.1
  refine staysConsistent_iff.mpr ⟨(consistent_ios e).mpr ⟨hbuilt, fun x hx => ?_⟩, fun t ht hv => ?_⟩
  · cases e with
    | beginInitialize u =>
        rw [begins] at hx
        cases hv : (s.ios.view u.view).hasInitialized with
        | true =>
            rw [if_pos hv] at hx
            cases hx
        | false =>
            rw [if_neg (Bool.eq_false_iff.mp hv)] at hx
            rw [List.mem_singleton.mp hx]
            exact htasks u ha.2 hv
    | _ => cases hx
  · refine htasks t (hcalm.tasks ht) ?_
    cases hinit : (s.ios.view t.view).hasInitialized with
    | false => rfl
    | true => exact (hcalm.hasInitialized t.view hinit).symm.trans hv

theorem stays_step (s : State D) (e : Event) (hrec : Recorded s) (h : StaysConsistent Session decode s)
    (ha : (machine Session decode).allowed s e) :
    StaysConsistent Session decode ((machine Session decode).step s e) ↔ KeepsTriples s e := by
  cases e with
  | transaction v ps => exact stays_transaction hrec h v ps
  | didMoveToWindow v => exact iff_of_true (stays_didMoveToWindow hrec h v) trivial
  | ios e => exact iff_of_true (stays_ios h ha) trivial

/-- **A run builds its sessions from whole transactions, whichever queued `initialize` runs first, exactly if** its
transactions pass through no triple that is none. -/
theorem consistent_throughout_iff {es : List Event}
    (h : (machine Session decode).Admits (machine Session decode).init es) :
    (machine Session decode).Throughout (StaysConsistent Session decode) (machine Session decode).init es ↔
      ((machine Session decode).restrict KeepsTriples).Admits (machine Session decode).init es :=
  Machine.throughout_iff_restrict recorded_step stays_step (fun _ => rfl)
    ⟨consistent_iff.mpr fun _ hx => absurd hx List.not_mem_nil, fun _ ht => absurd ht List.not_mem_nil⟩ h

end Transactions

end FlowDemo.Ios
