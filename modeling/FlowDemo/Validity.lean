import FlowDemo.Lib.Reporter

/-!
# Validity events of the card views

Both card views report the component's validity, as `onCardValidityChange`, only when it differs from the one they
reported last. `CardPayView` evaluates it within `onChange`; on Android a coroutine evaluates it later, and reads the
validity the component has by then.

* `Android.Card.Validity.refines`, `Ios.Validity.refines`: both views sample a value that changes;
* `validity_tracks_component`: their events alternate, and the last one is up to date.
-/

namespace FlowDemo

/-! ## Android -/

namespace Android.Card.Validity

/-- `try { component.isValid() } catch (_: Throwable) { false }`, of what `isValid` answers. -/
def evaluated : Except String Bool → Bool
  | .ok isValid => isValid
  | .error _ => false

/-- The launched evaluations are all alike, so that their number stands for their order. `changes` counts the changes
of the component; the program keeps no such number. -/
structure State where
  isValid : Except String Bool
  queued : Nat := 0
  lastIsValid : Option Bool := none
  emitted : List Bool := []
  changes : Nat := 0

def emitValidity (s : State) (isValid : Bool) : State :=
  if s.lastIsValid = some isValid then s
  else { s with lastIsValid := some isValid, emitted := s.emitted ++ [isValid] }

/-- The callback of a view with a `handleSubmit` listener launches an evaluation. -/
def onChange (s : State) : State := { s with queued := s.queued + 1 }

inductive Event
  /-- what `isValid` answers becomes `v`, and the component calls back -/
  | change (v : Except String Bool)
  /-- the oldest coroutine runs -/
  | evaluate

def allowed (s : State) : Event → Prop
  | .change _ => True
  | .evaluate => 0 < s.queued

def step (s : State) : Event → State
  | .change v => onChange { s with isValid := v, changes := s.changes + 1 }
  | .evaluate => { emitValidity s (evaluated s.isValid) with queued := s.queued - 1 }

def machine (v : Except String Bool) : Machine State Event := ⟨{ isValid := v }, allowed, step⟩

instance (v : Except String Bool) (s : State) (e : Event) : Decidable ((machine v).allowed s e) := by
  cases e with
  | change w => exact isTrue trivial
  | evaluate => exact inferInstanceAs (Decidable (0 < s.queued))

/-! ### Sampling -/

def State.sampling (s : State) : Sampling.State Bool Bool :=
  ⟨evaluated s.isValid, s.changes, s.queued, ⟨s.lastIsValid, s.emitted⟩⟩

theorem emitValidity_sampling (s : State) (isValid : Bool) :
    (emitValidity s isValid).sampling =
      { s.sampling with reporter := s.sampling.reporter.offer id isValid } := by
  unfold emitValidity Reporter.offer
  split
  · next h => rw [if_pos (show s.sampling.reporter.last = some isValid from h)]
  · next h =>
      rw [if_neg (show ¬ s.sampling.reporter.last = some isValid from h)]
      rfl

def moves : Event → Sampling.Event Bool
  | .change v => .change (evaluated v)
  | .evaluate => .sample

theorem step_sampling (s : State) (e : Event) : (step s e).sampling = Sampling.step id s.sampling (moves e) := by
  cases e with
  | change v => rfl
  | evaluate =>
      have h := emitValidity_sampling s (evaluated s.isValid)
      change { (emitValidity s (evaluated s.isValid)).sampling with pending := s.queued - 1 } = _
      rw [h]
      rfl

/-- **A card view on Android samples the component's validity.** -/
def refines (v : Except String Bool) : Simulation (machine v) (Sampling.machine id (evaluated v)) where
  rel s t := t = s.sampling
  moves _ e := [moves e]
  init := rfl
  step := by
    rintro s _ e rfl he
    refine ⟨⟨?_, trivial⟩, (step_sampling s e).symm⟩
    cases e with
    | change w => trivial
    | evaluate => exact he

/-- What a run of a view emits are the reports on the sampled value. -/
theorem run_sampling {v : Except String Bool} {es : List Event} (h : (machine v).Admits (machine v).init es) :
    let M := Sampling.machine (ρ := Bool) id (evaluated v)
    ∃ ms, M.Admits M.init ms ∧ ((machine v).run (machine v).init es).sampling = M.run M.init ms := by
  obtain ⟨hms, hrel⟩ := (refines v).run_rel rfl h
  exact ⟨_, hms, hrel.symm⟩

end Android.Card.Validity

/-! ## iOS -/

namespace Ios.Validity

/-- `changes` counts the changes of the component; the program keeps no such number. -/
structure State where
  submittable : Bool
  isValid : Bool
  lastValidity : Option Bool := none
  emitted : List Bool := []
  changes : Nat := 0

/-- The callback, of a component that may not be one to submit. -/
def onChange (s : State) : State :=
  if s.submittable then
    if s.lastValidity ≠ some s.isValid then
      { s with lastValidity := some s.isValid, emitted := s.emitted ++ [s.isValid] }
    else s
  else s

inductive Event
  /-- the component's validity becomes `v`, and it calls back -/
  | change (v : Bool)

def step (s : State) : Event → State
  | .change v => onChange { s with isValid := v, changes := s.changes + 1 }

def machine (submittable isValid : Bool) : Machine State Event :=
  ⟨{ submittable := submittable, isValid := isValid }, fun _ _ => True, step⟩

theorem admits (submittable isValid : Bool) (s : State) (es : List Event) :
    (machine submittable isValid).Admits s es := by
  induction es generalizing s with
  | nil => trivial
  | cons e es ih => exact ⟨trivial, ih _⟩

def State.sampling (s : State) : Sampling.State Bool Bool :=
  ⟨s.isValid, s.changes, 0, ⟨s.lastValidity, s.emitted⟩⟩

@[simp] theorem onChange_submittable (s : State) : (onChange s).submittable = s.submittable := by
  unfold onChange
  split
  · split
    · rfl
    · rfl
  · rfl

theorem onChange_sampling {s : State} (h : s.submittable = true) :
    (onChange s).sampling = { s.sampling with reporter := s.sampling.reporter.offer id s.isValid } := by
  rw [onChange, if_pos h, Reporter.offer]
  split
  · next hne =>
      rw [if_neg (show ¬ s.sampling.reporter.last = some s.isValid from hne)]
      rfl
  · next heq => rw [if_pos (show s.sampling.reporter.last = some s.isValid from not_not.mp heq)]

/-- **A card view on iOS samples the component's validity with each change.** -/
def refines (isValid : Bool) : Simulation (machine true isValid) (Sampling.machine id isValid) where
  rel s t := s.submittable = true ∧ t = s.sampling
  moves _ | .change v => [.change v, .sample]
  init := ⟨rfl, rfl⟩
  step := by
    rintro s _ ⟨v⟩ ⟨hsub, rfl⟩ -
    refine ⟨⟨trivial, Nat.zero_lt_one, trivial⟩, (onChange_submittable _).trans hsub, ?_⟩
    exact (onChange_sampling (s := { s with isValid := v, changes := s.changes + 1 }) hsub).symm

theorem run_sampling (isValid : Bool) (es : List Event) :
    let M := Sampling.machine (ρ := Bool) id isValid
    ∃ ms, M.Admits M.init ms ∧
      ((machine true isValid).run (machine true isValid).init es).sampling = M.run M.init ms := by
  obtain ⟨hms, hrel⟩ := (refines isValid).run_rel (refines isValid).init (admits true isValid _ es)
  exact ⟨_, hms, hrel.2.symm⟩

end Ios.Validity

/-! ## Both platforms -/

theorem sampled_validity {v : Bool} {ms : List (Sampling.Event Bool)} {t : Sampling.State Bool Bool}
    (hms : (Sampling.machine (ρ := Bool) id v).Admits (Sampling.machine id v).init ms)
    (ht : t = (Sampling.machine id v).run (Sampling.machine id v).init ms) :
    t.reporter.reports.IsChain (· ≠ ·) ∧
      (0 < t.changes → t.pending = 0 → t.reporter.reports.getLast? = some t.current) := by
  subst ht
  exact ⟨Sampling.isChain_reports hms Function.injective_id, Sampling.getLast?_reports hms⟩

/-- **Validity events track the component**: on either platform and in every run they alternate, and once the component
has changed and no evaluation is queued the last one is its validity. On Android, `isValid` may throw for invalid. -/
theorem validity_tracks_component (answer : Except String Bool) (android : List Android.Card.Validity.Event)
    (ha : (Android.Card.Validity.machine answer).Admits (Android.Card.Validity.machine answer).init android)
    (isValid : Bool) (ios : List Ios.Validity.Event) :
    let s := (Android.Card.Validity.machine answer).run (Android.Card.Validity.machine answer).init android
    let t := (Ios.Validity.machine true isValid).run (Ios.Validity.machine true isValid).init ios
    (s.emitted.IsChain (· ≠ ·) ∧
        (0 < s.changes → s.queued = 0 →
          (∀ b, s.isValid = .ok b → s.emitted.getLast? = some b) ∧
            ∀ e, s.isValid = .error e → s.emitted.getLast? = some false)) ∧
      t.emitted.IsChain (· ≠ ·) ∧ (0 < t.changes → t.emitted.getLast? = some t.isValid) := by
  intro s t
  obtain ⟨ms, hms, hs⟩ := Android.Card.Validity.run_sampling ha
  obtain ⟨ns, hns, ht⟩ := Ios.Validity.run_sampling isValid ios
  obtain ⟨hchain', hlast'⟩ := sampled_validity hms hs
  obtain ⟨hchain, hlast⟩ := sampled_validity hns ht
  refine ⟨⟨hchain', fun hchanges hqueued => ⟨fun b hb => ?_, fun e he => ?_⟩⟩, hchain,
    fun hchanges => hlast hchanges rfl⟩
  · exact (hlast' hchanges hqueued).trans (congrArg (some ∘ Android.Card.Validity.evaluated) hb)
  · exact (hlast' hchanges hqueued).trans (congrArg (some ∘ Android.Card.Validity.evaluated) he)

/-- Two evaluations that both come after the second of two changes, the first of which is never seen, and one that
throws. -/
theorem validity_tracks_component_late :
    let M := Android.Card.Validity.machine (.ok false)
    let s := M.run M.init [.change (.ok false), .change (.ok true), .evaluate, .evaluate, .change (.error "closed"),
      .evaluate]
    s.emitted = [true, false] ∧ s.emitted.IsChain (· ≠ ·) ∧ s.isValid = .error "closed" ∧
      s.emitted.getLast? = some false := by
  intro M s
  have h := (validity_tracks_component (.ok false) [.change (.ok false), .change (.ok true), .evaluate, .evaluate,
    .change (.error "closed"), .evaluate] (by decide) true [.change true]).1
  exact ⟨by decide, h.1, rfl, (h.2 (by decide) (by decide)).2 "closed" rfl⟩

end FlowDemo
