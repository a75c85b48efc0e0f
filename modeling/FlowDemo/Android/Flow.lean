import Mathlib.Data.List.Basic
import FlowDemo.Lib.Machine
import FlowDemo.Overlay

/-!
# `FlowModule`

Each start of a payment session makes a container and a Google Pay coordinator on the UI thread and launches a
coroutine that builds the `CheckoutComponents`. The module keeps one of each: the coordinators of all starts read the
one field `checkoutComponents`, and a dismissal takes off the one `containerView`.

* `checkoutComponents_run`: the field holds the components that were created last;
* `OwnResults`: a result is handled by the components of the start whose coordinator it was delivered to;
* `own_results_throughout_iff`: the runs in which that is so;
* `clears_throughout_iff`: the runs in which a dismissal takes off every container.
-/

namespace FlowDemo.Android.Flow

/-- A start of a payment session, with its container and its coordinator, in the order of the starts. -/
abbrev Start := Nat

structure PaymentSession where
  id : String
  token : String
  secret : String
  deriving DecidableEq

inductive Block
  | start (session : PaymentSession)
  | dismiss
  deriving DecidableEq

/-- Where the coroutine of a start is: before `CheckoutComponentsFactory.create`, before the creation of the Google Pay
component, or before `provideView` of one that came from the components of some start. -/
inductive Stage
  | creating
  | creatingComponent
  | providing (components : Start)
  deriving DecidableEq

/-- `overlays` are the containers, the remembered one being `containerView`. `handled` are the results, by their
coordinator, with the start whose components handled them, or none where the field was not assigned; `provided` the
views added to a container; `errors` the starts whose `onFlowPaymentError` was sent. -/
structure State where
  posted : List Block := []
  sessions : List PaymentSession := []
  overlays : Overlays := .empty
  checkoutComponents : Option Start := none
  coroutines : List (Start × Stage) := []
  handled : List (Start × Option Start) := []
  provided : List (Nat × Start) := []
  errors : List Start := []

namespace State

/-- `startPaymentSession`; `activity` tells whether the current activity is a `ComponentActivity`. -/
def startPaymentSession (s : State) (session : PaymentSession) (activity : Bool) : State :=
  if activity then { s with posted := s.posted ++ [.start session] } else s

/-- `dismissFlow`; `activity` tells whether there is a current activity. -/
def dismissFlow (s : State) (activity : Bool) : State :=
  if activity then { s with posted := s.posted ++ [.dismiss] } else s

/-- The block of a start, up to the coroutine it launches. -/
def start (s : State) (session : PaymentSession) : State :=
  { s with
    sessions := s.sessions ++ [session]
    overlays := s.overlays.attach
    coroutines := s.coroutines ++ [(s.sessions.length, .creating)] }

/-- `containerView?.let { (it.parent as? ViewGroup)?.removeView(it) }` -/
def dismiss (s : State) : State := { s with overlays := s.overlays.detach }

def runBlock (s : State) : State :=
  match s.posted with
  | [] => s
  | .start session :: rest => { s with posted := rest }.start session
  | .dismiss :: rest => { s with posted := rest }.dismiss

/-- The coroutine of `n` goes on to `stage`, or ends. -/
def move (s : State) (n : Start) (old : Stage) (stage : Option Stage) : State :=
  { s with coroutines := s.coroutines.erase (n, old) ++ stage.toList.map fun stage => (n, stage) }

/-- A `CheckoutError` in the coroutine of `n` is caught. -/
def fail (s : State) (n : Start) (old : Stage) : State :=
  { s.move n old none with errors := s.errors ++ [n] }

/-- `checkoutComponents = CheckoutComponentsFactory(..).create()`, which may throw before the assignment. -/
def create (s : State) (n : Start) (ok : Bool) : State :=
  if ok then { s.move n .creating (some .creatingComponent) with
    checkoutComponents := some n }
  else s.fail n .creating

/-- `checkoutComponents.create(PaymentMethodName.GooglePay)`, on what the field holds by now. -/
def createComponent (s : State) (n : Start) (ok : Bool) : State :=
  if ok then s.move n .creatingComponent (s.checkoutComponents.map .providing)
  else s.fail n .creatingComponent

/-- The view is added to the container that is there by now. -/
def provideView (s : State) (n components : Start) : State :=
  { s.move n (.providing components) none with
    provided := s.provided ++ s.overlays.remembered.toList.map fun container => (container, components) }

/-- `handleActivityResult` of the coordinator of `n`. -/
def activityResult (s : State) (n : Start) : State := { s with handled := s.handled ++ [(n, s.checkoutComponents)] }

end State

inductive Event
  | startPaymentSession (session : PaymentSession) (activity : Bool)
  | dismissFlow (activity : Bool)
  | runBlock
  | create (n : Start) (ok : Bool)
  | createComponent (n : Start) (ok : Bool)
  | provideView (n components : Start)
  | activityResult (n : Start)

/-- Any starts and dismissals, the coroutines moving on in any order, and results for any coordinator there is. -/
def machine : Machine State Event where
  init := {}
  allowed s e := match e with
    | .startPaymentSession _ _ => True
    | .dismissFlow _ => True
    | .runBlock => s.posted ≠ []
    | .create n _ => (n, .creating) ∈ s.coroutines
    | .createComponent n _ => (n, .creatingComponent) ∈ s.coroutines
    | .provideView n components => (n, .providing components) ∈ s.coroutines
    | .activityResult n => n < s.sessions.length
  step s e := match e with
    | .startPaymentSession session activity => s.startPaymentSession session activity
    | .dismissFlow activity => s.dismissFlow activity
    | .runBlock => s.runBlock
    | .create n ok => s.create n ok
    | .createComponent n ok => s.createComponent n ok
    | .provideView n components => s.provideView n components
    | .activityResult n => s.activityResult n

instance (s : State) : ∀ e, Decidable (machine.allowed s e)
  | .startPaymentSession _ _ => isTrue trivial
  | .dismissFlow _ => isTrue trivial
  | .runBlock => inferInstanceAs (Decidable (s.posted ≠ []))
  | .create n _ => inferInstanceAs (Decidable ((n, .creating) ∈ s.coroutines))
  | .createComponent n _ => inferInstanceAs (Decidable ((n, .creatingComponent) ∈ s.coroutines))
  | .provideView n components => inferInstanceAs (Decidable ((n, .providing components) ∈ s.coroutines))
  | .activityResult n => inferInstanceAs (Decidable (n < s.sessions.length))

/-! ## Whose components handle a result -/

/-- **Each result was handled by the components of its own start**, which were there. -/
def OwnResults (s : State) : Prop := ∀ x ∈ s.handled, x.2 = some x.1

def Event.creates : Event → Option Start
  | .create n true => some n
  | _ => none

def Event.resultFor : Event → Option Start
  | .activityResult n => some n
  | _ => none

def lastCreated (es : List Event) : Option Start := (es.filterMap Event.creates).getLast?

theorem step_spec (s : State) (e : Event) :
    (machine.step s e).checkoutComponents = e.creates.or s.checkoutComponents ∧
      (machine.step s e).handled = s.handled ++ e.resultFor.toList.map fun n => (n, s.checkoutComponents) := by
  cases e with
  | startPaymentSession session activity => cases activity <;> exact ⟨rfl, (List.append_nil _).symm⟩
  | dismissFlow activity => cases activity <;> exact ⟨rfl, (List.append_nil _).symm⟩
  | runBlock =>
      change s.runBlock.checkoutComponents = s.checkoutComponents ∧ s.runBlock.handled = s.handled ++ []
      rw [List.append_nil]
      unfold State.runBlock
      split <;> exact ⟨rfl, rfl⟩
  | create n ok => cases ok <;> exact ⟨rfl, (List.append_nil _).symm⟩
  | createComponent n ok => cases ok <;> exact ⟨rfl, (List.append_nil _).symm⟩
  | provideView n components => exact ⟨rfl, (List.append_nil _).symm⟩
  | activityResult n => exact ⟨rfl, rfl⟩

/-- **The field** is what was created last. -/
theorem checkoutComponents_run (es : List Event) :
    (machine.run machine.init es).checkoutComponents = lastCreated es := by
  induction es using List.reverseRecOn with
  | nil => rfl
  | append_singleton es e ih =>
      rw [Machine.run_append, Machine.run_cons, Machine.run_nil, (step_spec _ e).1, ih, lastCreated, lastCreated,
        List.filterMap_append, List.getLast?_append]
      cases he : e.creates with
      | none => simp [he]
      | some n => simp [he]

/-- Each result comes when the components of its start were created last. -/
def ComeInTime (es : List Event) : Prop :=
  ∀ pre n, pre ++ [.activityResult n] <+: es → lastCreated pre = some n

theorem comeInTime_concat (es : List Event) (e : Event) :
    ComeInTime (es ++ [e]) ↔ ComeInTime es ∧ ∀ n, e = .activityResult n → lastCreated es = some n := by
  constructor
  · intro h
    refine ⟨fun pre n hpre => h pre n (hpre.trans (List.prefix_append _ _)), fun n he => ?_⟩
    exact h es n (he ▸ List.prefix_refl _)
  · rintro ⟨h, he⟩ pre n hpre
    rcases List.prefix_concat_iff.mp hpre with heq | hpre
    · obtain ⟨hes, hlast⟩ := List.append_inj' heq rfl
      rw [hes]
      exact he n (List.singleton_inj.mp hlast).symm
    · exact h pre n hpre

theorem ownResults_run_iff (es : List Event) : OwnResults (machine.run machine.init es) ↔ ComeInTime es := by
  induction es using List.reverseRecOn with
  | nil =>
      refine iff_of_true (fun x hx => absurd hx List.not_mem_nil) fun pre n hpre => ?_
      exact absurd (List.prefix_nil.mp hpre) (by simp)
  | append_singleton es e ih =>
      rw [comeInTime_concat, ← ih, ← checkoutComponents_run, Machine.run_append, Machine.run_cons, Machine.run_nil]
      generalize machine.run machine.init es = s
      unfold OwnResults
      rw [(step_spec s e).2, List.forall_mem_append]
      refine and_congr_right fun _ => ?_
      cases e with
      | activityResult n => simp [Event.resultFor]
      | _ => simp [Event.resultFor]

/-- **A run handles each result by the components of its own start exactly if** each comes when these were created last:
after their creation, and after no later one of another start. -/
theorem own_results_throughout_iff (es : List Event) :
    machine.Throughout OwnResults machine.init es ↔ ComeInTime es := by
  constructor
  · intro h
    exact (ownResults_run_iff es).mp (h es (List.prefix_refl es))
  · intro h pre hpre
    exact (ownResults_run_iff pre).mpr fun pre' n hpre' => h pre' n (hpre'.trans hpre)

/-- **Another session's components, and none at all**: a result for the first of two starts whose components have been
created, and one that comes before the creation has ended. -/
theorem result_misrouted :
    let ps_1 : PaymentSession := ⟨"ps_1", "pst_1", "pss_1"⟩
    let ps_2 : PaymentSession := ⟨"ps_2", "pst_2", "pss_2"⟩
    let s := machine.run machine.init [.startPaymentSession ps_1 true, .startPaymentSession ps_2 true, .runBlock,
      .runBlock, .create 0 true, .create 1 true, .activityResult 0]
    let t := machine.run machine.init [.startPaymentSession ps_1 true, .runBlock, .activityResult 0]
    machine.Reachable s ∧ s.handled = [(0, some 1)] ∧ ¬ OwnResults s ∧ machine.Reachable t ∧ t.handled = [(0, none)] ∧
      ¬ OwnResults t := by
  intro ps_1 ps_2 s t
  have hs : s.handled = [(0, some 1)] := by decide
  have ht : t.handled = [(0, none)] := by decide
  refine ⟨Machine.Reachable.of_admits (by decide), hs, fun h => ?_, Machine.Reachable.of_admits (by decide), ht,
    fun h => ?_⟩
  · exact absurd (h (0, some 1) (hs ▸ List.mem_singleton_self _)) (by decide)
  · exact absurd (h (0, none) (ht ▸ List.mem_singleton_self _)) (by decide)

/-! ## What a dismissal takes off -/

/-- **A dismissal that runs now** leaves no container attached to the activity. -/
def DismissClears (s : State) : Prop := s.dismiss.overlays.attached = []

/-- A start runs only when no container is attached. -/
def StartsAlone (s : State) (e : Event) : Prop :=
  e = .runBlock → ∀ session rest, s.posted = .start session :: rest → s.overlays.attached = []

theorem dismissClears_step (s : State) (e : Event) (h : DismissClears s) (_ : machine.allowed s e) :
    DismissClears (machine.step s e) ↔ StartsAlone s e := by
  have hsame : e ≠ .runBlock → (machine.step s e).overlays = s.overlays := by
    intro he
    cases e with
    | startPaymentSession session activity => cases activity <;> rfl
    | dismissFlow activity => cases activity <;> rfl
    | runBlock => exact absurd rfl he
    | create n ok => cases ok <;> rfl
    | createComponent n ok => cases ok <;> rfl
    | provideView n components => rfl
    | activityResult n => rfl
  by_cases he : e = .runBlock
  · subst he
    change DismissClears s.runBlock ↔ _
    unfold State.runBlock StartsAlone
    split
    · next hposted => exact iff_of_true h fun _ _ _ heq => absurd (hposted.symm.trans heq) (List.cons_ne_nil _ _).symm
    · next session rest hposted =>
        refine (Overlays.clears_attach s.overlays).trans ?_
        exact ⟨fun hattached _ _ _ _ => hattached, fun hall => hall rfl session rest hposted⟩
    · next rest hposted =>
        refine iff_of_true (Overlays.Clears.detach h) fun _ session rest' heq => ?_
        rw [hposted] at heq
        cases heq
  · refine iff_of_true ?_ fun heq => absurd heq he
    change (machine.step s e).overlays.Clears
    rw [hsame he]
    exact h

/-- **A run keeps every dismissal complete exactly if** each start finds no container attached. -/
theorem clears_throughout_iff {es : List Event} (h : machine.Admits machine.init es) :
    machine.Throughout DismissClears machine.init es ↔ (machine.restrict StartsAlone).Admits machine.init es :=
  Machine.throughout_iff_restrict (I := fun _ => True) (fun _ _ _ _ => trivial) (fun s e _ => dismissClears_step s e)
    trivial (show DismissClears machine.init from rfl) h

end FlowDemo.Android.Flow
