import FlowDemo.Ios.Flow

/-!
# Which session `renderFlow` shows

The tasks of `initialize` end in any order, and each that succeeds writes the one `checkoutComponents`; `renderFlow`
reads it when it is called and creates the component in a block. The machine below records the calls, the successes in
their order, and for each component the session that was asked for last when it was created.

* `RendersLatest`: every component is for the session of the latest `initialize`, which has succeeded;
* `renders_latest_throughout_iff`: the runs in which that is so, in terms of the order of the calls and the successes.
-/

namespace FlowDemo.Ios.Latest

open Js (Json)
open FlowDemo.Ios.Flow (Promise PaymentSession Block)

def sessionOf (paymentSession : List (String × Json)) : Option PaymentSession :=
  match paymentSession.lookup "id", paymentSession.lookup "payment_session_secret" with
  | some (.str id), some (.str secret) => some ⟨id, secret⟩
  | _, _ => none

/-- A flow component that `renderFlow` has created, with the session wanted at that time. -/
structure Created where
  promise : Promise
  session : PaymentSession
  wanted : Option PaymentSession
  deriving DecidableEq

/-- The module; the `initialize` calls in order, those that have succeeded in the order in which they did, for each
`renderFlow` call the session of the last success before it, and the components created. -/
structure State where
  flow : Flow.State := {}
  started : List (Promise × Option PaymentSession) := []
  succeeded : List (Promise × PaymentSession) := []
  renders : List (Promise × Option PaymentSession) := []
  created : List Created := []

namespace State

def last (s : State) : Option PaymentSession := s.succeeded.getLast?.map Prod.snd

/-- The session of the latest `initialize`, if that call has succeeded. -/
def wanted (s : State) : Option PaymentSession :=
  match s.started.getLast? with
  | some (p, some session) => if p ∈ s.succeeded.map Prod.fst then some session else none
  | _ => none

/-- The component that the next block creates, if it creates one. -/
def creates (s : State) (root : Bool) (error : Option String) : Option Created :=
  match s.flow.queue with
  | .render p session :: _ => if root = true ∧ error = none then some ⟨p, session, s.wanted⟩ else none
  | _ => none

end State

def step (s : State) (e : Flow.Event) : State where
  flow := Flow.machine.step s.flow e
  started := match e with
    | .initializeSession paymentSession => s.started ++ [(s.flow.calls, sessionOf paymentSession)]
    | _ => s.started
  succeeded := match e with
    | .finishInitialize p session none => s.succeeded ++ [(p, session)]
    | _ => s.succeeded
  renders := match e with
    | .renderFlow => s.renders ++ [(s.flow.calls, s.last)]
    | _ => s.renders
  created := match e with
    | .runBlock root error => s.created ++ (s.creates root error).toList
    | _ => s.created

def machine : Machine State Flow.Event where
  init := {}
  allowed s e := Flow.machine.allowed s.flow e
  step := step

instance (s : State) (e : Flow.Event) : Decidable (machine.allowed s e) :=
  inferInstanceAs (Decidable (Flow.machine.allowed s.flow e))

/-- **What is rendered is the session asked for last**, and a call of `renderFlow` that does not render rejects. -/
structure RendersLatest (s : State) : Prop where
  shows : ∀ x ∈ s.created, x.wanted = some x.session
  rejects : ∀ p ∈ s.renders.map Prod.fst, (p, .ok ()) ∈ s.flow.settled → ∃ x ∈ s.created, x.promise = p

/-- A block that creates a component runs only when the latest `initialize` has succeeded, and the last success before
its `renderFlow` call was for the same session. -/
def Current (s : State) : Flow.Event → Prop
  | .runBlock root error => root = true → error = none → ∀ p session rest, s.flow.queue = .render p session :: rest →
      ∃ latest, s.wanted = some latest ∧ (p, some latest) ∈ s.renders
  | _ => True

def promise : Block → Promise
  | .settle p _ => p
  | .render p _ => p
  | .dismiss p => p

/-- The manager's field is the last success, a rendering block has what it was at its call, and no other block settles
the promise of a `renderFlow` call. -/
structure Inv (s : State) : Prop where
  field : s.flow.checkoutComponents = s.last
  block : ∀ p session, .render p session ∈ s.flow.queue → (p, some session) ∈ s.renders
  renders : (s.renders.map Prod.fst).Nodup
  before : ∀ p ∈ s.renders.map Prod.fst, p < s.flow.calls
  tasks : ∀ x ∈ s.flow.initializing, x.1 < s.flow.calls ∧ x.1 ∉ s.renders.map Prod.fst
  others : ∀ b ∈ s.flow.queue, (∀ p session, b ≠ .render p session) →
    promise b < s.flow.calls ∧ promise b ∉ s.renders.map Prod.fst
  rejects : ∀ p ∈ s.renders.map Prod.fst, (p, .ok ()) ∈ s.flow.settled → ∃ x ∈ s.created, x.promise = p
  settled : ∀ p, (p, .ok ()) ∈ s.flow.settled → p < s.flow.calls

/-! ## What a block does -/

def outcome (root : Bool) (error : Option String) : Block → Except Rejection Unit
  | .settle _ outcome => outcome
  | .render _ _ => if root then
      match error with
      | none => .ok ()
      | some error => .error ⟨"RENDER_ERROR", "Failed to render Flow: " ++ error⟩
    else .error ⟨"NO_ROOT_VIEW", "Root view controller not found"⟩
  | .dismiss _ => .ok ()

/-- **A block is taken from the queue and settles its promise**; the rest is about overlays. -/
structure Ran (s t : Flow.State) (settled : Promise × Except Rejection Unit) (rest : List Block) : Prop where
  queue : t.queue = rest
  settled : t.settled = s.settled ++ [settled]
  calls : t.calls = s.calls
  initializing : t.initializing = s.initializing
  checkoutComponents : t.checkoutComponents = s.checkoutComponents

theorem dismissFlowView_frame (s : Flow.State) :
    s.dismissFlowView.queue = s.queue ∧ s.dismissFlowView.settled = s.settled ∧ s.dismissFlowView.calls = s.calls ∧
      s.dismissFlowView.initializing = s.initializing ∧
      s.dismissFlowView.checkoutComponents = s.checkoutComponents := by
  unfold Flow.State.dismissFlowView
  split <;> exact ⟨rfl, rfl, rfl, rfl, rfl⟩

theorem ran_runBlock {s : Flow.State} {b : Block} {rest : List Block} (h : s.queue = b :: rest) (root : Bool)
    (error : Option String) : Ran s (s.runBlock root error) (promise b, outcome root error b) rest := by
  cases b with
  | settle p o =>
      simp only [Flow.State.runBlock, h]
      exact ⟨rfl, rfl, rfl, rfl, rfl⟩
  | render p session =>
      simp only [Flow.State.runBlock, h]
      cases root with
      | false => exact ⟨rfl, rfl, rfl, rfl, rfl⟩
      | true => cases error <;> exact ⟨rfl, rfl, rfl, rfl, rfl⟩
  | dismiss p =>
      simp only [Flow.State.runBlock, h]
      obtain ⟨h1, h2, h3, h4, h5⟩ := dismissFlowView_frame { s with queue := rest }
      exact ⟨h1, congrArg (· ++ _) h2, h3, h4, h5⟩

variable {s : State}

theorem creates_of_render {p : Promise} {session : PaymentSession} {rest : List Block}
    (h : s.flow.queue = .render p session :: rest) (root : Bool) (error : Option String) :
    s.creates root error = if root = true ∧ error = none then some ⟨p, session, s.wanted⟩ else none := by
  simp only [State.creates, h]

/-- Only a block of `renderFlow` creates a component. -/
theorem creates_of_not_render (h : ∀ p session rest, s.flow.queue ≠ .render p session :: rest) (root : Bool)
    (error : Option String) : s.creates root error = none := by
  unfold State.creates
  split
  · next p session rest hqueue => exact absurd hqueue (h p session rest)
  · rfl

/-! ## Every step keeps the invariant -/

def OtherCall (s : State) (p : Promise) : Prop := p < s.flow.calls ∧ p ∉ s.renders.map Prod.fst

theorem Inv.not_rendered (h : Inv s) : s.flow.calls ∉ s.renders.map Prod.fst :=
  fun hin => Nat.lt_irrefl _ (h.before _ hin)

/-- **A step that neither calls `renderFlow` nor runs a block** keeps the invariant, whatever tasks and blocks of other
calls it adds. -/
theorem Inv.of_quiet (h : Inv s) {t : State} (hrenders : t.renders = s.renders) (hcreated : t.created = s.created)
    (hcalls : s.flow.calls ≤ t.flow.calls) (hfield : t.flow.checkoutComponents = t.last)
    (hqueue : ∀ b ∈ t.flow.queue,
      b ∈ s.flow.queue ∨ (∀ p session, b ≠ .render p session) ∧ OtherCall t (promise b))
    (htasks : ∀ x ∈ t.flow.initializing, x ∈ s.flow.initializing ∨ OtherCall t x.1)
    (hsettled : ∀ p, (p, .ok ()) ∈ t.flow.settled → (p, .ok ()) ∈ s.flow.settled) : Inv t := by
  have hold : ∀ {p}, OtherCall s p → OtherCall t p := fun hp => ⟨Nat.lt_of_lt_of_le hp.1 hcalls, hrenders ▸ hp.2⟩
  refine ⟨hfield, fun p session hin => ?_, hrenders ▸ h.renders, fun p hp => ?_, fun x hx => ?_, fun b hb hne => ?_,
    fun p hp hin => ?_, fun p hin => Nat.lt_of_lt_of_le (h.settled p (hsettled p hin)) hcalls⟩
  · rcases hqueue _ hin with hin | ⟨hne, -⟩
    · rw [hrenders]
      exact h.block p session hin
    · exact absurd rfl (hne p session)
  · rw [hrenders] at hp
    exact Nat.lt_of_lt_of_le (h.before p hp) hcalls
  · rcases htasks x hx with hx | hx
    · exact hold (h.tasks x hx)
    · exact hx
  · rcases hqueue b hb with hb | ⟨-, hb⟩
    · exact hold (h.others b hb hne)
    · exact hb
  · rw [hrenders] at hp
    rw [hcreated]
    exact h.rejects p hp (hsettled p hin)

theorem Inv.initializeSession (h : Inv s) (d : List (String × Json)) : Inv (step s (.initializeSession d)) := by
  have hlt : s.flow.calls < s.flow.calls + 1 := Nat.lt_succ_self _
  obtain ⟨session, heq⟩ | ⟨error, heq⟩ := s.flow.initializeSession_cases d
  all_goals
    have hflow : (step s (.initializeSession d)).flow = _ := heq
    refine h.of_quiet rfl rfl ?_ ?_ ?_ ?_ ?_
    all_goals rw [hflow]
  · exact hlt.le
  · exact h.field
  · exact fun b hb => Or.inl hb
  · intro x hx
    refine (List.mem_append.mp hx).imp_right fun hx => ?_
    rw [List.mem_singleton.mp hx, OtherCall, hflow]
    exact ⟨hlt, h.not_rendered⟩
  · exact fun p hp => hp
  · exact hlt.le
  · exact h.field
  · exact fun b hb => Or.inl hb
  · exact fun x hx => Or.inl hx
  · intro p hp
    simpa using hp

theorem Inv.finishInitialize (h : Inv s) {p : Promise} {session : PaymentSession} (error : Option String)
    (hp : (p, session) ∈ s.flow.initializing) : Inv (step s (.finishInitialize p session error)) := by
  have htasks : ∀ x ∈ s.flow.initializing.erase (p, session), x ∈ s.flow.initializing :=
    fun x hx => List.mem_of_mem_erase hx
  have hqueue : ∀ o, ∀ b ∈ s.flow.queue ++ [.settle p o],
      b ∈ s.flow.queue ∨ (∀ q session', b ≠ .render q session') ∧ OtherCall s (promise b) := by
    intro o b hb
    refine (List.mem_append.mp hb).imp_right fun hb => ?_
    rw [List.mem_singleton.mp hb]
    exact ⟨nofun, h.tasks _ hp⟩
  cases error with
  | none =>
      refine h.of_quiet rfl rfl le_rfl ?_ (hqueue _) (fun x hx => Or.inl (htasks x hx)) fun _ hin => hin
      show some session = (s.succeeded ++ [(p, session)]).getLast?.map Prod.snd
      rw [List.getLast?_concat]
      rfl
  | some error =>
      exact h.of_quiet rfl rfl le_rfl h.field (hqueue _) (fun x hx => Or.inl (htasks x hx)) fun _ hin => hin

theorem Inv.dismissFlow (h : Inv s) : Inv (step s .dismissFlow) := by
  refine h.of_quiet rfl rfl (Nat.le_succ _) h.field (fun b hb => ?_) (fun x hx => Or.inl hx) fun _ hin => hin
  refine (List.mem_append.mp hb).imp_right fun hb => ?_
  rw [List.mem_singleton.mp hb]
  exact ⟨nofun, Nat.lt_succ_self _, h.not_rendered⟩

theorem Inv.onSuccess (h : Inv s) (session : PaymentSession) (paymentID : String) :
    Inv (step s (.onSuccess session paymentID)) := by
  obtain ⟨h1, h2, h3, h4, h5⟩ := dismissFlowView_frame { s.flow with emitted := s.flow.emitted ++ [paymentID] }
  exact h.of_quiet rfl rfl h3.ge (h5.trans h.field) (fun b hb => Or.inl (h1 ▸ hb)) (fun x hx => Or.inl (h4 ▸ hx))
    fun p hin => h2 ▸ hin

/-- What the step of a `renderFlow` call changes in the manager: the block it queues has the last success. -/
structure Rendering (s : State) (t : Flow.State) : Prop where
  calls : t.calls = s.flow.calls + 1
  checkoutComponents : t.checkoutComponents = s.flow.checkoutComponents
  initializing : t.initializing = s.flow.initializing
  queue : ∀ b ∈ t.queue, b ∈ s.flow.queue ∨ ∃ session, b = .render s.flow.calls session ∧ s.last = some session
  settled : ∀ p, (p, .ok ()) ∈ t.settled → (p, .ok ()) ∈ s.flow.settled

theorem Inv.rendering (h : Inv s) : Rendering s s.flow.renderFlow := by
  obtain ⟨session, hfield, heq⟩ | ⟨error, heq⟩ := s.flow.renderFlow_cases
  · rw [heq]
    refine ⟨rfl, rfl, rfl, ?_, fun p hp => hp⟩
    intro b hb
    refine (List.mem_append.mp hb).imp_right fun hb => ⟨session, List.mem_singleton.mp hb, ?_⟩
    exact h.field.symm.trans hfield
  · rw [heq]
    refine ⟨rfl, rfl, rfl, fun b hb => Or.inl hb, ?_⟩
    intro p hp
    simpa using hp

theorem Inv.renderFlow (h : Inv s) : Inv (step s .renderFlow) := by
  have hr := h.rendering
  have hmem : ∀ p, p ∈ (s.renders ++ [(s.flow.calls, s.last)]).map Prod.fst ↔
      p ∈ s.renders.map Prod.fst ∨ p = s.flow.calls := fun p => by simp
  have hlt : ∀ {p}, p < s.flow.calls → p < s.flow.renderFlow.calls := fun hp => hr.calls ▸ Nat.lt_succ_of_lt hp
  have hother : ∀ {p}, p < s.flow.calls ∧ p ∉ s.renders.map Prod.fst → p < s.flow.renderFlow.calls ∧
      p ∉ (s.renders ++ [(s.flow.calls, s.last)]).map Prod.fst := by
    rintro p ⟨hp, hnot⟩
    refine ⟨hlt hp, fun hin => ?_⟩
    rcases (hmem p).mp hin with hin | rfl
    · exact hnot hin
    · exact Nat.lt_irrefl _ hp
  exact {
    field := hr.checkoutComponents.trans h.field
    block := fun p session hin => by
      rcases hr.queue _ hin with hin | ⟨session', heq, hlast⟩
      · exact List.mem_append_left _ (h.block p session hin)
      · obtain ⟨rfl, rfl⟩ := Block.render.inj heq
        exact List.mem_append_right _ (hlast ▸ List.mem_singleton_self _)
    renders := by
      change ((s.renders ++ [(s.flow.calls, s.last)]).map Prod.fst).Nodup
      rw [List.map_append]
      exact List.nodup_append.mpr ⟨h.renders, List.nodup_singleton _, fun p hp q hq heq =>
        h.not_rendered ((show p = s.flow.calls from heq.trans (List.mem_singleton.mp hq)) ▸ hp)⟩
    before := fun p hp => by
      rcases (hmem p).mp hp with hp | rfl
      · exact hlt (h.before p hp)
      · exact Nat.lt_of_lt_of_eq (Nat.lt_succ_self _) hr.calls.symm
    tasks := fun x hx => hother (h.tasks x (hr.initializing ▸ hx))
    others := fun b hb hne => by
      rcases hr.queue b hb with hb | ⟨session, heq, -⟩
      · exact hother (h.others b hb hne)
      · exact absurd heq (hne _ _)
    rejects := fun p hp hin => by
      rcases (hmem p).mp hp with hp | rfl
      · exact h.rejects p hp (hr.settled p hin)
      · exact absurd (h.settled _ (hr.settled _ hin)) (Nat.lt_irrefl _)
    settled := fun p hin => hlt (h.settled p (hr.settled p hin)) }

theorem Inv.runBlock (h : Inv s) (root : Bool) (error : Option String) (hne : s.flow.queue ≠ []) :
    Inv (step s (.runBlock root error)) := by
  obtain ⟨b, rest, hqueue⟩ := List.exists_cons_of_ne_nil hne
  have hran := ran_runBlock hqueue root error
  have hrest : ∀ b' ∈ rest, b' ∈ s.flow.queue := fun b' hb' => hqueue ▸ List.mem_cons_of_mem b hb'
  have hb : b ∈ s.flow.queue := hqueue ▸ List.mem_cons_self
  have hbefore : promise b < s.flow.calls := by
    cases b with
    | settle p o => exact (h.others _ hb nofun).1
    | render p session => exact h.before p (List.mem_map_of_mem (h.block p session hb))
    | dismiss p => exact (h.others _ hb nofun).1
  have hok : ∀ p, (p, .ok ()) ∈ (s.flow.runBlock root error).settled →
      (p, .ok ()) ∈ s.flow.settled ∨ p = promise b ∧ outcome root error b = .ok () := by
    intro p hp
    rw [hran.settled] at hp
    refine (List.mem_append.mp hp).imp_right fun hp => ?_
    obtain ⟨h1, h2⟩ := Prod.mk.inj (List.mem_singleton.mp hp)
    exact ⟨h1, h2.symm⟩
  exact {
    field := hran.checkoutComponents.trans h.field
    block := fun p session hin => h.block p session (hrest _ (hran.queue ▸ hin))
    renders := h.renders
    before := fun p hp => Nat.lt_of_lt_of_eq (h.before p hp) hran.calls.symm
    tasks := fun x hx => by
      obtain ⟨h1, h2⟩ := h.tasks x (hran.initializing ▸ hx)
      exact ⟨Nat.lt_of_lt_of_eq h1 hran.calls.symm, h2⟩
    others := fun b' hb' hnot => by
      obtain ⟨h1, h2⟩ := h.others b' (hrest b' (hran.queue ▸ hb')) hnot
      exact ⟨Nat.lt_of_lt_of_eq h1 hran.calls.symm, h2⟩
    rejects := fun p hp hin => by
      rcases hok p hin with hin | ⟨rfl, ho⟩
      · obtain ⟨x, hx, hxp⟩ := h.rejects p hp hin
        exact ⟨x, List.mem_append_left _ hx, hxp⟩
      · -- of the blocks only a rendering one settles the promise of a `renderFlow` call
        cases b with
        | settle p o => exact absurd hp (h.others _ hb nofun).2
        | dismiss p => exact absurd hp (h.others _ hb nofun).2
        | render p session =>
            have hboth : root = true ∧ error = none := by
              cases root with
              | false => cases ho
              | true => cases error with
                | none => exact ⟨rfl, rfl⟩
                | some error => cases ho
            refine ⟨⟨p, session, s.wanted⟩, List.mem_append_right _ ?_, rfl⟩
            rw [creates_of_render hqueue, if_pos hboth]
            exact List.mem_singleton_self _
    settled := fun p hin => by
      rcases hok p hin with hin | ⟨rfl, -⟩
      · exact Nat.lt_of_lt_of_eq (h.settled p hin) hran.calls.symm
      · exact Nat.lt_of_lt_of_eq hbefore hran.calls.symm }

theorem inv_step (s : State) (e : Flow.Event) (h : Inv s) (he : machine.allowed s e) : Inv (machine.step s e) := by
  cases e with
  | initializeSession d => exact h.initializeSession d
  | finishInitialize p session error => exact h.finishInitialize error he
  | renderFlow => exact h.renderFlow
  | dismissFlow => exact h.dismissFlow
  | runBlock root error => exact h.runBlock root error he
  | onSuccess session paymentID => exact h.onSuccess session paymentID

theorem inv_init : Inv machine.init :=
  ⟨rfl, nofun, List.nodup_nil, nofun, nofun, nofun, nofun, nofun⟩

/-! ## The steps that render the latest session -/

theorem Inv.block_session (h : Inv s) {p : Promise} {session session' : PaymentSession}
    (hin : .render p session ∈ s.flow.queue) (hnoted : (p, some session') ∈ s.renders) : session' = session := by
  have hsame := List.inj_on_of_nodup_map h.renders hnoted (h.block p session hin) rfl
  exact Option.some.inj (Prod.mk.inj hsame).2

theorem rendersLatest_runBlock (h : Inv s) (hl : RendersLatest s) (root : Bool) (error : Option String)
    (hne : s.flow.queue ≠ []) :
    RendersLatest (step s (.runBlock root error)) ↔ Current s (.runBlock root error) := by
  have hrejects := (h.runBlock root error hne).rejects
  have hquiet : s.creates root error = none → RendersLatest (step s (.runBlock root error)) := by
    intro hnone
    refine ⟨fun x hx => hl.shows x ?_, hrejects⟩
    change x ∈ s.created ++ (s.creates root error).toList at hx
    rw [hnone, Option.toList_none, List.append_nil] at hx
    exact hx
  obtain ⟨b, rest, hqueue⟩ := List.exists_cons_of_ne_nil hne
  have hother : (∀ p session, b ≠ .render p session) →
      (RendersLatest (step s (.runBlock root error)) ↔ Current s (.runBlock root error)) := by
    intro hb
    refine iff_of_true (hquiet (creates_of_not_render (fun p session rest' heq => ?_) root error))
      fun _ _ p session rest' heq => ?_
    · exact hb p session (List.cons.inj (hqueue.symm.trans heq)).1
    · exact absurd (List.cons.inj (hqueue.symm.trans heq)).1 (hb p session)
  cases b with
  | settle p o => exact hother nofun
  | dismiss p => exact hother nofun
  | render p session =>
      have hin : .render p session ∈ s.flow.queue := hqueue ▸ List.mem_cons_self
      by_cases hboth : root = true ∧ error = none
      · have hcreates := (creates_of_render hqueue root error).trans (if_pos hboth)
        have hmem : ∀ x, x ∈ (step s (.runBlock root error)).created ↔ x ∈ s.created ∨ x = ⟨p, session, s.wanted⟩ := by
          intro x
          change x ∈ s.created ++ (s.creates root error).toList ↔ _
          rw [hcreates, Option.toList_some, List.mem_append, List.mem_singleton]
        constructor
        · rintro hl' - - q session' rest' heq
          obtain ⟨rfl, rfl⟩ := Block.render.inj (List.cons.inj (hqueue.symm.trans heq)).1
          exact ⟨session, hl'.shows _ ((hmem _).mpr (Or.inr rfl)), h.block p session hin⟩
        · intro hcurrent
          obtain ⟨session', hwanted, hnoted⟩ := hcurrent hboth.1 hboth.2 p session rest hqueue
          obtain rfl := h.block_session hin hnoted
          refine ⟨fun x hx => ?_, hrejects⟩
          rcases (hmem x).mp hx with hx | rfl
          · exact hl.shows x hx
          · exact hwanted
      · refine iff_of_true (hquiet ((creates_of_render hqueue root error).trans (if_neg hboth))) fun hroot herror => ?_
        exact absurd ⟨hroot, herror⟩ hboth

theorem rendersLatest_step (s : State) (e : Flow.Event) (h : Inv s) (hl : RendersLatest s) (he : machine.allowed s e) :
    RendersLatest (machine.step s e) ↔ Current s e := by
  have hrejects := (inv_step s e h he).rejects
  cases e with
  | initializeSession d => exact iff_of_true ⟨hl.shows, hrejects⟩ trivial
  | finishInitialize p session error => exact iff_of_true ⟨hl.shows, hrejects⟩ trivial
  | renderFlow => exact iff_of_true ⟨hl.shows, hrejects⟩ trivial
  | dismissFlow => exact iff_of_true ⟨hl.shows, hrejects⟩ trivial
  | runBlock root error => exact rendersLatest_runBlock h hl root error he
  | onSuccess session paymentID => exact iff_of_true ⟨hl.shows, hrejects⟩ trivial

/-- **A run renders the latest session throughout exactly if** each creating block runs when the latest `initialize` has
succeeded, for the session of the last success before the block's call. -/
theorem renders_latest_throughout_iff (es : List Flow.Event) (h : machine.Admits machine.init es) :
    machine.Throughout RendersLatest machine.init es ↔ (machine.restrict Current).Admits machine.init es :=
  Machine.throughout_iff_restrict inv_step rendersLatest_step inv_init ⟨nofun, nofun⟩ h

def dictionary (id : String) : List (String × Json) := [("id", .str id), ("payment_session_secret", .str "pss")]

/-- Two initialisations, which end in this order and with these errors, and then a rendering. -/
def renderRun (first second : Flow.Event) : List Flow.Event :=
  [.initializeSession (dictionary "ps_1"), .initializeSession (dictionary "ps_2"), first, second, .renderFlow,
    .runBlock true none, .runBlock true none, .runBlock true none]

/-- The later session ends later. -/
theorem renders_latest_throughout_in_order :
    machine.Throughout RendersLatest machine.init
      (renderRun (.finishInitialize 0 ⟨"ps_1", "pss"⟩ none) (.finishInitialize 1 ⟨"ps_2", "pss"⟩ none)) := by
  have hadm : machine.Admits machine.init
      (renderRun (.finishInitialize 0 ⟨"ps_1", "pss"⟩ none) (.finishInitialize 1 ⟨"ps_2", "pss"⟩ none)) := by
    decide
  refine (renders_latest_throughout_iff _ hadm).mpr ?_
  obtain ⟨h1, h2, h3, h4, h5, h6, h7, h8, -⟩ := hadm
  refine ⟨⟨h1, trivial⟩, ⟨h2, trivial⟩, ⟨h3, trivial⟩, ⟨h4, trivial⟩, ⟨h5, trivial⟩, ⟨h6, ?_⟩, ⟨h7, ?_⟩, ⟨h8, ?_⟩,
    trivial⟩
  · rintro - - p session rest heq
    cases heq
  · rintro - - p session rest heq
    cases heq
  · rintro - - p session rest heq
    obtain ⟨rfl, rfl⟩ := Block.render.inj (List.cons.inj heq).1
    exact ⟨⟨"ps_2", "pss"⟩, rfl, List.mem_singleton_self _⟩

/-- **An older session is shown**: when the later initialisation fails, and when the earlier one ends after it. -/
theorem older_session_rendered :
    let fails := renderRun (.finishInitialize 0 ⟨"ps_1", "pss"⟩ none)
      (.finishInitialize 1 ⟨"ps_2", "pss"⟩ (some "down"))
    let slower := renderRun (.finishInitialize 1 ⟨"ps_2", "pss"⟩ none) (.finishInitialize 0 ⟨"ps_1", "pss"⟩ none)
    (machine.Reachable (machine.run machine.init fails) ∧
        (machine.run machine.init fails).created = [⟨2, ⟨"ps_1", "pss"⟩, none⟩] ∧
        ¬ RendersLatest (machine.run machine.init fails)) ∧
      machine.Reachable (machine.run machine.init slower) ∧
        (machine.run machine.init slower).created = [⟨2, ⟨"ps_1", "pss"⟩, some ⟨"ps_2", "pss"⟩⟩] ∧
        ¬ RendersLatest (machine.run machine.init slower) := by
  intro fails slower
  have hfails : (machine.run machine.init fails).created = [⟨2, ⟨"ps_1", "pss"⟩, none⟩] := by decide
  have hslower : (machine.run machine.init slower).created = [⟨2, ⟨"ps_1", "pss"⟩, some ⟨"ps_2", "pss"⟩⟩] := by decide
  refine ⟨⟨Machine.Reachable.of_admits (by decide), hfails, fun h => ?_⟩, Machine.Reachable.of_admits (by decide),
    hslower, fun h => ?_⟩
  · exact absurd (h.shows _ (hfails ▸ List.mem_singleton_self _)) (by decide)
  · exact absurd (h.shows _ (hslower ▸ List.mem_singleton_self _)) (by decide)

end FlowDemo.Ios.Latest
