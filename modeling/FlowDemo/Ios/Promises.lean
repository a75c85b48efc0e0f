import FlowDemo.Ios.Latest

/-!
# The promises of `CheckoutFlowManager`

Each call from JavaScript comes with a promise. It is rejected at once, or it goes with a task of `initialize`, and with
the block that the task queues in the end, or with the block of a `renderFlow` or `dismissFlow` call.

* `held`: the promises, each where it is;
* `Answer`: what a promise may be settled with, by what its call was;
* `promises_settle`: in every run each promise is in one place, and has its answer once it is settled.
-/

namespace FlowDemo.Ios.Latest.Promises

open FlowDemo.Ios.Flow (Promise PaymentSession Block)

def held (s : Flow.State) : List Promise :=
  s.initializing.map Prod.fst ++ s.queue.map promise ++ s.settled.map Prod.fst

/-- A promise is settled with what its call came to. -/
inductive Answer (s : State) (p : Promise) : Except Rejection Unit → Prop
  | invalid : (p, none) ∈ s.started → Answer s p (.error ⟨"ERROR", "Invalid payment session object"⟩)
  | initialized (session : PaymentSession) : (p, some session) ∈ s.started → (p, session) ∈ s.succeeded →
      Answer s p (.ok ())
  | failed (session : PaymentSession) (error : String) : (p, some session) ∈ s.started →
      p ∉ s.succeeded.map Prod.fst → Answer s p (.error ⟨"INIT_ERROR", "Failed to initialize: " ++ error⟩)
  | notInitialized : (p, none) ∈ s.renders →
      Answer s p (.error ⟨"NOT_INITIALIZED", "CheckoutComponents not initialized"⟩)
  | rendered (x : Created) : (p, some x.session) ∈ s.renders → x ∈ s.created → x.promise = p → Answer s p (.ok ())
  | notRendered (session : PaymentSession) (error : Rejection) : (p, some session) ∈ s.renders →
      p ∉ s.created.map Created.promise →
      (error = ⟨"NO_ROOT_VIEW", "Root view controller not found"⟩ ∨
        ∃ text, error = ⟨"RENDER_ERROR", "Failed to render Flow: " ++ text⟩) → Answer s p (.error error)
  | dismissed : p < s.flow.calls → p ∉ s.started.map Prod.fst → p ∉ s.renders.map Prod.fst → Answer s p (.ok ())

/-- The call has a block of its own: it is one of `dismissFlow`, or of `renderFlow` after an initialisation. -/
def HasBlock (s : State) (p : Promise) : Prop := p ∉ s.started.map Prod.fst ∧ (p, none) ∉ s.renders

instance (s : State) (p : Promise) : Decidable (HasBlock s p) := by
  unfold HasBlock
  infer_instance

/-- The calls with a block of their own, settled first and then queued. -/
def order (s : State) : List Promise :=
  (s.flow.settled.map Prod.fst ++ s.flow.queue.map promise).filter fun p => HasBlock s p

/-- **Each promise is in one place, is settled with its own answer, at once if there is nothing to wait for, and those
of blocks in the order of their calls.** -/
structure Settles (s : State) : Prop where
  places : (held s.flow).Perm (List.range s.flow.calls)
  answers : ∀ x ∈ s.flow.settled, Answer s x.1 x.2
  atOnce : ∀ p, (p, none) ∈ s.started ∨ (p, none) ∈ s.renders → p ∈ s.flow.settled.map Prod.fst
  inOrder : (order s).Pairwise (· < ·)

/-- The tasks and the blocks are those of the calls, and a component comes from a block that is gone. -/
structure Inv (s : State) : Prop where
  latest : Latest.Inv s
  settles : Settles s
  started : ∀ x ∈ s.started, x.1 < s.flow.calls ∧ x.1 ∉ s.renders.map Prod.fst
  tasks : ∀ x ∈ s.flow.initializing, (x.1, some x.2) ∈ s.started
  settle : ∀ p o, .settle p o ∈ s.flow.queue → p ∈ s.started.map Prod.fst ∧ Answer s p o
  dismiss : ∀ p, .dismiss p ∈ s.flow.queue → p ∉ s.started.map Prod.fst ∧ p ∉ s.renders.map Prod.fst
  succeeded : ∀ x ∈ s.succeeded, x.1 ∈ s.flow.queue.map promise ++ s.flow.settled.map Prod.fst
  created : ∀ x ∈ s.created, x.promise ∈ s.flow.settled.map Prod.fst

/-! ## Where a promise is -/

section

variable {s : State} {p : Promise}

theorem Settles.lt (h : Settles s) (hp : p ∈ held s.flow) : p < s.flow.calls :=
  List.mem_range.mp (h.places.mem_iff.mp hp)

theorem Settles.nodup (h : Settles s) : (held s.flow).Nodup := h.places.nodup_iff.mpr List.nodup_range

theorem mem_held : p ∈ held s.flow ↔
    p ∈ s.flow.initializing.map Prod.fst ∨ p ∈ s.flow.queue.map promise ∨ p ∈ s.flow.settled.map Prod.fst := by
  unfold held
  rw [List.mem_append, List.mem_append, or_assoc]

/-- **A settled promise has no task and no block.** -/
theorem Settles.settled_only (h : Settles s) (hp : p ∈ s.flow.settled.map Prod.fst) :
    p ∉ s.flow.initializing.map Prod.fst ∧ p ∉ s.flow.queue.map promise := by
  have hdisjoint := (List.nodup_append.mp h.nodup).2.2
  refine ⟨fun hin => ?_, fun hin => ?_⟩
  · exact hdisjoint p (List.mem_append_left _ hin) p hp rfl
  · exact hdisjoint p (List.mem_append_right _ hin) p hp rfl

theorem Settles.task_only (h : Settles s) (hp : p ∈ s.flow.initializing.map Prod.fst) :
    p ∉ s.flow.queue.map promise := fun hin =>
  (List.nodup_append.mp (List.nodup_append.mp h.nodup).1).2.2 p hp p hin rfl

/-- **When no task runs and no block is queued every call has its answer.** -/
theorem Settles.idle (h : Settles s) (htasks : s.flow.initializing = []) (hqueue : s.flow.queue = [])
    (hp : p < s.flow.calls) : ∃ o, (p, o) ∈ s.flow.settled ∧ Answer s p o := by
  have hin : p ∈ held s.flow := h.places.mem_iff.mpr (List.mem_range.mpr hp)
  rw [mem_held, htasks, hqueue] at hin
  rcases hin with hin | hin | hin
  · cases hin
  · cases hin
  · obtain ⟨x, hx, rfl⟩ := List.mem_map.mp hin
    exact ⟨x.2, hx, h.answers x hx⟩

end

/-! ## What a step moves -/

theorem initializeSession_eq (s : Flow.State) (paymentSession : List (String × Js.Json)) :
    (∃ session, sessionOf paymentSession = some session ∧ s.initializeSession paymentSession =
        { s with calls := s.calls + 1, initializing := s.initializing ++ [(s.calls, session)] }) ∨
      sessionOf paymentSession = none ∧ s.initializeSession paymentSession =
        { s with
          calls := s.calls + 1
          settled := s.settled ++ [(s.calls, .error ⟨"ERROR", "Invalid payment session object"⟩)] } := by
  unfold sessionOf
  split
  · next id secret hid hsecret =>
      refine Or.inl ⟨⟨id, secret⟩, rfl, ?_⟩
      simp only [Flow.State.initializeSession, hid, hsecret]
  · next hno =>
      refine Or.inr ⟨rfl, ?_⟩
      unfold Flow.State.initializeSession
      split
      · next id secret hid hsecret => exact (hno id secret hid hsecret).elim
      · rfl

theorem renderFlow_eq (s : Flow.State) :
    (∃ session, s.checkoutComponents = some session ∧
        s.renderFlow = { s with calls := s.calls + 1, queue := s.queue ++ [.render s.calls session] }) ∨
      s.checkoutComponents = none ∧ s.renderFlow =
        { s with
          calls := s.calls + 1
          settled := s.settled ++
            [(s.calls, .error ⟨"NOT_INITIALIZED", "CheckoutComponents not initialized"⟩)] } := by
  unfold Flow.State.renderFlow
  dsimp only
  split
  · next hnone => exact Or.inr ⟨hnone, rfl⟩
  · next session hsome => exact Or.inl ⟨session, hsome, rfl⟩

/-- What a step does to the promises, whatever it does to the rest. -/
inductive Moved (s t : Flow.State) : Prop
  | accepted (session : PaymentSession) : t.calls = s.calls + 1 →
      t.initializing = s.initializing ++ [(s.calls, session)] → t.queue = s.queue → t.settled = s.settled → Moved s t
  | rejected (error : Rejection) : t.calls = s.calls + 1 → t.initializing = s.initializing → t.queue = s.queue →
      t.settled = s.settled ++ [(s.calls, .error error)] → Moved s t
  | queued (b : Block) : promise b = s.calls → t.calls = s.calls + 1 → t.initializing = s.initializing →
      t.queue = s.queue ++ [b] → t.settled = s.settled → Moved s t
  | ended (p : Promise) (session : PaymentSession) (o : Except Rejection Unit) : (p, session) ∈ s.initializing →
      t.calls = s.calls → t.initializing = s.initializing.erase (p, session) →
      t.queue = s.queue ++ [.settle p o] → t.settled = s.settled → Moved s t
  | ran (b : Block) (o : Except Rejection Unit) : t.calls = s.calls → t.initializing = s.initializing →
      s.queue = b :: t.queue → t.settled = s.settled ++ [(promise b, o)] → Moved s t
  | quiet : t.calls = s.calls → t.initializing = s.initializing → t.queue = s.queue → t.settled = s.settled → Moved s t

theorem moved_step (s : Flow.State) (e : Flow.Event) (he : Flow.machine.allowed s e) :
    Moved s (Flow.machine.step s e) := by
  cases e with
  | initializeSession d =>
      change Moved s (s.initializeSession d)
      obtain ⟨session, -, heq⟩ | ⟨-, heq⟩ := initializeSession_eq s d
      · rw [heq]
        exact .accepted session rfl rfl rfl rfl
      · rw [heq]
        exact .rejected _ rfl rfl rfl rfl
  | finishInitialize p session error => cases error <;> exact .ended p session _ he rfl rfl rfl rfl
  | renderFlow =>
      change Moved s s.renderFlow
      obtain ⟨session, -, heq⟩ | ⟨error, heq⟩ := s.renderFlow_cases
      · rw [heq]
        exact .queued (.render s.calls session) rfl rfl rfl rfl rfl
      · rw [heq]
        exact .rejected error rfl rfl rfl rfl
  | dismissFlow => exact .queued (.dismiss s.calls) rfl rfl rfl rfl rfl
  | runBlock root error =>
      obtain ⟨b, rest, hqueue⟩ := List.exists_cons_of_ne_nil he
      have hran := ran_runBlock hqueue root error
      exact .ran b _ hran.calls hran.initializing (hqueue.trans (congrArg (b :: ·) hran.queue.symm)) hran.settled
  | onSuccess session paymentID =>
      obtain ⟨h1, h2, h3, h4, -⟩ := dismissFlowView_frame { s with emitted := s.emitted ++ [paymentID] }
      exact .quiet h3 h4 h1 h2

/-- **A promise goes from place to place**, and a call brings one. -/
theorem Moved.held {s t : Flow.State} (h : Moved s t) :
    (held t).Perm (held s) ∧ t.calls = s.calls ∨ (held t).Perm (held s ++ [s.calls]) ∧ t.calls = s.calls + 1 := by
  unfold Promises.held
  cases h with
  | accepted session hcalls hinit hqueue hsettled =>
      refine Or.inr ⟨List.perm_iff_count.mpr fun p => ?_, hcalls⟩
      rw [hinit, hqueue, hsettled]
      simp only [List.map_append, List.count_append, List.map_cons, List.map_nil]
      omega
  | rejected error hcalls hinit hqueue hsettled =>
      refine Or.inr ⟨List.perm_iff_count.mpr fun p => ?_, hcalls⟩
      rw [hinit, hqueue, hsettled]
      simp only [List.map_append, List.count_append, List.map_cons, List.map_nil]
      omega
  | queued b hb hcalls hinit hqueue hsettled =>
      refine Or.inr ⟨List.perm_iff_count.mpr fun p => ?_, hcalls⟩
      rw [hinit, hqueue, hsettled]
      simp only [List.map_append, List.count_append, List.map_cons, List.map_nil, hb]
      omega
  | ended p session o hmem hcalls hinit hqueue hsettled =>
      refine Or.inl ⟨List.perm_iff_count.mpr fun q => ?_, hcalls⟩
      have hcount := ((List.perm_cons_erase hmem).map Prod.fst).count_eq q
      rw [hinit, hqueue, hsettled]
      simp only [List.map_append, List.count_append, List.map_cons, List.map_nil, promise, List.count_cons,
        List.count_nil] at hcount ⊢
      omega
  | ran b o hcalls hinit hqueue hsettled =>
      refine Or.inl ⟨List.perm_iff_count.mpr fun p => ?_, hcalls⟩
      rw [hinit, hqueue, hsettled]
      simp only [List.map_append, List.count_append, List.map_cons, List.map_nil, List.count_cons, List.count_nil]
      omega
  | quiet hcalls hinit hqueue hsettled =>
      rw [hinit, hqueue, hsettled]
      exact Or.inl ⟨List.Perm.refl _, hcalls⟩

theorem Moved.past {s t : Flow.State} (h : Moved s t) :
    (∀ x ∈ s.settled, x ∈ t.settled) ∧ ∀ p ∈ s.queue.map promise ++ s.settled.map Prod.fst,
      p ∈ t.queue.map promise ++ t.settled.map Prod.fst := by
  cases h with
  | accepted session hcalls hinit hqueue hsettled =>
      rw [hqueue, hsettled]
      exact ⟨fun _ hx => hx, fun _ hp => hp⟩
  | rejected error hcalls hinit hqueue hsettled =>
      rw [hqueue, hsettled]
      refine ⟨fun x hx => List.mem_append_left _ hx, fun p hp => ?_⟩
      rw [List.map_append, ← List.append_assoc]
      exact List.mem_append_left _ hp
  | queued b hb hcalls hinit hqueue hsettled =>
      rw [hqueue, hsettled]
      refine ⟨fun _ hx => hx, fun p hp => ?_⟩
      simp only [List.map_append, List.mem_append] at hp ⊢
      exact hp.imp_left Or.inl
  | ended q session o hmem hcalls hinit hqueue hsettled =>
      rw [hqueue, hsettled]
      refine ⟨fun _ hx => hx, fun p hp => ?_⟩
      simp only [List.map_append, List.mem_append] at hp ⊢
      exact hp.imp_left Or.inl
  | ran b o hcalls hinit hqueue hsettled =>
      rw [hqueue, hsettled]
      refine ⟨fun x hx => List.mem_append_left _ hx, fun p hp => ?_⟩
      simp only [List.map_append, List.map_cons, List.map_nil, List.mem_append, List.mem_cons] at hp ⊢
      tauto
  | quiet hcalls hinit hqueue hsettled =>
      rw [hqueue, hsettled]
      exact ⟨fun _ hx => hx, fun _ hp => hp⟩

theorem Settles.places_step {s : State} (h : Settles s) {e : Flow.Event} (he : machine.allowed s e) :
    (held (machine.step s e).flow).Perm (List.range (machine.step s e).flow.calls) := by
  obtain ⟨hperm, hcalls⟩ | ⟨hperm, hcalls⟩ := (moved_step s.flow e he).held
  · exact (show (machine.step s e).flow.calls = _ from hcalls) ▸ hperm.trans h.places
  · rw [show (machine.step s e).flow.calls = _ from hcalls, List.range_succ]
    exact hperm.trans (h.places.append_right _)

/-! ## The records grow -/

/-- What a step adds to the records is about the call it makes, a task or a block. -/
structure Records (s t : State) : Prop where
  calls : s.flow.calls ≤ t.flow.calls
  started : ∀ x, x ∈ s.started → x ∈ t.started
  started_new : ∀ x ∈ t.started, x ∈ s.started ∨ x.1 = s.flow.calls
  renders : ∀ x, x ∈ s.renders → x ∈ t.renders
  renders_new : ∀ x ∈ t.renders, x ∈ s.renders ∨ x.1 = s.flow.calls
  succeeded : ∀ x, x ∈ s.succeeded → x ∈ t.succeeded
  succeeded_new : ∀ x ∈ t.succeeded, x ∈ s.succeeded ∨ x ∈ s.flow.initializing
  created : ∀ x, x ∈ s.created → x ∈ t.created
  created_new : ∀ x ∈ t.created, x ∈ s.created ∨ x.promise ∈ s.flow.queue.map promise

section

variable {s t : State} {p : Promise} {o : Except Rejection Unit}

/-- A component comes from the block at the head of the queue. -/
theorem queue_of_creates {root : Bool} {error : Option String} {x : Created} (h : s.creates root error = some x) :
    ∃ rest, s.flow.queue = .render x.promise x.session :: rest := by
  unfold State.creates at h
  split at h
  · next q session rest hqueue =>
      split at h
      · cases h
        exact ⟨rest, hqueue⟩
      · cases h
  · cases h

theorem records_step (s : State) (e : Flow.Event) (he : machine.allowed s e) : Records s (machine.step s e) := by
  have hcalls : s.flow.calls ≤ (machine.step s e).flow.calls := by
    obtain ⟨-, hcalls⟩ | ⟨-, hcalls⟩ := (moved_step s.flow e he).held
    · exact hcalls.ge
    · exact hcalls.symm ▸ Nat.le_succ _
  refine ⟨hcalls, ?_, ?_, ?_, ?_, ?_, ?_, ?_, ?_⟩
  all_goals intro x hx
  · cases e <;> first | exact hx | exact List.mem_append_left _ hx
  · cases e with
    | initializeSession d =>
        exact (List.mem_append.mp hx).imp_right fun hx => congrArg Prod.fst (List.mem_singleton.mp hx)
    | _ => exact Or.inl hx
  · cases e <;> first | exact hx | exact List.mem_append_left _ hx
  · cases e with
    | renderFlow => exact (List.mem_append.mp hx).imp_right fun hx => congrArg Prod.fst (List.mem_singleton.mp hx)
    | _ => exact Or.inl hx
  · cases e with
    | finishInitialize q session error => cases error <;> first | exact hx | exact List.mem_append_left _ hx
    | _ => exact hx
  · cases e with
    | finishInitialize q session error =>
        cases error with
        | none =>
            rcases List.mem_append.mp hx with hx | hx
            · exact Or.inl hx
            · rw [List.mem_singleton.mp hx]
              exact Or.inr he
        | some error => exact Or.inl hx
    | _ => exact Or.inl hx
  · cases e <;> first | exact hx | exact List.mem_append_left _ hx
  · cases e with
    | runBlock root error =>
        rcases List.mem_append.mp hx with hx | hx
        · exact Or.inl hx
        · obtain ⟨rest, hqueue⟩ := queue_of_creates (Option.mem_toList.mp hx)
          rw [hqueue]
          exact Or.inr List.mem_cons_self
    | _ => exact Or.inl hx

theorem old_key {l l' : List (Promise × Option PaymentSession)} (hnew : ∀ x ∈ l', x ∈ l ∨ x.1 = s.flow.calls)
    (hlt : p < s.flow.calls) (hp : p ∈ l'.map Prod.fst) : p ∈ l.map Prod.fst := by
  obtain ⟨x, hx, rfl⟩ := List.mem_map.mp hp
  rcases hnew x hx with hx | hx
  · exact List.mem_map_of_mem hx
  · exact absurd hx hlt.ne

theorem Records.hasBlock (hr : Records s t) (hlt : p < s.flow.calls) : HasBlock t p ↔ HasBlock s p := by
  constructor
  · rintro ⟨hstarted, hrenders⟩
    refine ⟨fun hin => hstarted ?_, fun hin => hrenders (hr.renders _ hin)⟩
    obtain ⟨x, hx, rfl⟩ := List.mem_map.mp hin
    exact List.mem_map_of_mem (hr.started x hx)
  · rintro ⟨hstarted, hrenders⟩
    refine ⟨fun hin => hstarted (old_key hr.started_new hlt hin), fun hin => ?_⟩
    rcases hr.renders_new _ hin with hin | heq
    · exact hrenders hin
    · exact absurd heq hlt.ne

/-- **An answer stays the answer** of a call that has no task and no block any more. -/
theorem Answer.step (h : Answer s p o) (hr : Records s t) (hlt : p < s.flow.calls)
    (htask : p ∉ s.flow.initializing.map Prod.fst)
    (hblock : p ∈ s.renders.map Prod.fst → p ∉ s.flow.queue.map promise) : Answer t p o := by
  cases h with
  | invalid h => exact .invalid (hr.started _ h)
  | initialized session h hs => exact .initialized session (hr.started _ h) (hr.succeeded _ hs)
  | failed session error h hs =>
      refine .failed session error (hr.started _ h) fun hin => ?_
      obtain ⟨x, hx, rfl⟩ := List.mem_map.mp hin
      rcases hr.succeeded_new x hx with hx | hx
      · exact hs (List.mem_map_of_mem hx)
      · exact htask (List.mem_map_of_mem hx)
  | notInitialized h => exact .notInitialized (hr.renders _ h)
  | rendered x h hx hp => exact .rendered x (hr.renders _ h) (hr.created _ hx) hp
  | notRendered session error h hc herror =>
      refine .notRendered session error (hr.renders _ h) (fun hin => ?_) herror
      obtain ⟨x, hx, rfl⟩ := List.mem_map.mp hin
      rcases hr.created_new x hx with hx | hx
      · exact hc (List.mem_map_of_mem hx)
      · exact hblock (List.mem_map_of_mem h) hx
  | dismissed hp hstarted hrenders =>
      refine .dismissed (hp.trans_le hr.calls) (fun hin => ?_) fun hin => ?_
      · exact hstarted (old_key hr.started_new hlt hin)
      · exact hrenders (old_key hr.renders_new hlt hin)

end

/-! ## Every step keeps the invariant -/

section

variable {s : State} (h : Inv s)

include h

theorem Inv.lt_of_queue {b : Block} (hb : b ∈ s.flow.queue) : promise b < s.flow.calls :=
  h.settles.lt (mem_held.mpr (Or.inr (Or.inl (List.mem_map_of_mem hb))))

/-- A block of `initialize` is none of `renderFlow`. -/
theorem Inv.not_rendered_of_settle {p : Promise} {o : Except Rejection Unit} (hb : .settle p o ∈ s.flow.queue) :
    p ∉ s.renders.map Prod.fst := by
  obtain ⟨x, hx, rfl⟩ := List.mem_map.mp (h.settle p o hb).1
  exact (h.started x hx).2

theorem Inv.settle_answer {t : State} (hr : Records s t) {p : Promise} {o : Except Rejection Unit}
    (hb : .settle p o ∈ s.flow.queue) : Answer t p o := by
  have hp : p ∈ s.flow.queue.map promise := List.mem_map_of_mem (f := promise) hb
  refine (h.settle p o hb).2.step hr (h.lt_of_queue hb) (fun hin => h.settles.task_only hin hp) fun hin => ?_
  exact absurd hin (h.not_rendered_of_settle hb)

/-- **How a block settles its promise is the answer of its call.** -/
theorem Inv.block_answer {b : Block} {rest : List Block} (hqueue : s.flow.queue = b :: rest) (root : Bool)
    (error : Option String) :
    Answer (machine.step s (.runBlock root error)) (promise b) (outcome root error b) := by
  have hb : b ∈ s.flow.queue := hqueue ▸ List.mem_cons_self
  have hne : s.flow.queue ≠ [] := hqueue ▸ List.cons_ne_nil b rest
  have hr := records_step s (.runBlock root error) hne
  cases b with
  | settle p o => exact h.settle_answer hr hb
  | render p session =>
      have hrender := h.latest.block p session hb
      have hold : p ∉ s.created.map Created.promise := by
        intro hin
        obtain ⟨x, hx, hxp⟩ := List.mem_map.mp hin
        refine (h.settles.settled_only (h.created x hx)).2 ?_
        rw [hxp]
        exact List.mem_map_of_mem (f := promise) hb
      by_cases hboth : root = true ∧ error = none
      · obtain ⟨rfl, rfl⟩ := hboth
        refine .rendered ⟨p, session, s.wanted⟩ (hr.renders _ hrender) (List.mem_append_right _ ?_) rfl
        rw [creates_of_render hqueue, if_pos ⟨rfl, rfl⟩]
        exact List.mem_singleton_self _
      · have hcreated : (machine.step s (.runBlock root error)).created = s.created := by
          change s.created ++ (s.creates root error).toList = s.created
          rw [creates_of_render hqueue, if_neg hboth, Option.toList_none, List.append_nil]
        have herror : ∀ e : Rejection, outcome root error (.render p session) = .error e →
            (e = ⟨"NO_ROOT_VIEW", "Root view controller not found"⟩ ∨
              ∃ text, e = ⟨"RENDER_ERROR", "Failed to render Flow: " ++ text⟩) →
            Answer (machine.step s (.runBlock root error)) p (outcome root error (.render p session)) := by
          intro e he hcase
          rw [he]
          exact .notRendered session e (hr.renders _ hrender) (hcreated ▸ hold) hcase
        cases root with
        | false => exact herror _ rfl (Or.inl rfl)
        | true => cases error with
          | none => exact absurd ⟨rfl, rfl⟩ hboth
          | some text => exact herror _ rfl (Or.inr ⟨text, rfl⟩)
  | dismiss p =>
      have hlt := h.lt_of_queue hb
      obtain ⟨hstarted, hrenders⟩ := h.dismiss p hb
      exact .dismissed (hlt.trans_le hr.calls) (fun hin => hstarted (old_key hr.started_new hlt hin))
        fun hin => hrenders (old_key hr.renders_new hlt hin)

/-- **A task that ends queues the answer of its call.** -/
theorem Inv.task_answer {p : Promise} {session : PaymentSession} (he : (p, session) ∈ s.flow.initializing)
    (error : Option String) : ∃ o, (machine.step s (.finishInitialize p session error)).flow.queue =
      s.flow.queue ++ [.settle p o] ∧ Answer (machine.step s (.finishInitialize p session error)) p o := by
  have hstarted := (records_step s (.finishInitialize p session error) he).started _ (h.tasks (p, session) he)
  have hin : p ∈ s.flow.initializing.map Prod.fst := List.mem_map_of_mem (f := Prod.fst) he
  cases error with
  | none =>
      refine ⟨.ok (), rfl, .initialized session hstarted (List.mem_append_right _ ?_)⟩
      exact List.mem_singleton_self _
  | some error =>
      refine ⟨_, rfl, .failed session error hstarted fun hp => ?_⟩
      -- what has succeeded before is past its task
      obtain ⟨x, hx, rfl⟩ := List.mem_map.mp hp
      rcases List.mem_append.mp (h.succeeded x hx) with hpast | hpast
      · exact h.settles.task_only hin hpast
      · exact (h.settles.settled_only hpast).1 hin

/-- **Every settlement is an answer.** -/
theorem Inv.answers_step {e : Flow.Event} (he : machine.allowed s e) :
    ∀ x ∈ (machine.step s e).flow.settled, Answer (machine.step s e) x.1 x.2 := by
  have hr := records_step s e he
  have hold : ∀ x ∈ s.flow.settled, Answer (machine.step s e) x.1 x.2 := by
    intro x hx
    have hp : x.1 ∈ s.flow.settled.map Prod.fst := List.mem_map_of_mem hx
    obtain ⟨htask, hblock⟩ := h.settles.settled_only hp
    exact (h.settles.answers x hx).step hr (h.settles.lt (mem_held.mpr (Or.inr (Or.inr hp)))) htask fun _ => hblock
  intro x hx
  cases e with
  | initializeSession d =>
      change x ∈ (s.flow.initializeSession d).settled at hx
      obtain ⟨session, -, heq⟩ | ⟨hnone, heq⟩ := initializeSession_eq s.flow d
      · rw [heq] at hx
        exact hold x hx
      · rw [heq] at hx
        rcases List.mem_append.mp hx with hx | hx
        · exact hold x hx
        · rw [List.mem_singleton.mp hx]
          refine .invalid (List.mem_append_right _ ?_)
          rw [hnone]
          exact List.mem_singleton_self _
  | finishInitialize p session error => cases error <;> exact hold x hx
  | renderFlow =>
      change x ∈ s.flow.renderFlow.settled at hx
      obtain ⟨session, -, heq⟩ | ⟨hnone, heq⟩ := renderFlow_eq s.flow
      · rw [heq] at hx
        exact hold x hx
      · rw [heq] at hx
        rcases List.mem_append.mp hx with hx | hx
        · exact hold x hx
        · rw [List.mem_singleton.mp hx]
          refine .notInitialized (List.mem_append_right _ ?_)
          rw [← h.latest.field, hnone]
          exact List.mem_singleton_self _
  | dismissFlow => exact hold x hx
  | runBlock root error =>
      obtain ⟨b, rest, hqueue⟩ := List.exists_cons_of_ne_nil he
      change x ∈ (s.flow.runBlock root error).settled at hx
      rw [(ran_runBlock hqueue root error).settled] at hx
      rcases List.mem_append.mp hx with hx | hx
      · exact hold x hx
      · rw [List.mem_singleton.mp hx]
        exact h.block_answer hqueue root error
  | onSuccess session paymentID =>
      change x ∈ (s.flow.onSuccess paymentID).settled at hx
      rw [show (s.flow.onSuccess paymentID).settled = s.flow.settled from (dismissFlowView_frame _).2.1] at hx
      exact hold x hx

theorem Inv.queue_step {e : Flow.Event} (he : machine.allowed s e) :
    ∀ b ∈ (machine.step s e).flow.queue, b ∈ s.flow.queue ∨ (∃ session, b = .render s.flow.calls session) ∨
      (b = .dismiss s.flow.calls ∧ e = .dismissFlow) ∨
      ∃ p o, b = .settle p o ∧ p ∈ (machine.step s e).started.map Prod.fst ∧ Answer (machine.step s e) p o := by
  have hr := records_step s e he
  intro b hb
  cases e with
  | initializeSession d =>
      change b ∈ (s.flow.initializeSession d).queue at hb
      obtain ⟨session, -, heq⟩ | ⟨-, heq⟩ := initializeSession_eq s.flow d
      · rw [heq] at hb
        exact Or.inl hb
      · rw [heq] at hb
        exact Or.inl hb
  | finishInitialize p session error =>
      obtain ⟨o, hqueue, hanswer⟩ := h.task_answer he error
      have hkey : p ∈ (machine.step s (.finishInitialize p session error)).started.map Prod.fst :=
        List.mem_map_of_mem (f := Prod.fst) (hr.started _ (h.tasks (p, session) he))
      rw [hqueue] at hb
      rcases List.mem_append.mp hb with hb | hb
      · exact Or.inl hb
      · exact Or.inr (Or.inr (Or.inr ⟨p, o, List.mem_singleton.mp hb, hkey, hanswer⟩))
  | renderFlow =>
      change b ∈ s.flow.renderFlow.queue at hb
      obtain ⟨session, -, heq⟩ | ⟨-, heq⟩ := renderFlow_eq s.flow
      · rw [heq] at hb
        exact (List.mem_append.mp hb).imp_right fun hb => Or.inl ⟨session, List.mem_singleton.mp hb⟩
      · rw [heq] at hb
        exact Or.inl hb
  | dismissFlow =>
      rcases List.mem_append.mp hb with hb | hb
      · exact Or.inl hb
      · exact Or.inr (Or.inr (Or.inl ⟨List.mem_singleton.mp hb, rfl⟩))
  | runBlock root error =>
      obtain ⟨c, rest, hqueue⟩ := List.exists_cons_of_ne_nil he
      change b ∈ (s.flow.runBlock root error).queue at hb
      rw [(ran_runBlock hqueue root error).queue] at hb
      exact Or.inl (hqueue ▸ List.mem_cons_of_mem c hb)
  | onSuccess session paymentID =>
      change b ∈ (s.flow.onSuccess paymentID).queue at hb
      rw [show (s.flow.onSuccess paymentID).queue = s.flow.queue from (dismissFlowView_frame _).1] at hb
      exact Or.inl hb

theorem Inv.started_step {e : Flow.Event} (he : machine.allowed s e) :
    ∀ x ∈ (machine.step s e).started,
      x.1 < (machine.step s e).flow.calls ∧ x.1 ∉ (machine.step s e).renders.map Prod.fst := by
  have hr := records_step s e he
  have hold : ∀ x ∈ s.started,
      x.1 < (machine.step s e).flow.calls ∧ x.1 ∉ (machine.step s e).renders.map Prod.fst := by
    intro x hx
    obtain ⟨hlt, hnot⟩ := h.started x hx
    exact ⟨hlt.trans_le hr.calls, fun hin => hnot (old_key hr.renders_new hlt hin)⟩
  intro x hx
  cases e with
  | initializeSession d =>
      rcases List.mem_append.mp hx with hx | hx
      · exact hold x hx
      · rw [List.mem_singleton.mp hx]
        refine ⟨?_, h.latest.not_rendered⟩
        change s.flow.calls < (s.flow.initializeSession d).calls
        obtain ⟨session, -, heq⟩ | ⟨-, heq⟩ := initializeSession_eq s.flow d
        all_goals exact heq ▸ Nat.lt_succ_self _
  | _ => exact hold x hx

theorem Inv.tasks_step {e : Flow.Event} (he : machine.allowed s e) :
    ∀ x ∈ (machine.step s e).flow.initializing, (x.1, some x.2) ∈ (machine.step s e).started := by
  have hr := records_step s e he
  intro x hx
  cases e with
  | initializeSession d =>
      change x ∈ (s.flow.initializeSession d).initializing at hx
      obtain ⟨session, hsome, heq⟩ | ⟨-, heq⟩ := initializeSession_eq s.flow d
      · rw [heq] at hx
        rcases List.mem_append.mp hx with hx | hx
        · exact hr.started _ (h.tasks x hx)
        · refine List.mem_append_right _ ?_
          rw [List.mem_singleton.mp hx, hsome]
          exact List.mem_singleton_self _
      · rw [heq] at hx
        exact hr.started _ (h.tasks x hx)
  | finishInitialize p session error =>
      cases error <;> exact hr.started _ (h.tasks x (List.mem_of_mem_erase hx))
  | renderFlow =>
      refine h.tasks x ?_
      change x ∈ s.flow.renderFlow.initializing at hx
      obtain ⟨session, -, heq⟩ | ⟨-, heq⟩ := renderFlow_eq s.flow
      all_goals
        rw [heq] at hx
        exact hx
  | dismissFlow => exact h.tasks x hx
  | runBlock root error =>
      obtain ⟨b, rest, hqueue⟩ := List.exists_cons_of_ne_nil he
      exact h.tasks x ((ran_runBlock hqueue root error).initializing ▸ hx)
  | onSuccess session paymentID =>
      change x ∈ (s.flow.onSuccess paymentID).initializing at hx
      rw [show (s.flow.onSuccess paymentID).initializing = s.flow.initializing from
        (dismissFlowView_frame _).2.2.2.1] at hx
      exact h.tasks x hx

theorem Inv.atOnce_step {e : Flow.Event} (he : machine.allowed s e) {p : Promise}
    (hp : (p, none) ∈ (machine.step s e).started ∨ (p, none) ∈ (machine.step s e).renders) :
    p ∈ (machine.step s e).flow.settled.map Prod.fst := by
  have hold : (p, none) ∈ s.started ∨ (p, none) ∈ s.renders →
      p ∈ (machine.step s e).flow.settled.map Prod.fst := by
    intro hp
    obtain ⟨x, hx, rfl⟩ := List.mem_map.mp (h.settles.atOnce p hp)
    exact List.mem_map_of_mem ((moved_step s.flow e he).past.1 x hx)
  cases e with
  | initializeSession d =>
      rcases hp with hp | hp
      · rcases List.mem_append.mp hp with hp | hp
        · exact hold (Or.inl hp)
        · obtain ⟨rfl, hnone⟩ := Prod.mk.inj (List.mem_singleton.mp hp)
          change s.flow.calls ∈ (s.flow.initializeSession d).settled.map Prod.fst
          obtain ⟨session, hsome, -⟩ | ⟨-, heq⟩ := initializeSession_eq s.flow d
          · exact absurd (hnone.trans hsome) (Option.some_ne_none _).symm
          · rw [heq, List.map_append]
            exact List.mem_append_right _ List.mem_cons_self
      · exact hold (Or.inr hp)
  | renderFlow =>
      rcases hp with hp | hp
      · exact hold (Or.inl hp)
      · rcases List.mem_append.mp hp with hp | hp
        · exact hold (Or.inr hp)
        · obtain ⟨rfl, hnone⟩ := Prod.mk.inj (List.mem_singleton.mp hp)
          change s.flow.calls ∈ s.flow.renderFlow.settled.map Prod.fst
          obtain ⟨session, hsome, -⟩ | ⟨-, heq⟩ := renderFlow_eq s.flow
          · exact absurd ((hnone.trans h.latest.field.symm).trans hsome) (Option.some_ne_none _).symm
          · rw [heq, List.map_append]
            exact List.mem_append_right _ List.mem_cons_self
  | _ => exact hold hp

/-- Whether an earlier call has a block of its own stays as it is. -/
theorem Inv.filter_hasBlock {t : State} (hr : Records s t) {l : List Promise}
    (hl : l ⊆ s.flow.settled.map Prod.fst ++ s.flow.queue.map promise) :
    (l.filter fun p => HasBlock t p) = l.filter fun p => HasBlock s p := by
  refine List.filter_congr fun p hp => decide_eq_decide.mpr (hr.hasBlock (h.settles.lt (mem_held.mpr ?_)))
  exact Or.inr (List.mem_append.mp (hl hp)).symm

/-- A promise that has no block comes in between. -/
theorem Inv.order_insert {t : State} (hr : Records s t) {p : Promise} {l l' : List Promise}
    (hl : s.flow.settled.map Prod.fst ++ s.flow.queue.map promise = l ++ l')
    (ht : t.flow.settled.map Prod.fst ++ t.flow.queue.map promise = l ++ p :: l') (hp : ¬ HasBlock t p) :
    order t = order s := by
  have hkept := h.filter_hasBlock hr (l := l ++ l') (hl ▸ List.Subset.refl _)
  unfold order
  rw [hl, ht, ← hkept, List.filter_append, List.filter_append, List.filter_cons, if_neg (by simpa using hp)]

/-- A later promise comes last. -/
theorem Inv.order_concat {t : State} (hr : Records s t)
    (ht : t.flow.settled.map Prod.fst ++ t.flow.queue.map promise =
      s.flow.settled.map Prod.fst ++ s.flow.queue.map promise ++ [s.flow.calls]) :
    (order t).Pairwise (· < ·) := by
  have hsplit : order t = order s ++ [s.flow.calls].filter fun p => HasBlock t p := by
    unfold order
    rw [ht, List.filter_append, h.filter_hasBlock hr (List.Subset.refl _)]
  rw [hsplit]
  refine List.pairwise_append.mpr ⟨h.settles.inOrder, (List.pairwise_singleton _ _).filter _, fun p hp q hq => ?_⟩
  rw [List.mem_singleton.mp (List.mem_of_mem_filter hq)]
  refine h.settles.lt (mem_held.mpr (Or.inr ?_))
  exact (List.mem_append.mp (List.mem_of_mem_filter hp)).symm

theorem Inv.order_same {t : State} (hr : Records s t)
    (ht : t.flow.settled.map Prod.fst ++ t.flow.queue.map promise =
      s.flow.settled.map Prod.fst ++ s.flow.queue.map promise) : order t = order s := by
  unfold order
  rw [ht, h.filter_hasBlock hr (List.Subset.refl _)]

theorem Inv.inOrder_initializeSession (d : List (String × Js.Json)) :
    (order (machine.step s (.initializeSession d))).Pairwise (· < ·) := by
  have hr := records_step s (.initializeSession d) trivial
  have hnot : ¬ HasBlock (machine.step s (.initializeSession d)) s.flow.calls := by
    refine fun hb => hb.1 ?_
    change s.flow.calls ∈ (s.started ++ [(s.flow.calls, sessionOf d)]).map Prod.fst
    rw [List.map_append]
    exact List.mem_append_right _ List.mem_cons_self
  obtain ⟨session, -, heq⟩ | ⟨-, heq⟩ := initializeSession_eq s.flow d
  · refine h.order_same hr ?_ ▸ h.settles.inOrder
    change (s.flow.initializeSession d).settled.map Prod.fst ++ (s.flow.initializeSession d).queue.map promise = _
    rw [heq]
  · refine h.order_insert hr rfl ?_ hnot ▸ h.settles.inOrder
    change (s.flow.initializeSession d).settled.map Prod.fst ++ (s.flow.initializeSession d).queue.map promise = _
    rw [heq]
    simp

theorem Inv.inOrder_renderFlow : (order (machine.step s .renderFlow)).Pairwise (· < ·) := by
  have hr := records_step s .renderFlow trivial
  obtain ⟨session, -, heq⟩ | ⟨hnone, heq⟩ := renderFlow_eq s.flow
  · refine h.order_concat hr ?_
    change s.flow.renderFlow.settled.map Prod.fst ++ s.flow.renderFlow.queue.map promise = _
    rw [heq]
    simp [promise]
  · have hnot : ¬ HasBlock (machine.step s .renderFlow) s.flow.calls := by
      refine fun hb => hb.2 (List.mem_append_right _ ?_)
      rw [← h.latest.field, hnone]
      exact List.mem_singleton_self _
    refine h.order_insert hr rfl ?_ hnot ▸ h.settles.inOrder
    change s.flow.renderFlow.settled.map Prod.fst ++ s.flow.renderFlow.queue.map promise = _
    rw [heq]
    simp

/-- **The blocks of the calls settle in the order of the calls.** -/
theorem Inv.inOrder_step {e : Flow.Event} (he : machine.allowed s e) :
    (order (machine.step s e)).Pairwise (· < ·) := by
  have hr := records_step s e he
  cases e with
  | initializeSession d => exact h.inOrder_initializeSession d
  | finishInitialize p session error =>
      have hnot : ¬ HasBlock (machine.step s (.finishInitialize p session error)) p :=
        fun hb => hb.1 (List.mem_map_of_mem (f := Prod.fst) (hr.started _ (h.tasks (p, session) he)))
      refine h.order_insert hr (List.append_nil _).symm ?_ hnot ▸ h.settles.inOrder
      cases error <;> simp [machine, step, Flow.machine, Flow.State.finishInitialize, promise]
  | renderFlow => exact h.inOrder_renderFlow
  | dismissFlow =>
      refine h.order_concat hr ?_
      change s.flow.settled.map Prod.fst ++ (s.flow.queue ++ [Block.dismiss s.flow.calls]).map promise = _
      rw [List.map_append, List.append_assoc]
      rfl
  | runBlock root error =>
      obtain ⟨b, rest, hqueue⟩ := List.exists_cons_of_ne_nil he
      have hran := ran_runBlock hqueue root error
      refine h.order_same hr ?_ ▸ h.settles.inOrder
      change (s.flow.runBlock root error).settled.map Prod.fst ++ (s.flow.runBlock root error).queue.map promise = _
      rw [hran.settled, hran.queue, hqueue]
      simp
  | onSuccess session paymentID =>
      obtain ⟨hqueue, hsettled, -⟩ := dismissFlowView_frame { s.flow with emitted := s.flow.emitted ++ [paymentID] }
      refine h.order_same hr ?_ ▸ h.settles.inOrder
      change (s.flow.onSuccess paymentID).settled.map Prod.fst ++ (s.flow.onSuccess paymentID).queue.map promise = _
      rw [show (s.flow.onSuccess paymentID).settled = s.flow.settled from hsettled,
        show (s.flow.onSuccess paymentID).queue = s.flow.queue from hqueue]

theorem Inv.past_step {e : Flow.Event} (he : machine.allowed s e) :
    (∀ x ∈ (machine.step s e).succeeded, x.1 ∈ (machine.step s e).flow.queue.map promise ++
        (machine.step s e).flow.settled.map Prod.fst) ∧
      ∀ x ∈ (machine.step s e).created, x.promise ∈ (machine.step s e).flow.settled.map Prod.fst := by
  obtain ⟨hsettled, hpast⟩ := (moved_step s.flow e he).past
  constructor
  · intro x hx
    cases e with
    | finishInitialize p session error =>
        cases error with
        | none =>
            rcases List.mem_append.mp hx with hx | hx
            · exact hpast x.1 (h.succeeded x hx)
            · rw [List.mem_singleton.mp hx]
              refine List.mem_append_left _ ?_
              change p ∈ (s.flow.queue ++ [Block.settle p (.ok ())]).map promise
              rw [List.map_append]
              exact List.mem_append_right _ List.mem_cons_self
        | some error => exact hpast x.1 (h.succeeded x hx)
    | _ => exact hpast x.1 (h.succeeded x hx)
  · intro x hx
    have hold : x ∈ s.created → x.promise ∈ (machine.step s e).flow.settled.map Prod.fst := by
      intro hx
      obtain ⟨y, hy, hyp⟩ := List.mem_map.mp (h.created x hx)
      exact hyp ▸ List.mem_map_of_mem (hsettled y hy)
    cases e with
    | runBlock root error =>
        rcases List.mem_append.mp hx with hx | hx
        · exact hold hx
        · obtain ⟨rest, hqueue⟩ := queue_of_creates (Option.mem_toList.mp hx)
          change x.promise ∈ (s.flow.runBlock root error).settled.map Prod.fst
          rw [(ran_runBlock hqueue root error).settled, List.map_append]
          exact List.mem_append_right _ List.mem_cons_self
    | _ => exact hold hx

end

theorem inv_step (s : State) (e : Flow.Event) (h : Inv s) (he : machine.allowed s e) : Inv (machine.step s e) := by
  have hr := records_step s e he
  obtain ⟨hsucceeded, hcreated⟩ := h.past_step he
  refine ⟨Latest.inv_step s e h.latest he, ⟨h.settles.places_step he, h.answers_step he, fun p => h.atOnce_step he,
    h.inOrder_step he⟩, h.started_step he, h.tasks_step he, fun p o hb => ?_, fun p hb => ?_, hsucceeded, hcreated⟩
  · rcases h.queue_step he _ hb with hb | ⟨session, heq⟩ | ⟨heq, -⟩ | ⟨q, o', heq, hin, hanswer⟩
    · obtain ⟨x, hx, rfl⟩ := List.mem_map.mp (h.settle p o hb).1
      exact ⟨List.mem_map_of_mem (hr.started x hx), h.settle_answer hr hb⟩
    · cases heq
    · cases heq
    · obtain ⟨rfl, rfl⟩ := Block.settle.inj heq
      exact ⟨hin, hanswer⟩
  · rcases h.queue_step he _ hb with hb | ⟨session, heq⟩ | ⟨heq, rfl⟩ | ⟨q, o, heq, -⟩
    · have hlt : p < s.flow.calls := h.lt_of_queue hb
      obtain ⟨hstarted, hrenders⟩ := h.dismiss p hb
      exact ⟨fun hin => hstarted (old_key hr.started_new hlt hin),
        fun hin => hrenders (old_key hr.renders_new hlt hin)⟩
    · cases heq
    · obtain rfl := Block.dismiss.inj heq
      refine ⟨fun hin => ?_, h.latest.not_rendered⟩
      obtain ⟨x, hx, heq⟩ := List.mem_map.mp hin
      exact absurd heq (h.started x hx).1.ne
    · cases heq

theorem inv_init : Inv machine.init :=
  ⟨Latest.inv_init, ⟨List.Perm.refl _, nofun, nofun, List.Pairwise.nil⟩, nofun, nofun, nofun, nofun, nofun, nofun⟩

/-- **Every promise settles once and with its own answer**, in every run: until then it is with one task or one block,
the blocks of calls settle in the order of the calls, and when no task runs and no block is queued every call has its
answer. -/
theorem promises_settle {es : List Flow.Event} (h : machine.Admits machine.init es) :
    machine.Throughout (fun s => Settles s ∧ (s.flow.initializing = [] → s.flow.queue = [] →
      ∀ p < s.flow.calls, ∃ o, (p, o) ∈ s.flow.settled ∧ Answer s p o)) machine.init es :=
  Machine.throughout_of_invariant inv_step
    (fun _ hs => ⟨hs.settles, fun htasks hqueue _ hp => hs.settles.idle htasks hqueue hp⟩) inv_init h

/-- A rendering before any initialisation, an initialisation without a session, one that fails and one that succeeds,
which end in the other order, and a rendering and a dismissal in between. -/
def mixedRun : List Flow.Event :=
  [.renderFlow, .initializeSession [], .initializeSession (dictionary "ps_1"), .initializeSession (dictionary "ps_2"),
    .finishInitialize 3 ⟨"ps_2", "pss"⟩ none, .renderFlow, .dismissFlow,
    .finishInitialize 2 ⟨"ps_1", "pss"⟩ (some "down"), .runBlock true none, .runBlock false none, .runBlock true none,
    .runBlock true none]

theorem promises_settle_mixed :
    machine.Throughout (fun s => Settles s ∧ (s.flow.initializing = [] → s.flow.queue = [] →
        ∀ p < s.flow.calls, ∃ o, (p, o) ∈ s.flow.settled ∧ Answer s p o)) machine.init mixedRun ∧
      (machine.run machine.init mixedRun).flow.settled.map (fun x => (x.1, x.2.toOption.isSome)) =
        [(0, false), (1, false), (3, true), (4, false), (5, true), (2, false)] ∧
      order (machine.run machine.init mixedRun) = [4, 5] :=
  ⟨promises_settle (by decide), by decide, by decide⟩

end FlowDemo.Ios.Latest.Promises
