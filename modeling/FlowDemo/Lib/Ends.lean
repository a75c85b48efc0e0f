import FlowDemo.Lib.Relay

/-!
# The two ends of a relay

A machine that asks and a machine that works, each with steps of its own, and the relay between them: a step of the
first may make a request of the second, and an answer that arrives is a step of the first.

* `Asker`, `Worker`: what the relay takes of either end;
* `ends`: the two together, and `asking`: the first goes its own way;
* `Ends.Inv`: both are in order, and the requests are those that were made;
* `Marked`: what is known of a run and of one of the asker's steps in it;
* `first_trace`: the first answer an asker gets to a request is the one that was delivered for it;
* `heard_run`, `heard_of_hear`: how many heard a request.
-/

namespace FlowDemo.Relay

variable {σ ε τ δ κ Q A X : Type*}

/-- A machine that asks under fresh ids. `Known` are the ids it has asked under, among others. -/
structure Asker (M : Machine σ ε) (κ Q A X : Type*) where
  /-- the request a step makes -/
  asks : σ → ε → Option (κ × Q)
  /-- the arrival of an answer, in the circumstances `X` -/
  arrival : A → X → ε
  Ready : σ → X → Prop
  /-- the steps that are no arrivals -/
  Own : ε → Prop
  Inv : σ → Prop
  Known : σ → κ → Prop
  init : Inv M.init
  step : ∀ s e, Inv s → M.allowed s e → Inv (M.step s e)
  allowed_arrival : ∀ s a x, Ready s x → M.allowed s (arrival a x)
  known_step : ∀ s e k, Inv s → M.allowed s e → Known s k → Known (M.step s e) k
  fresh : ∀ s e k q, Inv s → M.allowed s e → asks s e = some (k, q) → ¬ Known s k ∧ Known (M.step s e) k

variable [DecidableEq κ]

/-- A machine that works on what it is asked; an answer carries the id of its request. -/
structure Worker (F : Machine τ δ) (Answers : κ → Q → A → Prop) where
  traffic : τ → State κ Q A
  ask : κ → Q → δ
  deliver : κ → δ
  /-- all `listeners` there are hear a request -/
  hear : κ → δ
  listeners : τ → Nat
  /-- the steps it takes by itself -/
  Own : δ → Prop
  Inv : τ → Prop
  idOf : A → κ
  init : Inv F.init ∧ (traffic F.init).asked = []
  step : ∀ t d, Inv t → F.allowed t d → Inv (F.step t d)
  sound : ∀ t, Inv t → Sound Answers (traffic t)
  idOf_of_answers : ∀ k q a, Answers k q a → idOf a = k
  allowed_ask : ∀ t k q, (∀ q', (k, q') ∉ (traffic t).asked) → F.allowed t (ask k q)
  allowed_deliver : ∀ t k a, (traffic t).returning.lookup k = some a → F.allowed t (deliver k)
  asked_ask : ∀ t k q, (traffic (F.step t (ask k q))).asked = (traffic t).asked ++ [(k, q)] ∧
    (traffic (F.step t (ask k q))).delivered = (traffic t).delivered
  delivered_deliver : ∀ t k a, (traffic t).returning.lookup k = some a →
    (traffic (F.step t (deliver k))).asked = (traffic t).asked ∧
      (traffic (F.step t (deliver k))).delivered = (traffic t).delivered ++ [(k, a)]
  own_frame : ∀ t d, Own d → (traffic (F.step t d)).asked = (traffic t).asked ∧
    (traffic (F.step t d)).delivered = (traffic t).delivered
  heard_hear : ∀ t k, F.allowed t (hear k) → (∃ q, (k, q) ∈ (traffic t).travelling) ∧
    (traffic (F.step t (hear k))).heard = (traffic t).heard ++ [(k, listeners t)]
  heard_ask : ∀ t k q, (traffic (F.step t (ask k q))).heard = (traffic t).heard
  heard_deliver : ∀ t k, (traffic (F.step t (deliver k))).heard = (traffic t).heard
  heard_own : ∀ t d, Own d → (∀ k, d ≠ hear k) → (traffic (F.step t d)).heard = (traffic t).heard

structure Ends (σ τ : Type*) where
  asker : σ
  worker : τ

inductive Ends.Event (ε δ κ X : Type*)
  | asker (e : ε)
  | worker (d : δ)
  /-- the answer to a request arrives -/
  | arrive (k : κ) (x : X)

variable {M : Machine σ ε} {F : Machine τ δ} {Answers : κ → Q → A → Prop} (P : Asker M κ Q A X) (W : Worker F Answers)

def ends : Machine (Ends σ τ) (Ends.Event ε δ κ X) where
  init := ⟨M.init, F.init⟩
  allowed s e := match e with
    | .asker e => P.Own e ∧ M.allowed s.asker e
    | .worker d => W.Own d ∧ F.allowed s.worker d
    | .arrive k x => (∃ a, (W.traffic s.worker).returning.lookup k = some a) ∧ P.Ready s.asker x
  step s e := match e with
    | .asker e =>
        { asker := M.step s.asker e
          worker := match P.asks s.asker e with
            | none => s.worker
            | some (k, q) => F.step s.worker (W.ask k q) }
    | .worker d => { s with worker := F.step s.worker d }
    | .arrive k x => match (W.traffic s.worker).returning.lookup k with
        | none => s
        | some a =>
            { asker := M.step s.asker (P.arrival a x)
              worker := F.step s.worker (W.deliver k) }

variable {P W} {s : Ends σ τ}

theorem step_arrive {k : κ} {a : A} (ha : (W.traffic s.worker).returning.lookup k = some a) (x : X) :
    (ends P W).step s (.arrive k x) = ⟨M.step s.asker (P.arrival a x), F.step s.worker (W.deliver k)⟩ := by
  simp only [ends, ha]

/-! ## The asker alone -/

def moves (P : Asker M κ Q A X) (W : Worker F Answers) (s : Ends σ τ) : Ends.Event ε δ κ X → List ε
  | .asker e => [e]
  | .worker _ => []
  | .arrive k x => (((W.traffic s.worker).returning.lookup k).map fun a => P.arrival a x).toList

theorem moves_arrive {k : κ} {a : A} (ha : (W.traffic s.worker).returning.lookup k = some a) (x : X) :
    moves P W s (.arrive k x) = [P.arrival a x] := by
  simp only [moves, ha]
  rfl

/-- **The asker goes its own way**, with the answers as steps of its own. -/
def asking (P : Asker M κ Q A X) (W : Worker F Answers) : Simulation (ends P W) M where
  rel s t := s.asker = t
  moves := moves P W
  init := rfl
  step s t e h he := by
    obtain rfl := h
    cases e with
    | asker e => exact ⟨⟨he.2, trivial⟩, rfl⟩
    | worker d => exact ⟨trivial, rfl⟩
    | arrive k x =>
        obtain ⟨⟨a, ha⟩, hx⟩ := he
        rw [moves_arrive ha, step_arrive ha]
        exact ⟨⟨P.allowed_arrival _ a x hx, trivial⟩, rfl⟩

theorem asker_run (s : Ends σ τ) {es : List (Ends.Event ε δ κ X)} (hes : (ends P W).Admits s es) :
    M.Admits s.asker ((asking P W).trace s es) ∧
      ((ends P W).run s es).asker = M.run s.asker ((asking P W).trace s es) :=
  (asking P W).run_rel rfl hes

/-! ## The invariant -/

/-- Both ends are in order, and the asker knows the ids of the requests. -/
structure Ends.Inv (P : Asker M κ Q A X) (W : Worker F Answers) (s : Ends σ τ) : Prop where
  asker : P.Inv s.asker
  worker : W.Inv s.worker
  known : ∀ x ∈ (W.traffic s.worker).asked, P.Known s.asker x.1

theorem inv_init : Ends.Inv P W (ends P W).init := by
  refine ⟨P.init, W.init.1, fun x hx => ?_⟩
  change x ∈ (W.traffic F.init).asked at hx
  rw [W.init.2] at hx
  exact absurd hx List.not_mem_nil

theorem inv_step (s : Ends σ τ) (e : Ends.Event ε δ κ X) (h : Ends.Inv P W s) (he : (ends P W).allowed s e) :
    Ends.Inv P W ((ends P W).step s e) := by
  cases e with
  | asker e =>
      have hasker := P.step _ _ h.asker he.2
      have hknown : ∀ x ∈ (W.traffic s.worker).asked, P.Known (M.step s.asker e) x.1 :=
        fun x hx => P.known_step _ _ _ h.asker he.2 (h.known x hx)
      cases hasks : P.asks s.asker e with
      | none =>
          simp only [ends, hasks]
          exact ⟨hasker, h.worker, hknown⟩
      | some kq =>
          obtain ⟨k, q⟩ := kq
          obtain ⟨hfresh, hnow⟩ := P.fresh _ _ _ _ h.asker he.2 hasks
          have hnew : ∀ q', (k, q') ∉ (W.traffic s.worker).asked := fun q' hq' => hfresh (h.known _ hq')
          simp only [ends, hasks]
          refine ⟨hasker, W.step _ _ h.worker (W.allowed_ask _ k q hnew), fun x hx => ?_⟩
          dsimp only at hx
          rw [(W.asked_ask s.worker k q).1] at hx
          rcases List.mem_append.mp hx with hx | hx
          · exact hknown x hx
          · rw [List.mem_singleton.mp hx]
            exact hnow
  | worker d =>
      refine ⟨h.asker, W.step _ _ h.worker he.2, fun x hx => h.known x ?_⟩
      rw [← (W.own_frame s.worker d he.1).1]
      exact hx
  | arrive k x =>
      obtain ⟨⟨a, ha⟩, hx⟩ := he
      have hallowed := P.allowed_arrival s.asker a x hx
      rw [step_arrive ha]
      refine ⟨P.step _ _ h.asker hallowed, W.step _ _ h.worker (W.allowed_deliver _ k a ha), fun y hy => ?_⟩
      dsimp only at hy
      rw [(W.delivered_deliver s.worker k a ha).1] at hy
      exact P.known_step _ _ _ h.asker hallowed (h.known y hy)

theorem inv_run (h : Ends.Inv P W s) {es : List (Ends.Event ε δ κ X)} (hes : (ends P W).Admits s es) :
    Ends.Inv P W ((ends P W).run s es) := Machine.run_induction inv_step h hes

/-! ## A run with a step of the asker marked -/

/-- **The run up to a step of the asker, the step, and the rest of the run**: all are in order, and the asker runs
along. -/
structure Marked (P : Asker M κ Q A X) (W : Worker F Answers) (pre : List (Ends.Event ε δ κ X)) (e : ε)
    (post : List (Ends.Event ε δ κ X)) : Prop where
  before : Ends.Inv P W ((ends P W).run (ends P W).init pre)
  allowed : P.Own e ∧ M.allowed ((ends P W).run (ends P W).init pre).asker e
  after : Ends.Inv P W ((ends P W).step ((ends P W).run (ends P W).init pre) (.asker e))
  rest : (ends P W).Admits ((ends P W).step ((ends P W).run (ends P W).init pre) (.asker e)) post
  run_eq : (ends P W).run (ends P W).init (pre ++ .asker e :: post) =
    (ends P W).run ((ends P W).step ((ends P W).run (ends P W).init pre) (.asker e)) post
  final : Ends.Inv P W ((ends P W).run (ends P W).init (pre ++ .asker e :: post))
  trace_eq : (asking P W).trace (ends P W).init (pre ++ .asker e :: post) =
    (asking P W).trace (ends P W).init pre ++
      e :: (asking P W).trace ((ends P W).step ((ends P W).run (ends P W).init pre) (.asker e)) post
  asker_before : ((ends P W).run (ends P W).init pre).asker = M.run M.init ((asking P W).trace (ends P W).init pre)
  asker_admits : M.Admits M.init ((asking P W).trace (ends P W).init (pre ++ .asker e :: post))
  asker_final : ((ends P W).run (ends P W).init (pre ++ .asker e :: post)).asker =
    M.run M.init ((asking P W).trace (ends P W).init (pre ++ .asker e :: post))

theorem marked {pre post : List (Ends.Event ε δ κ X)} {e : ε}
    (h : (ends P W).Admits (ends P W).init (pre ++ .asker e :: post)) : Marked P W pre e post := by
  obtain ⟨hpre, he, hpost⟩ := (Machine.admits_append _ _ _ _).mp h
  have hbefore := inv_run inv_init hpre
  obtain ⟨hadmits, hfinal⟩ := asker_run _ h
  constructor
  case before => exact hbefore
  case allowed => exact he
  case after => exact inv_step _ _ hbefore he
  case rest => exact hpost
  case run_eq => rw [Machine.run_append, Machine.run_cons]
  case final => exact inv_run inv_init h
  case trace_eq =>
    rw [Simulation.trace_append, Simulation.trace]
    rfl
  case asker_before => exact (asker_run _ hpre).2
  case asker_admits => exact hadmits
  case asker_final => exact hfinal

/-! ## Requests and answers of a run -/

def Ends.answer (W : Worker F Answers) (s : Ends σ τ) (k : κ) : Option A := (W.traffic s.worker).delivered.lookup k

theorem asked_step {e : Ends.Event ε δ κ X} (he : (ends P W).allowed s e) {x : κ × Q}
    (hx : x ∈ (W.traffic s.worker).asked) : x ∈ (W.traffic ((ends P W).step s e).worker).asked := by
  cases e with
  | asker e =>
      cases hasks : P.asks s.asker e with
      | none =>
          simp only [ends, hasks]
          exact hx
      | some kq =>
          simp only [ends, hasks]
          rw [(W.asked_ask s.worker kq.1 kq.2).1]
          exact List.mem_append_left _ hx
  | worker d =>
      change x ∈ (W.traffic (F.step s.worker d)).asked
      rw [(W.own_frame s.worker d he.1).1]
      exact hx
  | arrive k y =>
      obtain ⟨⟨a, ha⟩, -⟩ := he
      rw [step_arrive ha, (W.delivered_deliver s.worker k a ha).1]
      exact hx

theorem asked_run {es : List (Ends.Event ε δ κ X)} (hes : (ends P W).Admits s es) {x : κ × Q}
    (hx : x ∈ (W.traffic s.worker).asked) : x ∈ (W.traffic ((ends P W).run s es).worker).asked :=
  Machine.run_induction (I := fun t => x ∈ (W.traffic t.worker).asked) (fun _ _ ht he => asked_step he ht) hx hes

theorem asked_of_asks {e : ε} {k : κ} {q : Q} (h : P.asks s.asker e = some (k, q)) :
    (k, q) ∈ (W.traffic ((ends P W).step s (.asker e)).worker).asked := by
  simp only [ends, h]
  rw [(W.asked_ask s.worker k q).1]
  exact List.mem_append_right _ (List.mem_singleton_self _)

theorem answer_asker (s : Ends σ τ) (e : ε) (k : κ) :
    Ends.answer W ((ends P W).step s (.asker e)) k = Ends.answer W s k := by
  unfold Ends.answer
  cases hasks : P.asks s.asker e with
  | none => simp only [ends, hasks]
  | some kq =>
      simp only [ends, hasks]
      rw [(W.asked_ask s.worker kq.1 kq.2).2]

theorem answer_worker (s : Ends σ τ) {d : δ} (hd : W.Own d) (k : κ) :
    Ends.answer W ((ends P W).step s (.worker d)) k = Ends.answer W s k := by
  change (W.traffic (F.step s.worker d)).delivered.lookup k = _
  rw [(W.own_frame s.worker d hd).2]
  rfl

/-- An arrival answers its own request, and no other. -/
theorem answer_arrive {k : κ} {a : A} (ha : (W.traffic s.worker).returning.lookup k = some a) (x : X) (k' : κ) :
    Ends.answer W ((ends P W).step s (.arrive k x)) k' = (Ends.answer W s k').or (if k = k' then some a else none) := by
  unfold Ends.answer
  rw [step_arrive ha, (W.delivered_deliver s.worker k a ha).2, lookup_concat]

/-- **A request that is answered stays so.** -/
theorem answer_step {e : Ends.Event ε δ κ X} (he : (ends P W).allowed s e) {k : κ} {a : A}
    (ha : Ends.answer W s k = some a) : Ends.answer W ((ends P W).step s e) k = some a := by
  cases e with
  | asker e => exact (answer_asker s e k).trans ha
  | worker d => exact (answer_worker s he.1 k).trans ha
  | arrive k' x =>
      obtain ⟨⟨b, hb⟩, -⟩ := he
      rw [answer_arrive hb, ha, Option.some_or]

theorem answer_run {es : List (Ends.Event ε δ κ X)} (hes : (ends P W).Admits s es) {k : κ} {a : A}
    (ha : Ends.answer W s k = some a) : Ends.answer W ((ends P W).run s es) k = some a :=
  Machine.run_induction (I := fun t => Ends.answer W t k = some a) (fun _ _ ht he => answer_step he ht) ha hes

theorem Ends.Inv.answer_eq_none (h : Ends.Inv P W s) {k : κ} (hk : ∀ q, (k, q) ∉ (W.traffic s.worker).asked) :
    Ends.answer W s k = none := by
  refine List.lookup_eq_none_iff.mpr fun x hx => bne_iff_ne.mpr fun heq => ?_
  obtain ⟨q, hq, -⟩ := (W.sound _ h.worker).delivered x hx
  exact hk q (heq ▸ hq)

theorem Ends.Inv.idOf_returning (h : Ends.Inv P W s) {k : κ} {a : A}
    (ha : (W.traffic s.worker).returning.lookup k = some a) : W.idOf a = k := by
  obtain ⟨q, -, hans⟩ := (W.sound _ h.worker).returning _ (mem_of_lookup ha)
  exact W.idOf_of_answers _ _ _ hans

/-! ## Who heard a request -/

def Ends.heard (W : Worker F Answers) (s : Ends σ τ) (k : κ) : Option Nat := (W.traffic s.worker).heard.lookup k

theorem heard_quiet {e : Ends.Event ε δ κ X} (he : (ends P W).allowed s e) (hk : ∀ k, e ≠ .worker (W.hear k)) :
    (W.traffic ((ends P W).step s e).worker).heard = (W.traffic s.worker).heard := by
  cases e with
  | asker e =>
      cases hasks : P.asks s.asker e with
      | none => simp only [ends, hasks]
      | some kq =>
          simp only [ends, hasks]
          exact W.heard_ask s.worker kq.1 kq.2
  | worker d => exact W.heard_own s.worker d he.1 fun k hd => hk k (congrArg Ends.Event.worker hd)
  | arrive k x =>
      obtain ⟨⟨a, ha⟩, -⟩ := he
      rw [step_arrive ha]
      exact W.heard_deliver s.worker k

theorem heard_hear {k : κ} (he : (ends P W).allowed s (.worker (W.hear k))) (k' : κ) :
    Ends.heard W ((ends P W).step s (.worker (W.hear k))) k' =
      (Ends.heard W s k').or (if k = k' then some (W.listeners s.worker) else none) := by
  change (W.traffic (F.step s.worker (W.hear k))).heard.lookup k' = _
  rw [(W.heard_hear s.worker k he.2).2, lookup_concat]
  rfl

/-- Nothing is heard of a request but where it is heard itself. -/
theorem heard_step {e : Ends.Event ε δ κ X} (he : (ends P W).allowed s e) {k : κ} (hk : e ≠ .worker (W.hear k)) :
    Ends.heard W ((ends P W).step s e) k = Ends.heard W s k := by
  by_cases hhear : ∃ k', e = .worker (W.hear k')
  · obtain ⟨k', rfl⟩ := hhear
    have hne : k' ≠ k := by
      rintro rfl
      exact hk rfl
    rw [heard_hear he, if_neg hne, Option.or_none]
  · exact congrArg (List.lookup k) (heard_quiet he (not_exists.mp hhear))

theorem heard_run {es : List (Ends.Event ε δ κ X)} (hes : (ends P W).Admits s es) {k : κ}
    (hk : .worker (W.hear k) ∉ es) : Ends.heard W ((ends P W).run s es) k = Ends.heard W s k := by
  induction es generalizing s with
  | nil => rfl
  | cons e es ih =>
      rw [List.mem_cons, not_or] at hk
      rw [Machine.run_cons, ih hes.2 hk.2]
      exact heard_step hes.1 (Ne.symm hk.1)

theorem heard_stays {es : List (Ends.Event ε δ κ X)} (hes : (ends P W).Admits s es) {k : κ} {n : Nat}
    (hk : Ends.heard W s k = some n) : Ends.heard W ((ends P W).run s es) k = some n := by
  refine Machine.run_induction (I := fun t => Ends.heard W t k = some n) (fun t e ht he => ?_) hk hes
  by_cases hhear : e = .worker (W.hear k)
  · subst hhear
    rw [heard_hear he, ht, Option.some_or]
  · exact (heard_step he hhear).trans ht

/-- **A request is heard by those who listen then.** -/
theorem heard_of_hear (h : Ends.Inv P W s) {k : κ} {mid rest : List (Ends.Event ε δ κ X)}
    (hes : (ends P W).Admits s (mid ++ .worker (W.hear k) :: rest)) :
    Ends.heard W ((ends P W).run s (mid ++ .worker (W.hear k) :: rest)) k =
      some (W.listeners ((ends P W).run s mid).worker) := by
  obtain ⟨hmid, he, hrest⟩ := (Machine.admits_append _ _ _ _).mp hes
  have hinv := inv_run h hmid
  obtain ⟨⟨q, hq⟩, -⟩ := W.heard_hear _ k he.2
  have hnone : Ends.heard W ((ends P W).run s mid) k = none := (W.sound _ hinv.worker).not_heard hq
  rw [Machine.run_append, Machine.run_cons]
  refine heard_stays hrest ?_
  rw [heard_hear he, hnone, Option.none_or, if_pos rfl]

/-- A request that is made later than the mark is heard by those who listen when it arrives. -/
theorem Marked.heard {pre post : List (Ends.Event ε δ κ X)} {e : ε} (hm : Marked P W pre e post) {k : κ}
    (hk : ∀ q, (k, q) ∉ (W.traffic ((ends P W).run (ends P W).init pre).worker).asked) :
    (.worker (W.hear k) ∉ post →
        Ends.heard W ((ends P W).run (ends P W).init (pre ++ .asker e :: post)) k = none) ∧
      ∀ mid rest, post = mid ++ .worker (W.hear k) :: rest →
        Ends.heard W ((ends P W).run (ends P W).init (pre ++ .asker e :: post)) k =
          some (W.listeners ((ends P W).run (ends P W).init (pre ++ .asker e :: mid)).worker) := by
  have hnone : Ends.heard W ((ends P W).run (ends P W).init pre) k = none :=
    (W.sound _ hm.before.worker).not_heard_of_not_asked hk
  constructor
  · intro hnot
    rw [hm.run_eq, heard_run hm.rest hnot, ← hnone]
    exact heard_step (P := P) (W := W) (e := .asker e) hm.allowed fun hc => by cases hc
  · rintro mid rest rfl
    rw [hm.run_eq, heard_of_hear hm.after hm.rest, Machine.run_append, Machine.run_cons]

/-! ## The first answer to a request -/

/-- `first` reads off the steps of the asker what the first answer under `k` says. -/
structure ReadsFirst {B : Type*} (P : Asker M κ Q A X) (W : Worker F Answers) (k : κ) (read : A → B)
    (first : List ε → Option B) : Prop where
  nil : first [] = none
  own : ∀ e es, P.Own e → first (e :: es) = first es
  arrival : ∀ a x es, first (P.arrival a x :: es) = if W.idOf a = k then some (read a) else first es

/-- **The first answer under an id is the one delivered for its request.** -/
theorem first_trace {B : Type*} {k : κ} {read : A → B} {first : List ε → Option B}
    (hfirst : ReadsFirst P W k read first) (h : Ends.Inv P W s) (hk : Ends.answer W s k = none)
    {es : List (Ends.Event ε δ κ X)} (hes : (ends P W).Admits s es) :
    first ((asking P W).trace s es) = (Ends.answer W ((ends P W).run s es) k).map read := by
  induction es generalizing s with
  | nil =>
      rw [Machine.run_nil, hk]
      exact hfirst.nil
  | cons e es ih =>
      have hrest := ih (inv_step s e h hes.1)
      rw [Simulation.trace, show (asking P W).moves s e = moves P W s e from rfl, Machine.run_cons]
      cases e with
      | asker e =>
          rw [moves, List.singleton_append, hfirst.own e _ hes.1.1]
          exact hrest ((answer_asker s e k).trans hk) hes.2
      | worker d => exact hrest ((answer_worker s hes.1.1 k).trans hk) hes.2
      | arrive k' x =>
          obtain ⟨⟨a, ha⟩, -⟩ := hes.1
          have hanswer := answer_arrive (P := P) ha x k
          rw [hk, Option.none_or] at hanswer
          rw [moves_arrive ha, List.singleton_append, hfirst.arrival, h.idOf_returning ha]
          by_cases hkk : k' = k
          · rw [if_pos hkk] at hanswer
            rw [if_pos hkk, answer_run hes.2 hanswer]
            rfl
          · rw [if_neg hkk] at hanswer
            rw [if_neg hkk]
            exact hrest hanswer hes.2

end FlowDemo.Relay
