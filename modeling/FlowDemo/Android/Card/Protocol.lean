import Mathlib.Data.List.Induction
import FlowDemo.Android.Card.Correlation

/-!
# The card submit protocol over whole runs

* `Outcome`: where a `handleSubmit` call stands, as a function of the first response to its id (`answerTo`);
* `outcome_of_call`: every call of every interleaved run stands there;
* `atomic`: a run of the machine whose calls are atomic is an interleaved run, each call's updates back to back;
* `submit_calls_correlated`: the two maps and the calls of both machines.
-/

namespace FlowDemo.Android.Card.Interleaving

open Exchange (Move Table)

variable {Session : Set String}

/-! ## The answer to a call -/

def firstLookup (r : String) : List Event → Option Answer
  | [] => none
  | .lookup r' success data :: es => if r' = r then some (success, data) else firstLookup r es
  | _ :: es => firstLookup r es

/-- The first response looked up for `r` once the call under `r` has registered its view and emitted its event. -/
def answerTo (r : String) : List Event → Option Answer
  | [] => none
  | .register call _ :: es => if call.requestId = r then firstLookup r es else answerTo r es
  | _ :: es => answerTo r es

theorem firstAnswer_trace (r : String) (s : State) (es : List Event) :
    Exchange.firstAnswer r ((exchange Session).trace s es) = firstLookup r es := by
  induction es generalizing s with
  | nil => rfl
  | cons e es ih =>
      have hmoves : (exchange Session).moves s e = moves e := rfl
      rw [Simulation.trace, Exchange.firstAnswer_append, ih, hmoves]
      cases e with
      | lookup r' success data =>
          simp only [moves, Exchange.firstAnswer, firstLookup]
          split <;> rfl
      | _ => rfl

def resumptions (s : Card.State) (c : Continuation) : List CustomApiCallResult :=
  (s.resumed.filter fun x => x.1 = c).map Prod.snd

/-- **Where the call `c`, made on `v` under `r`, stands**, given the first response to it. Unanswered, it is stored
under its id and its view is registered there, or about to be. Answered, the response is being processed, or it
resumed the call with its result (nothing, when reading the payload throws) and the id is gone from both maps. -/
def Outcome (s : State) (v : ViewId) (r : String) (c : Continuation) : Option Answer → Prop
  | none => resumptions s.card c = [] ∧ s.card.pending v r = some c ∧
      (Storing s v r ∨ s.card.registry.get r = some v)
  | some a =>
      (∃ p, s.answering = some p ∧ p.requestId = r ∧ (p.success, p.data) = a ∧
        resumptions s.card c = [] ∧ s.card.pending v r = some c) ∨
      (resumptions s.card c = (responseResult a.1 a.2).toOption.toList ∧
        (∀ w, s.card.pending w r = none) ∧ s.card.registry.get r = none)

/-! ## The holder of an issued id -/

theorem known_step (Session : Set String) (s : State) (e : Event) :
    (∀ r ∈ s.card.issued, r ∈ ((machine Session).step s e).card.issued) ∧
      s.card.calls ≤ ((machine Session).step s e).card.calls := by
  cases e with
  | initializeView v id secret key activity =>
      have hf := s.card.initializeView_frame v id secret key activity
      exact ⟨fun r hr => hf.issued ▸ hr, Nat.le_of_eq hf.calls.symm⟩
  | finishCreation c created =>
      obtain ⟨-, -, hc, hi, -⟩ := s.card.finishCreation_frame c created
      exact ⟨fun r hr => hi ▸ hr, Nat.le_of_eq hc.symm⟩
  | store v raw r' =>
      change (∀ r ∈ s.card.issued, r ∈ (s.store v raw r').card.issued) ∧ s.card.calls ≤ (s.store v raw r').card.calls
      unfold State.store
      split
      · exact ⟨fun _ hr => hr, Nat.le_refl _⟩
      · exact ⟨fun _ hr => List.mem_append_left _ hr, Nat.le_succ _⟩
  | register call emits =>
      have hi : (s.register call emits).card.issued = s.card.issued := by simp [State.register, State.registerView]
      have hc : (s.register call emits).card.calls = s.card.calls := by simp [State.register, State.registerView]
      exact ⟨fun r hr => hi ▸ hr, Nat.le_of_eq hc.symm⟩
  | lookup r' success data =>
      have hcard : (s.lookup r' success data).card = s.card := by
        unfold State.lookup
        split <;> rfl
      exact ⟨fun r hr => hcard ▸ hr, Nat.le_of_eq (congrArg _ hcard.symm)⟩
  | unregister =>
      change (∀ r ∈ s.card.issued, r ∈ s.unregister.card.issued) ∧ s.card.calls ≤ s.unregister.card.calls
      unfold State.unregister
      split <;> exact ⟨fun _ hr => hr, Nat.le_refl _⟩
  | resume =>
      change (∀ r ∈ s.card.issued, r ∈ s.resume.card.issued) ∧ s.card.calls ≤ s.resume.card.calls
      unfold State.resume
      split
      · exact ⟨fun _ hr => hr, Nat.le_refl _⟩
      · next p _ =>
          obtain ⟨-, hc, hi⟩ := s.card.takeContinuation_frame p.view p.requestId p.success p.data
          exact ⟨fun r hr => hi ▸ hr, Nat.le_of_eq hc.symm⟩

theorem pending_step {s : State} {e : Event} (he : (machine Session).allowed s e) {w : ViewId} {r : String}
    {d : Continuation} (hold : r ∈ s.card.issued ∨ d < s.card.calls)
    (hp : ((machine Session).step s e).card.pending w r = some d) : s.card.pending w r = some d := by
  cases e with
  | initializeView v id secret key activity =>
      exact ((s.card.initializeView_frame v id secret key activity).pending w r).symm.trans hp
  | finishCreation c created => exact ((s.card.finishCreation_frame c created).1 w r).symm.trans hp
  | store v raw r' =>
      change (s.store v raw r').card.pending w r = some d at hp
      unfold State.store at hp
      split at hp
      · exact hp
      · change (s.card.storeContinuation v r').pending w r = some d at hp
        rw [State.storeContinuation_pending] at hp
        split at hp
        · next hwr =>
            rcases hold with hr | hd
            · exact absurd (hwr.2 ▸ hr) he.2
            · exact absurd (Option.some.inj hp) (Nat.ne_of_gt hd)
        · exact hp
  | register call emits =>
      exact (s.register_pending call emits w r).symm.trans hp
  | lookup r' success data =>
      change (s.lookup r' success data).card.pending w r = some d at hp
      rw [(s.lookup_card r' success data).1] at hp
      exact hp
  | unregister =>
      obtain ⟨p, hpa, -⟩ := he
      change s.unregister.card.pending w r = some d at hp
      rw [State.unregister_of_answering hpa] at hp
      exact hp
  | resume =>
      obtain ⟨p, hpa, -⟩ := he
      change s.resume.card.pending w r = some d at hp
      rw [State.resume_pending hpa] at hp
      split at hp
      · cases hp
      · exact hp

/-- `r` was issued to the call `c` on `v`: only `v` can hold a continuation under it, and only that of `c`, which is
held nowhere else. -/
structure IssuedTo (s : State) (v : ViewId) (r : String) (c : Continuation) : Prop where
  issued : r ∈ s.card.issued
  called : c < s.card.calls
  holder : ∀ w d, s.card.pending w r = some d → w = v ∧ d = c
  unique : ∀ w k, s.card.pending w k = some c → k = r

theorem issuedTo_step {v : ViewId} {r : String} {c : Continuation} (s : State) (e : Event) (h : IssuedTo s v r c)
    (he : (machine Session).allowed s e) : IssuedTo ((machine Session).step s e) v r c := by
  obtain ⟨hi, hc⟩ := known_step Session s e
  exact ⟨hi r h.issued, Nat.lt_of_lt_of_le h.called hc,
    fun w d hp => h.holder w d (pending_step he (Or.inl h.issued) hp),
    fun w k hp => h.unique w k (pending_step he (Or.inr h.called) hp)⟩

/-! ## From the exchange back to the views -/

theorem resumptions_filterMap (l : List (Continuation × Answer)) (c : Continuation) :
    ((l.filterMap resumption).filter fun x => x.1 = c).map Prod.snd =
      ((l.filter fun x => x.1 = c).map Prod.snd).filterMap fun a => (responseResult a.1 a.2).toOption := by
  induction l with
  | nil => rfl
  | cons x l ih =>
      obtain ⟨d, a⟩ := x
      rw [List.filterMap_cons]
      cases hr : (responseResult a.1 a.2).toOption with
      | none =>
          simp only [resumption, hr, Option.map_none]
          rw [ih]
          by_cases hd : d = c <;> simp [hd, hr]
      | some result =>
          simp only [resumption, hr, Option.map_some]
          by_cases hd : d = c
          · simp only [List.filter_cons, hd, decide_true, if_true, List.map_cons, ih, List.filterMap_cons, hr]
          · simp only [List.filter_cons, hd, decide_false, if_neg, Bool.false_eq_true, not_false_eq_true, ih]

section Reading

variable {s : State} {t : Table String Continuation Answer} {v : ViewId} {r : String} {c : Continuation}

theorem resumptions_of_served {done : List (Continuation × Answer)}
    (h : s.card.resumed = done.filterMap resumption) (c : Continuation) :
    resumptions s.card c =
      ((done.filter fun x => x.1 = c).map Prod.snd).filterMap fun a => (responseResult a.1 a.2).toOption := by
  rw [resumptions, h, resumptions_filterMap]

/-- An open call of the exchange is a registered, unanswered call. -/
theorem outcome_of_open (h : Tracks Session s t) (ho : Exchange.Open t r c) (hi : IssuedTo s v r c) :
    Outcome s v r c none := by
  obtain ⟨-, w, hg, hw⟩ := (h.waiting r c).mp ho.waiting
  obtain ⟨rfl, -⟩ := hi.holder w c hw
  refine ⟨?_, hw, Or.inr hg⟩
  obtain ⟨done, h1, h2⟩ := h.served
  rw [resumptions_of_served h2]
  have hnil : (done.filter fun x => x.1 = c) = [] := by
    rw [List.filter_eq_nil_iff]
    rintro ⟨d, a⟩ hd hdc
    refine ho.sound.waiting_unserved r c ho.waiting a ?_
    rw [h1, show c = d from (by simpa using hdc : d = c).symm]
    exact List.mem_append_left _ hd
  rw [hnil]
  rfl

/-- The response in progress for a closed call holds the call's own continuation, so it is the one answer it gets. -/
theorem outcome_of_answering (h : Tracks Session s t) {a : Answer} (hc : Exchange.Closed t r c [a])
    (hi : IssuedTo s v r c) {p : Response} (hpa : s.answering = some p) (hpr : p.requestId = r) :
    Outcome s v r c (some a) := by
  subst hpr
  obtain ⟨done, h1, h2⟩ := h.served
  have hserved := hc.servedTo
  obtain ⟨d, hd⟩ := h.inv.answering_pending hpa (h.inv.issued _ hi.issued)
  obtain ⟨hv, rfl⟩ := hi.holder _ _ hd
  have hprog : inProgress s = [(d, (p.success, p.data))] := by simp [inProgress, hpa, hd]
  rw [Table.servedTo, h1, hprog] at hserved
  have hone : ((done.filter fun x => x.1 = d).map Prod.snd) ++ [(p.success, p.data)] = [] ++ [a] := by
    simpa using hserved
  obtain ⟨hnil, ha⟩ := List.append_inj' hone rfl
  refine Or.inl ⟨p, hpa, rfl, List.singleton_injective ha, ?_, hv ▸ hd⟩
  rw [resumptions_of_served h2, hnil]
  rfl

/-- With no response in progress for it, a closed call has had its answer and nothing is left of it. -/
theorem outcome_of_answered (h : Tracks Session s t) {a : Answer} (hc : Exchange.Closed t r c [a])
    (hi : IssuedTo s v r c) (hidle : ∀ p, s.answering = some p → p.requestId ≠ r) : Outcome s v r c (some a) := by
  obtain ⟨done, h1, h2⟩ := h.served
  have hserved := hc.servedTo
  have hnone : ∀ w, s.card.pending w r = none := by
    intro w
    cases hw : s.card.pending w r with
    | none => rfl
    | some d =>
        rcases h.inv.place w r d hw with hg | ⟨call, hcall, -, hid⟩ | ⟨p, hpa, -, -, hpr⟩
        · have := (h.waiting r d).mpr ⟨hidle, w, hg, hw⟩
          rw [hc.waiting] at this
          cases this
        · exact absurd hid (h.storing _ hc.asked call hcall).1
        · exact absurd hpr (hidle p hpa)
  have hprog : (inProgress s).filter (fun x => x.1 = c) = [] := by
    rw [List.filter_eq_nil_iff]
    rintro ⟨d, b⟩ hd hdc
    have hdc' : d = c := by simpa using hdc
    subst hdc'
    unfold inProgress at hd
    cases hpa : s.answering with
    | none => simp [hpa] at hd
    | some p =>
        simp only [hpa, List.mem_map, Option.mem_toList, Prod.mk.injEq] at hd
        obtain ⟨e, he, rfl, -⟩ := hd
        exact hidle p hpa (hi.unique _ _ he)
  rw [Table.servedTo, h1, List.filter_append, List.map_append, hprog, List.map_nil, List.append_nil] at hserved
  refine Or.inr ⟨?_, hnone, ?_⟩
  · rw [resumptions_of_served h2, hserved]
    cases hr : (responseResult a.1 a.2).toOption <;> simp [hr]
  · cases hg : s.card.registry.get r with
    | none => rfl
    | some w =>
        obtain ⟨d, hd⟩ := h.inv.registered w r (h.inv.issued r hi.issued) hg
        rw [hnone w] at hd
        cases hd

/-- A closed call of the exchange is being resumed with its answer, or was. -/
theorem outcome_of_closed (h : Tracks Session s t) {a : Answer} (hc : Exchange.Closed t r c [a])
    (hi : IssuedTo s v r c) : Outcome s v r c (some a) := by
  by_cases hbusy : ∃ p, s.answering = some p ∧ p.requestId = r
  · obtain ⟨p, hpa, hpr⟩ := hbusy
    exact outcome_of_answering h hc hi hpa hpr
  · exact outcome_of_answered h hc hi fun p hpa hpr => hbusy ⟨p, hpa, hpr⟩

end Reading

/-! ## One call through a run -/

theorem issuedTo_run {s : State} {v : ViewId} {r : String} {c : Continuation} (h : IssuedTo s v r c)
    {es : List Event} (hes : (machine Session).Admits s es) : IssuedTo ((machine Session).run s es) v r c :=
  Machine.run_induction issuedTo_step h hes

/-- From its registration on, a call stands where the first response to its id puts it. -/
theorem open_run {s : State} {t : Table String Continuation Answer} {v : ViewId} {r : String} {c : Continuation}
    (h : Tracks Session s t) (ho : Exchange.Open t r c) (hi : IssuedTo s v r c) {es : List Event}
    (hes : (machine Session).Admits s es) : Outcome ((machine Session).run s es) v r c (firstLookup r es) := by
  obtain ⟨ha, hr⟩ := (exchange Session).run_rel h hes
  have hrun := Exchange.open_run ho ha
  rw [firstAnswer_trace] at hrun
  have hi' := issuedTo_run hi hes
  cases hfl : firstLookup r es with
  | none =>
      rw [hfl] at hrun
      exact outcome_of_open hr hrun hi'
  | some a =>
      rw [hfl] at hrun
      exact outcome_of_closed hr hrun hi'

theorem outcome_of_storing {s : State} {t : Table String Continuation Answer} (h : Tracks Session s t)
    (ht : Exchange.Sound t) {call : Call} (hcall : call ∈ s.storing) :
    Outcome s call.view call.requestId call.continuation none := by
  refine ⟨?_, (h.inv.storing call hcall).1, Or.inl ⟨call, hcall, rfl, rfl⟩⟩
  obtain ⟨done, h1, h2⟩ := h.served
  rw [resumptions_of_served h2]
  have hnil : (done.filter fun x => x.1 = call.continuation) = [] := by
    rw [List.filter_eq_nil_iff]
    rintro ⟨d, a⟩ hd hdc
    obtain ⟨i, hi⟩ := ht.served_asked d a (by rw [h1]; exact List.mem_append_left _ hd)
    exact (h.storing _ hi call hcall).2 (by simpa using hdc : d = call.continuation).symm
  rw [hnil]
  rfl

/-- Only the registration of its own id takes a call off the list of those that still have to register. -/
theorem storing_step {s : State} {e : Event} {call : Call} (hcall : call ∈ s.storing)
    (hne : ∀ other emits, e = .register other emits → other.requestId ≠ call.requestId) :
    call ∈ ((machine Session).step s e).storing := by
  cases e with
  | initializeView v id secret key activity => exact hcall
  | finishCreation c created => exact hcall
  | store v raw r =>
      change call ∈ (s.store v raw r).storing
      unfold State.store
      split
      · exact hcall
      · exact List.mem_append_left _ hcall
  | register other emits =>
      refine List.mem_filter.mpr ⟨hcall, ?_⟩
      simpa using Ne.symm (hne other emits rfl)
  | lookup r success data =>
      change call ∈ (s.lookup r success data).storing
      unfold State.lookup
      split <;> exact hcall
  | unregister =>
      change call ∈ s.unregister.storing
      unfold State.unregister
      split <;> exact hcall
  | resume =>
      change call ∈ s.resume.storing
      unfold State.resume
      split <;> exact hcall

theorem answerTo_cons {e : Event} {r : String} (hne : ∀ other emits, e = .register other emits → other.requestId ≠ r)
    (es : List Event) : answerTo r (e :: es) = answerTo r es := by
  cases e with
  | register other emits => exact if_neg (hne other emits rfl)
  | _ => rfl

/-- **The life of a call that has stored its continuation.** -/
theorem stored_run {s : State} {t : Table String Continuation Answer} (h : Tracks Session s t)
    (ht : Exchange.Sound t) {call : Call} (hcall : call ∈ s.storing)
    (hi : IssuedTo s call.view call.requestId call.continuation) {es : List Event}
    (hes : (machine Session).Admits s es) :
    Outcome ((machine Session).run s es) call.view call.requestId call.continuation
      (answerTo call.requestId es) := by
  induction es generalizing s t with
  | nil => exact outcome_of_storing h ht hcall
  | cons e es ih =>
      obtain ⟨ha, hr⟩ := (exchange Session).step s t e h hes.1
      by_cases hreg : ∃ other emits, e = .register other emits ∧ other.requestId = call.requestId
      · obtain ⟨other, emits, rfl, hid⟩ := hreg
        have hother : other ∈ s.storing := hes.1
        have heq : other = call := by
          by_contra hne
          exact (h.inv.storing_ids.forall hother hcall hne).1 hid
        subst heq
        obtain ⟨hf, ht'⟩ := tracks_register h emits hcall (inv_step s _ h.inv hes.1)
        rw [answerTo, if_pos rfl]
        exact open_run ht' (Exchange.open_of_ask ht hf) (issuedTo_step s _ hi hes.1) hes.2
      · have hne : ∀ other emits, e = .register other emits → other.requestId ≠ call.requestId :=
          fun other emits he hid => hreg ⟨other, emits, he, hid⟩
        rw [answerTo_cons hne]
        exact ih hr (Exchange.sound_run ht ha) (storing_step hcall hne) (issuedTo_step s e hi hes.1) hes.2

/-- `es` makes the `handleSubmit` call `c` on `v` under the request id `r`, and then does `post`. -/
def MakesCall (Session : Set String) (es : List Event) (v : ViewId) (r : String) (c : Continuation)
    (post : List Event) : Prop :=
  ∃ pre raw, es = pre ++ .store v raw r :: post ∧
    (((machine Session).run (machine Session).init pre).card.view v).currentSessionData ≠ none ∧
    c = ((machine Session).run (machine Session).init pre).card.calls

/-- **Every call of every run stands where the first response to its own id puts it.** -/
theorem outcome_of_call {es : List Event} (hes : (machine Session).Admits (machine Session).init es) {v : ViewId}
    {r : String} {c : Continuation} {post : List Event} (hc : MakesCall Session es v r c post) :
    Outcome ((machine Session).run (machine Session).init es) v r c (answerTo r post) := by
  obtain ⟨pre, raw, rfl, hbase, rfl⟩ := hc
  obtain ⟨hpre, hstore, hpost⟩ := (Machine.admits_append _ _ _ _).mp hes
  obtain ⟨hadm, htr⟩ := (exchange Session).run_rel (exchange Session).init hpre
  rw [Machine.run_append]
  generalize hs : (machine Session).run (machine Session).init pre = s at *
  obtain ⟨base, hb⟩ := Option.ne_none_iff_exists'.mp hbase
  have hstep : (machine Session).step s (.store v raw r) = { s with
      card := s.card.storeContinuation v r
      storing := s.storing ++ [⟨v, r, s.card.calls, { base with sessionData := some raw }⟩] } := by
    change s.store v raw r = _
    unfold State.store
    rw [hb]
  have htr' := ((exchange Session).step s _ (.store v raw r) htr hstore).2
  have hi : IssuedTo ((machine Session).step s (.store v raw r)) v r s.card.calls := by
    rw [hstep]
    refine ⟨List.mem_append_right _ (List.mem_singleton_self _), Nat.lt_succ_self _, ?_, ?_⟩
    · intro w d hw
      change (s.card.storeContinuation v r).pending w r = some d at hw
      rw [State.storeContinuation_pending] at hw
      split at hw
      · next he => exact ⟨he.1, (Option.some.inj hw).symm⟩
      · rw [htr.inv.pending_fresh hstore w] at hw
        cases hw
    · intro w k hw
      change (s.card.storeContinuation v r).pending w k = some s.card.calls at hw
      rw [State.storeContinuation_pending] at hw
      split at hw
      · next he => exact he.2
      · exact absurd (htr.inv.known w k _ hw).2 (Nat.lt_irrefl _)
  have hmem : (⟨v, r, s.card.calls, { base with sessionData := some raw }⟩ : Call) ∈
      ((machine Session).step s (.store v raw r)).storing := by
    rw [hstep]
    exact List.mem_append_right _ (List.mem_singleton_self _)
  exact stored_run htr' (Exchange.sound_run Exchange.sound_init hadm) hmem hi hpost

theorem calls_step (Session : Set String) (s : State) (e : Event) :
    ((machine Session).step s e).card.calls = s.card.calls ∨
      ((machine Session).step s e).card.calls = s.card.calls + 1 ∧
        ∃ v raw r, e = .store v raw r ∧ (s.card.view v).currentSessionData ≠ none := by
  cases e with
  | initializeView v id secret key activity =>
      exact Or.inl (s.card.initializeView_frame v id secret key activity).calls
  | finishCreation c created => exact Or.inl (s.card.finishCreation_frame c created).2.2.1
  | store v raw r =>
      change (s.store v raw r).card.calls = _ ∨ (s.store v raw r).card.calls = _ ∧ _
      unfold State.store
      split
      · exact Or.inl rfl
      · next base hb => exact Or.inr ⟨rfl, v, raw, r, rfl, by rw [hb]; exact Option.some_ne_none base⟩
  | register call emits => exact Or.inl (State.emitEvent_calls _ _ _)
  | lookup r success data =>
      change (s.lookup r success data).card.calls = _ ∨ _
      unfold State.lookup
      split <;> exact Or.inl rfl
  | unregister =>
      change s.unregister.card.calls = _ ∨ _
      unfold State.unregister
      split <;> exact Or.inl rfl
  | resume =>
      change s.resume.card.calls = _ ∨ _
      unfold State.resume
      split
      · exact Or.inl rfl
      · next p _ => exact Or.inl (s.card.takeContinuation_frame p.view p.requestId p.success p.data).2.1

theorem makesCall_of_lt {es : List Event} {c : Continuation}
    (hc : c < ((machine Session).run (machine Session).init es).card.calls) :
    ∃ v r post, MakesCall Session es v r c post := by
  induction es using List.reverseRecOn with
  | nil => exact absurd hc (Nat.not_lt_zero c)
  | append_singleton es e ih =>
      rw [Machine.run_append, Machine.run_cons, Machine.run_nil] at hc
      by_cases hlt : c < ((machine Session).run (machine Session).init es).card.calls
      · obtain ⟨v, r, post, pre, raw, rfl, hbase, hnum⟩ := ih hlt
        exact ⟨v, r, post ++ [e], pre, raw, by simp, hbase, hnum⟩
      · rcases calls_step Session ((machine Session).run (machine Session).init es) e with
          heq | ⟨heq, v, raw, r, rfl, hbase⟩
        · rw [heq] at hc
          exact absurd hc hlt
        · rw [heq] at hc
          exact ⟨v, r, [], es, raw, rfl, hbase, Nat.le_antisymm (Nat.lt_succ_iff.mp hc) (Nat.not_lt.mp hlt)⟩

theorem lt_calls_of_resumed {es : List Event} (hes : (machine Session).Admits (machine Session).init es)
    {x : Continuation × CustomApiCallResult}
    (hx : x ∈ ((machine Session).run (machine Session).init es).card.resumed) :
    x.1 < ((machine Session).run (machine Session).init es).card.calls := by
  obtain ⟨ha, htr⟩ := (exchange Session).run_rel (exchange Session).init hes
  obtain ⟨done, h1, h2⟩ := htr.served
  rw [h2, List.mem_filterMap] at hx
  obtain ⟨⟨d, a⟩, hd, hr⟩ := hx
  obtain ⟨i, hi⟩ := Exchange.served_asked ha (by rw [h1]; exact List.mem_append_left _ hd)
  obtain ⟨result, -, rfl⟩ := Option.map_eq_some_iff.mp hr
  exact (htr.known _ hi).2

/-! ## Atomic calls -/

def callSteps (s : Card.State) : Card.Event → List Event
  | .initializeView v id secret key activity => [.initializeView v id secret key activity]
  | .finishCreation c created => [.finishCreation c created]
  | .handleSubmit v raw r emits =>
      match (s.view v).currentSessionData with
      | none => [.store v raw r]
      | some base => [.store v raw r, .register ⟨v, r, s.calls, { base with sessionData := some raw }⟩ emits]
  | .handleSubmitResponse r success data =>
      match s.getView r with
      | none => [.lookup r success data]
      | some _ => [.lookup r success data, .unregister, .resume]

/-- **A run of atomic calls is an interleaved run** in which every call does its updates back to back. -/
def atomic (Session : Set String) : Simulation (Card.machine Session) (machine Session) where
  rel s t := t = { card := s }
  moves := callSteps
  init := rfl
  step := by
    rintro s t e rfl he
    cases e with
    | initializeView v id secret key activity => exact ⟨⟨he, trivial⟩, rfl⟩
    | finishCreation c created => exact ⟨⟨he, trivial⟩, rfl⟩
    | handleSubmit v raw r emits =>
        cases hb : (s.view v).currentSessionData with
        | none =>
            have hcall : s.onHandleSubmit v raw r emits = s := by simp only [Card.State.onHandleSubmit, hb]
            have hstore : ({ card := s } : State).store v raw r = { card := s } := by
              simp only [State.store, hb]
            rw [show callSteps s (.handleSubmit v raw r emits) = [.store v raw r] by simp only [callSteps, hb]]
            refine ⟨⟨he, trivial⟩, ?_⟩
            change ({ card := s } : State).store v raw r = { card := s.onHandleSubmit v raw r emits }
            rw [hstore, hcall]
        | some base =>
            have hcall : s.onHandleSubmit v raw r emits =
                s.handleSubmit v { base with sessionData := some raw } r emits := by
              simp only [Card.State.onHandleSubmit, hb]
            have hstore : ({ card := s } : State).store v raw r =
                { card := s.storeContinuation v r
                  storing := [⟨v, r, s.calls, { base with sessionData := some raw }⟩] } := by
              simp only [State.store, hb, List.nil_append]
            rw [show callSteps s (.handleSubmit v raw r emits) = [.store v raw r,
              .register ⟨v, r, s.calls, { base with sessionData := some raw }⟩ emits] by simp only [callSteps, hb]]
            refine ⟨⟨he, ?_, trivial⟩, ?_⟩
            · change _ ∈ (({ card := s } : State).store v raw r).storing
              rw [hstore]
              exact List.mem_singleton_self _
            · change (({ card := s } : State).store v raw r).register _ emits =
                { card := s.onHandleSubmit v raw r emits }
              rw [hstore, hcall]
              simp [State.register, Card.State.handleSubmit]
    | handleSubmitResponse r success data =>
        cases hg : s.getView r with
        | none =>
            have hcall : CardModule.handleSubmitResponse s r success data = s := by
              simp only [CardModule.handleSubmitResponse, hg]
            have hlook : ({ card := s } : State).lookup r success data = { card := s } := by
              simp only [State.lookup, hg]
            rw [show callSteps s (.handleSubmitResponse r success data) = [.lookup r success data] by
              simp only [callSteps, hg]]
            refine ⟨⟨rfl, trivial⟩, ?_⟩
            change ({ card := s } : State).lookup r success data =
              { card := CardModule.handleSubmitResponse s r success data }
            rw [hlook, hcall]
        | some v =>
            have hcall : CardModule.handleSubmitResponse s r success data =
                (s.handleSubmitResponse v r success data).1 := by
              simp only [CardModule.handleSubmitResponse, hg]
            have hlook : ({ card := s } : State).lookup r success data =
                { card := s, answering := some ⟨v, r, success, data, .found⟩ } := by
              simp only [State.lookup, hg]
            rw [show callSteps s (.handleSubmitResponse r success data) =
              [.lookup r success data, .unregister, .resume] by simp only [callSteps, hg]]
            refine ⟨⟨rfl, ?_, ?_, trivial⟩, ?_⟩
            · change (({ card := s } : State).lookup r success data).At .found
              rw [hlook]
              exact ⟨_, rfl, rfl⟩
            · change (({ card := s } : State).lookup r success data).unregister.At .unregistered
              rw [hlook]
              exact ⟨_, rfl, rfl⟩
            · change (({ card := s } : State).lookup r success data).unregister.resume =
                { card := CardModule.handleSubmitResponse s r success data }
              rw [hlook, hcall]
              rfl

/-- Between atomic calls, a request id is pending in a view exactly when the registry maps it to that view. -/
theorem pending_iff_registered {es : List Card.Event}
    (hes : (Card.machine Session).Admits (Card.machine Session).init es) (v : ViewId) {r : String} (hr : r ∉ Session) :
    (∃ c, ((Card.machine Session).run (Card.machine Session).init es).pending v r = some c) ↔
      ((Card.machine Session).run (Card.machine Session).init es).registry.get r = some v := by
  obtain ⟨ha, hrel⟩ := (atomic Session).run_rel (atomic Session).init hes
  have hinv := inv_run (inv_init Session) ha
  rw [show (machine Session).run (machine Session).init _ = _ from hrel] at hinv
  constructor
  · rintro ⟨c, hc⟩
    rcases hinv.place v r c hc with hg | ⟨call, hcall, -⟩ | ⟨p, hp, -⟩
    · exact hg
    · cases hcall
    · cases hp
  · exact hinv.registered v r hr

/-- One update at a time, the two maps agree up to the one call or response that stands between its updates. -/
theorem pending_iff {es : List Event} (hes : (machine Session).Admits (machine Session).init es) (v : ViewId)
    {r : String} (hr : r ∉ Session) :
    (∃ c, ((machine Session).run (machine Session).init es).card.pending v r = some c) ↔
      ((machine Session).run (machine Session).init es).card.registry.get r = some v ∨
        Storing ((machine Session).run (machine Session).init es) v r ∨
        Taking ((machine Session).run (machine Session).init es) v r := by
  have hinv := inv_run (inv_init Session) hes
  constructor
  · rintro ⟨c, hc⟩
    exact hinv.place v r c hc
  · rintro (hg | ⟨call, hcall, rfl, rfl⟩ | ⟨p, hp, hstage, rfl, rfl⟩)
    · exact hinv.registered v r hr hg
    · exact ⟨_, (hinv.storing call hcall).1⟩
    · exact (hinv.taking p hp hr hstage).2.1

/-- **The card submit protocol is correlated by request id.** Between calls, a request id is pending in a view
exactly when the registry maps it to that view; one map update at a time, up to the call or response under way.
However the updates interleave, every call stands where the first response to its own id puts it, whatever the other
responses are, and nothing but a call is ever resumed. An accepting response with data is a success with that data;
any other is a failure with its error text, if it has one, but a refusing one whose error is neither text nor null
throws. -/
theorem submit_calls_correlated (Session : Set String) :
    (∀ es, (Card.machine Session).Admits (Card.machine Session).init es → ∀ v r, r ∉ Session →
      ((∃ c, ((Card.machine Session).run (Card.machine Session).init es).pending v r = some c) ↔
        ((Card.machine Session).run (Card.machine Session).init es).registry.get r = some v)) ∧
    (∀ es, (machine Session).Admits (machine Session).init es →
      (∀ v r, r ∉ Session →
        ((∃ c, ((machine Session).run (machine Session).init es).card.pending v r = some c) ↔
          ((machine Session).run (machine Session).init es).card.registry.get r = some v ∨
            Storing ((machine Session).run (machine Session).init es) v r ∨
            Taking ((machine Session).run (machine Session).init es) v r)) ∧
      (∀ v r c post, MakesCall Session es v r c post →
        Outcome ((machine Session).run (machine Session).init es) v r c (answerTo r post)) ∧
      ∀ x ∈ ((machine Session).run (machine Session).init es).card.resumed,
        ∃ v r post, MakesCall Session es v r x.1 post) ∧
    (∀ m, responseResult true (some m) = .ok { success := true, data := some m, error := none }) ∧
    (∀ success, responseResult success none = .ok { success := false, data := none, error := some "Unknown error" }) ∧
    (∀ (m : ReadableMap) text, m.lookup "error" = some (.str text) →
      responseResult false (some m) = .ok { success := false, data := none, error := some text }) ∧
    (∀ m : ReadableMap, m.lookup "error" = none ∨ m.lookup "error" = some .null →
      responseResult false (some m) = .ok { success := false, data := none, error := some "Unknown error" }) ∧
    ∀ (m : ReadableMap) j, m.lookup "error" = some j → j ≠ .null → (∀ text, j ≠ .str text) →
      responseResult false (some m) = .error (.unexpectedNativeType "error") := by
  refine ⟨fun es hes v r hr => pending_iff_registered hes v hr, fun es hes => ⟨?_, ?_, ?_⟩, responseResult_accepted,
    responseResult_missing, fun _ _ => responseResult_text, fun _ => responseResult_textless,
    fun _ _ => responseResult_throws⟩
  · exact fun v r hr => pending_iff hes v hr
  · exact fun v r c post hc => outcome_of_call hes hc
  · exact fun x hx => makesCall_of_lt (lt_calls_of_resumed hes hx)

/-- Two calls of one view, the second answered first and twice; the first call still waits. -/
def crossedRun : List Event :=
  [.initializeView 0 "ps_1" "secret" "key" true, .store 0 "a" "req-1", .store 0 "b" "req-2",
    .register ⟨0, "req-2", 1, ⟨"ps_1", "secret", some "b"⟩⟩ true,
    .register ⟨0, "req-1", 0, ⟨"ps_1", "secret", some "a"⟩⟩ true,
    .lookup "req-2" true none, .unregister, .resume, .lookup "req-2" false none]

theorem submit_calls_correlated_crossed :
    Outcome ((machine {"ps_1"}).run (machine {"ps_1"}).init crossedRun) 0 "req-2" 1 (some (true, none)) ∧
      Outcome ((machine {"ps_1"}).run (machine {"ps_1"}).init crossedRun) 0 "req-1" 0 none := by
  have notSession : ∀ {r : String}, r ≠ "ps_1" → r ∉ ({"ps_1"} : Set String) := fun h hr => h hr
  have hadm : (machine {"ps_1"}).Admits (machine {"ps_1"}).init crossedRun := by
    refine ⟨rfl, ⟨notSession (by decide), by decide⟩, ⟨notSession (by decide), by decide⟩, ?_, ?_, rfl, ⟨_, rfl, rfl⟩,
      ⟨_, rfl, rfl⟩, rfl, trivial⟩
    · change _ ∈ [_, _]
      exact List.mem_cons_of_mem _ (List.mem_singleton_self _)
    · exact List.mem_singleton_self _
  have hcalls := ((submit_calls_correlated {"ps_1"}).2.1 crossedRun hadm).2.1
  refine ⟨hcalls 0 "req-2" 1 _ ⟨crossedRun.take 2, "b", rfl, Option.some_ne_none _, rfl⟩,
    hcalls 0 "req-1" 0 _ ⟨crossedRun.take 1, "a", rfl, Option.some_ne_none _, rfl⟩⟩
end FlowDemo.Android.Card.Interleaving
