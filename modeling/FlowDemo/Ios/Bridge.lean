import FlowDemo.Lib.Exchange
import FlowDemo.Ios.Invariant

/-!
# The iOS bridge hands every answer to its asker

The iOS views refine the abstract exchange of `Lib.Exchange`, a request being known by its channel and its id.

* `request_effect`, `response_effect`, `quiet_effect`: what a step does to the pending requests;
* `exchange`: the simulation;
* `bridge_delivers_once`: where every request of every run stands.
-/

namespace FlowDemo.Ios

open Exchange (Move Table)

variable {D : Type} {Session : Set String} {decode : String → Option D}

namespace Event

/-- The request a step sends: its channel, its view and its id. -/
def request : Event → Option (Channel × ViewId × String)
  | .bridgeHandleSubmit v _ _ _ r => some (.submit, v, r)
  | .bridgeOnTokenized v r => some (.tokenized, v, r)
  | _ => none

/-- The response a step brings: the id it carries and what it means. -/
def response (decode : String → Option D) : Event → Option (String × Result D)
  | .handleSubmitResponse r success data _ => some (r, .submit (submissionResult decode success data))
  | .handleTokenizedResponse r accepted message _ => some (r, .tokenized (tokenizedResult accepted message))
  | _ => none

end Event

namespace State

/-- Nothing happens to the pending requests between `s` and `t`. -/
structure Quiet (s t : State D) : Prop where
  pending : ∀ ch v r, t.pending ch v r = s.pending ch v r
  resumed : t.resumed = s.resumed
  calls : t.calls = s.calls
  issued : t.issued = s.issued

variable {s t u : State D}

theorem Quiet.trans (h : s.Quiet t) (h' : t.Quiet u) : s.Quiet u :=
  ⟨fun ch v r => (h'.pending ch v r).trans (h.pending ch v r), h'.resumed.trans h.resumed, h'.calls.trans h.calls,
    h'.issued.trans h.issued⟩

theorem SameViews.quiet (h : s.SameViews t) : s.Quiet t :=
  ⟨pending_of_view h.view, h.resumed, h.calls, h.issued⟩

theorem quiet_setView (v : ViewId) (w : View) (h : ∀ ch, w.pending ch = (s.view v).pending ch) :
    s.Quiet (s.setView v w) :=
  ⟨setView_pending s h, rfl, rfl, rfl⟩

theorem quiet_maybeInitialize (v : ViewId) : s.Quiet (s.maybeInitialize v) := by
  rcases maybeInitialize_cases s v with h | ⟨_, _, _, -, h⟩ <;>
  · rw [h]
    exact ⟨fun _ _ _ => rfl, rfl, rfl, rfl⟩

theorem quiet_setProperty (v : ViewId) (p : Property) : s.Quiet (s.setProperty v p) := by
  have hset : s.Quiet (s.setView v ((s.view v).set p)) := quiet_setView v _ fun ch => by cases p <;> cases ch <;> rfl
  exact setProperty_keeps hset (fun t h => h.trans (register_same t v).quiet) fun t h =>
    h.trans (quiet_maybeInitialize v)

theorem quiet_beginInitialize (a : InitializeTask) : s.Quiet (s.beginInitialize a) := by
  refine beginInitialize_keeps ⟨fun _ _ _ => rfl, rfl, rfl, rfl⟩ fun _ =>
    ⟨setView_pending s fun ch => ?_, rfl, rfl, rfl⟩
  cases ch <;> rfl

theorem quiet_finishInitialize (a : InitializeTask) (c : Creation) : s.Quiet (s.finishInitialize a c) := by
  refine finishInitialize_keeps ⟨fun _ _ _ => rfl, rfl, rfl, rfl⟩ (fun isValid => ?_)
    fun t e h => h.trans ⟨fun _ _ _ => rfl, rfl, rfl, rfl⟩
  refine ⟨setView_pending s fun ch => ?_, rfl, rfl, rfl⟩
  cases ch <;> rfl

/-! ## Routing a response -/

/-- A response nobody waits for resumes nothing. -/
theorem route_idle {r : String} {result : Result D} (order : List (String × List ViewId))
    (h : ∀ v, s.pending result.channel v r = none) :
    s.Quiet (s.route r order fun s v => s.takeContinuation v r result) := by
  have hsweep : ∀ v, s.sweep.pending result.channel v r = none := h
  unfold route
  split
  · rw [foldl_deliver_idle fun v _ => h v]
    exact ⟨fun _ _ _ => rfl, rfl, rfl, rfl⟩
  · rw [foldl_deliver_idle fun v _ => hsweep v]
    exact ⟨fun _ _ _ => rfl, rfl, rfl, rfl⟩

/-- **A response reaches its asker**: the asker is alive and filed somewhere, and nothing is filed under a request
id, so that the sweep leads to it. -/
theorem route_holder (hinv : s.Inv Session) {r : String} {result : Result D} {order : List (String × List ViewId)}
    (ho : order.Perm s.sweep.views.entries) {v : ViewId} {c : Continuation}
    (hc : s.pending result.channel v r = some c) :
    s.route r order (fun s v => s.takeContinuation v r result) = s.sweep.takeContinuation v r result := by
  obtain ⟨hlive, hgiven⟩ := hinv.asked.asker _ v r c hc
  have hrs : r ∉ Session := hinv.asked.issued r (hinv.asked.known _ v r c hc).1
  have hnone : s.views.get r = none := by
    cases hg : s.views.get r with
    | none => rfl
    | some targets =>
        obtain ⟨w, hw⟩ := List.exists_mem_of_ne_nil _ (hinv.filed.filled r targets hg)
        exact absurd (hinv.filed.session w r (hinv.filed.given w r ⟨targets, hg, hw⟩)) hrs
  obtain ⟨k, hk⟩ := List.exists_mem_of_ne_nil _ hgiven
  have hmem : v ∈ order.flatMap Prod.snd := by
    rw [s.sweep.mem_order_iff ho]
    exact ⟨k, (s.registered_sweep v k).mpr ⟨hinv.filed.registered v k hlive hk, hlive⟩⟩
  unfold route
  rw [hnone]
  refine foldl_deliver_holder hmem hlive fun w hw => ?_
  cases hp : s.sweep.pending result.channel w r with
  | none => rfl
  | some d => exact absurd (hinv.asked.holder _ _ w v r d c hp hc).2 hw

end State

/-! ## What a step does to the pending requests -/

section Effects

variable {s : State D} {e : Event}

theorem quiet_effect (hq : e.request = none) (hr : e.response decode = none) :
    s.Quiet ((machine Session decode).step s e) := by
  cases e with
  | create v c => exact (State.quiet_setView v _ fun ch => by cases ch <;> rfl).trans (State.register_same _ v).quiet
  | setProperty v p => exact State.quiet_setProperty v p
  | beginInitialize a => exact State.quiet_beginInitialize a
  | finishInitialize a c => exact State.quiet_finishInitialize a c
  | onChange v c => exact State.quiet_setView v _ fun ch => by cases ch <;> rfl
  | dealloc v => exact State.quiet_setView v _ fun ch => by cases ch <;> rfl
  | deinit v => exact ⟨fun _ _ _ => rfl, rfl, rfl, rfl⟩
  | submit id order => exact (ApplePayModule.submit_same s id order).1.quiet
  | bridgeHandleSubmit v id secret data r => cases hq
  | bridgeOnTokenized v r => cases hq
  | handleSubmitResponse r success data order => cases hr
  | handleTokenizedResponse r accepted message order => cases hr

theorem request_effect {ch : Channel} {v : ViewId} {r : String} (hq : e.request = some (ch, v, r))
    (he : (machine Session decode).allowed s e) :
    s.MayAsk Session v r ∧ (s.storeContinuation ch v r).Quiet ((machine Session decode).step s e) ∧
      ((machine Session decode).step s e).calls = s.calls + 1 := by
  cases e with
  | bridgeHandleSubmit w id secret data k =>
      cases hq
      exact ⟨he, ⟨fun _ _ _ => rfl, rfl, rfl, rfl⟩, rfl⟩
  | bridgeOnTokenized w k =>
      cases hq
      exact ⟨he, ⟨fun _ _ _ => rfl, rfl, rfl, rfl⟩, rfl⟩
  | _ => cases hq

/-- A response is taken by the one view that waits for it, if there is one. -/
theorem response_effect {r : String} {result : Result D} (hr : e.response decode = some (r, result))
    (hinv : s.Inv Session) (he : (machine Session decode).allowed s e) :
    ((∀ v, s.pending result.channel v r = none) → s.Quiet ((machine Session decode).step s e)) ∧
      ∀ v c, s.pending result.channel v r = some c →
        (machine Session decode).step s e = s.sweep.takeContinuation v r result := by
  cases e with
  | handleSubmitResponse k success data order =>
      cases hr
      exact ⟨fun h => State.route_idle order h, fun v c hc => State.route_holder hinv he hc⟩
  | handleTokenizedResponse k accepted message order =>
      cases hr
      exact ⟨fun h => State.route_idle order h, fun v c hc => State.route_holder hinv he hc⟩
  | _ => cases hr

/-- A step is a request, a response, or neither. -/
theorem Event.kinds (decode : String → Option D) (e : Event) :
    (∃ x, e.request = some x ∧ e.response decode = none) ∨ (∃ x, e.request = none ∧ e.response decode = some x) ∨
      (e.request = none ∧ e.response decode = none) := by
  cases e with
  | bridgeHandleSubmit v id secret data r => exact Or.inl ⟨_, rfl, rfl⟩
  | bridgeOnTokenized v r => exact Or.inl ⟨_, rfl, rfl⟩
  | handleSubmitResponse r success data order => exact Or.inr (Or.inl ⟨_, rfl, rfl⟩)
  | handleTokenizedResponse r accepted message order => exact Or.inr (Or.inl ⟨_, rfl, rfl⟩)
  | _ => exact Or.inr (Or.inr ⟨rfl, rfl⟩)

end Effects

/-! ## The simulation -/

/-- The abstraction relation between the views and the table of an exchange. -/
structure Tracks (Session : Set String) (s : State D) (t : Table (Channel × String) Continuation (Result D)) :
    Prop where
  inv : s.Inv Session
  waiting : ∀ ch r c, t.waiting (ch, r) = some c ↔ ∃ v, s.pending ch v r = some c
  served : t.served = s.resumed
  known : ∀ x ∈ t.asked, x.1.2 ∈ s.issued ∧ x.2 < s.calls

def moves (decode : String → Option D) (s : State D) (e : Event) :
    List (Move (Channel × String) Continuation (Result D)) :=
  (e.request.map fun x => Move.ask (x.1, x.2.2) s.calls).toList ++
    ((e.response decode).map fun x => Move.answer (x.2.channel, x.1) x.2).toList

section Steps

variable {s : State D} {t : Table (Channel × String) Continuation (Result D)}

theorem Tracks.quiet (h : Tracks Session s t) {s' : State D} (hinv : s'.Inv Session) (hq : s.Quiet s') :
    Tracks Session s' t := by
  refine ⟨hinv, fun ch r c => ?_, h.served.trans hq.resumed.symm, ?_⟩
  · simp only [h.waiting, hq.pending]
  · rw [hq.calls, hq.issued]
    exact h.known

theorem Tracks.request (h : Tracks Session s t) {s' : State D} (hinv : s'.Inv Session) {ch : Channel} {v : ViewId}
    {r : String} (hr : s.MayAsk Session v r) (hs : (s.storeContinuation ch v r).Quiet s') :
    t.Fresh (ch, r) s.calls ∧ Tracks Session s' (t.step (.ask (ch, r) s.calls)) := by
  have hfresh : t.Fresh (ch, r) s.calls := by
    intro x hx
    obtain ⟨h1, h2⟩ := h.known x hx
    refine ⟨fun he => hr.notIssued ?_, Nat.ne_of_lt h2⟩
    rw [he] at h1
    exact h1
  have hnone : ∀ ch' w, s.pending ch' w r = none := fun ch' w => h.inv.asked.pending_fresh hr.notIssued ch' w
  suffices hstored : Tracks Session (s.storeContinuation ch v r) (t.step (.ask (ch, r) s.calls)) from
    ⟨hfresh, hstored.quiet hinv hs⟩
  refine ⟨?_, ?_, h.served, ?_⟩
  · exact h.inv.storeContinuation hr ch
  · intro ch' k c
    change Function.update t.waiting (ch, r) (some s.calls) (ch', k) = some c ↔ _
    simp only [State.storeContinuation_pending]
    by_cases hk : (ch', k) = (ch, r)
    · obtain ⟨rfl, rfl⟩ := Prod.mk.inj hk
      rw [Function.update_self]
      constructor
      · intro hc
        exact ⟨v, by rw [if_pos ⟨rfl, rfl, rfl⟩, hc]⟩
      · rintro ⟨w, hw⟩
        split at hw
        · exact hw
        · rw [hnone] at hw
          cases hw
    · have hne : ∀ w, ¬ (ch' = ch ∧ w = v ∧ k = r) := fun w he => hk (by rw [he.1, he.2.2])
      rw [Function.update_of_ne hk, h.waiting]
      exact exists_congr fun w => by rw [if_neg (hne w)]
  · intro x hx
    change x.1.2 ∈ s.issued ++ [r] ∧ x.2 < s.calls + 1
    rcases List.mem_append.mp hx with hx | hx
    · obtain ⟨h1, h2⟩ := h.known x hx
      exact ⟨List.mem_append_left _ h1, Nat.lt_succ_of_lt h2⟩
    · rw [List.mem_singleton.mp hx]
      exact ⟨List.mem_append_right _ (List.mem_singleton_self r), Nat.lt_succ_self _⟩

theorem Tracks.response (h : Tracks Session s t) {s' : State D} (hinv : s'.Inv Session) {r : String}
    {result : Result D} (hidle : (∀ v, s.pending result.channel v r = none) → s.Quiet s')
    (hheld : ∀ v c, s.pending result.channel v r = some c → s' = s.sweep.takeContinuation v r result) :
    Tracks Session s' (t.step (.answer (result.channel, r) result)) := by
  cases hw : t.waiting (result.channel, r) with
  | none =>
      rw [Table.step_answer_idle hw]
      refine h.quiet hinv (hidle fun v => ?_)
      cases hp : s.pending result.channel v r with
      | none => rfl
      | some c =>
          rw [(h.waiting _ r c).mpr ⟨v, hp⟩] at hw
          cases hw
  | some c =>
      obtain ⟨v, hv⟩ := (h.waiting _ r c).mp hw
      have hs' := hheld v c hv
      have hv' : s.sweep.pending result.channel v r = some c := hv
      rw [Table.step_answer_waiting hw]
      refine ⟨hinv, fun ch k d => ?_, ?_, ?_⟩
      · change Function.update t.waiting (result.channel, r) none (ch, k) = some d ↔ _
        rw [hs']
        simp only [State.takeContinuation_pending]
        by_cases hk : (ch, k) = (result.channel, r)
        · obtain ⟨rfl, rfl⟩ := Prod.mk.inj hk
          rw [Function.update_self]
          constructor
          · intro hd
            cases hd
          · rintro ⟨w, hd⟩
            split at hd
            · cases hd
            · next hne => exact absurd ⟨rfl, (h.inv.asked.holder _ _ w v k d c hd hv).2, rfl⟩ hne
        · have hne : ∀ w, ¬ (ch = result.channel ∧ w = v ∧ k = r) := fun w he => hk (by rw [he.1, he.2.2])
          rw [Function.update_of_ne hk, h.waiting]
          exact exists_congr fun w => by rw [if_neg (hne w)]; rfl
      · rw [hs', State.takeContinuation_of_some s.sweep hv', h.served]
        rfl
      · obtain ⟨-, -, -, hcalls, hissued⟩ := State.takeContinuation_rest s.sweep v r result
        rw [hs', hcalls, hissued]
        exact h.known

end Steps

/-- **The iOS views refine the exchange.** -/
def exchange (Session : Set String) (decode : String → Option D) :
    Simulation (machine Session decode) (Exchange.machine (Channel × String) Continuation (Result D)) where
  rel := Tracks Session
  moves := moves decode
  init := by
    refine ⟨inv_init, fun ch r c => ?_, rfl, nofun⟩
    constructor
    · intro h
      cases h
    · rintro ⟨v, hv⟩
      cases ch <;> cases hv
  step s t e h he := by
    have hinv : ((machine Session decode).step s e).Inv Session := inv_step s e h.inv he
    unfold moves
    rcases e.kinds decode with ⟨⟨ch, v, r⟩, hq, hr⟩ | ⟨⟨r, result⟩, hq, hr⟩ | ⟨hq, hr⟩
    · obtain ⟨hask, hs, -⟩ := request_effect hq he
      obtain ⟨hf, ht⟩ := h.request hinv hask hs
      rw [hq, hr]
      exact ⟨⟨hf, trivial⟩, ht⟩
    · obtain ⟨hidle, hheld⟩ := response_effect hr h.inv he
      rw [hq, hr]
      exact ⟨⟨trivial, trivial⟩, h.response hinv hidle hheld⟩
    · rw [hq, hr]
      exact ⟨trivial, h.quiet hinv (quiet_effect hq hr)⟩

/-! ## One request through a run -/

/-- The first response to the request `r` on channel `ch`. -/
def firstResponse (decode : String → Option D) (ch : Channel) (r : String) : List Event → Option (Result D)
  | [] => none
  | e :: es =>
      match e.response decode with
      | none => firstResponse decode ch r es
      | some (r', result) => if result.channel = ch ∧ r' = r then some result else firstResponse decode ch r es

theorem firstAnswer_trace (ch : Channel) (r : String) (s : State D) (es : List Event) :
    Exchange.firstAnswer (ch, r) ((exchange Session decode).trace s es) = firstResponse decode ch r es := by
  induction es generalizing s with
  | nil => rfl
  | cons e es ih =>
      have hmoves : (exchange Session decode).moves s e = moves decode s e := rfl
      rw [Simulation.trace, Exchange.firstAnswer_append, ih, hmoves, firstResponse]
      unfold moves
      rcases e.kinds decode with ⟨x, hq, hr⟩ | ⟨⟨r', result⟩, hq, hr⟩ | ⟨hq, hr⟩
      · rw [hq, hr]
        rfl
      · rw [hq, hr]
        simp only [Option.map_none, Option.toList_none, List.nil_append, Option.map_some, Option.toList_some,
          Exchange.firstAnswer, Prod.mk.injEq]
        split <;> rfl
      · rw [hq, hr]
        rfl

def resumptions (s : State D) (c : Continuation) : List (Result D) := (s.resumed.filter fun x => x.1 = c).map Prod.snd

/-- **Where the request `c`, sent by `v` under `r`, stands**, given the first response to it. Unanswered, it is
pending in its view, which is alive and filed. Answered, it was resumed once, with that response's result, and the id
is gone. -/
def Outcome (s : State D) (ch : Channel) (v : ViewId) (r : String) (c : Continuation) : Option (Result D) → Prop
  | none => resumptions s c = [] ∧ s.pending ch v r = some c ∧ s.Live v ∧ ∃ k, s.Registered v k
  | some result => resumptions s c = [result] ∧ ∀ w, s.pending ch w r = none

/-- `es` sends the request `c` of view `v` under the id `r`, and then does `post`. -/
def MakesRequest (Session : Set String) (decode : String → Option D) (es : List Event) (ch : Channel) (v : ViewId)
    (r : String) (c : Continuation) (post : List Event) : Prop :=
  ∃ pre e, es = pre ++ e :: post ∧ e.request = some (ch, v, r) ∧
    c = ((machine Session decode).run (machine Session decode).init pre).calls

section Runs

variable {s : State D} {e : Event}

theorem calls_step (he : (machine Session decode).allowed s e) (hinv : s.Inv Session) :
    ((machine Session decode).step s e).calls = s.calls ∨
      ((machine Session decode).step s e).calls = s.calls + 1 ∧ ∃ x, e.request = some x := by
  rcases e.kinds decode with ⟨⟨ch, v, r⟩, hq, hr⟩ | ⟨⟨r, result⟩, hq, hr⟩ | ⟨hq, hr⟩
  · exact Or.inr ⟨(request_effect hq he).2.2, _, hq⟩
  · refine Or.inl ?_
    obtain ⟨hidle, hheld⟩ := response_effect hr hinv he
    by_cases hp : ∃ v c, s.pending result.channel v r = some c
    · obtain ⟨v, c, hc⟩ := hp
      rw [hheld v c hc]
      exact (State.takeContinuation_rest s.sweep v r result).2.2.2.1
    · refine (hidle fun v => ?_).calls
      cases hc : s.pending result.channel v r with
      | none => rfl
      | some c => exact absurd ⟨v, c, hc⟩ hp
  · exact Or.inl (quiet_effect hq hr).calls

theorem issued_step (he : (machine Session decode).allowed s e) (hinv : s.Inv Session) :
    s.issued ⊆ ((machine Session decode).step s e).issued := by
  rcases e.kinds decode with ⟨⟨ch, v, r⟩, hq, hr⟩ | ⟨⟨r, result⟩, hq, hr⟩ | ⟨hq, hr⟩
  · rw [(request_effect hq he).2.1.issued]
    exact List.subset_append_left _ _
  · obtain ⟨hidle, hheld⟩ := response_effect hr hinv he
    by_cases hp : ∃ v c, s.pending result.channel v r = some c
    · obtain ⟨v, c, hc⟩ := hp
      rw [hheld v c hc, (State.takeContinuation_rest s.sweep v r result).2.2.2.2]
      exact List.Subset.refl _
    · have hquiet := hidle fun v => by
        cases hc : s.pending result.channel v r with
        | none => rfl
        | some c => exact absurd ⟨v, c, hc⟩ hp
      rw [hquiet.issued]
      exact List.Subset.refl _
  · rw [(quiet_effect hq hr).issued]
    exact List.Subset.refl _

/-- `r` was issued, and `v` alone can hold a request under it. -/
structure IssuedTo (Session : Set String) (s : State D) (v : ViewId) (r : String) : Prop where
  inv : s.Inv Session
  issued : r ∈ s.issued
  holder : ∀ ch w c, s.pending ch w r = some c → w = v

theorem issuedTo_step {v : ViewId} {r : String} (s : State D) (e : Event) (h : IssuedTo Session s v r)
    (he : (machine Session decode).allowed s e) : IssuedTo Session ((machine Session decode).step s e) v r := by
  have hinv : ((machine Session decode).step s e).Inv Session := inv_step s e h.inv he
  have hquiet : ∀ {t : State D}, s.Quiet t → t.Inv Session → IssuedTo Session t v r := fun hq ht =>
    ⟨ht, hq.issued ▸ h.issued, fun ch w c hw => h.holder ch w c ((hq.pending ch w r).symm.trans hw)⟩
  rcases e.kinds decode with ⟨⟨ch, u, k⟩, hq, hr⟩ | ⟨⟨k, result⟩, hq, hr⟩ | ⟨hq, hr⟩
  · obtain ⟨hask, hs, -⟩ := request_effect hq he
    refine ⟨hinv, hs.issued ▸ List.mem_append_left _ h.issued, fun ch' w c hw => ?_⟩
    rw [hs.pending, State.storeContinuation_pending, if_neg] at hw
    · exact h.holder ch' w c hw
    · rintro ⟨-, -, rfl⟩
      exact hask.notIssued h.issued
  · obtain ⟨hidle, hheld⟩ := response_effect hr h.inv he
    by_cases hp : ∃ w c, s.pending result.channel w k = some c
    · obtain ⟨w, c, hc⟩ := hp
      rw [hheld w c hc] at hinv ⊢
      obtain ⟨-, -, -, -, hissued⟩ := State.takeContinuation_rest s.sweep w k result
      refine ⟨hinv, hissued ▸ h.issued, fun ch' u d hu => ?_⟩
      rw [State.takeContinuation_pending] at hu
      split at hu
      · cases hu
      · exact h.holder ch' u d hu
    · refine hquiet (hidle fun w => ?_) hinv
      cases hc : s.pending result.channel w k with
      | none => rfl
      | some c => exact absurd ⟨w, c, hc⟩ hp
  · exact hquiet (quiet_effect hq hr) hinv

end Runs

/-- **Every request of every run stands where the first response to it puts it.** -/
theorem outcome_of_request {es : List Event} (hes : (machine Session decode).Admits (machine Session decode).init es)
    {ch : Channel} {v : ViewId} {r : String} {c : Continuation} {post : List Event}
    (hc : MakesRequest Session decode es ch v r c post) :
    Outcome ((machine Session decode).run (machine Session decode).init es) ch v r c
      (firstResponse decode ch r post) := by
  obtain ⟨pre, e, rfl, hq, rfl⟩ := hc
  obtain ⟨hadm, htr⟩ := (exchange Session decode).run_rel (exchange Session decode).init hes
  obtain ⟨hpre, he, hpost⟩ := (Machine.admits_append _ _ _ _).mp hes
  have hresp : e.response decode = none := by
    rcases e.kinds decode with ⟨_, -, hr⟩ | ⟨_, hq', -⟩ | ⟨hq', -⟩
    · exact hr
    · rw [hq] at hq'
      cases hq'
    · rw [hq] at hq'
      cases hq'
  -- the request is one `ask` of the exchange
  rw [Simulation.trace_append, Simulation.trace] at hadm htr
  have hmoves : (exchange Session decode).moves ((machine Session decode).run (machine Session decode).init pre) e =
      [.ask (ch, r) ((machine Session decode).run (machine Session decode).init pre).calls] := by
    change moves decode _ e = _
    rw [moves, hq, hresp]
    rfl
  rw [hmoves, List.singleton_append] at hadm htr
  have hask := Exchange.ask_run hadm
  rw [firstAnswer_trace] at hask
  -- from the request on, only its own view can hold its id
  have hissued :
      IssuedTo Session ((machine Session decode).run (machine Session decode).init (pre ++ e :: post)) v r := by
    have hinv : ((machine Session decode).run (machine Session decode).init pre).Inv Session :=
      Machine.run_induction inv_step inv_init hpre
    rw [Machine.run_append, Machine.run_cons]
    obtain ⟨hmay, hs, -⟩ := request_effect hq he
    refine Machine.run_induction issuedTo_step ⟨inv_step _ e hinv he, ?_, fun ch' w d hw => ?_⟩ hpost
    · exact hs.issued ▸ List.mem_append_right _ (List.mem_singleton_self r)
    · rw [hs.pending, State.storeContinuation_pending] at hw
      split at hw
      · next heq => exact heq.2.1
      · rw [hinv.asked.pending_fresh hmay.notIssued] at hw
        cases hw
  generalize hfinal : (machine Session decode).run (machine Session decode).init (pre ++ e :: post) = s at *
  cases hfr : firstResponse decode ch r post with
  | none =>
      rw [hfr] at hask
      obtain ⟨w, hw⟩ := (htr.waiting ch r _).mp hask.waiting
      obtain rfl := hissued.holder ch w _ hw
      obtain ⟨hlive, hgiven⟩ := hissued.inv.asked.asker ch w r _ hw
      obtain ⟨k, hk⟩ := List.exists_mem_of_ne_nil _ hgiven
      refine ⟨?_, hw, hlive, k, hissued.inv.filed.registered w k hlive hk⟩
      rw [resumptions, ← htr.served]
      exact hask.servedTo
  | some result =>
      rw [hfr] at hask
      refine ⟨?_, fun w => ?_⟩
      · rw [resumptions, ← htr.served]
        exact hask.servedTo
      · cases hw : s.pending ch w r with
        | none => rfl
        | some d =>
            have := (htr.waiting ch r d).mpr ⟨w, hw⟩
            rw [hask.waiting] at this
            cases this

theorem makesRequest_of_lt {es : List Event} (hes : (machine Session decode).Admits (machine Session decode).init es)
    {c : Continuation} (hc : c < ((machine Session decode).run (machine Session decode).init es).calls) :
    ∃ ch v r post, MakesRequest Session decode es ch v r c post := by
  induction es using List.reverseRecOn with
  | nil => exact absurd hc (Nat.not_lt_zero c)
  | append_singleton es e ih =>
      obtain ⟨hpre, he, -⟩ := (Machine.admits_append _ _ _ _).mp hes
      have hinv : ((machine Session decode).run (machine Session decode).init es).Inv Session :=
        Machine.run_induction inv_step inv_init hpre
      rw [Machine.run_append, Machine.run_cons, Machine.run_nil] at hc
      by_cases hlt : c < ((machine Session decode).run (machine Session decode).init es).calls
      · obtain ⟨ch, v, r, post, pre, e', rfl, hq, hnum⟩ := ih hpre hlt
        exact ⟨ch, v, r, post ++ [e], pre, e', by simp, hq, hnum⟩
      · rcases calls_step he hinv with heq | ⟨heq, ⟨ch, v, r⟩, hq⟩
        · rw [heq] at hc
          exact absurd hc hlt
        · rw [heq] at hc
          exact ⟨ch, v, r, [], es, e, rfl, hq, Nat.le_antisymm (Nat.lt_succ_iff.mp hc) (Nat.not_lt.mp hlt)⟩

/-- A submission succeeds exactly with the decoded `response` of a successful answer. -/
theorem submissionResult_eq_success_iff (success : Bool) (data : Option (List (String × Js.Json))) (d : D) :
    submissionResult decode success data = .success d ↔
      success = true ∧ ∃ text, (data.bind fun m => m.lookup "response") = some (.str text) ∧ decode text = some d := by
  unfold submissionResult
  cases success with
  | false => simp
  | true =>
      rw [if_pos rfl]
      cases hr : data.bind fun m => m.lookup "response" with
      | none => simp
      | some j =>
          cases j with
          | str text => cases hd : decode text <;> simp [hd]
          | _ => simp

theorem tokenizedResult_eq_accepted_iff (accepted : Bool) (message : Option String) :
    tokenizedResult accepted message = .accepted ↔ accepted = true := by
  unfold tokenizedResult
  cases accepted <;> simp

theorem tokenizedResult_eq_rejected_iff (accepted : Bool) (message m : Option String) :
    tokenizedResult accepted message = .rejected m ↔ accepted = false ∧ m = message := by
  unfold tokenizedResult
  cases accepted <;> simp [eq_comm]

/-- **The iOS bridge delivers each answer exactly once to its asker**, however registrations, id changes, deallocations
of idle views, submissions, requests and responses interleave. Nothing but a request is resumed. A submission succeeds
exactly when its answer says so with a `response` that decodes; a tokenization is accepted exactly when its answer says
so, and rejected with the answer's message when not. -/
theorem bridge_delivers_once (Session : Set String) (decode : String → Option D) {es : List Event}
    (hes : (machine Session decode).Admits (machine Session decode).init es) :
    (∀ ch v r c post, MakesRequest Session decode es ch v r c post →
      Outcome ((machine Session decode).run (machine Session decode).init es) ch v r c
        (firstResponse decode ch r post)) ∧
    (∀ x ∈ ((machine Session decode).run (machine Session decode).init es).resumed,
      ∃ ch v r post, MakesRequest Session decode es ch v r x.1 post) ∧
    (∀ success data d, submissionResult decode success data = .success d ↔
      success = true ∧ ∃ text, (data.bind fun m => m.lookup "response") = some (.str text) ∧ decode text = some d) ∧
    ∀ accepted message, (tokenizedResult accepted message = .accepted ↔ accepted = true) ∧
      ∀ m, tokenizedResult accepted message = .rejected m ↔ accepted = false ∧ m = message := by
  refine ⟨fun ch v r c post hc => outcome_of_request hes hc, ?_, submissionResult_eq_success_iff,
    fun accepted message => ⟨tokenizedResult_eq_accepted_iff accepted message, tokenizedResult_eq_rejected_iff accepted
      message⟩⟩
  rintro ⟨c, result⟩ hx
  obtain ⟨hadm, htr⟩ := (exchange Session decode).run_rel (exchange Session decode).init hes
  rw [← htr.served] at hx
  obtain ⟨i, hi⟩ := Exchange.served_asked hadm hx
  exact makesRequest_of_lt hes (htr.known _ hi).2

def sharedSessionRun : List Event :=
  [.create 0 .card, .setProperty 0 (.paymentSessionID (some "ps_1")),
    .bridgeHandleSubmit 0 "ps_1" "secret" "raw" "req-1",
    .create 1 .applePay, .setProperty 1 (.paymentSessionID (some "ps_1")),
    .setProperty 0 (.paymentSessionID none), .bridgeOnTokenized 1 "req-2",
    .handleTokenizedResponse "req-2" true none [("ps_1", [0, 1])],
    .handleSubmitResponse "req-1" true (some [("response", .str "paid")]) [("ps_1", [0, 1])]]

theorem bridge_delivers_once_shared :
    let s := (machine {"ps_1"} fun text => some text).run (machine {"ps_1"} fun text => some text).init sharedSessionRun
    Outcome s .submit 0 "req-1" 0 (some (.submit (.success "paid"))) ∧
      Outcome s .tokenized 1 "req-2" 1 (some (.tokenized .accepted)) := by
  have hreq : ∀ {r : String}, r ≠ "ps_1" → r ∉ ({"ps_1"} : Set String) := fun hne h => hne h
  have hadm : (machine {"ps_1"} fun text => some text).Admits (machine {"ps_1"} fun text => some text).init
      sharedSessionRun :=
    ⟨rfl, ⟨rfl, Property.session_mem rfl⟩, ⟨rfl, by decide, hreq (by decide), by decide⟩, rfl,
      ⟨rfl, Property.session_mem rfl⟩, ⟨rfl, nofun⟩, ⟨rfl, by decide, hreq (by decide), by decide⟩,
      List.Perm.refl _, List.Perm.refl _, trivial⟩
  have hout := (bridge_delivers_once {"ps_1"} (fun text => some text) hadm).1
  exact ⟨hout .submit 0 "req-1" 0 _ ⟨sharedSessionRun.take 2, _, rfl, rfl, rfl⟩,
    hout .tokenized 1 "req-2" 1 _ ⟨sharedSessionRun.take 6, _, rfl, rfl, rfl⟩⟩

end FlowDemo.Ios
