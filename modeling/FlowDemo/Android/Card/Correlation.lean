import Mathlib.Data.List.Pairwise
import FlowDemo.Android.Card.Interleaving

/-!
# Card submissions are correlated by request id

The interleaved card machine refines the abstract exchange (`exchange`): the table's open calls are the registered
continuations no response is working on, and the answers it handed out are the ones the views resumed a continuation
with, up to the one in progress. `submit_calls_correlated` reads the exchange's run theorems back on the card views.
-/

namespace FlowDemo.Android.Card.Interleaving

open Exchange (Move Table)

/-- The success flag and the payload of a response. -/
abbrev Answer := Bool × Option ReadableMap

/-- `c` is registered under `r` and no response is working on `r`. -/
def Waits (s : State) (r : String) (c : Continuation) : Prop :=
  (∀ p, s.answering = some p → p.requestId ≠ r) ∧
    ∃ v, s.card.registry.get r = some v ∧ s.card.pending v r = some c

/-- The continuation the response in progress is going to take. -/
def inProgress (s : State) : List (Continuation × Answer) :=
  match s.answering with
  | none => []
  | some p => (s.card.pending p.view p.requestId).toList.map fun c => (c, (p.success, p.data))

/-- What a view does with the answer handed to `c`: nothing, when reading the payload throws. -/
def resumption (x : Continuation × Answer) : Option (Continuation × CustomApiCallResult) :=
  (responseResult x.2.1 x.2.2).toOption.map fun result => (x.1, result)

/-- The abstraction relation between the card views and the table of an exchange. -/
structure Tracks (Session : Set String) (s : State) (t : Table String Continuation Answer) : Prop where
  inv : Inv Session s
  waiting : ∀ r c, t.waiting r = some c ↔ Waits s r c
  served : ∃ done, t.served = done ++ inProgress s ∧ s.card.resumed = done.filterMap resumption
  known : ∀ x ∈ t.asked, x.1 ∈ s.card.issued ∧ x.2 < s.card.calls
  storing : ∀ x ∈ t.asked, ∀ call ∈ s.storing, call.requestId ≠ x.1 ∧ call.continuation ≠ x.2

def moves : Event → List (Move String Continuation Answer)
  | .register call _ => [.ask call.requestId call.continuation]
  | .lookup r success data => [.answer r (success, data)]
  | _ => []

variable {Session : Set String} {s : State} {t : Table String Continuation Answer}

theorem Tracks.waiting_none (h : Tracks Session s t) {r : String} (hr : ∀ c, ¬ Waits s r c) : t.waiting r = none := by
  cases hw : t.waiting r with
  | none => rfl
  | some c => exact absurd ((h.waiting r c).mp hw) (hr c)

/-- A step that changes neither what waits nor what is in progress nor what was resumed needs no move. -/
theorem Tracks.congr (h : Tracks Session s t) {s' : State} (hinv : Inv Session s')
    (hw : ∀ r c, Waits s' r c ↔ Waits s r c) (hp : inProgress s' = inProgress s)
    (hres : s'.card.resumed = s.card.resumed) (hi : ∀ r ∈ s.card.issued, r ∈ s'.card.issued)
    (hc : s.card.calls ≤ s'.card.calls)
    (hst : ∀ x ∈ t.asked, ∀ call ∈ s'.storing, call.requestId ≠ x.1 ∧ call.continuation ≠ x.2) :
    Tracks Session s' t := by
  refine ⟨hinv, fun r c => (h.waiting r c).trans (hw r c).symm, ?_, ?_, hst⟩
  · rw [hp, hres]
    exact h.served
  · intro x hx
    obtain ⟨h1, h2⟩ := h.known x hx
    exact ⟨hi _ h1, Nat.lt_of_lt_of_le h2 hc⟩

/-- A response in progress works on a session id or on a request id that was issued. -/
theorem Inv.answering_ne_fresh (h : Inv Session s) {p : Response} (hp : s.answering = some p) {r : String}
    (hr : s.card.FreshId Session r) : p.requestId ≠ r := by
  rintro rfl
  obtain ⟨c, hc⟩ := h.answering_pending hp hr.1
  rw [h.pending_fresh hr] at hc
  cases hc

theorem tracks_initializeView (h : Tracks Session s t) (v : ViewId) {id : String} (secret key : String)
    (activity : Bool) (hid : id ∈ Session) :
    Tracks Session { s with card := s.card.initializeView v id secret key activity } t := by
  have hf := s.card.initializeView_frame v id secret key activity
  have hinv := inv_initializeView h.inv v secret key activity hid
  have hreg : ∀ r, r ∉ Session →
      (s.card.initializeView v id secret key activity).registry.get r = s.card.registry.get r := by
    intro r hr
    have hne : r ≠ id := fun he => hr (he ▸ hid)
    rcases hf.registry with hreg | hreg
    · rw [hreg]
    · rw [hreg, LinkedMap.get_put_of_ne _ _ hne]
  refine h.congr hinv ?_ ?_ hf.resumed (fun r hr => hf.issued ▸ hr) (Nat.le_of_eq hf.calls.symm) h.storing
  · intro r c
    constructor
    · rintro ⟨hp, w, hg, hw⟩
      have hw' : s.card.pending w r = some c := (hf.pending w r).symm.trans hw
      exact ⟨hp, w, (hreg r (h.inv.pending_not_session hw')).symm.trans hg, hw'⟩
    · rintro ⟨hp, w, hg, hw⟩
      exact ⟨hp, w, (hreg r (h.inv.pending_not_session hw)).trans hg, (hf.pending w r).trans hw⟩
  · simp only [inProgress, hf.pending]

theorem tracks_finishCreation (h : Tracks Session s t) (c : Creation) (created : Bool)
    (hinv : Inv Session { s with card := s.card.finishCreation c created }) :
    Tracks Session { s with card := s.card.finishCreation c created } t := by
  obtain ⟨hp, hr, hc, hi, hres⟩ := s.card.finishCreation_frame c created
  refine h.congr hinv ?_ ?_ hres (fun r h => hi ▸ h) (Nat.le_of_eq hc.symm) h.storing
  · intro r d
    simp only [Waits, hr, hp]
  · simp only [inProgress, hp]

theorem tracks_store (h : Tracks Session s t) (v : ViewId) (raw : String) {r : String}
    (hr : s.card.FreshId Session r) (hinv : Inv Session (s.store v raw r)) :
    Tracks Session (s.store v raw r) t := by
  unfold State.store at hinv ⊢
  cases hb : (s.card.view v).currentSessionData with
  | none => exact h
  | some base =>
      rw [hb] at hinv
      have hp : ∀ w k, k ≠ r → (s.card.storeContinuation v r).pending w k = s.card.pending w k := by
        intro w k hk
        rw [State.storeContinuation_pending, if_neg fun he => hk he.2]
      refine h.congr hinv ?_ ?_ rfl (fun k hk => List.mem_append_left _ hk) (Nat.le_succ _) ?_
      · intro k c
        by_cases hk : k = r
        · have hnone : s.card.registry.get k = none := by
            rw [hk]
            exact h.inv.registry_fresh hr
          constructor <;>
          · rintro ⟨-, w, hg, -⟩
            exact absurd (hnone.symm.trans hg) (by simp)
        · simp only [Waits, hp _ k hk]
          rfl
      · unfold inProgress
        cases ha : s.answering with
        | none => rfl
        | some p => simp only [hp _ _ (h.inv.answering_ne_fresh ha hr)]
      · intro x hx call hcall
        rcases List.mem_append.mp hcall with hcall | hcall
        · exact h.storing x hx call hcall
        · obtain ⟨hx1, hx2⟩ := h.known x hx
          rw [List.mem_singleton.mp hcall]
          refine ⟨fun he => hr.2 ?_, Nat.ne_of_gt hx2⟩
          rw [show r = x.1 from he]
          exact hx1

theorem tracks_register (h : Tracks Session s t) {call : Call} (emits : Bool) (hcall : call ∈ s.storing)
    (hinv : Inv Session (s.register call emits)) :
    t.Fresh call.requestId call.continuation ∧
      Tracks Session (s.register call emits) (t.step (.ask call.requestId call.continuation)) := by
  obtain ⟨hc, -⟩ := h.inv.storing call hcall
  have hfresh : t.Fresh call.requestId call.continuation := fun x hx =>
    ⟨Ne.symm (h.storing x hx call hcall).1, Ne.symm (h.storing x hx call hcall).2⟩
  have hp := s.register_pending call emits
  have hg := s.register_registry call emits
  obtain ⟨hi, hn, hres⟩ := s.register_frame call emits
  refine ⟨hfresh, hinv, ?_, ?_, ?_, ?_⟩
  · intro r c
    change Function.update t.waiting call.requestId (some call.continuation) r = some c ↔ _
    by_cases hr : r = call.requestId
    · subst hr
      rw [Function.update_self, Option.some.injEq]
      constructor
      · rintro rfl
        exact ⟨fun p hpa => h.inv.answering_ne_storing hpa hcall, call.view, by rw [hg, if_pos rfl], by rw [hp, hc]⟩
      · rintro ⟨-, w, hw, hwc⟩
        rw [hg, if_pos rfl, Option.some.injEq] at hw
        rw [hp, ← hw, hc] at hwc
        exact Option.some.inj hwc
    · rw [Function.update_of_ne hr, h.waiting]
      simp only [Waits, hg, if_neg hr, hp]
      rfl
  · obtain ⟨done, h1, h2⟩ := h.served
    refine ⟨done, ?_, ?_⟩
    · change t.served = _
      rw [h1]
      simp only [inProgress, hp]
      rfl
    · rw [← h2, hres]
  · intro x hx
    rw [hi, hn]
    rcases List.mem_append.mp hx with hx | hx
    · exact h.known x hx
    · rw [List.mem_singleton.mp hx]
      exact h.inv.known _ _ _ hc
  · intro x hx other hother
    have hother' := (s.mem_register_storing call emits other).mp hother
    rcases List.mem_append.mp hx with hx | hx
    · exact h.storing x hx other hother'.1
    · rw [List.mem_singleton.mp hx]
      have hne : other ≠ call := fun he => hother'.2 (by rw [he])
      exact h.inv.storing_ids.forall hother'.1 hcall hne

theorem tracks_lookup (h : Tracks Session s t) (r : String) (success : Bool) (data : Option ReadableMap)
    (hidle : s.answering = none) (hinv : Inv Session (s.lookup r success data)) :
    Tracks Session (s.lookup r success data) (t.step (.answer r (success, data))) := by
  unfold State.lookup at hinv ⊢
  cases hg : s.card.getView r with
  | none =>
      have hidleT : t.waiting r = none := h.waiting_none fun c hc => by
        obtain ⟨-, w, hw, -⟩ := hc
        exact absurd (hg.symm.trans hw) (by simp)
      rw [Table.step_answer_idle hidleT]
      exact h
  | some v =>
      rw [hg] at hinv
      obtain ⟨done, h1, h2⟩ := h.served
      have hnil : inProgress s = [] := by simp only [inProgress, hidle]
      rw [hnil, List.append_nil] at h1
      have hother : ∀ k c, k ≠ r →
          (Waits { s with answering := some ⟨v, r, success, data, .found⟩ } k c ↔ Waits s k c) := by
        intro k c hk
        simp [Waits, hidle, Ne.symm hk]
      have hself : ∀ c, ¬ Waits { s with answering := some ⟨v, r, success, data, .found⟩ } r c :=
        fun c hc => hc.1 _ rfl rfl
      cases hc : s.card.pending v r with
      | none =>
          have hidleT : t.waiting r = none := h.waiting_none fun c hw => by
            obtain ⟨-, w, hw, hwc⟩ := hw
            obtain rfl := Option.some.inj (hg.symm.trans hw)
            rw [hc] at hwc
            cases hwc
          rw [Table.step_answer_idle hidleT]
          refine ⟨hinv, ?_, ⟨done, ?_, h2⟩, h.known, h.storing⟩
          · intro k c
            by_cases hk : k = r
            · subst hk
              rw [hidleT]
              exact ⟨(fun he => by cases he), fun he => absurd he (hself c)⟩
            · rw [h.waiting, hother k c hk]
          · simp [h1, inProgress, hc]
      | some c =>
          have hwaitT : t.waiting r = some c := (h.waiting r c).mpr ⟨by simp [hidle], v, hg, hc⟩
          rw [Table.step_answer_waiting hwaitT]
          refine ⟨hinv, ?_, ⟨done, ?_, h2⟩, h.known, h.storing⟩
          · intro k d
            change Function.update t.waiting r none k = some d ↔ _
            by_cases hk : k = r
            · subst hk
              rw [Function.update_self]
              exact ⟨(fun he => by cases he), fun he => absurd he (hself d)⟩
            · rw [Function.update_of_ne hk, h.waiting, hother k d hk]
          · simp [h1, inProgress, hc]

theorem tracks_unregister (h : Tracks Session s t) (hat : s.At .found) (hinv : Inv Session s.unregister) :
    Tracks Session s.unregister t := by
  obtain ⟨p, hpa, -⟩ := hat
  rw [State.unregister_of_answering hpa] at hinv ⊢
  refine h.congr hinv ?_ ?_ rfl (fun _ hr => hr) (Nat.le_refl _) h.storing
  · intro r c
    by_cases hr : r = p.requestId
    · subst hr
      exact iff_of_false (fun hw => hw.1 _ rfl rfl) (fun hw => hw.1 p hpa rfl)
    · have hreg : (s.card.unregisterView p.requestId).registry.get r = s.card.registry.get r :=
        LinkedMap.get_remove_of_ne _ hr
      simp only [Waits, hreg, hpa, Option.some.injEq, State.unregisterView_pending, forall_eq']
  · simp only [inProgress, hpa, State.unregisterView_pending]

theorem tracks_resume (h : Tracks Session s t) (hat : s.At .unregistered) (hinv : Inv Session s.resume) :
    Tracks Session s.resume t := by
  obtain ⟨p, hpa, hun⟩ := hat
  rw [State.resume_of_answering hpa] at hinv ⊢
  have hp := s.card.takeContinuation_pending p.view p.requestId p.success p.data
  have hres := s.card.takeContinuation_resumed p.view p.requestId p.success p.data
  obtain ⟨hreg, hcalls, hissued⟩ := s.card.takeContinuation_frame p.view p.requestId p.success p.data
  have hlt : ∀ {w r c}, (s.card.takeContinuation p.view p.requestId p.success p.data).1.pending w r = some c →
      s.card.pending w r = some c := by
    intro w r c hw
    rw [hp] at hw
    split at hw
    · cases hw
    · exact hw
  refine ⟨hinv, ?_, ?_, ?_, h.storing⟩
  · intro r c
    rw [h.waiting]
    constructor
    · rintro ⟨hne, w, hg, hw⟩
      refine ⟨(fun q hq => by cases hq), w, hreg ▸ hg, ?_⟩
      rw [hp, if_neg fun he => hne p hpa he.2.symm, hw]
    · rintro ⟨-, w, hg, hw⟩
      have hw' := hlt hw
      refine ⟨fun q hq he => ?_, w, hreg ▸ hg, hw'⟩
      rw [hpa] at hq
      obtain rfl := Option.some.inj hq
      subst he
      have hnone := (h.inv.taking p hpa (h.inv.pending_not_session hw') hun).1
      exact absurd (hnone.symm.trans (hreg ▸ hg)) (by simp)
  · obtain ⟨done, h1, h2⟩ := h.served
    refine ⟨done ++ inProgress s, by simpa [inProgress] using h1, ?_⟩
    rw [hres, h2, List.filterMap_append]
    congr 1
    simp only [inProgress, hpa, List.filterMap_map]
    rfl
  · intro x hx
    rw [hcalls, hissued]
    exact h.known x hx

/-- **The interleaved card views refine the exchange.** -/
def exchange (Session : Set String) :
    Simulation (machine Session) (Exchange.machine String Continuation Answer) where
  rel := Tracks Session
  moves _ e := moves e
  init := by
    refine ⟨inv_init Session, ?_, ⟨[], rfl, rfl⟩, ?_, ?_⟩
    · intro r c
      constructor
      · intro h
        cases h
      · rintro ⟨-, v, hg, -⟩
        cases hg
    all_goals intro x hx; cases hx
  step s t e h he := by
    have hinv := inv_step s e h.inv he
    cases e with
    | initializeView v id secret key activity => exact ⟨trivial, tracks_initializeView h v secret key activity he⟩
    | finishCreation c created => exact ⟨trivial, tracks_finishCreation h c created hinv⟩
    | store v raw r => exact ⟨trivial, tracks_store h v raw he hinv⟩
    | register call emits =>
        obtain ⟨hf, ht⟩ := tracks_register h emits he hinv
        exact ⟨⟨hf, trivial⟩, ht⟩
    | lookup r success data => exact ⟨⟨trivial, trivial⟩, tracks_lookup h r success data he hinv⟩
    | unregister => exact ⟨trivial, tracks_unregister h he hinv⟩
    | resume => exact ⟨trivial, tracks_resume h he hinv⟩

end FlowDemo.Android.Card.Interleaving
