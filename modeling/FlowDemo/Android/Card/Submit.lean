import Mathlib.Data.List.Range
import Mathlib.Data.List.Nodup
import FlowDemo.Android.Card.View

/-!
# What `CardModule.submit` promises

A submission looks its view up by session id and either rejects or posts a block to the UI thread. The block calls the
view's `submitAction` and resolves. The action of a view whose component exists launches a coroutine, and that one
runs the SDK's `submit()`, catching what it throws; the initial action only logs.

* `Inv`: every promise is posted or settled, once, and only resolved ones have a coroutine;
* `Truthful`: a promise that resolved stands for a started submission of its session;
* `truthful_throughout_iff`: the steps that keep the promises truthful.
-/

namespace FlowDemo.Android.Card.Submit

/-- A call of `CardModule.submit`, numbered in the order of the calls. -/
abbrev PromiseId := Nat

structure Rejection where
  code : String
  message : String
  deriving DecidableEq

/-- The card views; the session id of each call; the blocks posted to the UI thread; the settled promises; the
launched coroutines with the session of their component; and the SDK submissions that ran, with whether they threw. -/
structure State where
  card : Card.State := {}
  asked : List String := []
  posted : List (PromiseId × ViewId) := []
  settled : List (PromiseId × Except Rejection Bool) := []
  launched : List (PromiseId × String) := []
  started : List (PromiseId × String × Bool) := []

namespace State

def settle (s : State) (p : PromiseId) (outcome : Except Rejection Bool) : State :=
  { s with settled := s.settled ++ [(p, outcome)] }

/-- `CardModule.submit` on the native-modules thread. -/
def submit (s : State) (paymentSessionID : String) : State :=
  let p := s.asked.length
  let s := { s with asked := s.asked ++ [paymentSessionID] }
  match s.card.getView paymentSessionID with
  | none => s.settle p (.error ⟨"E_CARD_VIEW_NOT_FOUND", "CardView not found for sessionId=" ++ paymentSessionID⟩)
  | some v => { s with posted := s.posted ++ [(p, v)] }

/-- `CardView.submitFromJs`: the view's `submitAction` as it is now. -/
def submitFromJs (s : State) (p : PromiseId) (v : ViewId) : State :=
  match (s.card.view v).submitAction with
  | .notReady => s
  | .component session => { s with launched := s.launched ++ [(p, session)] }

/-- The block posted for `p` runs on the UI thread. -/
def runPosted (s : State) (p : PromiseId) (v : ViewId) : State :=
  ({ s with posted := s.posted.erase (p, v) }.submitFromJs p v).settle p (.ok true)

/-- The coroutine launched for `p` runs `cardComponent.submit()`; what that throws is logged. -/
def runLaunched (s : State) (p : PromiseId) (session : String) (throws : Bool) : State :=
  { s with
    launched := s.launched.erase (p, session)
    started := s.started ++ [(p, session, throws)] }

end State

inductive Event
  | card (e : Card.Event)
  | submit (paymentSessionID : String)
  | runPosted (p : PromiseId) (v : ViewId)
  | runLaunched (p : PromiseId) (session : String) (throws : Bool)

/-- The card views with any submissions from JavaScript, the blocks and coroutines running in any order. -/
def machine (Session : Set String) : Machine State Event where
  init := {}
  allowed s e := match e with
    | .card e => (Card.machine Session).allowed s.card e
    | .submit _ => True
    | .runPosted p v => (p, v) ∈ s.posted
    | .runLaunched p session _ => (p, session) ∈ s.launched
  step s e := match e with
    | .card e => { s with card := (Card.machine Session).step s.card e }
    | .submit id => s.submit id
    | .runPosted p v => s.runPosted p v
    | .runLaunched p session throws => s.runLaunched p session throws

/-! ## The property -/

namespace State

/-- How `p` was settled, so far. -/
def settledAs (s : State) (p : PromiseId) : List (Except Rejection Bool) :=
  (s.settled.filter fun x => x.1 = p).map Prod.snd

/-- The promises with a coroutine, waiting or run. -/
def acted (s : State) : List PromiseId := s.launched.map Prod.fst ++ s.started.map Prod.fst

/-- **The call `p` for the session `id` tells the truth.** Its block still waits; or it was rejected, once, and nothing
was started; or it resolved, once, and the submission of a component of its session is launched or ran without
throwing. -/
def Tells (s : State) (p : PromiseId) (id : String) : Prop :=
  (s.settledAs p = [] ∧ p ∈ s.posted.map Prod.fst ∧ p ∉ s.acted) ∨
    (∃ r, s.settledAs p = [.error r] ∧ p ∉ s.acted) ∨
    (s.settledAs p = [.ok true] ∧ ((p, id) ∈ s.launched ∨ (p, id, false) ∈ s.started))

end State

def Truthful (s : State) : Prop := ∀ p id, s.asked[p]? = some id → s.Tells p id

/-- The steps that keep the calls truthful: a posted block finds its view with a component of the session it was asked
for, and the SDK's `submit()` does not throw. -/
def KeepsTruth (s : State) : Event → Prop
  | .card _ => True
  | .submit _ => True
  | .runPosted p v => ∀ id, s.asked[p]? = some id → (s.card.view v).submitAction = .component id
  | .runLaunched _ _ throws => throws = false

/-! ## The invariant -/

/-- Every promise is posted or settled, once; a coroutine is launched once, for a resolved promise. -/
structure Inv (s : State) : Prop where
  once : (s.posted.map Prod.fst ++ s.settled.map Prod.fst).Perm (List.range s.asked.length)
  acted : s.acted.Nodup
  resolved : ∀ p ∈ s.acted, (p, .ok true) ∈ s.settled
  outcome : ∀ p b, (p, .ok b) ∈ s.settled → b = true

variable {Session : Set String}

theorem inv_init : Inv (machine Session).init := ⟨List.Perm.refl _, List.nodup_nil, nofun, nofun⟩

namespace Inv

variable {s : State}

theorem nodup (h : Inv s) : (s.posted.map Prod.fst ++ s.settled.map Prod.fst).Nodup :=
  h.once.nodup_iff.mpr List.nodup_range

theorem lt_of_settled (h : Inv s) {x : PromiseId × Except Rejection Bool} (hx : x ∈ s.settled) :
    x.1 < s.asked.length :=
  List.mem_range.mp (h.once.subset (List.mem_append_right _ (List.mem_map_of_mem hx)))

theorem not_settled (h : Inv s) {p : PromiseId} (hp : p ∈ s.posted.map Prod.fst) : p ∉ s.settled.map Prod.fst :=
  fun hs => (List.nodup_append.mp h.nodup).2.2 p hp p hs rfl

theorem settledAs_of_posted (h : Inv s) {p : PromiseId} (hp : p ∈ s.posted.map Prod.fst) : s.settledAs p = [] := by
  rw [State.settledAs, List.map_eq_nil_iff, List.filter_eq_nil_iff]
  intro x hx hxp
  have hxp' : x.1 = p := by simpa using hxp
  exact h.not_settled hp (hxp' ▸ List.mem_map_of_mem hx)

theorem settledAs_of_mem (h : Inv s) {p : PromiseId} {o : Except Rejection Bool} (hp : (p, o) ∈ s.settled) :
    s.settledAs p = [o] := by
  have hnd : (s.settled.map Prod.fst).Nodup := (List.nodup_append.mp h.nodup).2.1
  have hkey : ∀ x ∈ s.settled, x.1 = p ↔ x = (p, o) := by
    intro x hx
    constructor
    · exact fun hxp => List.inj_on_of_nodup_map hnd hx hp hxp
    · rintro rfl
      rfl
  have hfilter : (s.settled.filter fun x => x.1 = p).Perm [(p, o)] := by
    refine (List.perm_ext_iff_of_nodup ((List.Nodup.of_map _ hnd).filter _) (List.nodup_singleton _)).mpr fun x => ?_
    rw [List.mem_filter, decide_eq_true_eq, List.mem_singleton]
    constructor
    · exact fun hx => (hkey x hx.1).mp hx.2
    · rintro rfl
      exact ⟨hp, rfl⟩
  rw [State.settledAs, List.perm_singleton.mp hfilter]
  rfl

/-- A call tells the truth exactly if its session's submission is under way or done whenever it resolved. -/
theorem tells_iff (h : Inv s) {p : PromiseId} (hp : p < s.asked.length) (id : String) :
    s.Tells p id ↔ ((p, .ok true) ∈ s.settled → (p, id) ∈ s.launched ∨ (p, id, false) ∈ s.started) := by
  constructor
  · intro ht hset
    have hone := h.settledAs_of_mem hset
    rcases ht with ⟨hnil, -⟩ | ⟨r, hr, -⟩ | ⟨-, hrun⟩
    · rw [hone] at hnil
      cases hnil
    · rw [hone] at hr
      cases List.singleton_injective hr
    · exact hrun
  · intro himp
    have hacted : (p, .ok true) ∉ s.settled → p ∉ s.acted := fun hn hin => hn (h.resolved p hin)
    rcases List.mem_append.mp (h.once.mem_iff.mpr (List.mem_range.mpr hp)) with hpost | hset
    · refine Or.inl ⟨h.settledAs_of_posted hpost, hpost, hacted fun hin => ?_⟩
      exact h.not_settled hpost (List.mem_map_of_mem hin)
    · obtain ⟨⟨q, o⟩, hx, rfl⟩ := List.mem_map.mp hset
      cases o with
      | error r =>
          refine Or.inr (Or.inl ⟨r, h.settledAs_of_mem hx, hacted fun hin => ?_⟩)
          have := h.settledAs_of_mem hin
          rw [h.settledAs_of_mem hx] at this
          cases List.singleton_injective this
      | ok b =>
          obtain rfl := h.outcome q b hx
          exact Or.inr (Or.inr ⟨h.settledAs_of_mem hx, himp hx⟩)

end Inv

/-! ## What each step changes -/

namespace State

theorem submitFromJs_launched (s : State) (p : PromiseId) (v : ViewId) :
    (s.submitFromJs p v).launched = s.launched ++
      match (s.card.view v).submitAction with
      | .notReady => []
      | .component session => [(p, session)] := by
  unfold submitFromJs
  split <;> simp

theorem submitFromJs_frame (s : State) (p : PromiseId) (v : ViewId) :
    (s.submitFromJs p v).posted = s.posted ∧ (s.submitFromJs p v).settled = s.settled ∧
      (s.submitFromJs p v).asked = s.asked ∧ (s.submitFromJs p v).started = s.started := by
  unfold submitFromJs
  split <;> exact ⟨rfl, rfl, rfl, rfl⟩

/-- **`runPosted`** takes the block away, resolves, and launches the component's submission if there is one. -/
structure RunPosted (s t : State) (p : PromiseId) (v : ViewId) : Prop where
  posted : t.posted = s.posted.erase (p, v)
  settled : t.settled = s.settled ++ [(p, .ok true)]
  asked : t.asked = s.asked
  started : t.started = s.started
  launched : t.launched = s.launched ++
    match (s.card.view v).submitAction with
    | .notReady => []
    | .component session => [(p, session)]

theorem runPosted_spec (s : State) (p : PromiseId) (v : ViewId) : RunPosted s (s.runPosted p v) p v := by
  obtain ⟨hp, hs, ha, hst⟩ := submitFromJs_frame { s with posted := s.posted.erase (p, v) } p v
  refine ⟨hp, ?_, ha, hst, submitFromJs_launched _ p v⟩
  change (submitFromJs _ p v).settled ++ _ = _
  rw [hs]

theorem submit_cases (s : State) (id : String) :
    (∃ v, s.submit id = { s with
        asked := s.asked ++ [id]
        posted := s.posted ++ [(s.asked.length, v)] }) ∨
      ∃ r, s.submit id = { s with
        asked := s.asked ++ [id]
        settled := s.settled ++ [(s.asked.length, .error r)] } := by
  unfold submit
  cases h : s.card.getView id with
  | none =>
      refine Or.inr ⟨⟨"E_CARD_VIEW_NOT_FOUND", "CardView not found for sessionId=" ++ id⟩, ?_⟩
      simp only [h]
      rfl
  | some v =>
      refine Or.inl ⟨v, ?_⟩
      simp only [h]

/-- What `runPosted` adds to the promises with a coroutine. -/
theorem runPosted_acted (s : State) (p : PromiseId) (v : ViewId) :
    (s.runPosted p v).acted.Perm s.acted ∨ (s.runPosted p v).acted.Perm (p :: s.acted) := by
  have h := runPosted_spec s p v
  unfold acted
  rw [h.launched, h.started]
  cases (s.card.view v).submitAction with
  | notReady => exact Or.inl (by simp)
  | component session => exact Or.inr (by simp)

theorem runLaunched_acted {s : State} {p : PromiseId} {session : String} (h : (p, session) ∈ s.launched)
    (throws : Bool) : (s.runLaunched p session throws).acted.Perm s.acted := by
  have hmoved : (p :: (s.launched.erase (p, session)).map Prod.fst).Perm (s.launched.map Prod.fst) :=
    ((List.perm_cons_erase h).map Prod.fst).symm
  unfold acted runLaunched
  rw [List.map_append, ← List.append_assoc]
  refine (List.perm_append_singleton _ _).trans ?_
  exact hmoved.append_right _

end State

/-! ## Every step keeps the invariant -/

namespace Inv

variable {s : State}

theorem posted_not_acted (h : Inv s) {p : PromiseId} (hp : p ∈ s.posted.map Prod.fst) : p ∉ s.acted :=
  fun hin => h.not_settled hp (List.mem_map_of_mem (h.resolved p hin))

theorem submit (h : Inv s) (id : String) : Inv (s.submit id) := by
  have hrange : (s.posted.map Prod.fst ++ s.settled.map Prod.fst ++ [s.asked.length]).Perm
      (List.range (s.asked ++ [id]).length) := by
    rw [List.length_append, List.length_singleton, List.range_succ]
    exact h.once.append_right _
  rcases s.submit_cases id with ⟨v, hs⟩ | ⟨r, hs⟩
  · rw [hs]
    refine ⟨?_, h.acted, h.resolved, h.outcome⟩
    refine List.Perm.trans ?_ hrange
    simp only [List.map_append, List.map_cons, List.map_nil, List.append_assoc]
    exact List.Perm.append_left _ List.perm_append_comm
  · rw [hs]
    refine ⟨?_, h.acted, fun p hp => List.mem_append_left _ (h.resolved p hp), fun p b hp => ?_⟩
    · simpa using hrange
    · rcases List.mem_append.mp hp with hp | hp
      · exact h.outcome p b hp
      · simp at hp

theorem runPosted (h : Inv s) {p : PromiseId} {v : ViewId} (hp : (p, v) ∈ s.posted) : Inv (s.runPosted p v) := by
  have hspec := s.runPosted_spec p v
  have hacted := s.runPosted_acted p v
  have hfresh : p ∉ s.acted := h.posted_not_acted (List.mem_map_of_mem hp)
  have hdone : (p, .ok true) ∈ (s.runPosted p v).settled := by
    rw [hspec.settled]
    exact List.mem_append_right _ (List.mem_singleton.mpr rfl)
  refine ⟨?_, ?_, fun q hq => ?_, fun q b hq => ?_⟩
  · have hmoved : (p :: (s.posted.erase (p, v)).map Prod.fst).Perm (s.posted.map Prod.fst) :=
      ((List.perm_cons_erase hp).map Prod.fst).symm
    rw [hspec.posted, hspec.settled, hspec.asked, List.map_append, ← List.append_assoc]
    refine ((List.perm_append_singleton _ _).trans ?_).trans h.once
    exact hmoved.append_right _
  · rcases hacted with hsame | hmore
    · exact hsame.nodup_iff.mpr h.acted
    · exact hmore.nodup_iff.mpr (List.nodup_cons.mpr ⟨hfresh, h.acted⟩)
  · have hold : q ∈ s.acted → (q, .ok true) ∈ (s.runPosted p v).settled := by
      intro hq
      rw [hspec.settled]
      exact List.mem_append_left _ (h.resolved q hq)
    rcases hacted with hsame | hmore
    · exact hold (hsame.mem_iff.mp hq)
    · rcases List.mem_cons.mp (hmore.mem_iff.mp hq) with rfl | hq
      · exact hdone
      · exact hold hq
  · rw [hspec.settled] at hq
    rcases List.mem_append.mp hq with hq | hq
    · exact h.outcome q b hq
    · simpa using (Prod.ext_iff.mp (List.mem_singleton.mp hq)).2

theorem runLaunched (h : Inv s) {p : PromiseId} {session : String} (hp : (p, session) ∈ s.launched)
    (throws : Bool) : Inv (s.runLaunched p session throws) := by
  have hacted := State.runLaunched_acted hp throws
  exact ⟨h.once, hacted.nodup_iff.mpr h.acted, fun q hq => h.resolved q (hacted.mem_iff.mp hq), h.outcome⟩

end Inv

theorem inv_step (s : State) (e : Event) (h : Inv s) (hallowed : (machine Session).allowed s e) :
    Inv ((machine Session).step s e) := by
  cases e with
  | card e => exact ⟨h.once, h.acted, h.resolved, h.outcome⟩
  | submit id => exact h.submit id
  | runPosted p v => exact h.runPosted hallowed
  | runLaunched p session throws => exact h.runLaunched hallowed throws

/-! ## What keeps the promises truthful -/

namespace Inv

variable {s : State}

/-- The calls tell the truth exactly if each one that resolved has its session's submission under way or done. -/
theorem truthful_iff (h : Inv s) :
    Truthful s ↔ ∀ p id, s.asked[p]? = some id → (p, .ok true) ∈ s.settled →
      (p, id) ∈ s.launched ∨ (p, id, false) ∈ s.started := by
  refine forall_congr' fun p => forall_congr' fun id => forall_congr' fun hid => ?_
  exact h.tells_iff (List.getElem?_eq_some_iff.mp hid).1 id

theorem truthful_submit (h : Inv s) (ht : Truthful s) (id : String) : Truthful (s.submit id) := by
  rw [(h.submit id).truthful_iff]
  intro p id' hid' hset
  have hsame : (p, .ok true) ∈ s.settled ∧ (s.submit id).launched = s.launched ∧
      (s.submit id).started = s.started ∧ (s.submit id).asked = s.asked ++ [id] := by
    rcases s.submit_cases id with ⟨v, hs⟩ | ⟨r, hs⟩
    · rw [hs] at hset ⊢
      exact ⟨hset, rfl, rfl, rfl⟩
    · rw [hs] at hset ⊢
      refine ⟨?_, rfl, rfl, rfl⟩
      simpa using hset
  obtain ⟨hold, hl, hst, hasked⟩ := hsame
  rw [hasked, List.getElem?_append_left (h.lt_of_settled hold)] at hid'
  rw [hl, hst]
  exact h.truthful_iff.mp ht p id' hid' hold

theorem truthful_runPosted (h : Inv s) (ht : Truthful s) {p : PromiseId} {v : ViewId} (hp : (p, v) ∈ s.posted) :
    Truthful (s.runPosted p v) ↔ ∀ id, s.asked[p]? = some id → (s.card.view v).submitAction = .component id := by
  have hspec := s.runPosted_spec p v
  have hfresh : p ∉ s.acted := h.posted_not_acted (List.mem_map_of_mem hp)
  have hnot : ∀ id, (p, id) ∉ s.launched ∧ (p, id, false) ∉ s.started := fun id =>
    ⟨fun hin => hfresh (List.mem_append_left _ (List.mem_map_of_mem hin)),
      fun hin => hfresh (List.mem_append_right _ (List.mem_map_of_mem hin))⟩
  rw [(h.runPosted hp).truthful_iff, hspec.asked, hspec.settled, hspec.started, hspec.launched]
  constructor
  · intro hall id hid
    have hin := hall p id hid (List.mem_append_right _ (List.mem_singleton.mpr rfl))
    cases ha : (s.card.view v).submitAction with
    | notReady =>
        rw [ha, List.append_nil] at hin
        exact absurd hin (not_or.mpr (hnot id))
    | component session =>
        rw [ha] at hin
        have hmem : (p, id) ∈ [(p, session)] := by
          rcases hin with hin | hin
          · exact (List.mem_append.mp hin).resolve_left (hnot id).1
          · exact absurd hin (hnot id).2
        obtain rfl : id = session := (Prod.ext_iff.mp (List.mem_singleton.mp hmem)).2
        rfl
  · intro hready q id hid hset
    rcases List.mem_append.mp hset with hset | hset
    · exact (h.truthful_iff.mp ht q id hid hset).imp_left (List.mem_append_left _)
    · obtain rfl : q = p := (Prod.ext_iff.mp (List.mem_singleton.mp hset)).1
      rw [hready id hid]
      exact Or.inl (List.mem_append_right _ (List.mem_singleton.mpr rfl))

theorem truthful_runLaunched (h : Inv s) (ht : Truthful s) {p : PromiseId} {session : String}
    (hp : (p, session) ∈ s.launched) (throws : Bool) :
    Truthful (s.runLaunched p session throws) ↔ throws = false := by
  have hpacted : p ∈ s.acted := List.mem_append_left _ (List.mem_map_of_mem hp)
  have hpset : (p, .ok true) ∈ s.settled := h.resolved p hpacted
  obtain ⟨hnl, -, hdisj⟩ := List.nodup_append.mp h.acted
  have hnotstarted : ∀ x, (p, x) ∉ s.started := fun x hx =>
    hdisj p (List.mem_map_of_mem hp) p (List.mem_map_of_mem hx) rfl
  have hpid : s.asked[p]? = some session := by
    have hlt : p < s.asked.length := h.lt_of_settled hpset
    have hid : s.asked[p]? = some s.asked[p] := List.getElem?_eq_getElem hlt
    rcases h.truthful_iff.mp ht p _ hid hpset with hin | hin
    · have hsame : s.asked[p] = session := (Prod.ext_iff.mp (List.inj_on_of_nodup_map hnl hin hp rfl)).2
      rw [hid, hsame]
    · exact absurd hin (hnotstarted _)
  rw [(h.runLaunched hp throws).truthful_iff]
  constructor
  · intro hall
    rcases hall p session hpid hpset with hin | hin
    · have hnd : s.launched.Nodup := List.Nodup.of_map _ hnl
      exact absurd hin (List.Nodup.not_mem_erase hnd)
    · rcases List.mem_append.mp hin with hin | hin
      · exact absurd hin (hnotstarted _)
      · have hsame : (p, session, false) = (p, session, throws) := List.mem_singleton.mp hin
        simpa using hsame.symm
  · rintro rfl q id hid hset
    rcases h.truthful_iff.mp ht q id hid hset with hin | hin
    · by_cases hq : (q, id) = (p, session)
      · refine Or.inr (List.mem_append_right _ (List.mem_singleton.mpr ?_))
        obtain ⟨rfl, rfl⟩ := Prod.mk.injEq _ _ _ _ ▸ hq
        rfl
      · exact Or.inl ((List.mem_erase_of_ne hq).mpr hin)
    · exact Or.inr (List.mem_append_left _ hin)

end Inv

theorem truthful_step (s : State) (e : Event) (h : Inv s) (ht : Truthful s)
    (hallowed : (machine Session).allowed s e) : Truthful ((machine Session).step s e) ↔ KeepsTruth s e := by
  cases e with
  | card e => exact iff_of_true ht trivial
  | submit id => exact iff_of_true (h.truthful_submit ht id) trivial
  | runPosted p v => exact h.truthful_runPosted ht hallowed
  | runLaunched p session throws => exact h.truthful_runLaunched ht hallowed throws

theorem truthful_init : Truthful (machine Session).init := nofun

/-- **A run keeps its promises truthful exactly if each of its steps does.** -/
theorem truthful_throughout_iff {es : List Event} (h : (machine Session).Admits (machine Session).init es) :
    (machine Session).Throughout Truthful (machine Session).init es ↔
      ((machine Session).restrict KeepsTruth).Admits (machine Session).init es :=
  Machine.throughout_iff_restrict inv_step truthful_step inv_init truthful_init h

/-- A view whose component exists when the block runs: initialize, create, submit, run the block and the coroutine. -/
def readyRun : List Event :=
  [.card (.initializeView 0 "ps_1" "secret" "pk" true), .card (.finishCreation ⟨0, "ps_1", "secret", "pk"⟩ true),
    .submit "ps_1", .runPosted 0 0, .runLaunched 0 "ps_1" false]

theorem truthful_throughout_ready :
    (machine {"ps_1"}).Admits (machine {"ps_1"}).init readyRun ∧
      ((machine {"ps_1"}).Throughout Truthful (machine {"ps_1"}).init readyRun ↔
        ((machine {"ps_1"}).restrict KeepsTruth).Admits (machine {"ps_1"}).init readyRun) := by
  have h : (machine {"ps_1"}).Admits (machine {"ps_1"}).init readyRun :=
    ⟨rfl, List.mem_singleton.mpr rfl, trivial, List.mem_singleton.mpr rfl, List.mem_singleton.mpr rfl, trivial⟩
  exact ⟨h, truthful_throughout_iff h⟩

/-- The block runs before the component exists: the placeholder action only logs, and the promise resolves. -/
def earlyRun : List Event :=
  [.card (.initializeView 0 "ps_1" "secret" "pk" true), .submit "ps_1", .runPosted 0 0]

theorem placeholder_resolves :
    (machine {"ps_1"}).Admits (machine {"ps_1"}).init earlyRun ∧
      ((machine {"ps_1"}).run (machine {"ps_1"}).init earlyRun).settledAs 0 = [.ok true] ∧
      ((machine {"ps_1"}).run (machine {"ps_1"}).init earlyRun).acted = [] ∧
      ¬ Truthful ((machine {"ps_1"}).run (machine {"ps_1"}).init earlyRun) := by
  refine ⟨⟨rfl, trivial, List.mem_singleton.mpr rfl, trivial⟩, rfl, rfl, fun ht => ?_⟩
  rcases ht 0 "ps_1" rfl with ⟨hnil, -⟩ | ⟨r, hr, -⟩ | ⟨-, hin | hin⟩
  · cases hnil
  · cases hr
  · cases hin
  · cases hin

end FlowDemo.Android.Card.Submit
