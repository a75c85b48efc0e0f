import FlowDemo.Sheet.Commits
import FlowDemo.Ios.Transactions
import FlowDemo.Ios.Index

/-!
# The card in the sheet on iOS

`App` with its commits above, the payment views below. A modal that closes may keep its children for a while, so that a
commit can give a card that is there another session. The observers of a view see the props of a transaction one by
one, and each queues an `initialize` with what it sees.

* `Clean`: no operation lets an observer see a triple that is none;
* `Tracks`: the views live while they are in the tree, and their props are what was carried out;
* `card_sessions_created`: what the SDK is given are sessions that the backend created, and the view of a card that is
  on screen was given one or is about to be.
-/

namespace FlowDemo.Ios.Sheet

open Js (JsonText)
open FlowDemo.Sheet (Op Card Host Mounted Fills host outcome outcome_append Created)

/-! ## What the observers see -/

/-- The triples a transaction passes through stood at the end of one. -/
def Passes (h : Host) : Op → Prop
  | .transaction v ps => ∀ t ∈ (current (h.ends v)).passes ps,
      t.props ∈ h.ends v ++ [(current (h.ends v)).setAll ps]
  | _ => True

/-- The operations that let the observers see no other triples. -/
def passing : Machine Host Op where
  init := {}
  allowed := Passes
  step := Host.perform

def Clean (s : FlowDemo.Sheet.State) : Prop := passing.Admits passing.init s.ops

/-- A commit that keeps a card keeps its id or its secret. -/
def KeepsCards (s : FlowDemo.Sheet.State) : FlowDemo.Sheet.Event → Prop
  | .app _ => True
  | .commit keepsChildren _ _ => ∀ c m, FlowDemo.Sheet.render s.app keepsChildren = some (some c) →
      s.kept c = some m → m.card.id = c.id ∨ m.card.secret = c.secret

section

variable {Session : Set String} {s : FlowDemo.Sheet.State} {c : Card} {m : Mounted} {ps : List PropUpdate}
  {keepsChildren : Bool}

theorem clean_unmount (h : Clean s) (v : Nat) : Clean { s with ops := s.ops ++ [.unmount v] } :=
  (passing.admits_append _ _ _).mpr ⟨h, trivial, trivial⟩

theorem clean_unmountCard (h : Clean s) : Clean s.unmountCard := by
  unfold FlowDemo.Sheet.State.unmountCard
  split
  · exact h
  · next m _ => exact clean_unmount h m.view

theorem clean_mountCard (hinv : FlowDemo.Sheet.Inv .ios Session s) (h : Clean s) (hps : Fills none c ps) :
    Clean (s.mountCard c ps) := by
  refine (passing.admits_append _ _ _).mpr ⟨h, trivial, ?_, trivial⟩
  have hfresh : (outcome s.ops).ends s.views = [] := (hinv.views.fresh _ (Nat.le_refl _)).2
  change ∀ t ∈ (current ((outcome s.ops).ends s.views)).passes ps,
    t.props ∈ (outcome s.ops).ends s.views ++ [(current ((outcome s.ops).ends s.views)).setAll ps]
  rw [hfresh]
  intro t ht
  rw [(Props.toward_none c.triple).passes hps.sets t ht]
  exact List.mem_singleton.mpr hps.setAll.symm

theorem clean_updateCard (hinv : FlowDemo.Sheet.Inv .ios Session s) (h : Clean s) (hm : s.mounted = some m)
    (hps : Fills (some m.card) c ps) (hsame : m.card.id = c.id ∨ m.card.secret = c.secret) :
    Clean (s.updateCard m c ps) := by
  have hold := hinv.card m hm
  unfold FlowDemo.Sheet.State.updateCard
  cases ps.isEmpty with
  | true => exact h
  | false =>
      refine (passing.admits_append _ _ _).mpr ⟨h, ?_, trivial⟩
      change ∀ t ∈ (current ((outcome s.ops).ends m.view)).passes ps,
        t.props ∈ (outcome s.ops).ends m.view ++ [(current ((outcome s.ops).ends m.view)).setAll ps]
      rw [hold.setAll hps]
      have hkey : m.card.triple.publicKey = c.triple.publicKey := rfl
      intro t ht
      rcases Props.passes_between hsame hkey (Or.inl hold.props) hps.sets t ht with rfl | rfl
      · exact List.mem_append_left _ (mem_of_current (hold.props ▸ hold.triple))
      · exact List.mem_append_right _ (List.mem_singleton_self _)

theorem clean_commit (hinv : FlowDemo.Sheet.Inv .ios Session s) (h : Clean s)
    (hps : Fills ((s.kept c).map Mounted.card) c ps)
    (hsame : ∀ m, s.kept c = some m → m.card.id = c.id ∨ m.card.secret = c.secret) (newFirst : Bool) :
    Clean (s.commit (some c) ps newFirst) := by
  unfold FlowDemo.Sheet.State.commit
  dsimp only
  cases hkept : s.kept c with
  | some m =>
      rw [hkept] at hps
      exact clean_updateCard hinv h (Option.filter_eq_some_iff.mp hkept).1 hps (hsame m hkept)
  | none =>
      rw [hkept] at hps
      dsimp only
      unfold FlowDemo.Sheet.State.replaceCard
      split
      · next m _ =>
          cases newFirst with
          | true => exact clean_unmount (clean_mountCard hinv h hps) m.view
          | false => exact clean_mountCard hinv.unmountCard (clean_unmountCard h) hps
      · exact clean_mountCard hinv h hps

theorem clean_step {J : JsonText} {toLowerCase : String → String} (hinv : FlowDemo.Sheet.Inv .ios Session s)
    (h : Clean s) {e : FlowDemo.Sheet.Event}
    (ha : (FlowDemo.Sheet.machine J toLowerCase .ios Session).allowed s e) (hkeeps : KeepsCards s e) :
    Clean ((FlowDemo.Sheet.machine J toLowerCase .ios Session).step s e) := by
  cases e with
  | app e => exact h
  | commit keepsChildren ps newFirst =>
      change Clean (s.afterRender (FlowDemo.Sheet.render s.app keepsChildren) _ ps newFirst)
      cases hrender : FlowDemo.Sheet.render s.app keepsChildren with
      | none => exact clean_unmountCard h
      | some card =>
          cases card with
          | none => exact clean_unmountCard h
          | some c => exact clean_commit hinv h (ha.2.2 c hrender) (fun m hm => hkeeps c m hrender hm) newFirst

end

/-! ## The views below -/

variable {D : Type}

structure State (D : Type) where
  sheet : FlowDemo.Sheet.State := {}
  performed : Nat := 0
  native : Transactions.State D := {}

/-- An operation of the renderer as the view sees it; `qs` are the properties of a transaction. A view that leaves the
tree runs no code of its own. -/
def carryOut (qs : List Property) : Op → Option Transactions.Event
  | .create v => some (.ios (.create v .card))
  | .transaction v _ => some (.transaction v qs)
  | .unmount _ => none

def Carries (qs : List Property) : Op → Prop
  | .transaction _ ps => qs.map Property.update = ps
  | _ => True

namespace State

def host (s : State D) : Host := s.sheet.carriedOut s.performed

def perform (s : State D) (Session : Set String) (decode : String → Option D) (qs : List Property) : State D :=
  match s.sheet.ops[s.performed]? with
  | none => s
  | some op => { s with
      performed := s.performed + 1
      native := (carryOut qs op).elim s.native ((Transactions.machine Session decode).step s.native) }

end State

/-- What the renderer leaves to others; it holds the views that are in the tree. -/
def Elsewhere (h : Host) : Transactions.Event → Prop
  | .transaction _ _ => False
  | .ios (.create _ _) => False
  | .ios (.dealloc v) => h.phase v ≠ .mounted
  | _ => True

inductive Event
  | sheet (e : FlowDemo.Sheet.Event)
  | perform (qs : List Property)
  | native (e : Transactions.Event)

def machine (J : JsonText) (toLowerCase : String → String) (Session : Set String) (decode : String → Option D) :
    Machine (State D) Event where
  init := {}
  allowed s e := match e with
    | .sheet e => (FlowDemo.Sheet.machine J toLowerCase .ios Session).allowed s.sheet e
    | .perform qs => s.performed < s.sheet.ops.length ∧ ∀ op, s.sheet.ops[s.performed]? = some op → Carries qs op
    | .native e => (Transactions.machine Session decode).allowed s.native e ∧ Elsewhere s.host e
  step s e := match e with
    | .sheet e => { s with sheet := (FlowDemo.Sheet.machine J toLowerCase .ios Session).step s.sheet e }
    | .perform qs => s.perform Session decode qs
    | .native e => { s with native := (Transactions.machine Session decode).step s.native e }

def KeepsSessions (s : State D) : Event → Prop
  | .sheet e => KeepsCards s.sheet e
  | _ => True

/-! ## What the rest of the views does -/

section Rest

/-- **Only an `initialize` that begins** leaves the queue and marks its view. -/
structure Waits (s t : Ios.State D) : Prop where
  hasInitialized : ∀ v, (t.view v).hasInitialized = (s.view v).hasInitialized
  tasks : t.tasks = s.tasks

variable {s t u : Ios.State D}

theorem Waits.trans (h : Waits s t) (h' : Waits t u) : Waits s u :=
  ⟨fun v => (h'.hasInitialized v).trans (h.hasInitialized v), h'.tasks.trans h.tasks⟩

theorem waits_of_same (h : s.SameViews t) : Waits s t := ⟨fun v => by rw [h.view], h.tasks⟩

theorem waits_setView {v : ViewId} {w : View} (h : w.hasInitialized = (s.view v).hasInitialized) :
    Waits s (s.setView v w) := ⟨s.setView_congr View.hasInitialized h, rfl⟩

theorem waits_takeContinuation (s : Ios.State D) (v : ViewId) (r : String) (result : Result D) :
    Waits s (s.takeContinuation v r result) :=
  ⟨s.takeContinuation_congr View.hasInitialized (fun w m ch => by cases ch <;> rfl) v r result,
    (s.takeContinuation_rest v r result).2.1⟩

theorem waits_route (s : Ios.State D) (r : String) (order : List (String × List ViewId)) (result : Result D) :
    Waits s (s.route r order fun s v => s.takeContinuation v r result) :=
  Ios.State.route_keeps (P := Waits s) (fun h => h.trans ⟨fun _ => rfl, rfl⟩)
    (fun t v h => h.trans (waits_takeContinuation t v r result)) ⟨fun _ => rfl, rfl⟩ r order

theorem waits_step (Session : Set String) (decode : String → Option D) (s : Ios.State D) {e : Ios.Event}
    (hset : ∀ v p, e ≠ .setProperty v p) (hbegin : ∀ t, e ≠ .beginInitialize t) :
    Waits s ((Ios.machine Session decode).step s e) := by
  cases e with
  | create v c => exact (waits_setView (by rfl)).trans (waits_of_same (Ios.State.register_same _ v))
  | setProperty v p => exact absurd rfl (hset v p)
  | beginInitialize t => exact absurd rfl (hbegin t)
  | finishInitialize t c =>
      refine Ios.State.finishInitialize_keeps (P := Waits s) ⟨fun _ => rfl, rfl⟩ (fun isValid => ?_)
        fun t e h => h.trans ⟨fun _ => rfl, rfl⟩
      exact ⟨s.setView_congr View.hasInitialized (by rfl), rfl⟩
  | onChange v c => exact waits_setView (by rfl)
  | dealloc v => exact waits_setView (by rfl)
  | deinit v => exact ⟨fun _ => rfl, rfl⟩
  | submit id order => exact waits_of_same (ApplePayModule.submit_same s id order).1
  | bridgeHandleSubmit v id secret data r =>
      exact ⟨s.storeContinuation_congr View.hasInitialized (fun x m ch => by cases ch <;> rfl) .submit v r, rfl⟩
  | bridgeOnTokenized v r =>
      exact ⟨s.storeContinuation_congr View.hasInitialized (fun x m ch => by cases ch <;> rfl) .tokenized v r, rfl⟩
  | handleSubmitResponse r success data order => exact waits_route s r order _
  | handleTokenizedResponse r accepted message order => exact waits_route s r order _

theorem setProperty_phase (s : Ios.State D) (v : ViewId) (p : Property) (w : ViewId) :
    ((s.setProperty v p).view w).phase = (s.view w).phase := by
  obtain ⟨t, hsame, heq⟩ := Transactions.setProperty_eq s v p
  rw [heq, Transactions.maybeInitialize_view, hsame.view]
  exact s.setView_congr View.phase (by cases p <;> rfl) w

theorem setAll_phase (s : Ios.State D) (v : ViewId) (qs : List Property) (w : ViewId) :
    ((Transactions.setAll s v qs).view w).phase = (s.view w).phase := by
  induction qs generalizing s with
  | nil => rfl
  | cons p qs ih => exact (ih (s.setProperty v p)).trans (setProperty_phase s v p w)

end Rest

/-- **The transactions of a view that is there queue its `initialize`**, and one that begins gives it a session. -/
structure Starts (n : Transactions.State D) : Prop where
  queued : ∀ v, (current (n.ends v)).triple ≠ none →
    (n.ios.view v).hasInitialized = true ∨ ∃ t ∈ n.ios.tasks, t.view = v
  built : ∀ v, (n.ios.view v).hasInitialized = true → ∃ t, (v, t) ∈ n.built

theorem mem_passes_setAll {p : Props} {ps : List PropUpdate} (hne : ps ≠ []) {t : Triple}
    (ht : (p.setAll ps).triple = some t) : t ∈ p.passes ps := by
  induction ps generalizing p with
  | nil => exact absurd rfl hne
  | cons u ps ih =>
      cases ps with
      | nil => exact List.mem_append_left _ (Option.mem_toList.mpr ht)
      | cons u' ps => exact List.mem_append_right _ (ih (List.cons_ne_nil _ _) ht)

section Starts

variable {Session : Set String} {decode : String → Option D} {n : Transactions.State D}

theorem starts_transaction (h : Starts n) (hrec : Transactions.Recorded n) (v : ViewId) (qs : List Property) :
    Starts (n.transaction v qs) := by
  obtain ⟨-, hother, hinit, htasks⟩ := Transactions.setAll_spec n.ios v qs
  have hsame : ∀ w, ((Transactions.setAll n.ios v qs).view w).hasInitialized = (n.ios.view w).hasInitialized := by
    intro w
    by_cases hw : w = v
    · rw [hw, hinit]
    · rw [hother w hw]
  have hkept : n.ios.tasks ⊆ (Transactions.setAll n.ios v qs).tasks := by
    rw [htasks]
    split
    · exact List.Subset.refl _
    · exact List.subset_append_left _ _
  refine ⟨fun w hw => ?_, fun w hw => h.built w ((hsame w).symm.trans hw)⟩
  change ((Transactions.setAll n.ios v qs).view w).hasInitialized = true ∨
    ∃ t ∈ (Transactions.setAll n.ios v qs).tasks, t.view = w
  rw [hsame]
  have hold : (current (n.ends w)).triple ≠ none → (n.ios.view w).hasInitialized = true ∨
      ∃ t ∈ (Transactions.setAll n.ios v qs).tasks, t.view = w :=
    fun hne => (h.queued w hne).imp_right fun ⟨t, ht, htv⟩ => ⟨t, hkept ht, htv⟩
  rw [Transactions.ends_transaction] at hw
  split at hw
  · next hv =>
      rw [current_append] at hw
      by_cases hnil : qs = []
      · -- nothing was set
        rw [hnil, ← hv] at hw
        exact hold hw
      · cases hdone : (n.ios.view w).hasInitialized with
        | true => exact Or.inl rfl
        | false =>
            obtain ⟨t, ht⟩ := Option.ne_none_iff_exists'.mp hw
            have hmem := mem_passes_setAll (fun hmap => hnil (List.map_eq_nil_iff.mp hmap)) ht
            refine Or.inr ⟨InitializeTask.of v t, ?_, hv.symm⟩
            rw [htasks, ← hv, hdone, hrec w]
            exact List.mem_append_right _ (List.mem_map_of_mem (hv ▸ hmem))
  · exact hold hw

theorem starts_didMoveToWindow (h : Starts n) (v : ViewId) : Starts (n.didMoveToWindow v) := by
  have hkept : n.ios.tasks ⊆ (n.ios.maybeInitialize v).tasks := by
    rw [Transactions.maybeInitialize_tasks]
    split
    · exact List.Subset.refl _
    · exact List.subset_append_left _ _
  have hview := Transactions.maybeInitialize_view n.ios v
  refine ⟨fun w hw => ?_, fun w hw => h.built w ?_⟩
  · change ((n.ios.maybeInitialize v).view w).hasInitialized = true ∨ ∃ t ∈ (n.ios.maybeInitialize v).tasks, t.view = w
    rw [hview]
    exact (h.queued w hw).imp_right fun ⟨t, ht, htv⟩ => ⟨t, hkept ht, htv⟩
  · change ((n.ios.maybeInitialize v).view w).hasInitialized = true at hw
    rwa [hview] at hw

theorem starts_beginInitialize (h : Starts n) (t : InitializeTask) :
    Starts ((Transactions.machine Session decode).step n (.ios (.beginInitialize t))) := by
  have hqueue : (n.ios.beginInitialize t).tasks = n.ios.tasks.erase t :=
    Ios.State.beginInitialize_keeps (P := fun s : Ios.State D => s.tasks = n.ios.tasks.erase t) rfl fun _ => rfl
  have hmarked : ∀ w, ((n.ios.beginInitialize t).view w).hasInitialized =
      (if w = t.view then true else (n.ios.view w).hasInitialized) := by
    intro w
    unfold Ios.State.beginInitialize
    dsimp only
    cases hdone : (n.ios.view t.view).hasInitialized with
    | true =>
        rw [if_pos rfl]
        split
        · next hw => rw [hw, hdone]
        · rfl
    | false =>
        rw [if_neg Bool.false_ne_true]
        change ((Function.update n.ios.view t.view _) w).hasInitialized = _
        rw [Function.update_apply]
        split <;> rfl
  constructor
  case queued =>
    intro w hw
    change ((n.ios.beginInitialize t).view w).hasInitialized = true ∨
      ∃ x ∈ (n.ios.beginInitialize t).tasks, x.view = w
    rw [hmarked, hqueue]
    split
    · exact Or.inl rfl
    · next hne =>
        refine (h.queued w hw).imp_right fun ⟨x, hx, hxw⟩ => ⟨x, ?_, hxw⟩
        refine (List.mem_erase_of_ne ?_).mpr hx
        rintro rfl
        exact hne hxw.symm
  case built =>
    intro w hw
    change ((n.ios.beginInitialize t).view w).hasInitialized = true at hw
    rw [hmarked] at hw
    have hmono : (∃ u, (w, u) ∈ n.built) → ∃ u, (w, u) ∈ n.built ++ Transactions.begins n.ios (.beginInitialize t) :=
      fun ⟨u, hu⟩ => ⟨u, List.mem_append_left _ hu⟩
    split at hw
    · next hv =>
        cases hdone : (n.ios.view t.view).hasInitialized with
        | true => exact hmono (h.built w (hv ▸ hdone))
        | false =>
            refine ⟨t.triple, List.mem_append_right _ ?_⟩
            rw [Transactions.begins, if_neg (by rw [hdone]; exact Bool.false_ne_true), hv]
            exact List.mem_singleton_self _
    · exact hmono (h.built w hw)

theorem starts_step (h : Starts n) (hrec : Transactions.Recorded n) {e : Transactions.Event}
    (ha : (Transactions.machine Session decode).allowed n e) :
    Starts ((Transactions.machine Session decode).step n e) := by
  cases e with
  | transaction v qs => exact starts_transaction h hrec v qs
  | didMoveToWindow v => exact starts_didMoveToWindow h v
  | ios e =>
      by_cases hbegin : ∃ t, e = .beginInitialize t
      · obtain ⟨t, rfl⟩ := hbegin
        exact starts_beginInitialize h t
      · obtain ⟨hinit, htasks⟩ := waits_step Session decode n.ios ha.1 fun t he => hbegin ⟨t, he⟩
        refine ⟨fun v hv => ?_, fun v hv => ?_⟩
        · change (((Ios.machine Session decode).step n.ios e).view v).hasInitialized = true ∨
            ∃ t ∈ ((Ios.machine Session decode).step n.ios e).tasks, t.view = v
          rw [hinit, htasks]
          exact h.queued v hv
        · obtain ⟨t, ht⟩ := h.built v ((hinit v).symm.trans hv)
          exact ⟨t, List.mem_append_left _ ht⟩

end Starts

/-! ## The views follow the operations -/

/-- **The views live while they are in the tree, and have the props that were carried out**; no session was built with
anything else, or is about to be. -/
structure Tracks (Session : Set String) (decode : String → Option D) (s : State D) : Prop where
  sheet : FlowDemo.Sheet.Inv .ios Session s.sheet
  clean : Clean s.sheet
  performed : s.performed ≤ s.sheet.ops.length
  live : ∀ v, s.host.phase v = .mounted → s.native.ios.Live v
  absent : ∀ v, s.host.phase v = .absent → (s.native.ios.view v).phase = .absent
  ends : ∀ v, s.native.ends v = s.host.ends v
  recorded : Transactions.Recorded s.native
  stays : Transactions.StaysConsistent Session decode s.native
  starts : Starts s.native

section

variable {J : JsonText} {toLowerCase : String → String} {Session : Set String} {decode : String → Option D}
  {s : State D}

theorem Tracks.sheetStep (h : Tracks Session decode s) {e : FlowDemo.Sheet.Event}
    (ha : (FlowDemo.Sheet.machine J toLowerCase .ios Session).allowed s.sheet e) (hkeeps : KeepsCards s.sheet e) :
    Tracks Session decode ((machine J toLowerCase Session decode).step s (.sheet e)) := by
  have hhost : ((machine J toLowerCase Session decode).step s (.sheet e)).host = s.host :=
    FlowDemo.Sheet.carriedOut_step J toLowerCase .ios Session e h.performed
  refine ⟨FlowDemo.Sheet.inv_step s.sheet e h.sheet ha, clean_step h.sheet h.clean ha hkeeps, ?_, ?_, ?_, ?_,
    h.recorded, h.stays, h.starts⟩
  · exact h.performed.trans (FlowDemo.Sheet.ops_step J toLowerCase .ios Session s.sheet e).length_le
  · rw [hhost]
    exact h.live
  · rw [hhost]
    exact h.absent
  · rw [hhost]
    exact h.ends

/-- What the machine of the views lets happen below keeps what it says of them. -/
theorem Tracks.nativeStep (h : Tracks Session decode s) {e : Transactions.Event}
    (ha : (Transactions.machine Session decode).allowed s.native e) (hkeeps : Transactions.KeepsTriples s.native e) :
    Transactions.Recorded ((Transactions.machine Session decode).step s.native e) ∧
      Transactions.StaysConsistent Session decode ((Transactions.machine Session decode).step s.native e) ∧
      Starts ((Transactions.machine Session decode).step s.native e) :=
  ⟨Transactions.recorded_step s.native e h.recorded ha,
    (Transactions.stays_step s.native e h.recorded h.stays ha).mpr hkeeps, starts_step h.starts h.recorded ha⟩

theorem phase_create (n : Ios.State D) (v w : ViewId) : ((n.create v .card).view w).phase =
    if w = v then .live else (n.view w).phase := by
  unfold Ios.State.create
  rw [(Ios.State.register_same _ v).view, Ios.State.setView_view]
  split <;> rfl

theorem Tracks.create (h : Tracks Session decode s) {v : ViewId} (hget : s.sheet.ops[s.performed]? = some (.create v))
    (qs : List Property) : Tracks Session decode (s.perform Session decode qs) := by
  have hhost : s.sheet.carriedOut (s.performed + 1) = s.host.perform (.create v) :=
    FlowDemo.Sheet.State.carriedOut_succ hget
  have hstep : s.perform Session decode qs = { s with
      performed := s.performed + 1
      native := (Transactions.machine Session decode).step s.native (.ios (.create v .card)) } := by
    unfold State.perform
    rw [hget]
    rfl
  have hfresh := h.sheet.next hget
  have hphase : ∀ w, (((Transactions.machine Session decode).step s.native (.ios (.create v .card))).ios.view w).phase =
      if w = v then .live else (s.native.ios.view w).phase := phase_create s.native.ios v
  obtain ⟨hrecorded, hstays, hstarts⟩ := h.nativeStep (e := .ios (.create v .card))
    ⟨fun _ _ => Ios.Event.noConfusion, h.absent v hfresh⟩ trivial
  rw [hstep]
  refine ⟨h.sheet, h.clean, (List.getElem?_eq_some_iff.mp hget).1, fun w hw => ?_, fun w hw => ?_, fun w => ?_,
    hrecorded, hstays, hstarts⟩
  · change (s.sheet.carriedOut (s.performed + 1)).phase w = .mounted at hw
    rw [hhost, Host.phase_create] at hw
    refine (hphase w).trans ?_
    split at hw
    · next hv => exact if_pos hv
    · next hv => exact (if_neg hv).trans (h.live w hw)
  · change (s.sheet.carriedOut (s.performed + 1)).phase w = .absent at hw
    rw [hhost, Host.phase_create] at hw
    refine (hphase w).trans ?_
    split at hw
    · cases hw
    · next hv => exact (if_neg hv).trans (h.absent w hw)
  · change s.native.ends w = (s.sheet.carriedOut (s.performed + 1)).ends w
    rw [hhost]
    exact h.ends w

theorem Tracks.transaction (h : Tracks Session decode s) {v : ViewId} {ps : List PropUpdate}
    (hget : s.sheet.ops[s.performed]? = some (.transaction v ps)) {qs : List Property}
    (hqs : qs.map Property.update = ps) : Tracks Session decode (s.perform Session decode qs) := by
  have hhost : s.sheet.carriedOut (s.performed + 1) = s.host.perform (.transaction v ps) :=
    FlowDemo.Sheet.State.carriedOut_succ hget
  have hstep : s.perform Session decode qs = { s with
      performed := s.performed + 1
      native := (Transactions.machine Session decode).step s.native (.transaction v qs) } := by
    unfold State.perform
    rw [hget]
    rfl
  obtain ⟨hmounted, hids⟩ := h.sheet.next hget
  have hallowed : (Transactions.machine Session decode).allowed s.native (.transaction v qs) := by
    refine ⟨h.live v hmounted, fun id hid => hids id ?_⟩
    rw [← hqs]
    exact List.mem_map_of_mem (f := Property.update) hid
  have hkeeps : Transactions.KeepsTriples s.native (.transaction v qs) := by
    intro _
    rw [h.ends v, hqs]
    exact h.clean.getElem? hget
  obtain ⟨hrecorded, hstays, hstarts⟩ := h.nativeStep hallowed hkeeps
  rw [hstep]
  refine ⟨h.sheet, h.clean, (List.getElem?_eq_some_iff.mp hget).1, fun w hw => ?_, fun w hw => ?_, fun w => ?_,
    hrecorded, hstays, hstarts⟩
  · change (s.sheet.carriedOut (s.performed + 1)).phase w = .mounted at hw
    rw [hhost, Host.phase_transaction] at hw
    exact (setAll_phase s.native.ios v qs w).trans (h.live w hw)
  · change (s.sheet.carriedOut (s.performed + 1)).phase w = .absent at hw
    rw [hhost, Host.phase_transaction] at hw
    exact (setAll_phase s.native.ios v qs w).trans (h.absent w hw)
  · change (s.native.transaction v qs).ends w = (s.sheet.carriedOut (s.performed + 1)).ends w
    rw [hhost, Host.ends_transaction, Transactions.ends_transaction, h.ends, h.ends, hqs]

theorem Tracks.unmount (h : Tracks Session decode s) {v : ViewId}
    (hget : s.sheet.ops[s.performed]? = some (.unmount v)) (qs : List Property) :
    Tracks Session decode (s.perform Session decode qs) := by
  have hhost : s.sheet.carriedOut (s.performed + 1) = s.host.perform (.unmount v) :=
    FlowDemo.Sheet.State.carriedOut_succ hget
  have hstep : s.perform Session decode qs = { s with performed := s.performed + 1 } := by
    unfold State.perform
    rw [hget]
    rfl
  rw [hstep]
  refine ⟨h.sheet, h.clean, (List.getElem?_eq_some_iff.mp hget).1, fun w hw => ?_, fun w hw => ?_, fun w => ?_,
    h.recorded, h.stays, h.starts⟩
  · change (s.sheet.carriedOut (s.performed + 1)).phase w = .mounted at hw
    rw [hhost, Host.phase_unmount] at hw
    split at hw
    · cases hw
    · exact h.live w hw
  · change (s.sheet.carriedOut (s.performed + 1)).phase w = .absent at hw
    rw [hhost, Host.phase_unmount] at hw
    split at hw
    · cases hw
    · exact h.absent w hw
  · change s.native.ends w = (s.sheet.carriedOut (s.performed + 1)).ends w
    rw [hhost]
    exact h.ends w

theorem Tracks.perform (h : Tracks Session decode s) {qs : List Property}
    (hcarries : ∀ op, s.sheet.ops[s.performed]? = some op → Carries qs op) :
    Tracks Session decode (s.perform Session decode qs) := by
  cases hget : s.sheet.ops[s.performed]? with
  | none =>
      have hstep : s.perform Session decode qs = s := by
        unfold State.perform
        rw [hget]
      rw [hstep]
      exact h
  | some op =>
      cases op with
      | create v => exact h.create hget qs
      | transaction v ps => exact h.transaction hget (hcarries _ hget)
      | unmount v => exact h.unmount hget qs

theorem Tracks.native (h : Tracks Session decode s) {e : Transactions.Event}
    (ha : (Transactions.machine Session decode).allowed s.native e) (he : Elsewhere s.host e) :
    Tracks Session decode ((machine J toLowerCase Session decode).step s (.native e)) := by
  have hkeeps : Transactions.KeepsTriples s.native e := by
    cases e with
    | transaction v qs => exact absurd he not_false
    | didMoveToWindow v => trivial
    | ios e => trivial
  obtain ⟨hrecorded, hstays, hstarts⟩ := h.nativeStep ha hkeeps
  have hphase : ∀ w, (s.host.phase w = .mounted ∨ s.host.phase w = .absent) →
      (((Transactions.machine Session decode).step s.native e).ios.view w).phase = (s.native.ios.view w).phase := by
    intro w hw
    cases e with
    | transaction v qs => exact absurd he not_false
    | didMoveToWindow v => exact congrArg (fun f => (f w).phase) (Transactions.maybeInitialize_view s.native.ios v)
    | ios e =>
        rcases filing_step Session decode s.native.ios e with hfiling | ⟨v, c, rfl⟩ | ⟨v, rfl⟩ | ⟨v, value, rfl⟩
        · exact congrArg Prod.fst (hfiling w)
        · exact absurd he not_false
        · have hne : w ≠ v := by
            rintro rfl
            rcases hw with hw | hw
            · exact he hw
            · have hlive : (s.native.ios.view w).phase = .live := ha.2.live
              rw [h.absent w hw] at hlive
              cases hlive
          exact congrArg View.phase (s.native.ios.setView_view_of_ne _ hne)
        · exact absurd rfl (ha.1 v (.paymentSessionID value))
  have hends : ((Transactions.machine Session decode).step s.native e).ends = s.native.ends := by
    cases e with
    | transaction v qs => exact absurd he not_false
    | didMoveToWindow v => rfl
    | ios e => rfl
  refine ⟨h.sheet, h.clean, h.performed, fun w hw => (hphase w (Or.inl hw)).trans (h.live w hw), fun w hw =>
    (hphase w (Or.inr hw)).trans (h.absent w hw), fun w => (congrFun hends w).trans (h.ends w), hrecorded, hstays,
    hstarts⟩

theorem tracks_step (s : State D) (e : Event) (h : Tracks Session decode s)
    (ha : (machine J toLowerCase Session decode).allowed s e) (hkeeps : KeepsSessions s e) :
    Tracks Session decode ((machine J toLowerCase Session decode).step s e) := by
  cases e with
  | sheet e => exact h.sheetStep ha hkeeps
  | perform qs => exact h.perform ha.2
  | native e => exact h.native ha.1 ha.2

theorem tracks_init : Tracks Session decode ({} : State D) := by
  refine ⟨FlowDemo.Sheet.inv_init, trivial, Nat.le_refl _, nofun, fun _ _ => rfl, fun _ => rfl, fun _ => rfl, ?_,
    ⟨fun v hv => absurd rfl hv, nofun⟩⟩
  exact ⟨Transactions.consistent_iff.mpr fun _ hx => absurd hx List.not_mem_nil, fun _ ht => absurd ht List.not_mem_nil⟩

/-- **The sessions of `App` stay apart on iOS**, however the renderer, the queued initialisations and the rest of the
views interleave, as long as the commits that keep a card keep its id or its secret: the SDK is given sessions that the
backend created only. Once the renderer is done, the view of the card on screen was given one, or its `initialize` is
queued with one. -/
theorem card_sessions_created (J : JsonText) (toLowerCase : String → String) (Session : Set String)
    (decode : String → Option D) {es : List Event}
    (h : ((machine J toLowerCase Session decode).restrict KeepsSessions).Admits
      (machine J toLowerCase Session decode).init es) :
    let s := (machine J toLowerCase Session decode).run (machine J toLowerCase Session decode).init es
    (∀ x ∈ s.native.built, Created s.sheet.app x.2) ∧
      ∀ m, s.sheet.mounted = some m → s.performed = s.sheet.ops.length →
        (∃ t, (m.view, t) ∈ s.native.built) ∨
          ∃ t ∈ s.native.ios.tasks, t.view = m.view ∧ Created s.sheet.app t.triple := by
  intro s
  have htracks : Tracks Session decode s :=
    Machine.run_induction (M := (machine J toLowerCase Session decode).restrict KeepsSessions)
      (I := Tracks Session decode) (fun s e hs he => tracks_step s e hs he.1 he.2) tracks_init h
  obtain ⟨hbuilt, htasks⟩ := Transactions.staysConsistent_iff.mp htracks.stays
  refine ⟨fun x hx => ?_, fun m hm hdone => ?_⟩
  · have hstood := Transactions.consistent_iff.mp hbuilt x hx
    rw [htracks.ends] at hstood
    exact htracks.sheet.created_of_mem hstood
  · have hhost : s.host = outcome s.sheet.ops := by
      change outcome (s.sheet.ops.take s.performed) = _
      rw [hdone, List.take_length]
    have hcard := htracks.sheet.card m hm
    rw [← hhost] at hcard
    have hready : (current (s.native.ends m.view)).triple ≠ none := by
      rw [htracks.ends, hcard.props, hcard.triple]
      exact Option.some_ne_none _
    cases hinit : (s.native.ios.view m.view).hasInitialized with
    | true => exact Or.inl (htracks.starts.built m.view hinit)
    | false =>
        rcases htracks.starts.queued m.view hready with hinit' | ⟨t, ht, hview⟩
        · rw [hinit] at hinit'
          cases hinit'
        · have hstood := htasks t ht (hview ▸ hinit)
          rw [htracks.ends] at hstood
          exact Or.inr ⟨t, ht, hview, htracks.sheet.created_of_mem hstood⟩

end

def sessionCreated (n : Nat) (id secret : String) : List Event :=
  [.sheet (.app .startPayment),
    .sheet (.app (.finishStart n (.ok (.obj [("id", .str id), ("payment_session_secret", .str secret)]))))]

def newProperties (id secret : String) : List Property :=
  [.publicKey (some FlowDemo.Sheet.publicKey), .paymentMethod (some "card"), .paymentSessionSecret (some secret),
    .paymentSessionID (some id)]

def cardOnScreen : List Event :=
  sessionCreated 0 "ps_1" "pss_1" ++
    [.sheet (.commit false (FlowDemo.Sheet.newProps "ps_1" "pss_1") false), .perform [],
      .perform (newProperties "ps_1" "pss_1"),
      .native (.ios (.beginInitialize ⟨0, "ps_1", "pss_1", FlowDemo.Sheet.publicKey⟩))]

/-- The sheet closes, with its children still there; a second session is created, and the sheet is closed again before
its card was rendered. -/
def closedTwice : List Event :=
  sessionCreated 0 "ps_1" "pss_1" ++
    [.sheet (.commit false (FlowDemo.Sheet.newProps "ps_1" "pss_1") false), .sheet (.app .closeFlow),
      .sheet (.commit true (FlowDemo.Sheet.newProps "ps_1" "pss_1") false)] ++ sessionCreated 1 "ps_2" "pss_2" ++
    [.sheet (.app .closeFlow),
      .sheet (.commit true [.paymentSessionID (some "ps_2"), .paymentSessionSecret (some "pss_2")] false),
      .perform [], .perform (newProperties "ps_1" "pss_1"), .perform [], .perform [],
      .perform (newProperties "ps_1" "pss_1"),
      .perform [.paymentSessionID (some "ps_2"), .paymentSessionSecret (some "pss_2")],
      .native (.ios (.beginInitialize ⟨1, "ps_2", "pss_1", FlowDemo.Sheet.publicKey⟩))]

def twoSessions : Machine (State String) Event := machine Js.App.sampleJson id {"ps_1", "ps_2"} some

section Samples

variable {s : State String}

theorem start_allowed (hcrashed : s.sheet.crashed = false) (h : Js.App.startEnabled s.sheet.app = true) :
    twoSessions.allowed s (.sheet (.app .startPayment)) := ⟨hcrashed, h, nofun⟩

theorem close_allowed (hcrashed : s.sheet.crashed = false) : twoSessions.allowed s (.sheet (.app .closeFlow)) :=
  ⟨hcrashed, trivial, nofun⟩

theorem perform_allowed {o : Op} (hget : s.sheet.ops[s.performed]? = some o) {qs : List Property}
    (hqs : Carries qs o) : twoSessions.allowed s (.perform qs) := by
  refine ⟨(List.getElem?_eq_some_iff.mp hget).1, fun op' hop' => ?_⟩
  obtain rfl := Option.some.inj (hget.symm.trans hop')
  exact hqs

theorem begin_allowed {t : InitializeTask} (ht : t ∈ s.native.ios.tasks) :
    twoSessions.allowed s (.native (.ios (.beginInitialize t))) := ⟨⟨fun _ _ => Ios.Event.noConfusion, ht⟩, trivial⟩

theorem created_allowed {n : Nat} {id secret : String} (hcrashed : s.sheet.crashed = false)
    (hn : n ∈ s.sheet.app.creating) (hid : id = "ps_1" ∨ id = "ps_2") : twoSessions.allowed s
      (.sheet (.app (.finishStart n (.ok (.obj [("id", .str id), ("payment_session_secret", .str secret)]))))) :=
  FlowDemo.Sheet.finishStart_allowed Js.App.sampleJson _ .ios {"ps_1", "ps_2"} hcrashed hn hid

theorem commit_allowed {keepsChildren : Bool} {c : Card} {ps : List PropUpdate} (hcrashed : s.sheet.crashed = false)
    (hkeeps : keepsChildren = true → s.sheet.modal = true)
    (hrender : FlowDemo.Sheet.render s.sheet.app keepsChildren = some (some c))
    (hps : Fills ((s.sheet.kept c).map Mounted.card) c ps) :
    twoSessions.allowed s (.sheet (.commit keepsChildren ps false)) :=
  FlowDemo.Sheet.commit_allowed Js.App.sampleJson id .ios {"ps_1", "ps_2"} hcrashed (fun hk => ⟨rfl, hkeeps hk⟩) hrender
    hps false

end Samples

theorem cardOnScreen_admits : twoSessions.Admits twoSessions.init cardOnScreen := by
  refine ⟨start_allowed rfl rfl, created_allowed rfl (List.mem_singleton_self _) (Or.inl rfl), ?_, ?_, ?_, ?_, trivial⟩
  · refine commit_allowed (c := ⟨"flow-scroll-ps_1", "ps_1", "pss_1"⟩) rfl ?_ (by decide +kernel) ?_
    · exact fun h => absurd h Bool.false_ne_true
    · exact FlowDemo.Sheet.fills_newProps _
  · exact perform_allowed (o := .create 0) rfl trivial
  · exact perform_allowed (o := .transaction 0 (FlowDemo.Sheet.newProps "ps_1" "pss_1")) rfl rfl
  · exact begin_allowed (by decide +kernel)

theorem card_sessions_created_on_screen :
    let s := twoSessions.run twoSessions.init cardOnScreen
    (∀ x ∈ s.native.built, Created s.sheet.app x.2) ∧
      ((∃ t, (0, t) ∈ s.native.built) ∨
        ∃ t ∈ s.native.ios.tasks, t.view = 0 ∧ Created s.sheet.app t.triple) ∧ s.native.built.map Prod.fst = [0] := by
  obtain ⟨h1, h2, h3, h4, h5, h6, -⟩ := cardOnScreen_admits
  have hadmits : (twoSessions.restrict KeepsSessions).Admits twoSessions.init cardOnScreen :=
    ⟨⟨h1, trivial⟩, ⟨h2, trivial⟩, ⟨h3, fun c m _ hm => absurd hm (Option.some_ne_none m).symm⟩, ⟨h4, trivial⟩,
      ⟨h5, trivial⟩, ⟨h6, trivial⟩, trivial⟩
  have h := card_sessions_created Js.App.sampleJson id {"ps_1", "ps_2"} some hadmits
  exact ⟨h.1, h.2 ⟨0, "flow-scroll-ps_1", "ps_1", "pss_1"⟩ rfl (by decide +kernel), by decide +kernel⟩

theorem fills_both (old c : Card) (hid : old.id ≠ c.id) (hsecret : old.secret ≠ c.secret) :
    Fills (some old) c [.paymentSessionID (some c.id), .paymentSessionSecret (some c.secret)] := by
  have hchanges : FlowDemo.Sheet.changes (some old) c =
      [.paymentSessionID (some c.id), .paymentSessionSecret (some c.secret)] := by
    simp [FlowDemo.Sheet.changes, hid, hsecret]
  exact fun u _ => hchanges ▸ Iff.rfl

theorem closedTwice_admits : twoSessions.Admits twoSessions.init closedTwice := by
  refine ⟨start_allowed rfl rfl, created_allowed rfl (List.mem_singleton_self _) (Or.inl rfl), ?_, close_allowed rfl,
    ?_, start_allowed rfl (by decide +kernel), created_allowed rfl (by decide +kernel) (Or.inr rfl), close_allowed rfl,
    ?_,
    ?_⟩
  · refine commit_allowed (c := ⟨"flow-scroll-ps_1", "ps_1", "pss_1"⟩) rfl ?_ (by decide +kernel) ?_
    · exact fun h => absurd h Bool.false_ne_true
    · exact FlowDemo.Sheet.fills_newProps _
  · refine commit_allowed (c := ⟨"flow-scroll-closed", "ps_1", "pss_1"⟩) rfl (fun _ => rfl) (by decide +kernel) ?_
    exact FlowDemo.Sheet.fills_newProps _
  · refine commit_allowed (c := ⟨"flow-scroll-closed", "ps_2", "pss_2"⟩) rfl (fun _ => rfl) (by decide +kernel) ?_
    exact fills_both ⟨"flow-scroll-closed", "ps_1", "pss_1"⟩ _ (by decide) (by decide)
  · exact ⟨perform_allowed (o := .create 0) rfl trivial,
      perform_allowed (o := .transaction 0 (FlowDemo.Sheet.newProps "ps_1" "pss_1")) rfl rfl,
      perform_allowed (o := .unmount 0) rfl trivial, perform_allowed (o := .create 1) rfl trivial,
      perform_allowed (o := .transaction 1 (FlowDemo.Sheet.newProps "ps_1" "pss_1")) rfl rfl,
      perform_allowed (o := .transaction 1 [.paymentSessionID (some "ps_2"), .paymentSessionSecret (some "pss_2")])
        rfl rfl, begin_allowed (by decide +kernel), trivial⟩

/-- **A card that is kept with another session mixes the two**: here the closed sheet was still there when the second
session was created, and closed again. -/
theorem closed_sheet_mixes_sessions :
    let s := twoSessions.run twoSessions.init closedTwice
    twoSessions.Reachable s ∧ s.native.built = [(1, ⟨"ps_2", "pss_1", FlowDemo.Sheet.publicKey⟩)] ∧
      ¬ ∀ x ∈ s.native.built, Created s.sheet.app x.2 := by
  intro s
  have hbuilt : s.native.built = [(1, ⟨"ps_2", "pss_1", FlowDemo.Sheet.publicKey⟩)] := by decide +kernel
  have hcreated : s.sheet.app.created = [(0, ⟨some (.str "ps_1"), none, some (.str "pss_1")⟩),
      (1, ⟨some (.str "ps_2"), none, some (.str "pss_2")⟩)] := rfl
  refine ⟨Machine.Reachable.of_admits closedTwice_admits, hbuilt, fun h => ?_⟩
  obtain ⟨-, x, hx, hid, hsecret⟩ := h _ (hbuilt ▸ List.mem_singleton_self _)
  rw [hcreated] at hx
  simp only [List.mem_cons, List.not_mem_nil, or_false] at hx
  rcases hx with rfl | rfl
  · exact absurd (Js.Json.str.inj (Option.some.inj hid)) (by decide)
  · exact absurd (Js.Json.str.inj (Option.some.inj hsecret)) (by decide)

end FlowDemo.Ios.Sheet
