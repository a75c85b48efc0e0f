import FlowDemo.Js.AppRuns
import FlowDemo.Sheet

/-!
# What the commits keep

The operations that the commits of `App` ask for fit the views, whoever carries them out and however late.

* `Inv`: the props of a view are, after each transaction, those of one session that the backend created, and the view
  of the card has its props;
* `Shown`: on Android, the view of the card is the one that was initialised for its session last;
* `carriedOut_step`, `Inv.next`: what has been carried out stays, and the next operation fits.
-/

namespace FlowDemo.Sheet

open Js (JsonText Platform)
open Js.App (isSessionReady readSession)

/-! ## The props of the cards -/

def Created (app : Js.App.State) (t : Triple) : Prop :=
  t.publicKey = publicKey ∧ ∃ x ∈ app.created,
    x.2.id = some (.str t.paymentSessionID) ∧ x.2.secret = some (.str t.paymentSessionSecret)

structure Rendered (app : Js.App.State) (keepsChildren : Bool) (c : Card) : Prop where
  key : c.key = scrollKey app.screen.showingFlow c.id
  id : app.paymentSession.id = some (.str c.id)
  secret : app.paymentSession.secret = some (.str c.secret)
  triple : c.triple.props.triple = some c.triple
  shown : childrenShown app keepsChildren = true

theorem nonempty_of_trimmed {x : String} (h : Js.App.trimmedNonempty (some (.str x)) = some true) :
    x.isEmpty = false := by
  cases hx : x.isEmpty with
  | false => rfl
  | true =>
      obtain rfl := String.isEmpty_iff.mp hx
      cases h

theorem rendered_of_render {app : Js.App.State} {keepsChildren : Bool} {c : Card}
    (h : render app keepsChildren = some (some c)) : Rendered app keepsChildren c := by
  unfold render at h
  cases hready : isSessionReady app with
  | none =>
      rw [hready] at h
      cases h
  | some ready =>
      rw [hready, Option.map_some, Option.some.injEq] at h
      split at h
      · next hif =>
          rw [Bool.and_eq_true] at hif
          obtain ⟨rfl, hshown⟩ := hif
          split at h
          · next id secret hid hsecret =>
              obtain rfl := Option.some.inj h
              unfold isSessionReady at hready
              rw [hid, hsecret] at hready
              cases hid' : Js.App.trimmedNonempty (some (.str id)) with
              | none =>
                  rw [hid'] at hready
                  cases hready
              | some nonempty =>
                  rw [hid'] at hready
                  cases nonempty with
                  | false => cases hready
                  | true =>
                      refine ⟨rfl, hid, hsecret, if_neg ?_, hshown⟩
                      change ¬ (id.isEmpty || secret.isEmpty || publicKey.isEmpty) = true
                      rw [nonempty_of_trimmed hid', nonempty_of_trimmed hready]
                      decide
          · cases h
      · cases h

/-- The props of the card that is updated, or of a view that has none. -/
def propsOf (old : Option Card) : Props := old.elim {} fun c => c.triple.props

/-- The updates of a transaction, in some order, are what changes. -/
def Fills (old : Option Card) (c : Card) (ps : List PropUpdate) : Prop :=
  ∀ u, u ≠ .other → (u ∈ ps ↔ u ∈ changes old c)

theorem mem_changes {old : Option Card} {c : Card} {u : PropUpdate} : u ∈ changes old c ↔
    (old.map Card.id ≠ some c.id ∧ u = .paymentSessionID (some c.id)) ∨
      (old.map Card.secret ≠ some c.secret ∧ u = .paymentSessionSecret (some c.secret)) ∨
        old = none ∧ u = .publicKey (some publicKey) := by
  unfold changes
  rw [List.mem_append, List.mem_append, or_assoc]
  refine or_congr ?_ (or_congr ?_ ?_)
  · split <;> simp [*]
  · split <;> simp [*]
  · cases old <;> simp

variable {old : Option Card} {c : Card} {ps : List PropUpdate}

theorem Fills.sets (h : Fills old c ps) : ∀ u ∈ ps, u.Sets c.triple := by
  intro u hu
  by_cases hother : u = .other
  · rw [hother]
    trivial
  · rcases mem_changes.mp ((h u hother).mp hu) with ⟨-, rfl⟩ | ⟨-, rfl⟩ | ⟨-, rfl⟩ <;> rfl

theorem Fills.mem (h : Fills old c ps) {u : PropUpdate} (hu : u ∈ changes old c) : u ∈ ps := by
  refine (h u ?_).mpr hu
  rintro rfl
  simp [mem_changes] at hu

/-- **A transaction of a commit ends with the session of the card.** -/
theorem Fills.setAll (h : Fills old c ps) : (propsOf old).setAll ps = c.triple.props := by
  refine Props.setAll_eq h.sets ?_ ?_ ?_
  · by_cases hid : old.map Card.id = some c.id
    · obtain ⟨o, rfl, ho⟩ := Option.map_eq_some_iff.mp hid
      exact Or.inl (congrArg some ho)
    · exact Or.inr (h.mem (mem_changes.mpr (Or.inl ⟨hid, rfl⟩)))
  · by_cases hsecret : old.map Card.secret = some c.secret
    · obtain ⟨o, rfl, ho⟩ := Option.map_eq_some_iff.mp hsecret
      exact Or.inl (congrArg some ho)
    · exact Or.inr (h.mem (mem_changes.mpr (Or.inr (Or.inl ⟨hsecret, rfl⟩))))
  · cases old with
    | some o => exact Or.inl rfl
    | none => exact Or.inr (h.mem (mem_changes.mpr (Or.inr (Or.inr ⟨rfl, rfl⟩))))

def newProps (id secret : String) : List PropUpdate :=
  [.publicKey (some publicKey), .other, .paymentSessionSecret (some secret), .paymentSessionID (some id)]

theorem fills_newProps (c : Card) : Fills none c (newProps c.id c.secret) := by
  intro u hu
  rw [mem_changes]
  simp only [newProps, List.mem_cons, List.not_mem_nil, or_false, hu, false_or, Option.map_none, ne_eq,
    reduceCtorEq, not_false_eq_true, true_and]
  tauto

/-! ## The views -/

/-- What creating a view for `c` and giving it its props comes to. -/
structure Mounts (h t : Host) (v : Nat) (c : Card) : Prop where
  phase : ∀ w, t.phase w = if w = v then .mounted else h.phase w
  ends : ∀ w, t.ends w = if w = v then [c.triple.props] else h.ends w
  shown : t.shown v = some c.triple
  leads : t.leads c.id = some v

theorem mounts_of_fresh {h : Host} (hinv : h.Inv) {v : Nat} (hfresh : h.ends v = [])
    (htriple : c.triple.props.triple = some c.triple) (hps : Fills none c ps) :
    Mounts h ((h.perform (.create v)).perform (.transaction v ps)) v c := by
  have hends : current (h.ends v) = {} := by rw [hfresh, current, List.getLast?_nil, Option.getD_none]
  have hshown : h.shown v = none := by
    cases hs : h.shown v with
    | none => rfl
    | some t =>
        have hin := hinv v t hs
        rw [hfresh] at hin
        cases hin
  have hcur : (current ((Function.update h.ends v (h.ends v ++ [(current (h.ends v)).setAll ps])) v)).triple =
      some c.triple := by
    rw [Function.update_self, current_append, hends]
    exact hps.setAll ▸ htriple
  have hmay := Host.maybeInit_of_fresh (h := { h.perform (.create v) with
    ends := Function.update h.ends v (h.ends v ++ [(current (h.ends v)).setAll ps]) }) hshown hcur
  constructor
  case phase =>
    intro w
    rw [Host.phase_transaction, Host.phase_create]
  case ends =>
    intro w
    rw [Host.ends_transaction]
    change (if w = v then h.ends v ++ [(current (h.ends v)).setAll ps] else h.ends w) = _
    rw [hends, hfresh, show Props.setAll {} ps = c.triple.props from hps.setAll, List.nil_append]
  case shown => exact (congrArg (fun t => t.shown v) hmay).trans (Function.update_self _ _ _)
  case leads => exact (congrArg (fun t => t.leads c.id) hmay).trans (Function.update_self _ _ _)

/-- **The views of the cards.** -/
structure Views (Session : Set String) (app : Js.App.State) (views : Nat) (ops : List Op) : Prop where
  admits : (host Session).Admits (host Session).init ops
  ends : ∀ v, ∀ p ∈ (outcome ops).ends v, ∃ t, t.props = p ∧ Created app t
  fresh : ∀ v, views ≤ v → (outcome ops).phase v = .absent ∧ (outcome ops).ends v = []

/-- The view of a card that is there has its props. -/
structure Holds (h : Host) (m : Mounted) : Prop where
  phase : h.phase m.view = .mounted
  props : current (h.ends m.view) = m.card.triple.props
  triple : m.card.triple.props.triple = some m.card.triple

/-- On Android the sheet is open, and the view of its card is the one that was initialised for its session last. -/
structure Shown (h : Host) (m : Mounted) : Prop where
  key : m.card.key = scrollKey true m.card.id
  shown : ∃ t, h.shown m.view = some t ∧ t.paymentSessionID = m.card.id
  leads : h.leads m.card.id = some m.view

def OneId (h : Host) : Prop := ∀ v, ∀ p ∈ h.ends v, ∀ q ∈ h.ends v, p.paymentSessionID = q.paymentSessionID

structure Inv (platform : Platform) (Session : Set String) (s : State) : Prop where
  session : s.app.paymentSession = {} ∨ ∃ n, (n, s.app.paymentSession) ∈ s.app.created
  ids : ∀ x ∈ s.app.created, ∀ id, x.2.id = some (.str id) → id ∈ Session
  views : Views Session s.app s.views s.ops
  card : ∀ m, s.mounted = some m → Holds (outcome s.ops) m
  shown : platform = .android → ∀ m, s.mounted = some m → Shown (outcome s.ops) m
  oneId : platform = .android → OneId (outcome s.ops)

/-! ## The updates of a card -/

section Update

variable {h : Host} {m : Mounted}

theorem Holds.setAll (hm : Holds h m) (hps : Fills (some m.card) c ps) :
    (current (h.ends m.view)).setAll ps = c.triple.props := hm.props ▸ hps.setAll

theorem Holds.update (hm : Holds h m) (hps : Fills (some m.card) c ps)
    (hc : c.triple.props.triple = some c.triple) : Holds (h.perform (.transaction m.view ps)) ⟨m.view, c⟩ := by
  refine ⟨(congrFun (Host.phase_transaction ps) _).trans hm.phase, ?_, hc⟩
  exact (congrArg current ((Host.ends_transaction ps _).trans (if_pos rfl))).trans
    ((current_append _ _).trans (hm.setAll hps))

theorem Holds.ends_update (hm : Holds h m) (hps : Fills (some m.card) c ps) {v : Nat} {p : Props}
    (hp : p ∈ (h.perform (.transaction m.view ps)).ends v) : p ∈ h.ends v ∨ v = m.view ∧ p = c.triple.props := by
  rw [Host.ends_transaction] at hp
  split at hp
  · next hv =>
      refine (List.mem_append.mp hp).imp (fun hp => hv ▸ hp) fun hp => ⟨hv, ?_⟩
      exact (List.mem_singleton.mp hp).trans (hm.setAll hps)
  · exact Or.inl hp

theorem Shown.update (hm : Shown h m) (hid : m.card.id = c.id) (hkey : c.key = scrollKey true c.id) :
    Shown (h.perform (.transaction m.view ps)) ⟨m.view, c⟩ := by
  obtain ⟨-, ⟨t, ht, hti⟩, hleads⟩ := hm
  have hsame := Host.maybeInit_of_shown (h := { h with
    ends := Function.update h.ends m.view (h.ends m.view ++ [(current (h.ends m.view)).setAll ps]) }) ht
  refine ⟨hkey, ⟨t, (congrArg (fun h => h.shown m.view) hsame).trans ht, hti.trans hid⟩, ?_⟩
  exact (congrArg (fun h => h.leads c.id) hsame).trans (hid ▸ hleads)

theorem OneId.update (hone : OneId h) (hm : Holds h m) (hps : Fills (some m.card) c ps) (hid : m.card.id = c.id) :
    OneId (h.perform (.transaction m.view ps)) := by
  have hcur : ∀ p ∈ h.ends m.view, p.paymentSessionID = some c.id := by
    intro p hp
    have hlast : m.card.triple.props ∈ h.ends m.view := mem_of_current (hm.props ▸ hm.triple)
    exact (hone m.view p hp _ hlast).trans (congrArg some hid)
  intro v p hp q hq
  rcases hm.ends_update hps hp with hp | ⟨rfl, rfl⟩ <;> rcases hm.ends_update hps hq with hq | ⟨hv, rfl⟩
  · exact hone v p hp q hq
  · exact hcur p (hv ▸ hp)
  · exact (hcur q hq).symm
  · rfl

end Update

section

variable {Session : Set String} {app : Js.App.State} {views : Nat} {ops : List Op} {platform : Platform} {s : State}
  {keepsChildren : Bool}

theorem Views.unmount (h : Views Session app views ops) {v : Nat} (hv : (outcome ops).phase v = .mounted) :
    Views Session app views (ops ++ [.unmount v]) := by
  refine ⟨((host Session).admits_append _ _ _).mpr ⟨h.admits, hv, trivial⟩, ?_, fun w hw => ?_⟩
  · rw [outcome_append]
    exact h.ends
  · rw [outcome_append]
    obtain ⟨hphase, hends⟩ := h.fresh w hw
    refine ⟨(Host.phase_unmount w).trans ((if_neg ?_).trans hphase), hends⟩
    rintro rfl
    rw [hv] at hphase
    cases hphase

theorem Views.mount (h : Views Session app views ops) (hc : Created app c.triple) (hid : c.id ∈ Session)
    (htriple : c.triple.props.triple = some c.triple) (hps : Fills none c ps) :
    Views Session app (views + 1) (ops ++ [.create views, .transaction views ps]) := by
  obtain ⟨hphase, hends⟩ := h.fresh views (Nat.le_refl views)
  have hmounts := mounts_of_fresh (inv_outcome ops) hends htriple hps
  constructor
  case admits =>
    refine ((host Session).admits_append _ _ _).mpr ⟨h.admits, hphase, ⟨?_, fun id hin => ?_⟩, trivial⟩
    · exact (Host.phase_create views).trans (if_pos rfl)
    · have heq : some id = some c.id := hps.sets _ hin
      exact Option.some.inj heq ▸ hid
  case ends =>
    intro v p hp
    rw [outcome_append] at hp
    rw [show ([Op.create views, .transaction views ps].foldl Host.perform (outcome ops)).ends v = _ from
      hmounts.ends v] at hp
    split at hp
    · exact ⟨c.triple, (List.mem_singleton.mp hp).symm, hc⟩
    · exact h.ends v p hp
  case fresh =>
    intro v hv
    obtain ⟨hphase', hends'⟩ := h.fresh v (Nat.le_of_succ_le hv)
    rw [outcome_append]
    exact ⟨(hmounts.phase v).trans ((if_neg (Nat.ne_of_gt hv)).trans hphase'),
      (hmounts.ends v).trans ((if_neg (Nat.ne_of_gt hv)).trans hends')⟩

theorem Views.update (h : Views Session app views ops) {m : Mounted} (hm : Holds (outcome ops) m)
    (hc : Created app c.triple) (hid : c.id ∈ Session) (hps : Fills (some m.card) c ps) :
    Views Session app views (ops ++ [.transaction m.view ps]) := by
  constructor
  case admits =>
    refine ((host Session).admits_append _ _ _).mpr ⟨h.admits, ⟨hm.phase, fun id hin => ?_⟩, trivial⟩
    have heq : some id = some c.id := hps.sets _ hin
    exact Option.some.inj heq ▸ hid
  case ends =>
    intro v p hp
    rw [outcome_append] at hp
    rcases hm.ends_update hps hp with hp | ⟨-, rfl⟩
    · exact h.ends v p hp
    · exact ⟨c.triple, rfl, hc⟩
  case fresh =>
    intro v hv
    obtain ⟨hphase, hends⟩ := h.fresh v hv
    have hne : v ≠ m.view := by
      rintro rfl
      rw [hm.phase] at hphase
      cases hphase
    rw [outcome_append]
    exact ⟨(congrFun (Host.phase_transaction ps) v).trans hphase,
      (Host.ends_transaction ps v).trans ((if_neg hne).trans hends)⟩

/-! ## The commits -/

theorem State.unmountCard_app (s : State) : s.unmountCard.app = s.app := by
  unfold State.unmountCard
  split <;> rfl

theorem Inv.view_ne (h : Inv platform Session s) {m : Mounted} (hm : s.mounted = some m) : m.view ≠ s.views := by
  intro heq
  have hphase := (h.card m hm).phase
  rw [heq, (h.views.fresh _ (Nat.le_refl _)).1] at hphase
  cases hphase

theorem Inv.created (h : Inv platform Session s) (hc : Rendered s.app keepsChildren c) :
    Created s.app c.triple ∧ c.id ∈ Session := by
  rcases h.session with hnone | ⟨n, hin⟩
  · have hid := hc.id
    rw [hnone] at hid
    have hempty : c.id = "" := (Js.Json.str.inj (Option.some.inj hid)).symm
    have htriple : c.triple.props.triple = none := if_pos (by simp [Card.triple, hempty])
    rw [hc.triple] at htriple
    cases htriple
  · exact ⟨⟨rfl, _, hin, hc.id, hc.secret⟩, h.ids _ hin _ hc.id⟩

theorem Inv.mounts (h : Inv platform Session s) (hc : Rendered s.app keepsChildren c) (hps : Fills none c ps) :
    Mounts (outcome s.ops) (outcome (s.mountCard c ps).ops) s.views c := by
  change Mounts _ (outcome (s.ops ++ _)) _ _
  rw [outcome_append]
  exact mounts_of_fresh (inv_outcome s.ops) (h.views.fresh _ (Nat.le_refl _)).2 hc.triple hps

theorem Inv.mountCard (h : Inv platform Session s) (hc : Rendered s.app keepsChildren c)
    (hkey : platform = .android → c.key = scrollKey true c.id) (hps : Fills none c ps) :
    Inv platform Session (s.mountCard c ps) := by
  obtain ⟨hcreated, hid⟩ := h.created hc
  have hmounts := h.mounts hc hps
  refine ⟨h.session, h.ids, h.views.mount hcreated hid hc.triple hps, fun m hm => ?_, fun hplatform m hm => ?_,
    fun hplatform v p hp q hq => ?_⟩
  · obtain rfl := Option.some.inj hm
    refine ⟨(hmounts.phase _).trans (if_pos rfl), ?_, hc.triple⟩
    exact (congrArg current ((hmounts.ends _).trans (if_pos rfl))).trans (current_append [] _)
  · obtain rfl := Option.some.inj hm
    exact ⟨hkey hplatform, ⟨_, hmounts.shown, rfl⟩, hmounts.leads⟩
  · rw [hmounts.ends v] at hp hq
    split at hp
    · next hv =>
        rw [if_pos hv] at hq
        rw [List.mem_singleton.mp hp, List.mem_singleton.mp hq]
    · next hv =>
        rw [if_neg hv] at hq
        exact h.oneId hplatform v p hp q hq

theorem Inv.unmount (h : Inv platform Session s) {v : Nat} (hv : (outcome s.ops).phase v = .mounted)
    (hne : ∀ m, s.mounted = some m → m.view ≠ v) : Inv platform Session { s with ops := s.ops ++ [.unmount v] } := by
  refine ⟨h.session, h.ids, h.views.unmount hv, fun m hm => ?_, fun hplatform m hm => ?_, fun hplatform => ?_⟩
  · change Holds (outcome (s.ops ++ _)) m
    rw [outcome_append]
    obtain ⟨hphase, hprops, htriple⟩ := h.card m hm
    exact ⟨(Host.phase_unmount m.view).trans ((if_neg (hne m hm)).trans hphase), hprops, htriple⟩
  · change Shown (outcome (s.ops ++ _)) m
    rw [outcome_append]
    obtain ⟨hkey, hshown, hleads⟩ := h.shown hplatform m hm
    exact ⟨hkey, hshown, hleads⟩
  · change OneId (outcome (s.ops ++ _))
    rw [outcome_append]
    exact h.oneId hplatform

theorem Inv.unmountCard (h : Inv platform Session s) : Inv platform Session s.unmountCard := by
  unfold State.unmountCard
  split
  · exact h
  · next m hm =>
      have hnone : Inv platform Session { s with mounted := none } :=
        ⟨h.session, h.ids, h.views, nofun, fun _ => nofun, h.oneId⟩
      exact hnone.unmount (h.card m hm).phase nofun

theorem Inv.updateCard (h : Inv platform Session s) {m : Mounted} (hm : s.mounted = some m)
    (hc : Rendered s.app keepsChildren c) (hkey : platform = .android → c.key = scrollKey true c.id)
    (hid : platform = .android → m.card.id = c.id) (hps : Fills (some m.card) c ps) :
    Inv platform Session (s.updateCard m c ps) := by
  obtain ⟨hcreated, hmem⟩ := h.created hc
  have hold := h.card m hm
  unfold State.updateCard
  cases hempty : ps.isEmpty with
  | true =>
      -- nothing changed
      obtain rfl := List.isEmpty_iff.mp hempty
      refine ⟨h.session, h.ids, h.views, fun m' hm' => ?_, fun hplatform m' hm' => ?_, h.oneId⟩
      · obtain rfl := Option.some.inj hm'
        exact ⟨hold.phase, hold.setAll hps, hc.triple⟩
      · obtain rfl := Option.some.inj hm'
        obtain ⟨-, ⟨t, ht, hti⟩, hleads⟩ := h.shown hplatform m hm
        exact ⟨hkey hplatform, ⟨t, ht, hti.trans (hid hplatform)⟩, hid hplatform ▸ hleads⟩
  | false =>
      have happend : outcome (s.ops ++ [.transaction m.view ps]) = (outcome s.ops).perform (.transaction m.view ps) :=
        outcome_append _ _
      refine ⟨h.session, h.ids, h.views.update hold hcreated hmem hps, fun m' hm' => ?_, fun hplatform m' hm' => ?_,
        fun hplatform => ?_⟩
      · obtain rfl := Option.some.inj hm'
        exact happend ▸ hold.update hps hc.triple
      · obtain rfl := Option.some.inj hm'
        exact happend ▸ (h.shown hplatform m hm).update (hid hplatform) (hkey hplatform)
      · exact happend ▸ (h.oneId hplatform).update hold hps (hid hplatform)

theorem scrollKey_open {x y : String} (hx : x ≠ "") (hy : y ≠ "") (h : scrollKey true x = scrollKey true y) :
    x = y := by
  have hkey : ∀ {z : String}, z ≠ "" → scrollKey true z = "flow-scroll-" ++ z := by
    intro z hz
    change "flow-scroll-" ++ (if z = "" then "open" else z) = _
    rw [if_neg hz]
  rw [hkey hx, hkey hy] at h
  exact (String.append_right_inj _).mp h

theorem nonempty_of_triple {c : Card} (h : c.triple.props.triple = some c.triple) : c.id ≠ "" := by
  intro hempty
  have hnone : c.triple.props.triple = none := if_pos (by simp [Card.triple, hempty])
  rw [h] at hnone
  cases hnone

theorem Inv.commit (h : Inv platform Session s) (hc : Rendered s.app keepsChildren c)
    (hopen : platform = .android → s.app.screen.showingFlow = true)
    (hps : Fills ((s.kept c).map Mounted.card) c ps) (newFirst : Bool) :
    Inv platform Session (s.commit (some c) ps newFirst) := by
  have hkey : platform = .android → c.key = scrollKey true c.id := fun hplatform => hopen hplatform ▸ hc.key
  unfold State.commit
  dsimp only
  cases hkept : s.kept c with
  | some m =>
      rw [hkept] at hps
      obtain ⟨hm, hsame⟩ := Option.filter_eq_some_iff.mp hkept
      refine h.updateCard hm hc hkey (fun hplatform => ?_) hps
      refine scrollKey_open (nonempty_of_triple (h.card m hm).triple) (nonempty_of_triple hc.triple) ?_
      rw [← hkey hplatform, ← (h.shown hplatform m hm).key]
      exact of_decide_eq_true hsame
  | none =>
      rw [hkept] at hps
      dsimp only
      unfold State.replaceCard
      cases hm : s.mounted with
      | none => exact h.mountCard hc hkey hps
      | some m =>
          cases newFirst with
          | true =>
              have hne := h.view_ne hm
              refine (h.mountCard hc hkey hps).unmount ?_ fun m' hm' => ?_
              · exact ((h.mounts hc hps).phase m.view).trans ((if_neg hne).trans (h.card m hm).phase)
              · obtain rfl := Option.some.inj hm'
                exact hne.symm
          | false => exact h.unmountCard.mountCard (s.unmountCard_app ▸ hc) hkey hps

theorem session_step (J : JsonText) (toLowerCase : String → String) (app : Js.App.State) (e : Js.App.Event) :
    let t := (Js.App.machine J toLowerCase).step app e
    (t.paymentSession = app.paymentSession ∧ t.created = app.created) ∨
      ∃ n reply session, e = .finishStart n reply ∧ readSession reply = .ok session ∧ t.paymentSession = session ∧
        t.created = app.created ++ [(n, session)] := by
  intro t
  by_cases hstart : e = .startPayment
  · subst hstart
    exact Or.inl ⟨rfl, rfl⟩
  by_cases hfinish : ∃ n reply, e = .finishStart n reply
  · obtain ⟨n, reply, rfl⟩ := hfinish
    change (Js.App.finishStart app n reply).paymentSession = _ ∧ (Js.App.finishStart app n reply).created = _ ∨ _
    cases hread : readSession reply with
    | error e =>
        refine Or.inl ?_
        unfold Js.App.finishStart
        rw [hread]
        exact ⟨rfl, rfl⟩
    | ok session =>
        refine Or.inr ⟨n, reply, session, rfl, hread, ?_⟩
        change (Js.App.finishStart app n reply).paymentSession = _ ∧ (Js.App.finishStart app n reply).created = _
        unfold Js.App.finishStart
        rw [hread]
        exact ⟨rfl, rfl⟩
  obtain ⟨hsame, -⟩ := Js.App.sameStarts_step J toLowerCase app hstart fun n reply he => hfinish ⟨n, reply, he⟩
  exact Or.inl ⟨hsame.paymentSession, hsame.created⟩

theorem Created.mono {app' : Js.App.State} {t : Triple} (h : Created app t) (hsub : app.created ⊆ app'.created) :
    Created app' t := by
  obtain ⟨hkey, x, hx, hsession⟩ := h
  exact ⟨hkey, x, hsub hx, hsession⟩

theorem Inv.withApp (h : Inv platform Session s) {app : Js.App.State}
    (hsession : app.paymentSession = {} ∨ ∃ n, (n, app.paymentSession) ∈ app.created)
    (hids : ∀ x ∈ app.created, ∀ id, x.2.id = some (.str id) → id ∈ Session) (hsub : s.app.created ⊆ app.created) :
    Inv platform Session { s with app := app } := by
  refine ⟨hsession, hids, ⟨h.views.admits, fun v p hp => ?_, h.views.fresh⟩, h.card, h.shown,
    h.oneId⟩
  obtain ⟨t, ht, hcreated⟩ := h.views.ends v p hp
  exact ⟨t, ht, hcreated.mono hsub⟩

theorem inv_step {J : JsonText} {toLowerCase : String → String} (s : State) (e : Event) (h : Inv platform Session s)
    (ha : (machine J toLowerCase platform Session).allowed s e) :
    Inv platform Session ((machine J toLowerCase platform Session).step s e) := by
  obtain ⟨-, ha⟩ := ha
  cases e with
  | app e =>
      rcases session_step J toLowerCase s.app e with
        ⟨hsame, hcreated⟩ | ⟨n, reply, session, rfl, hread, hsession, hcreated⟩
      · exact h.withApp (hsame ▸ hcreated ▸ h.session) (hcreated ▸ h.ids) (hcreated ▸ List.Subset.refl _)
      · refine h.withApp (Or.inr ⟨n, ?_⟩) (fun x hx id hid => ?_) ?_
        · rw [hsession, hcreated]
          exact List.mem_append_right _ (List.mem_singleton_self _)
        · rw [hcreated] at hx
          rcases List.mem_append.mp hx with hx | hx
          · exact h.ids x hx id hid
          · rw [List.mem_singleton.mp hx] at hid
            exact ha.2 n reply session id rfl hread hid
        · rw [hcreated]
          exact List.subset_append_left _ _
  | commit keepsChildren ps newFirst =>
      change Inv platform Session (s.afterRender (render s.app keepsChildren) _ ps newFirst)
      cases hrender : render s.app keepsChildren with
      | none =>
          obtain ⟨hsession, hids, hviews, hcard, hshown, hone⟩ := h.unmountCard
          exact ⟨hsession, hids, hviews, hcard, hshown, hone⟩
      | some card =>
          have hcommit : Inv platform Session (s.commit card ps newFirst) := by
            cases card with
            | none => exact h.unmountCard
            | some c =>
                have hc := rendered_of_render hrender
                refine h.commit hc (fun hplatform => ?_) (ha.2 c hrender) newFirst
                have hshown := hc.shown
                cases hkeeps : keepsChildren with
                | false =>
                    rw [hkeeps, childrenShown, Bool.or_false] at hshown
                    exact hshown
                | true =>
                    obtain ⟨hios, -⟩ := ha.1 hkeeps
                    rw [hplatform] at hios
                    cases hios
          obtain ⟨hsession, hids, hviews, hcard, hshown, hone⟩ := hcommit
          exact ⟨hsession, hids, hviews, hcard, hshown, hone⟩

theorem State.ops_unmountCard (s : State) : s.ops <+: s.unmountCard.ops := by
  unfold unmountCard
  split
  · exact List.prefix_refl _
  · exact List.prefix_append _ _

theorem State.ops_replaceCard (s : State) (c : Card) (ps : List PropUpdate) (newFirst : Bool) :
    s.ops <+: (s.replaceCard c ps newFirst).ops := by
  unfold replaceCard
  split
  · cases newFirst with
    | true => exact (List.prefix_append s.ops _).trans (List.prefix_append _ _)
    | false => exact s.ops_unmountCard.trans (List.prefix_append _ _)
  · exact List.prefix_append _ _

theorem State.ops_commit (s : State) (card : Option Card) (ps : List PropUpdate) (newFirst : Bool) :
    s.ops <+: (s.commit card ps newFirst).ops := by
  unfold commit
  split
  · exact s.ops_unmountCard
  · split
    · unfold updateCard
      dsimp only
      split
      · exact List.prefix_refl _
      · exact List.prefix_append _ _
    · exact s.ops_replaceCard _ ps newFirst

theorem ops_step (J : JsonText) (toLowerCase : String → String) (platform : Platform) (Session : Set String)
    (s : State) (e : Event) : s.ops <+: ((machine J toLowerCase platform Session).step s e).ops := by
  cases e with
  | app e => exact List.prefix_refl _
  | commit keepsChildren ps newFirst =>
      change s.ops <+: (s.afterRender (render s.app keepsChildren) _ ps newFirst).ops
      cases render s.app keepsChildren with
      | none => exact s.ops_unmountCard
      | some card => exact s.ops_commit card ps newFirst

/-! ## Carrying the operations out -/

def State.carriedOut (s : State) (k : Nat) : Host := outcome (s.ops.take k)

theorem carriedOut_step (J : JsonText) (toLowerCase : String → String) (platform : Platform) (Session : Set String)
    (e : Event) {k : Nat} (hk : k ≤ s.ops.length) :
    ((machine J toLowerCase platform Session).step s e).carriedOut k = s.carriedOut k := by
  obtain ⟨ops, hops⟩ := ops_step J toLowerCase platform Session s e
  unfold State.carriedOut
  rw [← hops, List.take_append_of_le_length hk]

theorem State.carriedOut_succ {k : Nat} {op : Op} (hk : s.ops[k]? = some op) :
    s.carriedOut (k + 1) = (s.carriedOut k).perform op := by
  unfold carriedOut
  rw [List.take_add_one, hk, outcome_append]
  rfl

/-- **The next operation** fits the views as they are. -/
theorem Inv.next (h : Inv platform Session s) {k : Nat} {op : Op} (hk : s.ops[k]? = some op) :
    (host Session).allowed (s.carriedOut k) op :=
  h.views.admits.getElem? hk

theorem Inv.created_of_mem (h : Inv platform Session s) {k v : Nat} {t : Triple}
    (ht : t.props ∈ (s.carriedOut k).ends v) : Created s.app t := by
  obtain ⟨t', heq, hcreated⟩ := h.views.ends v _ (ends_outcome (List.take_prefix _ _) v ht)
  exact Triple.props_injective heq ▸ hcreated

theorem commit_allowed (J : JsonText) (toLowerCase : String → String) (platform : Platform) (Session : Set String)
    (hcrashed : s.crashed = false) (hkeeps : keepsChildren = true → platform = .ios ∧ s.modal = true)
    (hrender : render s.app keepsChildren = some (some c)) (hps : Fills ((s.kept c).map Mounted.card) c ps)
    (newFirst : Bool) :
    (machine J toLowerCase platform Session).allowed s (.commit keepsChildren ps newFirst) := by
  refine ⟨hcrashed, hkeeps, fun c' hc' => ?_⟩
  obtain rfl := Option.some.inj (Option.some.inj (hrender.symm.trans hc'))
  exact hps

theorem finishStart_allowed (J : JsonText) (toLowerCase : String → String) (platform : Platform)
    (Session : Set String) {n : Nat} {id secret : String} (hcrashed : s.crashed = false) (hn : n ∈ s.app.creating)
    (hid : id ∈ Session) : (machine J toLowerCase platform Session).allowed s
      (.app (.finishStart n (.ok (.obj [("id", .str id), ("payment_session_secret", .str secret)])))) := by
  refine ⟨hcrashed, hn, fun n' reply session x heq hread hx => ?_⟩
  obtain ⟨-, rfl⟩ := Js.App.Event.finishStart.inj heq
  obtain rfl := Except.ok.inj hread
  exact Js.Json.str.inj (Option.some.inj hx) ▸ hid

theorem inv_init : Inv platform Session {} :=
  ⟨Or.inl rfl, nofun, ⟨trivial, nofun, fun _ _ => ⟨rfl, rfl⟩⟩, nofun, fun _ => nofun, fun _ => nofun⟩

end

end FlowDemo.Sheet
