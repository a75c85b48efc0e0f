import FlowDemo.Ios.Sheet

/-!
# Which card Pay submits on iOS

The registry files a view behind those of its session that are there, and `submit` takes the first one that is ready.
A view may live on after its card has left the tree, and the sheet may open again for the same session.

* `Single`: the operations treat the newest view only, which keeps its id, and no other view is in the tree;
* `Ordered`: the targets of a session are filed in the order in which their views were created;
* `pay_submits_card`: the card on screen is submitted exactly if it is ready and none that left the tree is.
-/

namespace FlowDemo.Ios.Sheet

open Js (JsonText)
open FlowDemo.Sheet (Op Card Host Mounted Fills host outcome outcome_append)

/-! ## The operations -/

/-- A new view is the newest. Only the newest view gets props, and it is left the one id it has. -/
def Fits (h : Host) : Op → Prop
  | .create v => ∀ w, v ≤ w → h.phase w = .absent
  | .transaction v ps => (∀ w, v < w → h.phase w = .absent) ∧
      (∀ id, (current (h.ends v)).paymentSessionID = some id →
        ((current (h.ends v)).setAll ps).paymentSessionID = some id) ∧
      ∀ id, .paymentSessionID id ∈ ps → ((current (h.ends v)).setAll ps).paymentSessionID = id
  | .unmount _ => True

def fitting : Machine Host Op where
  init := {}
  allowed := Fits
  step := Host.perform

/-- **The card has the newest view**, and no other is in the tree. -/
structure Single (s : FlowDemo.Sheet.State) : Prop where
  fits : fitting.Admits fitting.init s.ops
  newest : ∀ m, s.mounted = some m → m.view + 1 = s.views
  alone : ∀ v, (outcome s.ops).phase v = .mounted → ∃ m, s.mounted = some m ∧ m.view = v

/-- A commit that keeps a card keeps its id. -/
def LeavesIds (s : FlowDemo.Sheet.State) : FlowDemo.Sheet.Event → Prop
  | .app _ => True
  | .commit keepsChildren _ _ => ∀ c m, FlowDemo.Sheet.render s.app keepsChildren = some (some c) →
      s.kept c = some m → m.card.id = c.id

theorem LeavesIds.keepsCards {s : FlowDemo.Sheet.State} {e : FlowDemo.Sheet.Event} (h : LeavesIds s e) :
    KeepsCards s e := by
  cases e with
  | app e => trivial
  | commit keepsChildren ps newFirst => exact fun c m hrender hm => Or.inl (h c m hrender hm)

section

variable {Session : Set String} {s : FlowDemo.Sheet.State} {c : Card} {m : Mounted} {ps : List PropUpdate}
  {keepsChildren : Bool}

theorem phase_unmounted (s : FlowDemo.Sheet.State) (v w : Nat) :
    (outcome (s.ops ++ [.unmount v])).phase w = if w = v then .unmounted else (outcome s.ops).phase w := by
  rw [outcome_append]
  exact Host.phase_unmount w

theorem Single.unmountCard (h : Single s) : Single s.unmountCard := by
  unfold FlowDemo.Sheet.State.unmountCard
  split
  · exact h
  · next m hm =>
      refine ⟨(fitting.admits_append _ _ _).mpr ⟨h.fits, trivial, trivial⟩, nofun, fun v hv => ?_⟩
      change (outcome (s.ops ++ [.unmount m.view])).phase v = .mounted at hv
      rw [phase_unmounted] at hv
      split at hv
      · cases hv
      · next hne =>
          obtain ⟨m', hm', rfl⟩ := h.alone v hv
          exact absurd (congrArg Mounted.view (Option.some.inj (hm'.symm.trans hm))) hne

theorem fits_mountCard (hinv : FlowDemo.Sheet.Inv .ios Session s) (h : Single s) (hps : Fills none c ps) :
    fitting.Admits fitting.init (s.mountCard c ps).ops := by
  refine (fitting.admits_append _ _ _).mpr ⟨h.fits, fun w hw => (hinv.views.fresh w hw).1, ⟨fun w hw => ?_, ?_, ?_⟩,
    trivial⟩
  · refine (Host.phase_create (h := outcome s.ops) (v := s.views) w).trans ?_
    rw [if_neg (Nat.ne_of_gt hw)]
    exact (hinv.views.fresh w hw.le).1
  · change ∀ id, (current ((outcome s.ops).ends s.views)).paymentSessionID = some id → _
    rw [(hinv.views.fresh _ (Nat.le_refl _)).2]
    exact fun id hid => absurd hid nofun
  · change ∀ id, _ → ((current ((outcome s.ops).ends s.views)).setAll ps).paymentSessionID = id
    rw [(hinv.views.fresh _ (Nat.le_refl _)).2]
    intro id hid
    rw [show (current []).setAll ps = c.triple.props from hps.setAll]
    exact (hps.sets _ hid).symm

theorem single_mountCard (hinv : FlowDemo.Sheet.Inv .ios Session s) (h : Single s) (hnone : s.mounted = none)
    (hc : FlowDemo.Sheet.Rendered s.app keepsChildren c) (hps : Fills none c ps) : Single (s.mountCard c ps) := by
  refine ⟨fits_mountCard hinv h hps, fun m hm => ?_, fun v hv => ?_⟩
  · obtain rfl := Option.some.inj hm
    rfl
  · rw [(hinv.mounts hc hps).phase] at hv
    split at hv
    · next hnew => exact ⟨_, rfl, hnew.symm⟩
    · obtain ⟨m, hm, -⟩ := h.alone v hv
      rw [hnone] at hm
      cases hm

theorem single_replaceFirst (hinv : FlowDemo.Sheet.Inv .ios Session s) (h : Single s) (hm : s.mounted = some m)
    (hc : FlowDemo.Sheet.Rendered s.app keepsChildren c) (hps : Fills none c ps) :
    Single { s.mountCard c ps with ops := (s.mountCard c ps).ops ++ [.unmount m.view] } := by
  refine ⟨(fitting.admits_append _ _ _).mpr ⟨fits_mountCard hinv h hps, trivial, trivial⟩, fun m' hm' => ?_,
    fun v hv => ?_⟩
  · obtain rfl := Option.some.inj hm'
    rfl
  · change (outcome ((s.mountCard c ps).ops ++ [.unmount m.view])).phase v = .mounted at hv
    rw [phase_unmounted (s.mountCard c ps), (hinv.mounts hc hps).phase] at hv
    split at hv
    · cases hv
    · next hne =>
        split at hv
        · next hnew => exact ⟨_, rfl, hnew.symm⟩
        · obtain ⟨m', hm', rfl⟩ := h.alone v hv
          exact absurd (congrArg Mounted.view (Option.some.inj (hm'.symm.trans hm))) hne

theorem single_updateCard (hinv : FlowDemo.Sheet.Inv .ios Session s) (h : Single s) (hm : s.mounted = some m)
    (hps : Fills (some m.card) c ps) (hid : m.card.id = c.id) : Single (s.updateCard m c ps) := by
  have hold := hinv.card m hm
  have hnewest : ∀ m', some (⟨m.view, c⟩ : Mounted) = some m' → m'.view + 1 = s.views := by
    intro m' hm'
    obtain rfl := Option.some.inj hm'
    exact h.newest m hm
  have halone : ∀ v, (outcome s.ops).phase v = .mounted →
      ∃ m', some (⟨m.view, c⟩ : Mounted) = some m' ∧ m'.view = v := by
    intro v hv
    obtain ⟨m', hm', rfl⟩ := h.alone v hv
    obtain rfl : m = m' := Option.some.inj (hm.symm.trans hm')
    exact ⟨_, rfl, rfl⟩
  unfold FlowDemo.Sheet.State.updateCard
  cases ps.isEmpty with
  | true => exact ⟨h.fits, hnewest, halone⟩
  | false =>
      refine ⟨(fitting.admits_append _ _ _).mpr ⟨h.fits, ⟨fun w hw => ?_, ?_, ?_⟩, trivial⟩, hnewest, fun v hv => ?_⟩
      · refine (hinv.views.fresh w ?_).1
        rw [← h.newest m hm]
        exact hw
      · change ∀ id, (current ((outcome s.ops).ends m.view)).paymentSessionID = some id →
          ((current ((outcome s.ops).ends m.view)).setAll ps).paymentSessionID = some id
        rw [hold.setAll hps, hold.props]
        exact fun id heq => (congrArg some hid).symm.trans heq
      · change ∀ id, _ → ((current ((outcome s.ops).ends m.view)).setAll ps).paymentSessionID = id
        rw [hold.setAll hps]
        exact fun id hin => (hps.sets _ hin).symm
      · change (outcome (s.ops ++ [.transaction m.view ps])).phase v = .mounted at hv
        rw [outcome_append] at hv
        exact halone v ((congrFun (Host.phase_transaction ps) v).symm.trans hv)

theorem single_commit (hinv : FlowDemo.Sheet.Inv .ios Session s) (h : Single s)
    (hc : FlowDemo.Sheet.Rendered s.app keepsChildren c) (hps : Fills ((s.kept c).map Mounted.card) c ps)
    (hid : ∀ m, s.kept c = some m → m.card.id = c.id) (newFirst : Bool) :
    Single (s.commit (some c) ps newFirst) := by
  unfold FlowDemo.Sheet.State.commit
  dsimp only
  cases hkept : s.kept c with
  | some m =>
      rw [hkept] at hps
      exact single_updateCard hinv h (Option.filter_eq_some_iff.mp hkept).1 hps (hid m hkept)
  | none =>
      rw [hkept] at hps
      dsimp only
      unfold FlowDemo.Sheet.State.replaceCard
      split
      · next m hm =>
          cases newFirst with
          | true => exact single_replaceFirst hinv h hm hc hps
          | false =>
              have hnone : s.unmountCard.mounted = none := by
                unfold FlowDemo.Sheet.State.unmountCard
                rw [hm]
              exact single_mountCard hinv.unmountCard h.unmountCard hnone (s.unmountCard_app ▸ hc) hps
      · next hnone => exact single_mountCard hinv h hnone hc hps

theorem single_step {J : JsonText} {toLowerCase : String → String} (hinv : FlowDemo.Sheet.Inv .ios Session s)
    (h : Single s) {e : FlowDemo.Sheet.Event}
    (ha : (FlowDemo.Sheet.machine J toLowerCase .ios Session).allowed s e) (hleaves : LeavesIds s e) :
    Single ((FlowDemo.Sheet.machine J toLowerCase .ios Session).step s e) := by
  cases e with
  | app e => exact ⟨h.fits, h.newest, h.alone⟩
  | commit keepsChildren ps newFirst =>
      change Single (s.afterRender (FlowDemo.Sheet.render s.app keepsChildren) _ ps newFirst)
      cases hrender : FlowDemo.Sheet.render s.app keepsChildren with
      | none =>
          obtain ⟨hfits, hnewest, halone⟩ := h.unmountCard
          exact ⟨hfits, hnewest, halone⟩
      | some card =>
          have hcommit : Single (s.commit card ps newFirst) := by
            cases card with
            | none => exact h.unmountCard
            | some c =>
                exact single_commit hinv h (FlowDemo.Sheet.rendered_of_render hrender) (ha.2.2 c hrender)
                  (fun m hm => hleaves c m hrender hm) newFirst
          obtain ⟨hfits, hnewest, halone⟩ := hcommit
          exact ⟨hfits, hnewest, halone⟩

end

/-! ## The registry -/

variable {D : Type}

/-- The targets of a session in the order in which their views were created. -/
def Ordered (s : Ios.State D) : Prop := ∀ k, (s.targets k).Pairwise (· < ·)

/-- Of targets in order, the last one is met only when no other is ready. -/
theorem find_last_iff {l : List ViewId} {v : ViewId} {p : ViewId → Bool} (hl : l.Pairwise (· < ·)) (hv : v ∈ l)
    (hlast : ∀ w ∈ l, w ≤ v) : l.find? p = some v ↔ p v = true ∧ ∀ w ∈ l, w ≠ v → p w = false := by
  rw [List.find?_eq_some_iff_append]
  constructor
  · rintro ⟨hp, before, after, rfl, hbefore⟩
    refine ⟨hp, fun w hw hne => ?_⟩
    rcases List.mem_append.mp hw with hw | hw
    · exact (Bool.not_eq_true' _).mp (hbefore w hw)
    · rcases List.mem_cons.mp hw with rfl | hw
      · exact absurd rfl hne
      · have hlt := (List.pairwise_cons.mp (List.pairwise_append.mp hl).2.1).1 w hw
        exact absurd (hlast w (List.mem_append_right _ (List.mem_cons_of_mem _ hw))) (Nat.not_le.mpr hlt)
  · rintro ⟨hp, hrest⟩
    obtain ⟨before, after, rfl⟩ := List.append_of_mem hv
    refine ⟨hp, before, after, rfl, fun w hw => (Bool.not_eq_true' _).mpr ?_⟩
    have hlt := (List.pairwise_append.mp hl).2.2 w hw v List.mem_cons_self
    exact hrest w (List.mem_append_left _ hw) (Nat.ne_of_lt hlt)

section

variable {Session : Set String} {decode : String → Option D} {s : Ios.State D} {v : ViewId}

/-- **A view of the session is submitted exactly if it is the first target that is ready.** -/
theorem submits_iff {k : String} {order : List (String × List ViewId)} (hv : s.Registered v k) :
    s.Submits (ApplePayModule.submit s k order) v ↔ (s.targets k).find? s.canSubmit = some v := by
  have hcame := Registry.submit_cameOut s k order
  cases hfind : (s.targets k).find? s.canSubmit with
  | some w =>
      rw [hfind, Option.some_or] at hcame
      obtain ⟨hw, -⟩ := ApplePayModule.submit_of_picked hcame
      constructor
      · rintro ⟨c, -, hc⟩
        obtain ⟨c', -, hc'⟩ := hw
        rw [hc'] at hc
        have hsame := List.singleton_inj.mp (List.append_cancel_left hc)
        exact congrArg (fun x => some x.1) hsame
      · intro heq
        exact Option.some.inj heq ▸ hw
  | none =>
      have hnot : s.canSubmit v = false :=
        (Bool.not_eq_true _).mp (List.find?_eq_none.mp hfind v ((s.mem_targets_iff v k).mpr hv))
      rw [hfind, Option.none_or] at hcame
      refine iff_of_false ?_ nofun
      rintro ⟨c, -, hc⟩
      cases hany : (order.flatMap Prod.snd).find? s.canSubmit with
      | none =>
          rw [hany] at hcame
          rw [(ApplePayModule.submit_of_none hcame).1] at hc
          exact absurd (congrArg List.length hc) (by simp)
      | some w =>
          have hcan : s.canSubmit w = true := List.find?_some hany
          rw [hany] at hcame
          obtain ⟨⟨c', -, hc'⟩, -⟩ := ApplePayModule.submit_of_picked hcame
          rw [hc'] at hc
          have hsame : w = v := congrArg Prod.fst (List.singleton_inj.mp (List.append_cancel_left hc))
          rw [hsame, hnot] at hcan
          cases hcan

theorem targets_retain (s : Ios.State D) (keep : ViewId → Bool) (k : String) :
    (s.retain keep).targets k = (s.targets k).filter keep := by
  unfold Ios.State.targets Ios.State.retain
  rw [LinkedMap.get_filterMapValues]
  cases s.views.get k with
  | none => rfl
  | some l =>
      change (if (l.filter keep).isEmpty then none else some (l.filter keep)).getD [] = _
      split
      · next he => exact (List.isEmpty_iff.mp he).symm
      · rfl

theorem targets_of_views {t : Ios.State D} (h : t.views = s.views) (k : String) : t.targets k = s.targets k := by
  rw [Ios.State.targets, Ios.State.targets, h]

/-- **Besides creations and assignments, targets only go.** -/
theorem targets_step (Session : Set String) (decode : String → Option D) (s : Ios.State D) {e : Ios.Event}
    (hcreate : ∀ v c, e ≠ .create v c) (hset : ∀ v p, e ≠ .setProperty v p) (k : String) :
    (((Ios.machine Session decode).step s e).targets k).Sublist (s.targets k) := by
  have hsweep : ∀ {t : Ios.State D}, (t.targets k).Sublist (s.targets k) →
      (t.sweep.targets k).Sublist (s.targets k) := fun h => by
    rw [Ios.State.sweep, targets_retain]
    exact List.filter_sublist.trans h
  have hroute : ∀ r order (result : Result D),
      ((s.route r order fun s v => s.takeContinuation v r result).targets k).Sublist (s.targets k) := by
    intro r order result
    refine Ios.State.route_keeps (P := fun t => (t.targets k).Sublist (s.targets k)) hsweep (fun t v h => ?_)
      (List.Sublist.refl _) r order
    rw [targets_of_views (t.takeContinuation_rest v r result).1]
    exact h
  cases e with
  | create v c => exact absurd rfl (hcreate v c)
  | setProperty v p => exact absurd rfl (hset v p)
  | beginInitialize t =>
      exact Ios.State.beginInitialize_keeps (P := fun t => (t.targets k).Sublist (s.targets k)) (List.Sublist.refl _)
        fun _ => List.Sublist.refl _
  | finishInitialize t c =>
      exact Ios.State.finishInitialize_keeps (P := fun t => (t.targets k).Sublist (s.targets k)) (List.Sublist.refl _)
        (fun _ => List.Sublist.refl _) fun _ _ h => h
  | onChange v c => exact List.Sublist.refl _
  | dealloc v => exact List.Sublist.refl _
  | deinit v =>
      change ((s.unregister v).targets k).Sublist _
      rw [Ios.State.unregister, targets_retain]
      exact List.filter_sublist
  | submit id order =>
      change ((ApplePayModule.submit s id order).targets k).Sublist _
      rw [targets_of_views (ApplePayModule.submit_same s id order).2]
      exact hsweep (List.Sublist.refl _)
  | bridgeHandleSubmit v id secret data r => exact List.Sublist.refl _
  | bridgeOnTokenized v r => exact List.Sublist.refl _
  | handleSubmitResponse r success data order => exact hroute r order _
  | handleTokenizedResponse r accepted message order => exact hroute r order _

/-- **The newest view is filed last.** -/
theorem ordered_register (h : Ordered s) (hnewest : ∀ w k, s.Registered w k → w ≤ v) : Ordered (s.register v) := by
  intro k
  unfold Ios.State.register
  cases hk : Ios.State.key (s.view v) with
  | none => exact h k
  | some k₀ =>
      change ((((s.views.put k₀ _).get k).getD []) : List ViewId).Pairwise (· < ·)
      rw [LinkedMap.get_put]
      split
      · rw [Option.getD_some, List.pairwise_append]
        refine ⟨(h k₀).filter _, List.pairwise_singleton _ v, fun a ha b hb => ?_⟩
        obtain ⟨ha, hne⟩ := List.mem_filter.mp ha
        rw [List.mem_singleton.mp hb]
        exact lt_of_le_of_ne (hnewest a k₀ ((s.mem_targets_iff a k₀).mp ha)) (of_decide_eq_true hne).2
      · exact h k

/-- `v` is behind all that is filed. -/
structure Behind (s : Ios.State D) (v : ViewId) : Prop where
  ordered : Ordered s
  newest : ∀ w k, s.Registered w k → w ≤ v

theorem Behind.register (h : Behind s v) : Behind (s.register v) v := by
  refine ⟨ordered_register h.ordered h.newest, fun w k hw => ?_⟩
  cases hk : Ios.State.key (s.view v) with
  | none =>
      have heq : s.register v = s := by simp only [Ios.State.register, hk]
      rw [heq] at hw
      exact h.newest w k hw
  | some k₀ =>
      rcases (s.registered_register hk w k).mp hw with ⟨-, rfl | ⟨hw, -⟩⟩ | ⟨-, hw⟩
      · exact Nat.le_refl _
      · exact h.newest w k hw
      · exact h.newest w k hw

theorem Behind.maybeInitialize (h : Behind s v) : Behind (s.maybeInitialize v) v := by
  rcases s.maybeInitialize_cases v with heq | ⟨_, _, _, -, heq⟩
  · rw [heq]
    exact h
  · rw [heq]
    exact ⟨h.ordered, h.newest⟩

theorem Behind.setProperty (h : Behind s v) (p : Property) : Behind (s.setProperty v p) v := by
  have hset : Behind (s.setView v ((s.view v).set p)) v := ⟨h.ordered, h.newest⟩
  exact Ios.State.setProperty_keeps (P := fun t => Behind t v) hset (fun _ h => h.register) fun _ h => h.maybeInitialize

theorem mem_givenIDs_setAll {s : Ios.State D} {qs : List Property} {w : ViewId} {k : String}
    (hk : k ∈ ((Transactions.setAll s v qs).view w).givenIDs) :
    k ∈ (s.view w).givenIDs ∨ w = v ∧ .paymentSessionID (some k) ∈ qs := by
  induction qs generalizing s with
  | nil => exact Or.inl hk
  | cons p qs ih =>
      rcases ih hk with hin | ⟨hw, hin⟩
      · obtain ⟨t, hsame, heq⟩ := Transactions.setProperty_eq s v p
        dsimp only at hin
        rw [heq, Transactions.maybeInitialize_view, hsame.view, Ios.State.setView_view] at hin
        split at hin
        · next hw =>
            rcases (Ios.State.mem_givenIDs_set _ p k).mp hin with hin | ⟨-, rfl⟩
            · exact Or.inl (hw ▸ hin)
            · exact Or.inr ⟨hw, List.mem_cons_self⟩
        · exact Or.inl hin
      · exact Or.inr ⟨hw, List.mem_cons_of_mem _ hin⟩

end

/-! ## The views and their ids -/

/-- **A view was given the id it has and no other**, and is filed behind the older ones. -/
structure Files (Session : Set String) (n : Transactions.State D) : Prop where
  inv : n.ios.Inv Session
  given : ∀ v, ∀ k ∈ (n.ios.view v).givenIDs, (current (n.ends v)).paymentSessionID = some k
  ordered : Ordered n.ios

section

variable {Session : Set String} {decode : String → Option D} {n : Transactions.State D} {v : ViewId}

theorem Files.create (h : Files Session n) (hv : (n.ios.view v).phase = .absent) :
    Files Session ((Transactions.machine Session decode).step n (.ios (.create v .card))) := by
  have hview : (n.ios.create v .card).view = (n.ios.setView v ((n.ios.view v).create .card)).view :=
    (Ios.State.register_same _ v).view
  refine ⟨h.inv.create hv .card, fun w k hk => ?_, ?_⟩
  · change k ∈ ((n.ios.create v .card).view w).givenIDs at hk
    rw [hview, n.ios.setView_congr View.givenIDs (by rfl)] at hk
    exact h.given w k hk
  · have hkey : Ios.State.key ((n.ios.setView v ((n.ios.view v).create .card)).view v) = none := by
      rw [Ios.State.setView_view_self]
      refine Option.eq_none_iff_forall_ne_some.mpr fun k hk => ?_
      have hin := h.inv.filed.current v k hk
      rw [h.inv.filed.absent v hv] at hin
      cases hin
    change Ordered ((n.ios.setView v ((n.ios.view v).create .card)).register v)
    simp only [Ios.State.register, hkey]
    exact h.ordered

theorem Files.transaction (h : Files Session n) (hv : n.ios.Live v) {qs : List Property}
    (hids : ∀ id, .paymentSessionID (some id) ∈ qs → id ∈ Session)
    (hnewest : ∀ w, v < w → (n.ios.view w).phase = .absent)
    (hkeeps : ∀ id, (current (n.ends v)).paymentSessionID = some id →
      ((current (n.ends v)).setAll (qs.map Property.update)).paymentSessionID = some id)
    (hsets : ∀ id, .paymentSessionID id ∈ qs.map Property.update →
      ((current (n.ends v)).setAll (qs.map Property.update)).paymentSessionID = id) :
    Files Session (n.transaction v qs) := by
  have hbehind : Behind n.ios v := by
    refine ⟨h.ordered, fun w k hw => Nat.le_of_not_lt fun hlt => ?_⟩
    have hin := h.inv.filed.given w k hw
    rw [h.inv.filed.absent w (hnewest w hlt)] at hin
    cases hin
  obtain ⟨hinv, -, hordered⟩ : (Transactions.setAll n.ios v qs).Inv Session ∧ (Transactions.setAll n.ios v qs).Live v ∧
      Behind (Transactions.setAll n.ios v qs) v := by
    refine List.foldlRecOn (motive := fun t : Ios.State D => t.Inv Session ∧ t.Live v ∧ Behind t v) qs _
      ⟨h.inv, hv, hbehind⟩ fun t ht p hp => ⟨ht.1.setProperty ht.2.1 ?_, ?_, ht.2.2.setProperty p⟩
    · exact fun id hid => hids id (hid ▸ hp)
    · exact (setProperty_phase t v p v).trans ht.2.1
  refine ⟨hinv, fun w k hk => ?_, hordered.ordered⟩
  rw [Transactions.ends_transaction]
  rcases mem_givenIDs_setAll hk with hin | ⟨rfl, hin⟩
  · split
    · next hw =>
        rw [current_append]
        exact hkeeps k (hw ▸ h.given w k hin)
    · exact h.given w k hin
  · rw [if_pos rfl, current_append]
    exact hsets (some k) (List.mem_map_of_mem (f := Property.update) hin)

theorem Files.rest (h : Files Session n) {e : Transactions.Event}
    (ha : (Transactions.machine Session decode).allowed n e)
    (htransaction : ∀ v qs, e ≠ .transaction v qs) (hcreate : ∀ v c, e ≠ .ios (.create v c)) :
    Files Session ((Transactions.machine Session decode).step n e) := by
  cases e with
  | transaction v qs => exact absurd rfl (htransaction v qs)
  | didMoveToWindow v =>
      refine ⟨h.inv.maybeInitialize v, fun w k hk => h.given w k ?_, ?_⟩
      · change k ∈ ((n.ios.maybeInitialize v).view w).givenIDs at hk
        rwa [Transactions.maybeInitialize_view] at hk
      · change Ordered (n.ios.maybeInitialize v)
        rcases n.ios.maybeInitialize_cases v with heq | ⟨_, _, _, -, heq⟩ <;> rw [heq] <;> exact h.ordered
  | ios e =>
      have hnew : ∀ w c, e ≠ .create w c := fun w c he => hcreate w c (congrArg _ he)
      have hgiven : ∀ w, (((Ios.machine Session decode).step n.ios e).view w).givenIDs = (n.ios.view w).givenIDs := by
        intro w
        rcases filing_step Session decode n.ios e with hfiling | ⟨v, c, rfl⟩ | ⟨v, rfl⟩ | ⟨v, value, rfl⟩
        · exact congrArg (fun x => x.2.2) (hfiling w)
        · exact absurd rfl (hnew v c)
        · exact n.ios.setView_congr View.givenIDs (by rfl) w
        · exact absurd rfl (ha.1 v (.paymentSessionID value))
      refine ⟨inv_step n.ios e h.inv ha.2, fun w k hk => h.given w k (hgiven w ▸ hk), fun k => ?_⟩
      exact (h.ordered k).sublist (targets_step Session decode n.ios hnew ha.1 k)

end

/-! ## The card on screen -/

def LeavesSessions (s : State D) : Event → Prop
  | .sheet e => LeavesIds s.sheet e
  | _ => True

theorem LeavesSessions.keepsSessions {s : State D} {e : Event} (h : LeavesSessions s e) : KeepsSessions s e := by
  cases e with
  | sheet e => exact LeavesIds.keepsCards h
  | perform qs => trivial
  | native e => trivial

structure Filing (Session : Set String) (decode : String → Option D) (s : State D) : Prop where
  tracks : Tracks Session decode s
  single : Single s.sheet
  files : Files Session s.native

section

variable {J : JsonText} {toLowerCase : String → String} {Session : Set String} {decode : String → Option D}
  {s : State D}

theorem Filing.perform (h : Filing Session decode s) {qs : List Property}
    (hcarries : ∀ op, s.sheet.ops[s.performed]? = some op → Carries qs op) :
    Files Session (s.perform Session decode qs).native := by
  unfold State.perform
  cases hget : s.sheet.ops[s.performed]? with
  | none => exact h.files
  | some op =>
      have hfits : Fits s.host op := h.single.fits.getElem? hget
      have hnext := h.tracks.sheet.next hget
      cases op with
      | create v => exact h.files.create (h.tracks.absent v hnext)
      | transaction v ps =>
          obtain rfl : qs.map Property.update = ps := hcarries _ hget
          obtain ⟨hnewest, hkeeps, hsets⟩ := hfits
          rw [← h.tracks.ends v] at hkeeps hsets
          refine h.files.transaction (h.tracks.live v hnext.1) (fun id hid => hnext.2 id ?_)
            (fun w hw => h.tracks.absent w (hnewest w hw)) hkeeps hsets
          exact List.mem_map_of_mem (f := Property.update) hid
      | unmount v => exact h.files

theorem Filing.step (h : Filing Session decode s) {e : Event}
    (ha : (machine J toLowerCase Session decode).allowed s e) (hleaves : LeavesSessions s e) :
    Filing Session decode ((machine J toLowerCase Session decode).step s e) := by
  refine ⟨tracks_step s e h.tracks ha hleaves.keepsSessions, ?_, ?_⟩
  · cases e with
    | sheet e => exact single_step h.tracks.sheet h.single ha hleaves
    | perform qs =>
        change Single (s.perform Session decode qs).sheet
        unfold State.perform
        cases s.sheet.ops[s.performed]? with
        | none => exact h.single
        | some op => exact h.single
    | native e => exact h.single
  · cases e with
    | sheet e => exact h.files
    | perform qs => exact h.perform ha.2
    | native e =>
        refine h.files.rest ha.1 ?_ ?_
        · rintro v qs rfl
          exact ha.2
        · rintro v c rfl
          exact ha.2

theorem filing_init : Filing Session decode ({} : State D) :=
  ⟨tracks_init, ⟨trivial, nofun, nofun⟩, ⟨@inv_init D Session decode, nofun, fun _ => List.Pairwise.nil⟩⟩

/-- The targets of the card's session are its view and older ones, which have left the tree. -/
theorem Filing.targets (h : Filing Session decode s) {m : Mounted} (hm : s.sheet.mounted = some m)
    (hdone : s.performed = s.sheet.ops.length) :
    s.host.phase m.view = .mounted ∧ s.native.ios.Registered m.view m.card.id ∧
      ∀ v k, s.native.ios.Registered v k → v ≤ m.view ∧ (v ≠ m.view → s.host.phase v = .unmounted) := by
  have hhost : s.host = outcome s.sheet.ops := by
    change outcome (s.sheet.ops.take s.performed) = _
    rw [hdone, List.take_length]
  have hcard := h.tracks.sheet.card m hm
  refine ⟨hhost ▸ hcard.phase, ?_, ?_⟩
  · have hlive : s.native.ios.Live m.view := h.tracks.live m.view (hhost ▸ hcard.phase)
    have hprops := h.tracks.recorded m.view
    rw [h.tracks.ends, hhost, hcard.props] at hprops
    have hkey : Ios.State.key (s.native.ios.view m.view) = some m.card.id :=
      (Ios.State.key_eq_some_iff _ _).mpr ⟨FlowDemo.Sheet.nonempty_of_triple hcard.triple,
        congrArg Props.paymentSessionID hprops⟩
    exact h.files.inv.filed.registered m.view _ hlive (h.files.inv.filed.current m.view _ hkey)
  · intro v k hv
    have hthere : s.host.phase v ≠ .absent := by
      intro habsent
      have hin := h.files.inv.filed.given v k hv
      rw [h.files.inv.filed.absent v (h.tracks.absent v habsent)] at hin
      cases hin
    refine ⟨?_, fun hne => ?_⟩
    · have hlt : v < s.sheet.views := by
        refine Nat.lt_of_not_le fun hle => hthere ?_
        rw [hhost]
        exact (h.tracks.sheet.views.fresh v hle).1
      rw [← h.single.newest m hm] at hlt
      exact Nat.le_of_lt_succ hlt
    · cases hphase : s.host.phase v with
      | absent => exact absurd hphase hthere
      | unmounted => rfl
      | mounted =>
          obtain ⟨m', hm', rfl⟩ := h.single.alone v (hhost ▸ hphase)
          exact absurd (congrArg Mounted.view (Option.some.inj (hm'.symm.trans hm))) hne

/-- **Which card Pay submits on iOS.** Once the renderer is done, the view of the card on screen is filed under its
session. If its component is ready, a component of this session is submitted and the promise resolves; it is that of
the card exactly if no view that has left the tree, and was for the same session, is ready. -/
theorem pay_submits_card (J : JsonText) (toLowerCase : String → String) (Session : Set String)
    (decode : String → Option D) {es : List Event}
    (h : ((machine J toLowerCase Session decode).restrict LeavesSessions).Admits
      (machine J toLowerCase Session decode).init es) :
    let s := (machine J toLowerCase Session decode).run (machine J toLowerCase Session decode).init es
    ∀ m, s.sheet.mounted = some m → s.performed = s.sheet.ops.length →
      ∀ order, order.Perm s.native.ios.sweep.views.entries →
        let n := s.native.ios
        let t := ApplePayModule.submit n m.card.id order
        n.Registered m.view m.card.id ∧
          (n.canSubmit m.view = true → t.settled = n.settled ++ [(m.card.id, .ok ())] ∧
            ∃ v c, c.session = m.card.id ∧ t.submitted = n.submitted ++ [(v, c)]) ∧
          (n.Submits t m.view ↔ n.canSubmit m.view = true ∧
            ∀ v, n.Registered v m.card.id → s.host.phase v = .unmounted → n.canSubmit v = false) := by
  intro s m hm hdone order horder n t
  have hfiling : Filing Session decode s :=
    Machine.run_induction (M := (machine J toLowerCase Session decode).restrict LeavesSessions)
      (I := Filing Session decode) (fun _ _ hs he => hs.step he.1 he.2) filing_init h
  obtain ⟨hmounted, hregistered, htargets⟩ := hfiling.targets hm hdone
  have hmem : m.view ∈ n.targets m.card.id := (n.mem_targets_iff _ _).mpr hregistered
  refine ⟨hregistered, fun hready => ?_, ?_⟩
  · obtain ⟨v, hv⟩ := Option.isSome_iff_exists.mp (List.find?_isSome.mpr ⟨m.view, hmem, hready⟩)
    have hcame := Registry.submit_cameOut n m.card.id order
    rw [hv, Option.some_or] at hcame
    obtain ⟨⟨c, hc, hsubmitted⟩, hsettled⟩ := ApplePayModule.submit_of_picked hcame
    refine ⟨hsettled, v, c, ?_, hsubmitted⟩
    have hfor := hfiling.files.inv.built.given v _ (hfiling.files.inv.built.component v c hc)
    have hfiled := hfiling.files.inv.filed.given v _ ((n.mem_targets_iff v _).mp (List.mem_of_find?_eq_some hv))
    exact Option.some.inj ((hfiling.files.given v _ hfor).symm.trans (hfiling.files.given v _ hfiled))
  · rw [submits_iff hregistered, find_last_iff (hfiling.files.ordered _) hmem fun w hw =>
      (htargets w _ ((n.mem_targets_iff w _).mp hw)).1]
    refine and_congr_right fun _ => forall_congr' fun v => ?_
    rw [n.mem_targets_iff]
    constructor
    · intro hrest hv hphase
      refine hrest hv ?_
      rintro rfl
      rw [hmounted] at hphase
      cases hphase
    · exact fun hrest hv hne => hrest hv ((htargets v _ hv).2 hne)

end

def componentCreated (v : ViewId) (isValid : Bool) : Event :=
  .native (.ios (.finishInitialize ⟨v, "ps_1", "pss_1", FlowDemo.Sheet.publicKey⟩ (.created (some isValid) true)))

/-- A payment is under way when the sheet closes and its view leaves the tree, and an error event opens the sheet again
for the same session. -/
def reopened (isValid : Bool) : List Event :=
  cardOnScreen ++ [componentCreated 0 isValid,
    .native (.ios (.bridgeHandleSubmit 0 "ps_1" "pss_1" "data" "req-1")),
    .sheet (.app .closeFlow), .sheet (.commit false [] false), .perform [],
    .sheet (.app (.paymentError "Card" "timeout")),
    .sheet (.commit false (FlowDemo.Sheet.newProps "ps_1" "pss_1") false),
    .perform [], .perform (newProperties "ps_1" "pss_1"),
    .native (.ios (.beginInitialize ⟨1, "ps_1", "pss_1", FlowDemo.Sheet.publicKey⟩)), componentCreated 1 true]

theorem reopened_admits (isValid : Bool) :
    (twoSessions.restrict LeavesSessions).Admits twoSessions.init (reopened isValid) := by
  have hfinish : ∀ {s : State String} {t : InitializeTask} {c : Ios.State.Creation}, t ∈ s.native.ios.building →
      twoSessions.allowed s (.native (.ios (.finishInitialize t c))) :=
    fun h => ⟨⟨fun _ _ => Ios.Event.noConfusion, h⟩, trivial⟩
  have hrequest : ∀ {s : State String}, s.native.ios.MayAsk {"ps_1", "ps_2"} 0 "req-1" →
      twoSessions.allowed s (.native (.ios (.bridgeHandleSubmit 0 "ps_1" "pss_1" "data" "req-1"))) :=
    fun h => ⟨⟨fun _ _ => Ios.Event.noConfusion, h⟩, trivial⟩
  obtain ⟨h1, h2, h3, h4, h5, h6, -⟩ := cardOnScreen_admits
  refine ⟨⟨h1, trivial⟩, ⟨h2, trivial⟩, ⟨h3, fun c m _ hm => absurd hm (Option.some_ne_none m).symm⟩, ⟨h4, trivial⟩,
    ⟨h5, trivial⟩, ⟨h6, trivial⟩, ⟨hfinish (List.mem_singleton_self _), trivial⟩, ⟨hrequest ?_, trivial⟩,
    ⟨close_allowed rfl, trivial⟩, ?_, ?_, ?_, ?_, ?_, ?_, ?_, ?_, trivial⟩
  · refine ⟨?_, ?_, ?_, ?_⟩
    · cases isValid <;> decide +kernel
    · cases isValid <;> decide +kernel
    · rintro (h | h)
      · exact absurd (show "req-1" = "ps_1" from h) (by decide)
      · exact absurd (show "req-1" = "ps_2" from h) (by decide)
    · cases isValid <;> decide +kernel
  · have hrender : ∀ s : FlowDemo.Sheet.State, s.app.screen.showingFlow = false →
        ∀ c, FlowDemo.Sheet.render s.app false ≠ some (some c) := by
      intro s hclosed c hc
      have hshown := (FlowDemo.Sheet.rendered_of_render hc).shown
      rw [FlowDemo.Sheet.childrenShown, hclosed] at hshown
      cases hshown
    refine ⟨⟨rfl, fun hkeeps => absurd hkeeps Bool.false_ne_true, fun c hc => ?_⟩, fun c m hc => ?_⟩
    · exact absurd hc (hrender _ rfl c)
    · exact absurd hc (hrender _ rfl c)
  · exact ⟨perform_allowed (o := .unmount 0) rfl trivial, trivial⟩
  · exact ⟨⟨rfl, trivial, fun _ _ _ _ => Js.App.Event.noConfusion⟩, trivial⟩
  · refine ⟨commit_allowed (c := ⟨"flow-scroll-ps_1", "ps_1", "pss_1"⟩) rfl ?_ ?_ ?_, ?_⟩
    · exact fun h => absurd h Bool.false_ne_true
    · cases isValid <;> decide +kernel
    · exact FlowDemo.Sheet.fills_newProps _
    · exact fun c m _ hm => absurd hm (Option.some_ne_none m).symm
  · exact ⟨perform_allowed (o := .create 1) rfl trivial, trivial⟩
  · exact ⟨perform_allowed (o := .transaction 1 (FlowDemo.Sheet.newProps "ps_1" "pss_1")) rfl rfl, trivial⟩
  · exact ⟨begin_allowed (by cases isValid <;> decide +kernel), trivial⟩
  · exact ⟨hfinish (by cases isValid <;> decide +kernel), trivial⟩

/-- The component of the view that has left the tree is not valid. -/
theorem pay_submits_card_reopened :
    let s := twoSessions.run twoSessions.init (reopened false)
    let n := s.native.ios
    let t := ApplePayModule.submit n "ps_1" n.sweep.views.entries
    n.targets "ps_1" = [0, 1] ∧ s.host.phase 0 = .unmounted ∧ n.Submits t 1 := by
  intro s n t
  obtain ⟨-, -, hiff⟩ := pay_submits_card Js.App.sampleJson id {"ps_1", "ps_2"} some (reopened_admits false)
    ⟨1, "flow-scroll-ps_1", "ps_1", "pss_1"⟩ rfl (by decide +kernel) _ (List.Perm.refl _)
  have htargets : n.targets "ps_1" = [0, 1] := by decide +kernel
  have hphase : ∀ v ∈ n.targets "ps_1", s.host.phase v = .unmounted → n.canSubmit v = false := by decide +kernel
  refine ⟨htargets, by decide +kernel, hiff.mpr ⟨by decide +kernel, fun v hv => hphase v ?_⟩⟩
  exact (n.mem_targets_iff v "ps_1").mpr hv

/-- **A card that left the tree is submitted again**: its view lives on while its payment is under way, and is asked
before the one on screen. -/
theorem reopened_sheet_submits_old_card :
    let s := twoSessions.run twoSessions.init (reopened true)
    let n := s.native.ios
    twoSessions.Reachable s ∧ s.sheet.mounted = some ⟨1, "flow-scroll-ps_1", "ps_1", "pss_1"⟩ ∧
      n.pending .submit 0 "req-1" = some 0 ∧ n.canSubmit 1 = true ∧
      (ApplePayModule.submit n "ps_1" n.sweep.views.entries).submitted = [(0, ⟨"ps_1", true⟩)] := by
  intro s n
  exact ⟨Machine.Reachable.of_admits (reopened_admits true).of_restrict, rfl, by decide +kernel, by decide +kernel,
    by decide +kernel⟩

end FlowDemo.Ios.Sheet
