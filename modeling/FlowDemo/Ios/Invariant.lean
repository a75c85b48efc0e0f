import FlowDemo.Ios.Machine

/-!
# What holds of the iOS views in every run

* `Filed`: a live view is filed under exactly the non-empty ids it was ever given, the current one among them;
* `Built`: a view's component, and the one being built for it, belong to the one session its `initialize` ran with;
* `Asked`: a pending request is known under one id to one live view that was given an id.
-/

namespace FlowDemo.Ios

variable {D : Type}

namespace State

/-- Where the views are filed. -/
structure Filed (Session : Set String) (s : State D) : Prop where
  session : ∀ v k, k ∈ (s.view v).givenIDs → k ∈ Session
  absent : ∀ v, (s.view v).phase = .absent → (s.view v).givenIDs = []
  current : ∀ v k, key (s.view v) = some k → k ∈ (s.view v).givenIDs
  registered : ∀ v k, s.Live v → k ∈ (s.view v).givenIDs → s.Registered v k
  given : ∀ v k, s.Registered v k → k ∈ (s.view v).givenIDs
  filled : ∀ k targets, s.views.get k = some targets → targets ≠ []

/-- What the views build. -/
structure Built (s : State D) : Prop where
  tasks : ∀ t ∈ s.tasks, t.paymentSessionID ∈ (s.view t.view).givenIDs
  idle : ∀ v, (s.view v).hasInitialized = false → (s.view v).initializedFor = none
  given : ∀ v k, (s.view v).initializedFor = some k → k ∈ (s.view v).givenIDs
  building : ∀ t ∈ s.building, (s.view t.view).initializedFor = some t.paymentSessionID
  component : ∀ v c, (s.view v).submittableComponent = some c → (s.view v).initializedFor = some c.session

/-- Who waits for what. -/
structure Asked (Session : Set String) (s : State D) : Prop where
  known : ∀ ch v r c, s.pending ch v r = some c → r ∈ s.issued ∧ c < s.calls
  issued : ∀ r ∈ s.issued, r ∉ Session
  holder : ∀ ch ch' v w r c d, s.pending ch v r = some c → s.pending ch' w r = some d → ch = ch' ∧ v = w
  asker : ∀ ch v r c, s.pending ch v r = some c → s.Live v ∧ (s.view v).givenIDs ≠ []

/-- **The invariant of the iOS views.** -/
structure Inv (Session : Set String) (s : State D) : Prop where
  filed : s.Filed Session
  built : s.Built
  asked : s.Asked Session

variable {Session : Set String} {s t : State D}

/-! ## Frames of the invariant -/

/-- What `Filed` reads of a view. -/
def filing (w : View) : Phase × Option String × List String := (w.phase, w.paymentSessionID, w.givenIDs)

theorem Filed.congr (h : s.Filed Session) (hv : ∀ v, filing (t.view v) = filing (s.view v))
    (hr : ∀ v k, t.Registered v k ↔ s.Registered v k ∧ (s.Live v ∨ t.views = s.views))
    (hf : ∀ k targets, t.views.get k = some targets → targets ≠ []) : t.Filed Session := by
  have hphase : ∀ v, (t.view v).phase = (s.view v).phase := fun v => congrArg Prod.fst (hv v)
  have hid : ∀ v, (t.view v).paymentSessionID = (s.view v).paymentSessionID :=
    fun v => congrArg (fun x => x.2.1) (hv v)
  have hgiven : ∀ v, (t.view v).givenIDs = (s.view v).givenIDs := fun v => congrArg (fun x => x.2.2) (hv v)
  have hkey : ∀ v, key (t.view v) = key (s.view v) := by
    intro v
    simp only [key, hid]
  constructor
  case session =>
    intro v k hk
    exact h.session v k (hgiven v ▸ hk)
  case absent =>
    intro v hp
    rw [hgiven]
    exact h.absent v ((hphase v).symm.trans hp)
  case current =>
    intro v k hk
    rw [hgiven]
    exact h.current v k ((hkey v).symm.trans hk)
  case registered =>
    intro v k hl hk
    have hl' : s.Live v := (hphase v).symm.trans hl
    exact (hr v k).mpr ⟨h.registered v k hl' (hgiven v ▸ hk), Or.inl hl'⟩
  case given =>
    intro v k hk
    rw [hgiven]
    exact h.given v k ((hr v k).mp hk).1
  case filled => exact hf

theorem Filed.congr_views (h : s.Filed Session) (hv : ∀ v, filing (t.view v) = filing (s.view v))
    (hviews : t.views = s.views) : t.Filed Session := by
  refine h.congr hv (fun v k => ?_) (fun k targets hk => h.filled k targets (hviews ▸ hk))
  simp only [Registered, hviews, or_true, and_true]

theorem retain_filled (keep : ViewId → Bool) {k : String} {targets : List ViewId}
    (h : (s.retain keep).views.get k = some targets) : targets ≠ [] := by
  change (s.views.filterMapValues _).get k = some targets at h
  rw [LinkedMap.get_filterMapValues, Option.bind_eq_some_iff] at h
  obtain ⟨l, -, hl⟩ := h
  dsimp only at hl
  split at hl
  · cases hl
  · next hne =>
      obtain rfl := Option.some.inj hl
      exact fun hnil => hne (List.isEmpty_iff.mpr hnil)

theorem Filed.sweep (h : s.Filed Session) : s.sweep.Filed Session := by
  refine h.congr (fun _ => rfl) (fun v k => ?_) (fun k targets hk => retain_filled _ hk)
  rw [registered_sweep]
  constructor
  · exact fun hr => ⟨hr.1, Or.inl hr.2⟩
  · rintro ⟨hr, hl | heq⟩
    · exact ⟨hr, hl⟩
    · -- an unchanged registry keeps no dead target
      have hr' : s.sweep.Registered v k := by rw [Registered, heq]; exact hr
      exact (registered_sweep s v k).mp hr'

/-- What `Built` reads of a view, up to its ids. -/
def making (w : View) : Bool × Option String × Option Submittable :=
  (w.hasInitialized, w.initializedFor, w.submittableComponent)

theorem Built.congr (h : s.Built) (hg : ∀ v, (s.view v).givenIDs ⊆ (t.view v).givenIDs)
    (hv : ∀ v, making (t.view v) = making (s.view v)) (ht : t.tasks = s.tasks) (hb : t.building = s.building) :
    t.Built := by
  have hinit : ∀ v, (t.view v).hasInitialized = (s.view v).hasInitialized := fun v => congrArg Prod.fst (hv v)
  have hfor : ∀ v, (t.view v).initializedFor = (s.view v).initializedFor := fun v => congrArg (fun x => x.2.1) (hv v)
  have hcomp : ∀ v, (t.view v).submittableComponent = (s.view v).submittableComponent :=
    fun v => congrArg (fun x => x.2.2) (hv v)
  constructor
  case tasks =>
    intro a ha
    exact hg _ (h.tasks a (ht ▸ ha))
  case idle =>
    intro v hv'
    rw [hfor]
    exact h.idle v ((hinit v).symm.trans hv')
  case given =>
    intro v k hk
    exact hg v (h.given v k ((hfor v).symm.trans hk))
  case building =>
    intro a ha
    rw [hfor]
    exact h.building a (hb ▸ ha)
  case component =>
    intro v c hc
    rw [hfor]
    exact h.component v c ((hcomp v).symm.trans hc)

theorem Asked.congr (h : s.Asked Session) (hp : ∀ ch v r, t.pending ch v r = s.pending ch v r)
    (hl : ∀ v, s.Live v → (∃ ch r, s.pending ch v r ≠ none) → t.Live v)
    (hg : ∀ v, (s.view v).givenIDs ⊆ (t.view v).givenIDs) (hc : t.calls = s.calls) (hi : t.issued = s.issued) :
    t.Asked Session := by
  constructor
  case known =>
    intro ch v r c hv
    rw [hi, hc]
    exact h.known ch v r c ((hp ch v r).symm.trans hv)
  case issued =>
    rw [hi]
    exact h.issued
  case holder =>
    intro ch ch' v w r c d hv hw
    exact h.holder ch ch' v w r c d ((hp ch v r).symm.trans hv) ((hp ch' w r).symm.trans hw)
  case asker =>
    intro ch v r c hv
    have hv' := (hp ch v r).symm.trans hv
    obtain ⟨h1, h2⟩ := h.asker ch v r c hv'
    refine ⟨hl v h1 ⟨ch, r, by rw [hv']; exact Option.some_ne_none c⟩, fun hnil => h2 ?_⟩
    exact List.subset_nil.mp (hnil ▸ hg v)

theorem Asked.pending_fresh (h : s.Asked Session) {r : String} (hr : r ∉ s.issued) (ch : Channel) (v : ViewId) :
    s.pending ch v r = none := by
  cases hp : s.pending ch v r with
  | none => rfl
  | some c => exact absurd (h.known ch v r c hp).1 hr

theorem pending_of_view (hview : t.view = s.view) (ch : Channel) (v : ViewId) (r : String) :
    t.pending ch v r = s.pending ch v r := by
  rw [pending, pending, hview]

/-- A step that writes no view and keeps the registry in order keeps the invariant. -/
theorem Inv.of_same (h : s.Inv Session) (hs : s.SameViews t) (hf : t.Filed Session) : t.Inv Session := by
  have hg : ∀ v, (s.view v).givenIDs ⊆ (t.view v).givenIDs := fun v => by rw [hs.view]; exact List.Subset.refl _
  refine ⟨hf, h.built.congr hg (fun v => by rw [hs.view]) hs.tasks hs.building, ?_⟩
  exact h.asked.congr (pending_of_view hs.view) (fun v hl _ => (hs.live v).mpr hl) hg hs.calls hs.issued

/-! ## Registration -/

/-- Filing a live view under its current id, which it was given. -/
theorem Filed.register {v : ViewId} (hsession : ∀ w k, k ∈ (s.view w).givenIDs → k ∈ Session)
    (habsent : ∀ w, (s.view w).phase = .absent → (s.view w).givenIDs = [])
    (hcurrent : ∀ w k, key (s.view w) = some k → k ∈ (s.view w).givenIDs)
    (hreg : ∀ w k, s.Live w → k ∈ (s.view w).givenIDs → s.Registered w k ∨ (w = v ∧ key (s.view v) = some k))
    (hgiven : ∀ w k, s.Registered w k → k ∈ (s.view w).givenIDs)
    (hfilled : ∀ k targets, s.views.get k = some targets → targets ≠ []) : (s.register v).Filed Session := by
  have hview := (register_same s v).view
  cases hk : key (s.view v) with
  | none =>
      have heq : s.register v = s := by simp only [State.register, hk]
      rw [heq]
      refine ⟨hsession, habsent, hcurrent, fun w k hl hw => (hreg w k hl hw).resolve_right ?_, hgiven, hfilled⟩
      rintro ⟨-, he⟩
      rw [hk] at he
      cases he
  | some k₀ =>
      have hr := registered_register s hk
      refine ⟨by rw [hview]; exact hsession, by rw [hview]; exact habsent, by rw [hview]; exact hcurrent, ?_, ?_, ?_⟩
      · intro w k hl hw
        rw [hview] at hw
        have hl' : s.Live w := ((register_same s v).live w).mp hl
        rw [hr]
        by_cases hkk : k = k₀
        · refine Or.inl ⟨hkk, ?_⟩
          rcases hreg w k hl' hw with h | ⟨h, -⟩
          · exact Or.inr ⟨h, hl'⟩
          · exact Or.inl h
        · rcases hreg w k hl' hw with h | ⟨-, h⟩
          · exact Or.inr ⟨hkk, h⟩
          · exact absurd (Option.some.inj (h.symm.trans hk)) hkk
      · intro w k hw
        rw [hview]
        rcases (hr w k).mp hw with ⟨hkk, rfl | ⟨h, -⟩⟩ | ⟨-, h⟩
        · rw [hkk]
          exact hcurrent w k₀ hk
        · exact hgiven w k h
        · exact hgiven w k h
      · intro k targets hget
        have hviews : (s.register v).views =
            s.views.put k₀ ((((s.views.get k₀).getD []).filter fun w => s.Live w ∧ w ≠ v) ++ [v]) := by
          simp only [State.register, hk]
        rw [hviews, LinkedMap.get_put] at hget
        split at hget
        · obtain rfl := Option.some.inj hget
          exact List.append_ne_nil_of_right_ne_nil _ (List.cons_ne_nil v [])
        · exact hfilled k targets hget

/-- Filing a view writes no view. -/
theorem Built.register (h : s.Built) (v : ViewId) : (s.register v).Built := by
  have hsame := register_same s v
  refine h.congr (fun u => ?_) (fun u => ?_) hsame.tasks hsame.building
  · rw [hsame.view]
    exact List.Subset.refl _
  · rw [hsame.view]

/-- A view that is written, keeps what it has pending and loses no id, stays alive. -/
theorem Asked.setView (h : s.Asked Session) {v : ViewId} {w : View}
    (hp : ∀ ch, w.pending ch = (s.view v).pending ch) (hl : s.Live v → w.phase = .live)
    (hg : (s.view v).givenIDs ⊆ w.givenIDs) : (s.setView v w).Asked Session := by
  refine h.congr (setView_pending s hp) (fun u hu _ => ?_) (fun u => ?_) rfl rfl
  · rw [Live, setView_view]
    split
    · next huv => exact hl (huv ▸ hu)
    · exact hu
  · rw [setView_view]
    split
    · next huv => exact huv ▸ hg
    · exact List.Subset.refl _

theorem Asked.register (h : s.Asked Session) (v : ViewId) : (s.register v).Asked Session := by
  have hsame := register_same s v
  refine h.congr (pending_of_view hsame.view) (fun u hl _ => (hsame.live u).mpr hl) (fun u => ?_) hsame.calls
    hsame.issued
  rw [hsame.view]
  exact List.Subset.refl _

theorem Inv.create (h : s.Inv Session) {v : ViewId} (hv : (s.view v).phase = .absent) (c : ViewClass) :
    (s.create v c).Inv Session := by
  have hgiven : ∀ u, ((s.setView v ((s.view v).create c)).view u).givenIDs = (s.view u).givenIDs :=
    setView_congr s View.givenIDs rfl
  have hkey : ∀ u, key ((s.setView v ((s.view v).create c)).view u) = key (s.view u) := setView_congr s key rfl
  have hphase : ∀ u,
      ((s.setView v ((s.view v).create c)).view u).phase = if u = v then .live else (s.view u).phase := by
    intro u
    rw [setView_view]
    split <;> rfl
  have hnone : (s.view v).givenIDs = [] := h.filed.absent v hv
  refine ⟨Filed.register ?_ ?_ ?_ ?_ ?_ h.filed.filled, ?_, ?_⟩
  · intro u k hk
    exact h.filed.session u k (hgiven u ▸ hk)
  · intro u hu
    rw [hgiven]
    rw [hphase] at hu
    split at hu
    · cases hu
    · exact h.filed.absent u hu
  · intro u k hk
    rw [hgiven]
    exact h.filed.current u k ((hkey u).symm.trans hk)
  · intro u k hl hk
    rw [hgiven] at hk
    rw [Live, hphase] at hl
    split at hl
    · next huv =>
        rw [huv, hnone] at hk
        cases hk
    · exact Or.inl (h.filed.registered u k hl hk)
  · intro u k hk
    rw [hgiven]
    exact h.filed.given u k hk
  · refine (h.built.congr (fun u => ?_) (setView_congr s making (by rfl)) rfl rfl).register v
    rw [hgiven]
    exact List.Subset.refl _
  · have hasked : (s.setView v ((s.view v).create c)).Asked Session :=
      h.asked.setView (fun ch => by cases ch <;> rfl) (fun _ => rfl) (List.Subset.refl _)
    exact hasked.register v

theorem maybeInitialize_cases (s : State D) (v : ViewId) :
    s.maybeInitialize v = s ∨ ∃ id secret publicKey, key (s.view v) = some id ∧
      s.maybeInitialize v = { s with tasks := s.tasks ++ [⟨v, id, secret, publicKey⟩] } := by
  unfold maybeInitialize
  split
  · exact Or.inl rfl
  · split
    · next id secret publicKey hid hsecret hkey =>
        split
        · exact Or.inl rfl
        · next hne =>
            refine Or.inr ⟨id, secret, publicKey, ?_, rfl⟩
            simp only [Bool.or_eq_true, not_or] at hne
            simp only [key, hid, hne.1.1]
            rfl
    · exact Or.inl rfl

theorem Inv.maybeInitialize (h : s.Inv Session) (v : ViewId) : (s.maybeInitialize v).Inv Session := by
  rcases maybeInitialize_cases s v with heq | ⟨id, secret, publicKey, hid, heq⟩
  · rw [heq]
    exact h
  · rw [heq]
    refine ⟨h.filed.congr_views (fun _ => rfl) rfl, ⟨?_, h.built.idle, h.built.given, h.built.building,
      h.built.component⟩, h.asked.congr (fun _ _ _ => rfl) (fun _ hl _ => hl) (fun _ => List.Subset.refl _) rfl rfl⟩
    intro t ht
    rcases List.mem_append.mp ht with ht | ht
    · exact h.built.tasks t ht
    · rw [List.mem_singleton.mp ht]
      exact h.filed.current v id hid

theorem mem_givenIDs_set (w : View) (p : Property) (k : String) :
    k ∈ (w.set p).givenIDs ↔ k ∈ w.givenIDs ∨ (k ≠ "" ∧ p = .paymentSessionID (some k)) := by
  cases p with
  | paymentSessionID value =>
      cases value with
      | none => simp [View.set]
      | some id =>
          have hmem : k ∈ (w.set (.paymentSessionID (some id))).givenIDs ↔ k ∈ w.givenIDs ∨ (k = id ∧ id ≠ "") := by
            by_cases hid : id = "" <;> simp [View.set, Option.filter, hid]
          rw [hmem, Property.paymentSessionID.injEq, Option.some.injEq]
          refine or_congr_right ⟨?_, ?_⟩
          · rintro ⟨rfl, hne⟩
            exact ⟨hne, rfl⟩
          · rintro ⟨hne, rfl⟩
            exact ⟨rfl, hne⟩
  | _ => simp [View.set]

theorem key_eq_some_iff (w : View) (k : String) : key w = some k ↔ k ≠ "" ∧ w.paymentSessionID = some k := by
  unfold key
  cases hid : w.paymentSessionID with
  | none => simp
  | some id =>
      change (if id.isEmpty then none else some id) = some k ↔ k ≠ "" ∧ some id = some k
      split
      · next he =>
          have he' : id = "" := by simpa using he
          refine iff_of_false (fun h => by cases h) ?_
          rintro ⟨hne, h⟩
          exact hne (Option.some.inj h ▸ he')
      · next he =>
          have he' : id ≠ "" := by simpa using he
          exact ⟨fun h => ⟨Option.some.inj h ▸ he', h⟩, fun h => h.2⟩

theorem Filed.setSession (h : s.Filed Session) {v : ViewId} (hv : s.Live v) {value : Option String}
    (hvalue : ∀ id, value = some id → id ∈ Session) :
    ((s.setView v ((s.view v).set (.paymentSessionID value))).register v).Filed Session := by
  refine Filed.register ?_ ?_ ?_ ?_ ?_ h.filled
  · intro u k hk
    rw [setView_view] at hk
    split at hk
    · rcases (mem_givenIDs_set _ _ k).mp hk with hk | ⟨-, hk⟩
      · exact h.session v k hk
      · exact hvalue k (Property.paymentSessionID.inj hk)
    · exact h.session u k hk
  · intro u hu
    rw [setView_view] at hu ⊢
    split at hu
    · rw [show ((s.view v).set (.paymentSessionID value)).phase = .live from hv] at hu
      cases hu
    · next huv =>
        rw [if_neg huv]
        exact h.absent u hu
  · intro u k hk
    rw [setView_view] at hk ⊢
    split at hk
    · next huv =>
        rw [if_pos huv]
        obtain ⟨hne, hid⟩ := (key_eq_some_iff _ k).mp hk
        exact (mem_givenIDs_set _ _ k).mpr (Or.inr ⟨hne, congrArg Property.paymentSessionID hid⟩)
    · next huv =>
        rw [if_neg huv]
        exact h.current u k hk
  · intro u k hl hk
    rw [setView_view] at hk
    split at hk
    · next huv =>
        rcases (mem_givenIDs_set _ _ k).mp hk with hk | ⟨hne, hk⟩
        · exact Or.inl (h.registered u k (huv ▸ hv) (huv ▸ hk))
        · refine Or.inr ⟨huv, ?_⟩
          rw [setView_view_self]
          exact (key_eq_some_iff _ k).mpr ⟨hne, Property.paymentSessionID.inj hk⟩
    · next huv =>
        rw [Live, setView_view, if_neg huv] at hl
        exact Or.inl (h.registered u k hl hk)
  · intro u k hk
    rw [setView_view]
    split
    · next huv => exact (mem_givenIDs_set _ _ k).mpr (Or.inl (huv ▸ h.given u k hk))
    · exact h.given u k hk

/-- A property changes at most the current id, and adds it to the given ones. -/
theorem Inv.setProperty (h : s.Inv Session) {v : ViewId} (hv : s.Live v) {p : Property}
    (hp : ∀ id, p = .paymentSessionID (some id) → id ∈ Session) : (s.setProperty v p).Inv Session := by
  refine Inv.maybeInitialize ?_ v
  have hgiven : ∀ u, (s.view u).givenIDs ⊆ ((s.setView v ((s.view v).set p)).view u).givenIDs := by
    intro u k hk
    rw [setView_view]
    split
    · next huv => exact (mem_givenIDs_set _ p k).mpr (Or.inl (huv ▸ hk))
    · exact hk
  have hbuilt : (s.setView v ((s.view v).set p)).Built :=
    h.built.congr hgiven (setView_congr s making (by cases p <;> rfl)) rfl rfl
  have hasked : (s.setView v ((s.view v).set p)).Asked Session := by
    refine h.asked.setView (fun ch => by cases ch <;> cases p <;> rfl) (fun _ => ?_) fun k hk => ?_
    · cases p <;> exact hv
    · exact (mem_givenIDs_set _ p k).mpr (Or.inl hk)
  have hother : filing ((s.view v).set p) = filing (s.view v) → (s.setView v ((s.view v).set p)).Inv Session :=
    fun he => ⟨h.filed.congr_views (setView_congr s filing he) rfl, hbuilt, hasked⟩
  cases p with
  | paymentSessionID value =>
      exact ⟨h.filed.setSession hv fun id hid => hp id (congrArg Property.paymentSessionID hid), hbuilt.register v,
        hasked.register v⟩
  | paymentSessionSecret value => exact hother rfl
  | publicKey value => exact hother rfl
  | paymentMethod value => exact hother rfl
  | other => exact hother rfl

/-! ## Initialization -/

/-- What is built stays right when the view `v` is written, if it is right for what is written. -/
theorem Built.setView (h : s.Built) {v : ViewId} {w : View} {tasks building : List InitializeTask}
    (hids : w.givenIDs = (s.view v).givenIDs) (htasks : ∀ t ∈ tasks, t ∈ s.tasks)
    (hidle : w.hasInitialized = false → w.initializedFor = none)
    (hgiven : ∀ k, w.initializedFor = some k → k ∈ w.givenIDs)
    (hbuilding : ∀ t ∈ building, if t.view = v then w.initializedFor = some t.paymentSessionID else t ∈ s.building)
    (hcomponent : ∀ c, w.submittableComponent = some c → w.initializedFor = some c.session) :
    Built { s.setView v w with tasks := tasks, building := building } := by
  have hsame : ∀ u, ((s.setView v w).view u).givenIDs = (s.view u).givenIDs := setView_congr s View.givenIDs hids
  constructor
  case tasks =>
    intro t ht
    exact (hsame t.view).symm ▸ h.tasks t (htasks t ht)
  case idle =>
    intro u
    change ((s.setView v w).view u).hasInitialized = false → ((s.setView v w).view u).initializedFor = none
    rw [setView_view]
    split
    · exact hidle
    · exact h.idle u
  case given =>
    intro u k
    change ((s.setView v w).view u).initializedFor = some k → k ∈ ((s.setView v w).view u).givenIDs
    rw [setView_view]
    split
    · exact hgiven k
    · exact h.given u k
  case building =>
    intro t ht
    have ht' := hbuilding t ht
    change ((s.setView v w).view t.view).initializedFor = some t.paymentSessionID
    rw [setView_view]
    split at ht'
    · next hv => rw [if_pos hv, ht']
    · next hv => rw [if_neg hv, h.building t ht']
  case component =>
    intro u c
    change ((s.setView v w).view u).submittableComponent = some c →
      ((s.setView v w).view u).initializedFor = some c.session
    rw [setView_view]
    split
    · exact hcomponent c
    · exact h.component u c

theorem Inv.beginInitialize (h : s.Inv Session) {a : InitializeTask} (ha : a ∈ s.tasks) :
    (s.beginInitialize a).Inv Session := by
  have herase : ∀ b ∈ s.tasks.erase a, b ∈ s.tasks := fun b => List.mem_of_mem_erase
  refine State.beginInitialize_keeps ?_ fun hfresh => ?_
  · refine ⟨h.filed.congr_views (fun _ => rfl) rfl, ⟨fun b hb => h.built.tasks b (herase b hb), h.built.idle,
      h.built.given, h.built.building, h.built.component⟩, ?_⟩
    exact h.asked.congr (fun _ _ _ => rfl) (fun _ hl _ => hl) (fun _ => List.Subset.refl _) rfl rfl
  · -- the view had not been initialized, so nothing is being built for it and it has no component
    have hnone : (s.view a.view).initializedFor = none := h.built.idle _ hfresh
    generalize hw : ({ s.view a.view with
      hasInitialized := true
      initializedFor := some a.paymentSessionID } : View) = w
    have hgiven : ∀ u, ((s.setView a.view w).view u).givenIDs = (s.view u).givenIDs :=
      setView_congr s View.givenIDs (by rw [← hw])
    refine ⟨h.filed.congr_views (setView_congr s filing (by rw [← hw]; rfl)) rfl, ?_, ?_⟩
    · apply h.built.setView (by rw [← hw]) herase
      · intro hfalse
        rw [← hw] at hfalse
        cases hfalse
      · intro k hk
        rw [← hw] at hk ⊢
        rw [← Option.some.inj hk]
        exact h.built.tasks a ha
      · intro b hb
        split
        · next hv =>
            rcases List.mem_append.mp hb with hb | hb
            · have hb' := h.built.building b hb
              rw [hv, hnone] at hb'
              cases hb'
            · rw [List.mem_singleton.mp hb, ← hw]
        · next hv => exact (List.mem_append.mp hb).resolve_right fun hb => hv (by rw [List.mem_singleton.mp hb])
      · intro c hc
        rw [← hw] at hc
        have hc' := h.built.component a.view c hc
        rw [hnone] at hc'
        cases hc'
    · refine h.asked.congr (setView_pending s fun ch => ?_) (fun u hl _ => ?_) (fun u => ?_) rfl rfl
      · rw [← hw]
        cases ch <;> rfl
      · exact (setView_congr s View.phase (by rw [← hw]) u).trans hl
      · exact (hgiven u).symm ▸ List.Subset.refl _

theorem Inv.setComponent (h : s.Inv Session) {v : ViewId} {c : Submittable}
    (hc : (s.view v).initializedFor = some c.session) :
    (s.setView v { s.view v with submittableComponent := some c }).Inv Session := by
  refine ⟨h.filed.congr_views (setView_congr s filing rfl) rfl, ?_, ?_⟩
  · refine h.built.setView rfl (fun _ ht => ht) (h.built.idle v) (h.built.given v) ?_ ?_
    · intro t ht
      split
      · next hv => exact hv ▸ h.built.building t ht
      · exact ht
    · intro d hd
      rw [← Option.some.inj hd]
      exact hc
  · exact h.asked.setView (fun ch => by cases ch <;> rfl) (fun hl => hl) (List.Subset.refl _)

theorem Inv.emit (h : s.Inv Session) (e : NativeEvent) : (s.emit e).Inv Session :=
  h.of_same ⟨rfl, rfl, rfl, rfl, rfl, rfl⟩ (h.filed.congr_views (fun _ => rfl) rfl)

theorem Inv.finishInitialize (h : s.Inv Session) {a : InitializeTask} (ha : a ∈ s.building) (c : Creation) :
    (s.finishInitialize a c).Inv Session := by
  have hdone : ({ s with building := s.building.erase a } : State D).Inv Session := by
    refine ⟨h.filed.congr_views (fun _ => rfl) rfl, ⟨h.built.tasks, h.built.idle, h.built.given,
      fun b hb => h.built.building b (List.mem_of_mem_erase hb), h.built.component⟩, ?_⟩
    exact h.asked.congr (fun _ _ _ => rfl) (fun _ hl _ => hl) (fun _ => List.Subset.refl _) rfl rfl
  exact State.finishInitialize_keeps hdone (fun isValid => hdone.setComponent (h.built.building a ha)) fun t e h =>
    h.emit e

/-! ## The end of a view -/

theorem Inv.dealloc (h : s.Inv Session) {v : ViewId} (hv : s.Idle v) : (s.dealloc v).Inv Session := by
  have hphase : ∀ u, ((s.dealloc v).view u).phase = if u = v then .dead else (s.view u).phase := by
    intro u
    rw [State.dealloc, setView_view]
    split <;> rfl
  have hgiven : ∀ u, ((s.dealloc v).view u).givenIDs = (s.view u).givenIDs := setView_congr s View.givenIDs rfl
  have hkey : ∀ u, key ((s.dealloc v).view u) = key (s.view u) := setView_congr s key rfl
  have hlive : ∀ u, (s.dealloc v).Live u → s.Live u := by
    intro u hu
    rw [Live, hphase] at hu
    split at hu
    · cases hu
    · exact hu
  refine ⟨⟨?_, ?_, ?_, ?_, ?_, h.filed.filled⟩, ?_, ?_⟩
  · exact fun u k hk => h.filed.session u k (hgiven u ▸ hk)
  · intro u hu
    rw [hgiven]
    rw [hphase] at hu
    split at hu
    · cases hu
    · exact h.filed.absent u hu
  · intro u k hk
    rw [hgiven]
    exact h.filed.current u k ((hkey u).symm.trans hk)
  · exact fun u k hl hk => h.filed.registered u k (hlive u hl) (hgiven u ▸ hk)
  · intro u k hk
    rw [hgiven]
    exact h.filed.given u k hk
  · exact h.built.congr (fun u => (hgiven u).symm ▸ List.Subset.refl _) (setView_congr s making rfl) rfl rfl
  · refine h.asked.congr (setView_pending s fun ch => ?_) (fun u hl hp => ?_)
      (fun u => (hgiven u).symm ▸ List.Subset.refl _) rfl rfl
    · cases ch <;> rfl
    · obtain ⟨ch, r, hpr⟩ := hp
      rw [Live, hphase, if_neg fun hu : u = v => hpr (hu ▸ hv.pending ch r)]
      exact hl

theorem Inv.unregister (h : s.Inv Session) {v : ViewId} (hv : (s.view v).phase = .dead) :
    (s.unregister v).Inv Session := by
  refine h.of_same ⟨rfl, rfl, rfl, rfl, rfl, rfl⟩
    ⟨h.filed.session, h.filed.absent, h.filed.current, ?_, ?_, fun k targets hk => retain_filled _ hk⟩
  · intro u k hl hk
    have hl' : s.Live u := hl
    refine (registered_unregister s v u k).mpr ⟨h.filed.registered u k hl' hk, hl', ?_⟩
    rintro rfl
    rw [Live, hv] at hl'
    cases hl'
  · exact fun u k hk => h.filed.given u k ((registered_unregister s v u k).mp hk).1

theorem Inv.submit (h : s.Inv Session) (id : String) (order : List (String × List ViewId)) :
    (ApplePayModule.submit s id order).Inv Session := by
  obtain ⟨hsame, hviews⟩ := ApplePayModule.submit_same s id order
  refine h.of_same hsame (h.filed.sweep.congr_views (fun v => ?_) hviews)
  rw [hsame.view]
  rfl

/-! ## Requests and responses -/

theorem Inv.storeContinuation (h : s.Inv Session) {v : ViewId} {r : String} (hr : s.MayAsk Session v r)
    (ch : Channel) : (s.storeContinuation ch v r).Inv Session := by
  have hset : ∀ {β : Type} (f : View → β), (∀ w m c, f (View.setPending w m c) = f w) →
      ∀ u, f ((s.storeContinuation ch v r).view u) = f (s.view u) :=
    fun f hf u => storeContinuation_congr s f hf ch v r u
  have hgiven := hset View.givenIDs (fun w m c => by cases c <;> rfl)
  have hphase := hset View.phase (fun w m c => by cases c <;> rfl)
  refine ⟨h.filed.congr_views (hset filing fun w m c => by cases c <;> rfl) rfl,
    h.built.congr (fun u => (hgiven u).symm ▸ List.Subset.refl _)
      (hset making fun w m c => by cases c <;> rfl) rfl rfl, ⟨?_, ?_, ?_, ?_⟩⟩
  · intro ch' w k c hc
    change k ∈ s.issued ++ [r] ∧ c < s.calls + 1
    rw [storeContinuation_pending] at hc
    split at hc
    · next he =>
        rw [he.2.2, ← Option.some.inj hc]
        exact ⟨List.mem_append_right _ (List.mem_singleton_self r), Nat.lt_succ_self _⟩
    · obtain ⟨h1, h2⟩ := h.asked.known ch' w k c hc
      exact ⟨List.mem_append_left _ h1, Nat.lt_succ_of_lt h2⟩
  · intro k hk
    rcases List.mem_append.mp hk with hk | hk
    · exact h.asked.issued k hk
    · rw [List.mem_singleton.mp hk]
      exact hr.notSession
  · intro ch₁ ch₂ v₁ v₂ k c d hc hd
    rw [storeContinuation_pending] at hc hd
    split at hc
    · next he =>
        split at hd
        · next he' => exact ⟨he.1.trans he'.1.symm, he.2.1.trans he'.2.1.symm⟩
        · rw [he.2.2, h.asked.pending_fresh hr.notIssued] at hd
          cases hd
    · split at hd
      · next he' =>
          rw [he'.2.2, h.asked.pending_fresh hr.notIssued] at hc
          cases hc
      · exact h.asked.holder ch₁ ch₂ v₁ v₂ k c d hc hd
  · intro ch' w k c hc
    rw [Live, hphase, hgiven]
    rw [storeContinuation_pending] at hc
    split at hc
    · next he =>
        rw [he.2.1]
        exact ⟨hr.live, hr.given⟩
    · exact h.asked.asker ch' w k c hc

theorem Inv.takeContinuation (h : s.Inv Session) (v : ViewId) (r : String) (result : Result D) :
    (s.takeContinuation v r result).Inv Session := by
  obtain ⟨hviews, htasks, hbuilding, hcalls, hissued⟩ := takeContinuation_rest s v r result
  have hset : ∀ {β : Type} (f : View → β), (∀ w m c, f (View.setPending w m c) = f w) →
      ∀ u, f ((s.takeContinuation v r result).view u) = f (s.view u) :=
    fun f hf u => takeContinuation_congr s f hf v r result u
  have hgiven := hset View.givenIDs (fun w m c => by cases c <;> rfl)
  have hphase := hset View.phase (fun w m c => by cases c <;> rfl)
  have hpend : ∀ {ch w k c}, (s.takeContinuation v r result).pending ch w k = some c →
      s.pending ch w k = some c := by
    intro ch w k c hc
    rw [takeContinuation_pending] at hc
    split at hc
    · cases hc
    · exact hc
  refine ⟨h.filed.congr_views (hset filing fun w m c => by cases c <;> rfl) hviews,
    h.built.congr (fun u => (hgiven u).symm ▸ List.Subset.refl _)
      (hset making fun w m c => by cases c <;> rfl) htasks hbuilding, ⟨?_, ?_, ?_, ?_⟩⟩
  · intro ch w k c hc
    rw [hissued, hcalls]
    exact h.asked.known ch w k c (hpend hc)
  · rw [hissued]
    exact h.asked.issued
  · exact fun ch ch' u w k c d hc hd => h.asked.holder ch ch' u w k c d (hpend hc) (hpend hd)
  · intro ch w k c hc
    rw [Live, hphase, hgiven]
    exact h.asked.asker ch w k c (hpend hc)

theorem Inv.sweep (h : s.Inv Session) : s.sweep.Inv Session :=
  h.of_same ⟨rfl, rfl, rfl, rfl, rfl, rfl⟩ h.filed.sweep

theorem Inv.route (h : s.Inv Session) (r : String) (order : List (String × List ViewId)) (result : Result D) :
    (s.route r order fun s v => s.takeContinuation v r result).Inv Session :=
  route_keeps Inv.sweep (fun _ v h => h.takeContinuation v r result) h r order

end State

/-! ## Runs -/

variable {Session : Set String} {decode : String → Option D}

theorem inv_init : (machine Session decode).init.Inv Session := by
  have hreg : ∀ v k, ¬ (machine Session decode).init.Registered v k := by
    rintro v k ⟨targets, hk, -⟩
    cases hk
  refine ⟨⟨nofun, fun _ _ => rfl, nofun, nofun, fun v k hk => absurd hk (hreg v k), nofun⟩,
    ⟨nofun, fun _ _ => rfl, nofun, nofun, nofun⟩, ⟨?_, nofun, ?_, ?_⟩⟩
  · rintro (_ | _) v r c hc <;> cases hc
  · rintro (_ | _) ch' v w r c d hc <;> cases hc
  · rintro (_ | _) v r c hc <;> cases hc

theorem inv_step (s : State D) (e : Event) (h : s.Inv Session) (he : (machine Session decode).allowed s e) :
    ((machine Session decode).step s e).Inv Session := by
  cases e with
  | create v c => exact h.create he c
  | setProperty v p => exact h.setProperty he.1 he.2
  | beginInitialize a => exact h.beginInitialize he
  | finishInitialize a c => exact h.finishInitialize he c
  | onChange v c => exact h.setComponent he.2
  | dealloc v => exact h.dealloc he
  | deinit v => exact h.unregister he
  | submit id order => exact h.submit id order
  | bridgeHandleSubmit v id secret data r => exact (h.storeContinuation he .submit).emit _
  | bridgeOnTokenized v r => exact (h.storeContinuation he .tokenized).emit _
  | handleSubmitResponse r success data order => exact h.route r order (.submit (submissionResult decode success data))
  | handleTokenizedResponse r accepted message order =>
      exact h.route r order (.tokenized (tokenizedResult accepted message))

theorem inv_reachable {s : State D} (hs : (machine Session decode).Reachable s) : s.Inv Session :=
  hs.induction inv_init inv_step

end FlowDemo.Ios
