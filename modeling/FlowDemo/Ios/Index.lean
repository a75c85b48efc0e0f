import FlowDemo.Ios.Submit

/-!
# `ApplePayViewRegistry` as an index of the current sessions

`update` files a view under its new id and leaves it filed under the old one, so the registry is an index of the
current ids as long as no view changes or loses its id.

* `Distinct`: no view is filed twice under one id, in any run;
* `OnlyCurrent`: the ids a live view was given are its current one;
* `indexed_throughout_iff`: the assignments that keep the index.
-/

namespace FlowDemo.Ios

variable {D : Type} {Session : Set String} {decode : String → Option D}

/-- **Each live view is filed once, under its current id**, and under no other. -/
def Indexed (s : State D) : Prop :=
  ∀ v k, s.Live v → (s.targets k).count v = if State.key (s.view v) = some k then 1 else 0

def KeepsId (s : State D) (e : Event) : Prop :=
  ∀ v value, e = .setProperty v (.paymentSessionID value) → State.key (s.view v) = none ∨
    State.key ((s.view v).set (.paymentSessionID value)) = State.key (s.view v)

theorem keepsId_set_iff (s : State D) (w : ViewId) (value : Option String) :
    KeepsId s (.setProperty w (.paymentSessionID value)) ↔ State.key (s.view w) = none ∨
      State.key ((s.view w).set (.paymentSessionID value)) = State.key (s.view w) := by
  constructor
  · intro h
    exact h w value rfl
  · rintro h v value' heq
    cases heq
    exact h

/-! ## No view is filed twice -/

def Distinct (s : State D) : Prop := ∀ k, (s.targets k).Nodup

namespace Distinct

variable {s t : State D}

theorem of_views (h : Distinct s) (hviews : t.views = s.views) : Distinct t := by
  intro k
  rw [State.targets, hviews]
  exact h k

theorem retain (h : Distinct s) (keep : ViewId → Bool) : Distinct (s.retain keep) := by
  intro k
  unfold State.targets State.retain
  rw [LinkedMap.get_filterMapValues]
  cases hk : s.views.get k with
  | none => exact List.nodup_nil
  | some l =>
      have hl : l.Nodup := by
        have := h k
        rwa [State.targets, hk] at this
      change ((if (l.filter keep).isEmpty then none else some (l.filter keep) : Option (List ViewId)).getD []).Nodup
      split
      · exact List.nodup_nil
      · exact hl.filter keep

theorem register (h : Distinct s) (v : ViewId) : Distinct (s.register v) := by
  intro k
  unfold State.register
  cases hk : State.key (s.view v) with
  | none => exact h k
  | some k₀ =>
      change ((((s.views.put k₀ _).get k).getD []) : List ViewId).Nodup
      rw [LinkedMap.get_put]
      split
      · rw [Option.getD_some, List.nodup_append]
        refine ⟨(h k₀).filter _, List.nodup_singleton v, fun a ha b hb hab => ?_⟩
        have hne := of_decide_eq_true (List.mem_filter.mp ha).2
        exact hne.2 (hab.trans (List.mem_singleton.mp hb))
      · exact h k

end Distinct

theorem Distinct.route {s : State D} (h : Distinct s) (r : String) (order : List (String × List ViewId))
    (result : Result D) : Distinct (s.route r order fun s v => s.takeContinuation v r result) :=
  State.route_keeps (fun h => h.retain _) (fun s v h => h.of_views (s.takeContinuation_rest v r result).1) h r order

theorem Distinct.maybeInitialize {s : State D} (h : Distinct s) (v : ViewId) : Distinct (s.maybeInitialize v) := by
  rcases State.maybeInitialize_cases s v with heq | ⟨_, _, _, -, heq⟩
  · rw [heq]
    exact h
  · rw [heq]
    exact h

theorem distinct_step (s : State D) (e : Event) (h : Distinct s) :
    Distinct ((machine Session decode).step s e) := by
  cases e with
  | create v c => exact Distinct.register (s := s.setView v ((s.view v).create c)) h v
  | setProperty v p =>
      have hset : Distinct (s.setView v ((s.view v).set p)) := h
      exact State.setProperty_keeps hset (fun _ h => h.register v) fun _ h => h.maybeInitialize v
  | beginInitialize a => exact State.beginInitialize_keeps (P := Distinct) h fun _ => h
  | finishInitialize a c => exact State.finishInitialize_keeps (P := Distinct) h (fun _ => h) fun _ _ h => h
  | onChange v c => exact h
  | dealloc v => exact h
  | deinit v => exact h.retain _
  | submit id order => exact (h.retain _).of_views (ApplePayModule.submit_same s id order).2
  | bridgeHandleSubmit v id secret data r => exact h
  | bridgeOnTokenized v r => exact h
  | handleSubmitResponse r success data order => exact h.route r order _
  | handleTokenizedResponse r accepted message order => exact h.route r order _

/-! ## Which views change their ids -/

open State (filing key)

theorem filing_route (s : State D) (r : String) (order : List (String × List ViewId)) (result : Result D)
    (v : ViewId) :
    filing ((s.route r order fun s v => s.takeContinuation v r result).view v) = filing (s.view v) := by
  refine State.route_keeps (P := fun t => filing (t.view v) = filing (s.view v)) id (fun t w h => ?_) rfl r order
  exact (t.takeContinuation_congr filing (fun x m ch => by cases ch <;> rfl) w r result v).trans h

theorem filing_maybeInitialize (s : State D) (w v : ViewId) :
    filing ((s.maybeInitialize w).view v) = filing (s.view v) := by
  rcases s.maybeInitialize_cases w with heq | ⟨_, _, _, -, heq⟩ <;> rw [heq]

theorem filing_step (Session : Set String) (decode : String → Option D) (s : State D) (e : Event) :
    (∀ v, filing (((machine Session decode).step s e).view v) = filing (s.view v)) ∨ (∃ w c, e = .create w c) ∨
      (∃ w, e = .dealloc w) ∨ ∃ w value, e = .setProperty w (.paymentSessionID value) := by
  cases e with
  | create w c => exact Or.inr (Or.inl ⟨w, c, rfl⟩)
  | dealloc w => exact Or.inr (Or.inr (Or.inl ⟨w, rfl⟩))
  | setProperty w p =>
      cases p with
      | paymentSessionID value => exact Or.inr (Or.inr (Or.inr ⟨w, value, rfl⟩))
      | paymentSessionSecret value =>
          exact Or.inl fun v => (filing_maybeInitialize _ w v).trans (s.setView_congr filing (by rfl) v)
      | publicKey value =>
          exact Or.inl fun v => (filing_maybeInitialize _ w v).trans (s.setView_congr filing (by rfl) v)
      | paymentMethod value =>
          exact Or.inl fun v => (filing_maybeInitialize _ w v).trans (s.setView_congr filing (by rfl) v)
      | other => exact Or.inl fun v => (filing_maybeInitialize _ w v).trans (s.setView_congr filing (by rfl) v)
  | beginInitialize a =>
      refine Or.inl fun v => State.beginInitialize_keeps (P := fun t => filing (t.view v) = filing (s.view v)) rfl
        fun _ => ?_
      exact s.setView_congr filing (by rfl) v
  | finishInitialize a c =>
      refine Or.inl fun v => State.finishInitialize_keeps (P := fun t => filing (t.view v) = filing (s.view v)) rfl
        (fun isValid => ?_) fun _ _ h => h
      exact s.setView_congr filing (by rfl) v
  | onChange w c => exact Or.inl fun v => s.setView_congr filing (by rfl) v
  | deinit w => exact Or.inl fun v => rfl
  | submit id order =>
      refine Or.inl fun v => ?_
      change filing ((ApplePayModule.submit s id order).view v) = _
      rw [(ApplePayModule.submit_same s id order).1.view]
  | bridgeHandleSubmit w id secret data r =>
      exact Or.inl fun v => s.storeContinuation_congr filing (fun x m ch => by cases ch <;> rfl) .submit w r v
  | bridgeOnTokenized w r =>
      exact Or.inl fun v => s.storeContinuation_congr filing (fun x m ch => by cases ch <;> rfl) .tokenized w r v
  | handleSubmitResponse r success data order => exact Or.inl (filing_route s r order _)
  | handleTokenizedResponse r accepted message order => exact Or.inl (filing_route s r order _)

/-! ## The index -/

def OnlyCurrent (s : State D) : Prop := ∀ v k, s.Live v → k ∈ (s.view v).givenIDs → key (s.view v) = some k

/-- Since a live view stays filed under all it was given, the registry is an index exactly if that is the current id. -/
theorem indexed_iff {s : State D} (h : s.Inv Session) (hd : Distinct s) : Indexed s ↔ OnlyCurrent s := by
  have hmem : ∀ v k, s.Live v → (v ∈ s.targets k ↔ k ∈ (s.view v).givenIDs) := by
    intro v k hl
    rw [s.mem_targets_iff]
    exact ⟨h.filed.given v k, h.filed.registered v k hl⟩
  constructor
  · intro hi v k hl hk
    have hcount := hi v k hl
    have hpos : 0 < (s.targets k).count v := List.count_pos_iff.mpr ((hmem v k hl).mpr hk)
    by_contra hne
    rw [if_neg hne] at hcount
    omega
  · intro ho v k hl
    split
    · next hkey => exact List.count_eq_one_of_mem (hd k) ((hmem v k hl).mpr (h.filed.current v k hkey))
    · next hkey => exact List.count_eq_zero.mpr fun hin => hkey (ho v k hl ((hmem v k hl).mp hin))

theorem onlyCurrent_of_filing {s t : State D} (hf : ∀ v, filing (t.view v) = filing (s.view v)) :
    OnlyCurrent t ↔ OnlyCurrent s := by
  have hphase : ∀ v, (t.view v).phase = (s.view v).phase := fun v => congrArg Prod.fst (hf v)
  have hid : ∀ v, (t.view v).paymentSessionID = (s.view v).paymentSessionID :=
    fun v => congrArg (fun x => x.2.1) (hf v)
  have hlive : ∀ v, t.Live v ↔ s.Live v := fun v => by rw [State.Live, State.Live, hphase]
  have hkey : ∀ v, key (t.view v) = key (s.view v) := fun v => by rw [key, key, hid]
  have hgiven : ∀ v, (t.view v).givenIDs = (s.view v).givenIDs := fun v => congrArg (fun x => x.2.2) (hf v)
  simp only [OnlyCurrent, hlive, hkey, hgiven]

theorem onlyCurrent_setProperty {s : State D} (h : s.Inv Session) (ho : OnlyCurrent s) {v : ViewId} (hv : s.Live v)
    (value : Option String) :
    OnlyCurrent (s.setProperty v (.paymentSessionID value)) ↔
      key (s.view v) = none ∨ key ((s.view v).set (.paymentSessionID value)) = key (s.view v) := by
  have hview : (s.setProperty v (.paymentSessionID value)).view =
      (s.setView v ((s.view v).set (.paymentSessionID value))).view := by
    have hreg := (State.register_same (s.setView v ((s.view v).set (.paymentSessionID value))) v).view
    rcases State.maybeInitialize_cases
      ((s.setView v ((s.view v).set (.paymentSessionID value))).register v) v with heq | ⟨_, _, _, -, heq⟩
    · exact (congrArg State.view heq).trans hreg
    · exact (congrArg State.view heq).trans hreg
  have hself : (s.setProperty v (.paymentSessionID value)).view v = (s.view v).set (.paymentSessionID value) := by
    rw [hview, State.setView_view_self]
  have hother : ∀ w, w ≠ v → (s.setProperty v (.paymentSessionID value)).view w = s.view w := fun w hw => by
    rw [hview, State.setView_view_of_ne s _ hw]
  constructor
  · intro ho'
    cases hkey : key (s.view v) with
    | none => exact Or.inl rfl
    | some k =>
        refine Or.inr ?_
        have hlive : (s.setProperty v (.paymentSessionID value)).Live v := by
          rw [State.Live, hself]
          exact hv
        have hgiven : k ∈ ((s.setProperty v (.paymentSessionID value)).view v).givenIDs := by
          rw [hself]
          exact (State.mem_givenIDs_set _ _ k).mpr (Or.inl (h.filed.current v k hkey))
        rw [← hself]
        exact ho' v k hlive hgiven
  · rintro hkeep w k hl hk
    by_cases hw : w = v
    · subst hw
      rw [hself] at hk ⊢
      rcases (State.mem_givenIDs_set _ _ k).mp hk with hk | ⟨hne, hk⟩
      · have hcur : key (s.view w) = some k := ho w k hv hk
        rcases hkeep with hnone | hsame
        · rw [hnone] at hcur
          cases hcur
        · exact hsame.trans hcur
      · rw [State.key_eq_some_iff]
        exact ⟨hne, Property.paymentSessionID.inj hk⟩
    · rw [hother w hw] at hk ⊢
      refine ho w k ?_ hk
      rwa [State.Live, hother w hw] at hl

/-- **A step keeps the index exactly if it is no change of a view's id.** -/
theorem indexed_step (s : State D) (e : Event) (h : s.Inv Session ∧ Distinct s) (hi : Indexed s)
    (he : (machine Session decode).allowed s e) : Indexed ((machine Session decode).step s e) ↔ KeepsId s e := by
  have ho := (indexed_iff h.1 h.2).mp hi
  have hinv : ((machine Session decode).step s e).Inv Session := inv_step s e h.1 he
  rw [indexed_iff hinv (distinct_step s e h.2)]
  by_cases hset : ∃ w value, e = .setProperty w (.paymentSessionID value)
  · obtain ⟨w, value, rfl⟩ := hset
    exact (onlyCurrent_setProperty h.1 ho he.1 value).trans (keepsId_set_iff s w value).symm
  · refine iff_of_true ?_ fun v value heq => absurd ⟨v, value, heq⟩ hset
    rcases filing_step Session decode s e with hf | ⟨w, c, rfl⟩ | ⟨w, rfl⟩ | hset'
    · exact (onlyCurrent_of_filing hf).mpr ho
    · -- the new view was given no id yet
      have hview : ((machine Session decode).step s (.create w c)).view = (s.setView w ((s.view w).create c)).view :=
        (State.register_same _ w).view
      intro v k hl hk
      rw [State.Live, hview, State.setView_view] at hl
      rw [hview, State.setView_view] at hk ⊢
      split at hk
      · change k ∈ (s.view w).givenIDs at hk
        rw [h.1.filed.absent w he] at hk
        cases hk
      · next hne =>
          rw [if_neg hne] at hl ⊢
          exact ho v k hl hk
    · -- one live view less
      intro v k hl hk
      change ((s.dealloc w).view v).phase = .live at hl
      change k ∈ ((s.dealloc w).view v).givenIDs at hk
      change key ((s.dealloc w).view v) = some k
      rw [State.dealloc, State.setView_view] at hl hk ⊢
      split at hl
      · cases hl
      · next hne =>
          rw [if_neg hne] at hk ⊢
          exact ho v k hl hk
    · exact absurd hset' hset

/-- **A run keeps the index throughout exactly if none of its assignments changes a view's id** to another one or to
none. -/
theorem indexed_throughout_iff (Session : Set String) (decode : String → Option D) (es : List Event)
    (h : (machine Session decode).Admits (machine Session decode).init es) :
    (machine Session decode).Throughout Indexed (machine Session decode).init es ↔
      ((machine Session decode).restrict KeepsId).Admits (machine Session decode).init es := by
  refine Machine.throughout_iff_restrict (fun s e hs he => ⟨inv_step s e hs.1 he, distinct_step s e hs.2⟩) indexed_step
    ⟨inv_init, fun k => List.nodup_nil⟩ ?_ h
  intro v k hl
  cases hl

/-- Two views of one session, the second of which is given its id again. -/
theorem indexed_throughout_shared :
    let M := machine (D := Unit) {"ps_1"} fun _ => none
    let es : List Event := [.create 0 .card, .setProperty 0 (.paymentSessionID (some "ps_1")), .create 1 .applePay,
      .setProperty 1 (.paymentSessionID (some "ps_1")), .setProperty 1 (.paymentSessionID (some "ps_1"))]
    M.Throughout Indexed M.init es := by
  intro M es
  have hadm : M.Admits M.init es :=
    ⟨rfl, ⟨rfl, Property.session_mem rfl⟩, rfl, ⟨rfl, Property.session_mem rfl⟩, ⟨rfl, Property.session_mem rfl⟩,
      trivial⟩
  refine (indexed_throughout_iff {"ps_1"} (fun _ => none) es hadm).mpr ?_
  obtain ⟨h1, h2, h3, h4, h5, -⟩ := hadm
  refine ⟨⟨h1, fun v value h => by cases h⟩, ⟨h2, ?_⟩, ⟨h3, fun v value h => by cases h⟩, ⟨h4, ?_⟩, ⟨h5, ?_⟩, trivial⟩
  · exact (keepsId_set_iff _ 0 _).mpr (Or.inl (by decide))
  · exact (keepsId_set_iff _ 1 _).mpr (Or.inl (by decide))
  · exact (keepsId_set_iff _ 1 _).mpr (Or.inr (by decide))

/-- **A changed id**: the view stays filed under its first session, and under both when its id is cleared. -/
theorem changed_id_stays_filed :
    let M := machine (D := Unit) {"ps_1", "ps_2"} fun _ => none
    let es : List Event := [.create 0 .card, .setProperty 0 (.paymentSessionID (some "ps_1")),
      .setProperty 0 (.paymentSessionID (some "ps_2")), .setProperty 0 (.paymentSessionID none)]
    let s := M.run M.init es
    M.Reachable s ∧ s.Live 0 ∧ key (s.view 0) = none ∧ s.targets "ps_1" = [0] ∧ s.targets "ps_2" = [0] ∧
      ¬ Indexed s := by
  intro M es s
  refine ⟨Machine.Reachable.of_admits ⟨rfl, ⟨rfl, Property.session_mem (Or.inl rfl)⟩,
    ⟨rfl, Property.session_mem (Or.inr rfl)⟩, ⟨rfl, nofun⟩, trivial⟩, rfl, rfl, rfl, rfl, fun hi => ?_⟩
  exact absurd (hi 0 "ps_1" rfl) (by decide)

end FlowDemo.Ios
