import Mathlib.Data.List.Basic

/-!
# The props a payment view is built with

React Native sets the props of a view in transactions, one call a prop. An SDK session takes three of them, and the
three belong together only as they stand when a transaction has ended.

* `Props.triple`: the three props, once they are there and none is empty;
* `current`: how they stand now, given how they stood at the end of each transaction;
* `FromTransactions`: every session was built with a triple that stood at the end of one.
-/

namespace FlowDemo

/-- A prop and its new value, which is absent for `null`; of the `other` props no value counts. -/
inductive PropUpdate
  | paymentSessionID (value : Option String)
  | paymentSessionSecret (value : Option String)
  | publicKey (value : Option String)
  | other

structure Props where
  paymentSessionID : Option String := none
  paymentSessionSecret : Option String := none
  publicKey : Option String := none
  deriving DecidableEq

structure Triple where
  paymentSessionID : String
  paymentSessionSecret : String
  publicKey : String
  deriving DecidableEq

def Triple.props (t : Triple) : Props := ⟨some t.paymentSessionID, some t.paymentSessionSecret, some t.publicKey⟩

theorem Triple.props_injective : Function.Injective Triple.props := by
  rintro ⟨id, secret, key⟩ ⟨id', secret', key'⟩ h
  cases h
  rfl

def PropUpdate.Sets (t : Triple) : PropUpdate → Prop
  | .paymentSessionID value => value = some t.paymentSessionID
  | .paymentSessionSecret value => value = some t.paymentSessionSecret
  | .publicKey value => value = some t.publicKey
  | .other => True

namespace Props

def set (p : Props) : PropUpdate → Props
  | .paymentSessionID value => { p with paymentSessionID := value }
  | .paymentSessionSecret value => { p with paymentSessionSecret := value }
  | .publicKey value => { p with publicKey := value }
  | .other => p

def setAll (p : Props) (ps : List PropUpdate) : Props := ps.foldl set p

def triple (p : Props) : Option Triple :=
  match p.paymentSessionID, p.paymentSessionSecret, p.publicKey with
  | some id, some secret, some key =>
      if id.isEmpty || secret.isEmpty || key.isEmpty then none else some ⟨id, secret, key⟩
  | _, _, _ => none

/-- The triples the props pass through in a transaction, one prop after the other. -/
def passes (p : Props) : List PropUpdate → List Triple
  | [] => []
  | u :: ps => (p.set u).triple.toList ++ passes (p.set u) ps

theorem props_of_triple {p : Props} {t : Triple} (h : p.triple = some t) : t.props = p := by
  obtain ⟨id, secret, key⟩ := p
  unfold triple at h
  split at h
  · next h1 h2 h3 =>
      dsimp only at h1 h2 h3
      split at h
      · cases h
      · rw [h1, h2, h3, ← Option.some.inj h]
        rfl
  · cases h

def Paired (secretOf : String → String) (p : Props) : Prop :=
  ∀ id secret, p.paymentSessionID = some id → p.paymentSessionSecret = some secret → secret = secretOf id

theorem triple_getD (p : Props) : p.triple =
    if (p.paymentSessionID.getD "").isEmpty || (p.paymentSessionSecret.getD "").isEmpty ||
        (p.publicKey.getD "").isEmpty then none
    else some ⟨p.paymentSessionID.getD "", p.paymentSessionSecret.getD "", p.publicKey.getD ""⟩ := by
  obtain ⟨id, secret, key⟩ := p
  cases id with
  | none => rfl
  | some id => cases secret with
    | none => simp [triple]
    | some secret => cases key with
      | none => simp [triple]
      | some key => rfl

/-! ## Props on their way to a triple -/

/-- What is there is as `t` has it. -/
structure Toward (t : Triple) (p : Props) : Prop where
  id : ∀ x, p.paymentSessionID = some x → x = t.paymentSessionID
  secret : ∀ x, p.paymentSessionSecret = some x → x = t.paymentSessionSecret
  key : ∀ x, p.publicKey = some x → x = t.publicKey

theorem toward_none (t : Triple) : Toward t {} := ⟨nofun, nofun, nofun⟩

theorem Toward.set {t : Triple} {p : Props} (h : Toward t p) {u : PropUpdate} (hu : u.Sets t) :
    Toward t (p.set u) := by
  cases u with
  | paymentSessionID value => exact ⟨fun x hx => Option.some.inj (hx.symm.trans hu), h.secret, h.key⟩
  | paymentSessionSecret value => exact ⟨h.id, fun x hx => Option.some.inj (hx.symm.trans hu), h.key⟩
  | publicKey value => exact ⟨h.id, h.secret, fun x hx => Option.some.inj (hx.symm.trans hu)⟩
  | other => exact h

theorem Toward.triple {t t' : Triple} {p : Props} (h : Toward t p) (ht : p.triple = some t') : t' = t := by
  rw [← props_of_triple ht] at h
  obtain ⟨id, secret, key⟩ := t'
  rw [h.id id rfl, h.secret secret rfl, h.key key rfl]

/-- **Nothing but `t` is passed through** on the way to `t`. -/
theorem Toward.passes {t : Triple} {p : Props} (h : Toward t p) {ps : List PropUpdate} (hps : ∀ u ∈ ps, u.Sets t) :
    ∀ t' ∈ p.passes ps, t' = t := by
  induction ps generalizing p with
  | nil => exact fun _ ht => absurd ht List.not_mem_nil
  | cons u ps ih =>
      intro t' ht
      have hset := h.set (hps u List.mem_cons_self)
      rcases List.mem_append.mp ht with ht | ht
      · exact hset.triple (Option.mem_toList.mp ht)
      · exact ih hset (fun u' hu' => hps u' (List.mem_cons_of_mem _ hu')) t' ht

theorem set_of_sets {t : Triple} {u : PropUpdate} (hu : u.Sets t) : t.props.set u = t.props := by
  cases u with
  | other => rfl
  | paymentSessionID value =>
      obtain rfl : value = _ := hu
      rfl
  | paymentSessionSecret value =>
      obtain rfl : value = _ := hu
      rfl
  | publicKey value =>
      obtain rfl : value = _ := hu
      rfl

/-- **From one triple to another** with the same id or the same secret, nothing else is passed through. -/
theorem passes_between {t t' : Triple}
    (hsame : t.paymentSessionID = t'.paymentSessionID ∨ t.paymentSessionSecret = t'.paymentSessionSecret)
    (hkey : t.publicKey = t'.publicKey) {p : Props} (hp : p = t.props ∨ p = t'.props) {ps : List PropUpdate}
    (hps : ∀ u ∈ ps, u.Sets t') : ∀ x ∈ p.passes ps, x = t ∨ x = t' := by
  induction ps generalizing p with
  | nil => exact fun _ hx => absurd hx List.not_mem_nil
  | cons u ps ih =>
      have hu := hps u List.mem_cons_self
      have hset : p.set u = t.props ∨ p.set u = t'.props := by
        rcases hp with rfl | rfl
        · obtain ⟨id, secret, key⟩ := t
          obtain ⟨id', secret', key'⟩ := t'
          dsimp only at hsame hkey
          subst hkey
          cases u with
          | paymentSessionID value =>
              obtain rfl : value = some id' := hu
              exact hsame.imp (fun h => by rw [h]; rfl) fun h => by rw [h]; rfl
          | paymentSessionSecret value =>
              obtain rfl : value = some secret' := hu
              exact hsame.symm.imp (fun h => by rw [h]; rfl) fun h => by rw [h]; rfl
          | publicKey value =>
              obtain rfl : value = some key := hu
              exact Or.inl rfl
          | other => exact Or.inl rfl
        · exact Or.inr (set_of_sets hu)
      intro x hx
      rcases List.mem_append.mp hx with hx | hx
      · have htriple := props_of_triple (Option.mem_toList.mp hx)
        exact hset.imp (fun h => Triple.props_injective (htriple.trans h)) fun h =>
          Triple.props_injective (htriple.trans h)
      · exact ih hset (fun u' hu' => hps u' (List.mem_cons_of_mem _ hu')) x hx

/-- **A transaction ends with `t`** if it sets nothing else and all that is not there yet. -/
theorem setAll_eq {t : Triple} {p : Props} {ps : List PropUpdate} (hps : ∀ u ∈ ps, u.Sets t)
    (hid : p.paymentSessionID = some t.paymentSessionID ∨ .paymentSessionID (some t.paymentSessionID) ∈ ps)
    (hsecret : p.paymentSessionSecret = some t.paymentSessionSecret ∨
      .paymentSessionSecret (some t.paymentSessionSecret) ∈ ps)
    (hkey : p.publicKey = some t.publicKey ∨ .publicKey (some t.publicKey) ∈ ps) : p.setAll ps = t.props := by
  induction ps generalizing p with
  | nil =>
      obtain ⟨id, secret, key⟩ := p
      rw [Triple.props, ← hid.resolve_right List.not_mem_nil, ← hsecret.resolve_right List.not_mem_nil,
        ← hkey.resolve_right List.not_mem_nil]
      rfl
  | cons u ps ih =>
      have hu := hps u List.mem_cons_self
      have hrest : ∀ u' ∈ ps, u'.Sets t := fun u' hu' => hps u' (List.mem_cons_of_mem _ hu')
      cases u with
      | paymentSessionID value =>
          refine ih hrest (Or.inl hu) (hsecret.imp_right fun h => ?_) (hkey.imp_right fun h => ?_)
          · simpa using h
          · simpa using h
      | paymentSessionSecret value =>
          refine ih hrest (hid.imp_right fun h => ?_) (Or.inl hu) (hkey.imp_right fun h => ?_)
          · simpa using h
          · simpa using h
      | publicKey value =>
          refine ih hrest (hid.imp_right fun h => ?_) (hsecret.imp_right fun h => ?_) (Or.inl hu)
          · simpa using h
          · simpa using h
      | other =>
          refine ih hrest (hid.imp_right fun h => ?_) (hsecret.imp_right fun h => ?_) (hkey.imp_right fun h => ?_)
          · simpa using h
          · simpa using h
          · simpa using h

end Props

/-! ## How the props stood -/

/-- The props of a view now, from those at the end of each transaction. -/
def current (ends : List Props) : Props := ends.getLast?.getD {}

@[simp] theorem current_append (ends : List Props) (p : Props) : current (ends ++ [p]) = p := by
  simp [current]

theorem mem_of_current {ends : List Props} {t : Triple} (h : (current ends).triple = some t) : t.props ∈ ends := by
  have hprops := Props.props_of_triple h
  unfold current at hprops
  cases hlast : ends.getLast? with
  | none =>
      rw [hlast] at hprops
      cases hprops
  | some p =>
      rw [hlast, Option.getD_some] at hprops
      rw [hprops]
      exact List.mem_of_getLast? hlast

/-! ## What the sessions are built with -/

/-- **Each session of a view was built with the props as they stood at the end of a transaction**, and so never with
the secret of another session, if the secrets go with the ids at the end of every transaction. -/
structure FromTransactions (ends : Nat → List Props) (built : List (Nat × Triple)) : Prop where
  stood : ∀ x ∈ built, x.2.props ∈ ends x.1
  paired : ∀ secretOf, (∀ v, ∀ p ∈ ends v, p.Paired secretOf) → ∀ x ∈ built, x.2.props.Paired secretOf

theorem fromTransactions_iff {ends : Nat → List Props} {built : List (Nat × Triple)} :
    FromTransactions ends built ↔ ∀ x ∈ built, x.2.props ∈ ends x.1 :=
  ⟨fun h => h.stood, fun h => ⟨h, fun _ hpaired x hx => hpaired x.1 x.2.props (h x hx)⟩⟩

end FlowDemo
