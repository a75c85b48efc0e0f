import Mathlib.Data.List.Count
import FlowDemo.Lib.Machine

/-!
# Relayed requests

A request travels to a far side, where any number of listeners hear it at once. Each works on it, and its answer travels
back, each message on its own way and at its own time. A request has one id, and the far side knows it by that id alone.
A request that no one hears is lost.

* `Sound`: a request is on its way or was heard, each hearing is in one place at a time, and every answer is one to its
  own request;
* `sound_step`: no step loses, doubles or crosses one;
* `Place`: where a request can be.
-/

namespace FlowDemo.Relay

/-! ## Messages known by a key -/

section

variable {κ α : Type*} [DecidableEq κ]

/-- The number of messages under `k`. -/
def copies (l : List (κ × α)) (k : κ) : Nat := (l.map Prod.fst).count k

/-- All but the first message under `k`. -/
def without (l : List (κ × α)) (k : κ) : List (κ × α) := l.eraseP fun x => k == x.1

theorem copies_append (l l' : List (κ × α)) (k : κ) : copies (l ++ l') k = copies l k + copies l' k := by
  unfold copies
  rw [List.map_append, List.count_append]

theorem copies_replicate (n : Nat) (k : κ) (a : α) (k' : κ) :
    copies (List.replicate n (k, a)) k' = if k = k' then n else 0 := by
  unfold copies
  rw [List.map_replicate, List.count_replicate]
  by_cases h : k = k' <;> simp [h]

theorem copies_concat (l : List (κ × α)) (k : κ) (a : α) (k' : κ) :
    copies (l ++ [(k, a)]) k' = copies l k' + if k = k' then 1 else 0 := by
  rw [copies_append]
  exact congrArg (copies l k' + ·) (copies_replicate 1 k a k')

theorem copies_pos_iff {l : List (κ × α)} {k : κ} : 0 < copies l k ↔ ∃ a, (k, a) ∈ l := by
  unfold copies
  rw [List.count_pos_iff]
  simp

theorem copies_pos {l : List (κ × α)} {k : κ} {a : α} (h : (k, a) ∈ l) : 0 < copies l k := copies_pos_iff.mpr ⟨a, h⟩

theorem copies_eq_zero_iff {l : List (κ × α)} {k : κ} : copies l k = 0 ↔ ∀ a, (k, a) ∉ l := by
  rw [← Nat.le_zero, ← not_lt, copies_pos_iff, not_exists]

theorem copies_without_add {l : List (κ × α)} {k : κ} (h : 0 < copies l k) (k' : κ) :
    copies (without l k) k' + (if k = k' then 1 else 0) = copies l k' := by
  have hmap : (without l k).map Prod.fst = (l.map Prod.fst).erase k := by
    rw [List.erase_eq_eraseP, List.eraseP_map]
    rfl
  have hcount : copies (without l k) k' = copies l k' - if k == k' then 1 else 0 := by
    unfold copies
    rw [hmap, List.count_erase]
  by_cases hk : k = k'
  · subst hk
    rw [hcount, beq_self_eq_true, if_pos rfl, if_pos rfl]
    omega
  · rw [hcount, beq_false_of_ne hk, if_neg hk]
    rfl

theorem mem_without {l : List (κ × α)} {k : κ} {x : κ × α} (h : x ∈ without l k) : x ∈ l := List.mem_of_mem_eraseP h

theorem mem_of_lookup {l : List (κ × α)} {k : κ} {a : α} (h : l.lookup k = some a) : (k, a) ∈ l := by
  obtain ⟨before, after, rfl, -⟩ := List.lookup_eq_some_iff.mp h
  exact List.mem_append_right _ List.mem_cons_self

theorem lookup_eq_none_iff {l : List (κ × α)} {k : κ} : l.lookup k = none ↔ copies l k = 0 := by
  rw [List.lookup_eq_none_iff, copies_eq_zero_iff]
  constructor
  · intro h a ha
    exact absurd rfl (bne_iff_ne.mp (h _ ha))
  · intro h x hx
    refine bne_iff_ne.mpr fun hk => h x.2 ?_
    rw [hk]
    exact hx

theorem lookup_concat (l : List (κ × α)) (k : κ) (a : α) (k' : κ) :
    (l ++ [(k, a)]).lookup k' = (l.lookup k').or (if k = k' then some a else none) := by
  rw [List.lookup_append]
  by_cases hk : k = k'
  · rw [if_pos hk, hk, List.lookup_cons_self]
  · rw [if_neg hk, List.lookup_cons, beq_false_of_ne (Ne.symm hk)]
    rfl

end

/-! ## Requests and answers -/

/-- The requests made, those on their way, those heard and by how many, those worked on, the answers on their way back,
and those that arrived. -/
structure State (κ Q A : Type*) where
  asked : List (κ × Q) := []
  travelling : List (κ × Q) := []
  heard : List (κ × Nat) := []
  working : List (κ × Q) := []
  returning : List (κ × A) := []
  delivered : List (κ × A) := []

inductive Event (κ Q A : Type*)
  | ask (k : κ) (q : Q)
  /-- all who listen, so many, hear the request -/
  | hear (k : κ) (listeners : Nat)
  | finish (k : κ) (a : A)
  | deliver (k : κ)

variable {κ Q A : Type*} [DecidableEq κ] (Answers : κ → Q → A → Prop)

/-- An id is used once, and the answer is one to the request. -/
def allowed (s : State κ Q A) : Event κ Q A → Prop
  | .ask k _ => ∀ q, (k, q) ∉ s.asked
  | .hear k _ => ∃ q, s.travelling.lookup k = some q
  | .finish k a => ∃ q, s.working.lookup k = some q ∧ Answers k q a
  | .deliver k => ∃ a, s.returning.lookup k = some a

def step (s : State κ Q A) : Event κ Q A → State κ Q A
  | .ask k q => { s with asked := s.asked ++ [(k, q)], travelling := s.travelling ++ [(k, q)] }
  | .hear k n => match s.travelling.lookup k with
      | none => s
      | some q => { s with
          travelling := without s.travelling k
          heard := s.heard ++ [(k, n)]
          working := s.working ++ List.replicate n (k, q) }
  | .finish k a => { s with working := without s.working k, returning := s.returning ++ [(k, a)] }
  | .deliver k => match s.returning.lookup k with
      | none => s
      | some a => { s with returning := without s.returning k, delivered := s.delivered ++ [(k, a)] }

def machine : Machine (State κ Q A) (Event κ Q A) := ⟨{}, allowed Answers, step⟩

/-- How many heard a request. -/
def State.hearers (s : State κ Q A) (k : κ) : Nat := (s.heard.lookup k).getD 0

/-- In how many places the hearings of a request are. -/
def State.places (s : State κ Q A) (k : κ) : Nat :=
  copies s.working k + copies s.returning k + copies s.delivered k

/-- **A request made is on its way or was heard**, once, and each hearing of it is in one place; an id stands for one
request, and an answer is one to the request of its id. -/
structure Sound (s : State κ Q A) : Prop where
  once : ∀ k, copies s.asked k ≤ 1
  heard : ∀ k, copies s.travelling k + copies s.heard k = copies s.asked k
  places : ∀ k, s.places k = s.hearers k
  travelling : ∀ x ∈ s.travelling, x ∈ s.asked
  working : ∀ x ∈ s.working, x ∈ s.asked
  returning : ∀ x ∈ s.returning, ∃ q, (x.1, q) ∈ s.asked ∧ Answers x.1 q x.2
  delivered : ∀ x ∈ s.delivered, ∃ q, (x.1, q) ∈ s.asked ∧ Answers x.1 q x.2

variable {Answers} {s : State κ Q A}

theorem hearers_of_lookup {k : κ} {n : Nat} (h : s.heard.lookup k = some n) : s.hearers k = n := by
  unfold State.hearers
  rw [h, Option.getD_some]

theorem hear_eq {k : κ} {q : Q} (hk : s.travelling.lookup k = some q) (n : Nat) :
    step s (.hear k n) = { s with
      travelling := without s.travelling k
      heard := s.heard ++ [(k, n)]
      working := s.working ++ List.replicate n (k, q) } := by
  simp only [step, hk]

theorem deliver_eq {k : κ} {a : A} (hk : s.returning.lookup k = some a) :
    step s (.deliver k) =
      { s with returning := without s.returning k, delivered := s.delivered ++ [(k, a)] } := by
  simp only [step, hk]

/-! ## Steps -/

theorem sound_init : Sound Answers (machine Answers).init := by
  constructor
  case once => exact fun _ => Nat.zero_le 1
  case heard => exact fun _ => rfl
  case places => exact fun _ => rfl
  case travelling => exact fun x hx => absurd hx List.not_mem_nil
  case working => exact fun x hx => absurd hx List.not_mem_nil
  case returning => exact fun x hx => absurd hx List.not_mem_nil
  case delivered => exact fun x hx => absurd hx List.not_mem_nil

section

variable (h : Sound Answers s)

include h

/-- **Two requests under one id are the same.** -/
theorem Sound.unique {k : κ} {q q' : Q} (hq : (k, q) ∈ s.asked) (hq' : (k, q') ∈ s.asked) : q = q' := by
  have honce := h.once k
  obtain ⟨before, after, hsplit⟩ := List.append_of_mem hq
  have hcount : copies s.asked k = copies before k + (1 + copies after k) := by
    unfold copies
    rw [hsplit, List.map_append, List.count_append, List.map_cons, List.count_cons_self, Nat.add_comm 1]
  rw [hsplit] at hq'
  rcases List.mem_append.mp hq' with hmem | hmem
  · have hpos := copies_pos hmem
    omega
  · rcases List.mem_cons.mp hmem with heq | hmem
    · exact (Prod.mk.inj heq).2.symm
    · have hpos := copies_pos hmem
      omega

theorem Sound.lookup_working {k : κ} {q : Q} (hq : (k, q) ∈ s.asked) (hk : 0 < copies s.working k) :
    s.working.lookup k = some q := by
  cases hl : s.working.lookup k with
  | none =>
      rw [lookup_eq_none_iff.mp hl] at hk
      exact absurd hk (Nat.lt_irrefl 0)
  | some q' => rw [h.unique (h.working _ (mem_of_lookup hl)) hq]

theorem Sound.not_heard {k : κ} {q : Q} (hk : (k, q) ∈ s.travelling) : s.heard.lookup k = none := by
  have hpos := copies_pos hk
  have hone := h.once k
  have hheard := h.heard k
  exact lookup_eq_none_iff.mpr (by omega)

theorem Sound.not_heard_of_not_asked {k : κ} (hk : ∀ q, (k, q) ∉ s.asked) : s.heard.lookup k = none := by
  have hheard := h.heard k
  rw [copies_eq_zero_iff.mpr hk] at hheard
  exact lookup_eq_none_iff.mpr (Nat.eq_zero_of_add_eq_zero_left hheard)

/-- Without a listener there is no answer. -/
theorem Sound.lookup_delivered {k : κ} (hk : s.hearers k = 0) : s.delivered.lookup k = none := by
  have hplaces := h.places k
  unfold State.places at hplaces
  exact lookup_eq_none_iff.mpr (by omega)

theorem Sound.hearers_hear {k : κ} {q : Q} (hk : s.travelling.lookup k = some q) (n : Nat) :
    (step s (.hear k n)).hearers = Function.update s.hearers k n := by
  have hnone := h.not_heard (mem_of_lookup hk)
  funext k'
  rw [hear_eq hk]
  unfold State.hearers
  rw [lookup_concat]
  by_cases hk' : k = k'
  · subst hk'
    rw [hnone, Option.none_or, if_pos rfl, Option.getD_some, Function.update_self]
  · rw [if_neg hk', Option.or_none, Function.update_of_ne (Ne.symm hk')]

theorem sound_ask {k : κ} (hk : ∀ q, (k, q) ∉ s.asked) (q : Q) : Sound Answers (step s (.ask k q)) := by
  have hzero := copies_eq_zero_iff.mpr hk
  have hasked : ∀ x ∈ s.asked, x ∈ s.asked ++ [(k, q)] := fun x hx => List.mem_append_left _ hx
  have hanswer : ∀ x : κ × A, (∃ q, (x.1, q) ∈ s.asked ∧ Answers x.1 q x.2) →
      ∃ q', (x.1, q') ∈ s.asked ++ [(k, q)] ∧ Answers x.1 q' x.2 := by
    rintro x ⟨q', hq', ha⟩
    exact ⟨q', hasked _ hq', ha⟩
  constructor
  case once =>
    intro k'
    have honce := h.once k'
    change copies (s.asked ++ [(k, q)]) k' ≤ 1
    rw [copies_concat]
    by_cases hk' : k = k'
    · subst hk'
      rw [hzero, if_pos rfl]
    · rw [if_neg hk']
      exact honce
  case heard =>
    intro k'
    have hheard := h.heard k'
    change copies (s.travelling ++ [(k, q)]) k' + copies s.heard k' = copies (s.asked ++ [(k, q)]) k'
    rw [copies_concat, copies_concat]
    omega
  case places => exact h.places
  case travelling =>
    intro x hx
    rcases List.mem_append.mp hx with hx | hx
    · exact hasked x (h.travelling x hx)
    · exact List.mem_append_right _ hx
  case working => exact fun x hx => hasked x (h.working x hx)
  case returning => exact fun x hx => hanswer x (h.returning x hx)
  case delivered => exact fun x hx => hanswer x (h.delivered x hx)

theorem sound_hear {k : κ} {q : Q} (hk : s.travelling.lookup k = some q) (n : Nat) :
    Sound Answers (step s (.hear k n)) := by
  have hmem := mem_of_lookup hk
  have hhearers := h.hearers_hear hk n
  rw [hear_eq hk] at hhearers ⊢
  constructor
  case once => exact h.once
  case heard =>
    intro k'
    have hheard := h.heard k'
    have hmove := copies_without_add (copies_pos hmem) k'
    change copies (without s.travelling k) k' + copies (s.heard ++ [(k, n)]) k' = copies s.asked k'
    rw [copies_concat]
    omega
  case places =>
    intro k'
    have hplaces := h.places k'
    rw [hhearers]
    unfold State.places at hplaces ⊢
    dsimp only
    rw [copies_append, copies_replicate]
    by_cases hk' : k = k'
    · subst hk'
      rw [State.hearers, h.not_heard hmem, Option.getD_none] at hplaces
      rw [Function.update_self, if_pos rfl]
      omega
    · rw [Function.update_of_ne (Ne.symm hk'), if_neg hk']
      omega
  case travelling => exact fun x hx => h.travelling x (mem_without hx)
  case working =>
    intro x hx
    rcases List.mem_append.mp hx with hx | hx
    · exact h.working x hx
    · rw [List.eq_of_mem_replicate hx]
      exact h.travelling _ hmem
  case returning => exact h.returning
  case delivered => exact h.delivered

theorem sound_finish {k : κ} {q : Q} {a : A} (hk : s.working.lookup k = some q) (ha : Answers k q a) :
    Sound Answers (step s (.finish k a)) := by
  have hmem := mem_of_lookup hk
  refine ⟨h.once, h.heard, fun k' => ?_, h.travelling, fun x hx => h.working x (mem_without hx), fun x hx => ?_,
    h.delivered⟩
  · have hplaces := h.places k'
    have hmove := copies_without_add (copies_pos hmem) k'
    change copies (without s.working k) k' + copies (s.returning ++ [(k, a)]) k' + copies s.delivered k' = s.hearers k'
    unfold State.places at hplaces
    rw [copies_concat]
    omega
  · rcases List.mem_append.mp hx with hx | hx
    · exact h.returning x hx
    · rw [List.mem_singleton.mp hx]
      exact ⟨q, h.working _ hmem, ha⟩

theorem sound_deliver {k : κ} {a : A} (hk : s.returning.lookup k = some a) : Sound Answers (step s (.deliver k)) := by
  have hmem := mem_of_lookup hk
  rw [deliver_eq hk]
  refine ⟨h.once, h.heard, fun k' => ?_, h.travelling, h.working, fun x hx => h.returning x (mem_without hx),
    fun x hx => ?_⟩
  · have hplaces := h.places k'
    have hmove := copies_without_add (copies_pos hmem) k'
    change copies s.working k' + copies (without s.returning k) k' + copies (s.delivered ++ [(k, a)]) k' = s.hearers k'
    unfold State.places at hplaces
    rw [copies_concat]
    omega
  · rcases List.mem_append.mp hx with hx | hx
    · exact h.delivered x hx
    · rw [List.mem_singleton.mp hx]
      exact h.returning _ hmem

end

/-- **Nothing is lost, doubled or crossed** by a step. -/
theorem sound_step (s : State κ Q A) (e : Event κ Q A) (h : Sound Answers s) (he : (machine Answers).allowed s e) :
    Sound Answers ((machine Answers).step s e) := by
  cases e with
  | ask k q => exact sound_ask h he q
  | hear k n =>
      obtain ⟨q, hq⟩ := he
      exact sound_hear h hq n
  | finish k a =>
      obtain ⟨q, hq, ha⟩ := he
      exact sound_finish h hq ha
  | deliver k =>
      obtain ⟨a, ha⟩ := he
      exact sound_deliver h ha

/-! ## Where a request is -/

/-- A request is on its way, or was heard: then it is in as many places as heard it. -/
inductive Place (s : State κ Q A) (k : κ) (q : Q) : Option Nat → Prop
  | travelling (h : (k, q) ∈ s.travelling) (hplaces : s.places k = 0) : Place s k q none
  | heard (n : Nat) (h : ∀ q', (k, q') ∉ s.travelling) (hplaces : s.places k = n) : Place s k q (some n)

theorem Sound.place (h : Sound Answers s) {k : κ} {q : Q} (hq : (k, q) ∈ s.asked) : Place s k q (s.heard.lookup k) := by
  have hplaces := h.places k
  have hheard := h.heard k
  have hone := h.once k
  cases hl : s.heard.lookup k with
  | none =>
      have hpos := copies_pos hq
      rw [← hheard, lookup_eq_none_iff.mp hl, Nat.add_zero] at hpos
      obtain ⟨q', hq'⟩ := copies_pos_iff.mp hpos
      obtain rfl := h.unique (h.travelling _ hq') hq
      refine .travelling hq' ?_
      rw [hplaces, State.hearers, hl, Option.getD_none]
  | some n =>
      refine .heard n (copies_eq_zero_iff.mp ?_) (hplaces.trans (hearers_of_lookup hl))
      have hpos := copies_pos (mem_of_lookup hl)
      omega

end FlowDemo.Relay
