import Mathlib.Logic.Function.Basic
import FlowDemo.Lib.Machine

/-!
# Request/answer exchange

What a bridge between an asker and a far side is for: a call opens under an id of its own, the far side sends
answers carrying ids at any time and in any order, and the first answer that carries the id of an open call, and no
other, is handed to that call. `Table` is the state of such an exchange, `machine` its moves.

* `ask_run`: over a whole run, a call is served by exactly the first answer to its id that comes after it, and waits
  under its id as long as there is none;
* `served_asked`: nothing is handed to a call that was never opened.
-/

namespace FlowDemo.Exchange

/-- A move of the exchange: a call opens under an id, or an answer arrives. -/
inductive Move (ι κ α : Type*)
  | ask (id : ι) (call : κ)
  | answer (id : ι) (a : α)

/-- The open calls by id, every call opened so far, and the answers handed out so far. -/
structure Table (ι κ α : Type*) where
  waiting : ι → Option κ
  asked : List (ι × κ)
  served : List (κ × α)

variable {ι κ α : Type*}

namespace Table

def Fresh (t : Table ι κ α) (i : ι) (c : κ) : Prop := ∀ x ∈ t.asked, x.1 ≠ i ∧ x.2 ≠ c

def step [DecidableEq ι] (t : Table ι κ α) : Move ι κ α → Table ι κ α
  | .ask i c => { t with waiting := Function.update t.waiting i (some c), asked := t.asked ++ [(i, c)] }
  | .answer i a =>
      match t.waiting i with
      | none => t
      | some c => { t with waiting := Function.update t.waiting i none, served := t.served ++ [(c, a)] }

theorem step_answer_idle [DecidableEq ι] {t : Table ι κ α} {i : ι} (h : t.waiting i = none) (a : α) :
    t.step (.answer i a) = t := by
  simp only [step, h]

theorem step_answer_waiting [DecidableEq ι] {t : Table ι κ α} {i : ι} {c : κ} (h : t.waiting i = some c) (a : α) :
    t.step (.answer i a) =
      { t with waiting := Function.update t.waiting i none, served := t.served ++ [(c, a)] } := by
  simp only [step, h]

def servedTo [DecidableEq κ] (t : Table ι κ α) (c : κ) : List α := (t.served.filter fun x => x.1 = c).map Prod.snd

end Table

def machine (ι κ α : Type*) [DecidableEq ι] : Machine (Table ι κ α) (Move ι κ α) where
  init := ⟨fun _ => none, [], []⟩
  allowed t m := match m with
    | .ask i c => t.Fresh i c
    | .answer _ _ => True
  step := Table.step

def firstAnswer [DecidableEq ι] (i : ι) : List (Move ι κ α) → Option α
  | [] => none
  | .ask _ _ :: ms => firstAnswer i ms
  | .answer j a :: ms => if j = i then some a else firstAnswer i ms

theorem firstAnswer_append [DecidableEq ι] (i : ι) (ms ms' : List (Move ι κ α)) :
    firstAnswer i (ms ++ ms') = (firstAnswer i ms).or (firstAnswer i ms') := by
  induction ms with
  | nil => rfl
  | cons m ms ih =>
      cases m with
      | ask j c => exact ih
      | answer j a =>
          rw [List.cons_append, firstAnswer, firstAnswer]
          split
          · rfl
          · exact ih

/-! ## The invariant -/

/-- Ids and calls determine each other, open calls are unserved, and only opened calls are open or served. -/
structure Sound (t : Table ι κ α) : Prop where
  callId : ∀ i j c, (i, c) ∈ t.asked → (j, c) ∈ t.asked → i = j
  idCall : ∀ i c d, (i, c) ∈ t.asked → (i, d) ∈ t.asked → c = d
  waiting_asked : ∀ i c, t.waiting i = some c → (i, c) ∈ t.asked
  served_asked : ∀ c a, (c, a) ∈ t.served → ∃ i, (i, c) ∈ t.asked
  waiting_unserved : ∀ i c, t.waiting i = some c → ∀ a, (c, a) ∉ t.served

variable [DecidableEq ι]

theorem sound_init : Sound (machine ι κ α).init := by
  constructor <;> simp [machine]

theorem sound_ask {t : Table ι κ α} (h : Sound t) {i : ι} {c : κ} (hf : t.Fresh i c) :
    Sound (t.step (.ask i c)) := by
  have hmem : ∀ j d, (j, d) ∈ (t.step (.ask i c)).asked ↔ (j, d) ∈ t.asked ∨ (j = i ∧ d = c) := by
    intro j d
    simp [Table.step]
  have hnew : ∀ j d, (j, d) ∈ t.asked → j ≠ i ∧ d ≠ c := fun j d hjd => hf (j, d) hjd
  constructor
  case callId =>
    intro j k d hj hk
    rw [hmem] at hj hk
    rcases hj with hj | ⟨rfl, rfl⟩
    · rcases hk with hk | ⟨rfl, rfl⟩
      · exact h.callId j k d hj hk
      · exact absurd rfl (hnew j d hj).2
    · rcases hk with hk | ⟨rfl, -⟩
      · exact absurd rfl (hnew k d hk).2
      · rfl
  case idCall =>
    intro j d d' hj hk
    rw [hmem] at hj hk
    rcases hj with hj | ⟨rfl, rfl⟩
    · rcases hk with hk | ⟨rfl, rfl⟩
      · exact h.idCall j d d' hj hk
      · exact absurd rfl (hnew j d hj).1
    · rcases hk with hk | ⟨-, rfl⟩
      · exact absurd rfl (hnew j d' hk).1
      · rfl
  case waiting_asked =>
    intro j d hj
    rw [hmem]
    by_cases hji : j = i
    · subst hji
      simp only [Table.step, Function.update_self, Option.some.injEq] at hj
      exact Or.inr ⟨rfl, hj.symm⟩
    · simp only [Table.step, Function.update_of_ne hji] at hj
      exact Or.inl (h.waiting_asked j d hj)
  case served_asked =>
    intro d a hd
    obtain ⟨j, hj⟩ := h.served_asked d a hd
    exact ⟨j, (hmem j d).mpr (Or.inl hj)⟩
  case waiting_unserved =>
    intro j d hj a hda
    by_cases hji : j = i
    · subst hji
      simp only [Table.step, Function.update_self, Option.some.injEq] at hj
      obtain ⟨k, hk⟩ := h.served_asked d a hda
      exact (hnew k d hk).2 hj.symm
    · simp only [Table.step, Function.update_of_ne hji] at hj
      exact h.waiting_unserved j d hj a hda

theorem sound_answer {t : Table ι κ α} (h : Sound t) (i : ι) (a : α) : Sound (t.step (.answer i a)) := by
  cases hw : t.waiting i with
  | none =>
      rw [Table.step_answer_idle hw]
      exact h
  | some c =>
      rw [Table.step_answer_waiting hw]
      refine ⟨h.callId, h.idCall, ?_, ?_, ?_⟩
      · intro j d hj
        by_cases hji : j = i
        · subst hji
          simp at hj
        · exact h.waiting_asked j d (by simpa [hji] using hj)
      · intro d b hd
        rcases List.mem_append.mp hd with hd | hd
        · exact h.served_asked d b hd
        · obtain ⟨rfl, rfl⟩ := Prod.mk.inj (List.mem_singleton.mp hd)
          exact ⟨i, h.waiting_asked i d hw⟩
      · intro j d hj b hd
        by_cases hji : j = i
        · subst hji
          simp at hj
        · have hj' : t.waiting j = some d := by simpa [hji] using hj
          rcases List.mem_append.mp hd with hd | hd
          · exact h.waiting_unserved j d hj' b hd
          · obtain ⟨rfl, -⟩ := Prod.mk.inj (List.mem_singleton.mp hd)
            exact hji (h.callId j i d (h.waiting_asked j d hj') (h.waiting_asked i d hw))

theorem sound_step (t : Table ι κ α) (m : Move ι κ α) (h : Sound t) (hm : (machine ι κ α).allowed t m) :
    Sound ((machine ι κ α).step t m) := by
  cases m with
  | ask i c => exact sound_ask h hm
  | answer i a => exact sound_answer h i a

theorem sound_run {t : Table ι κ α} (h : Sound t) {ms : List (Move ι κ α)} (hms : (machine ι κ α).Admits t ms) :
    Sound ((machine ι κ α).run t ms) :=
  Machine.run_induction sound_step h hms

theorem served_asked {ms : List (Move ι κ α)} (hms : (machine ι κ α).Admits (machine ι κ α).init ms) {c : κ} {a : α}
    (hc : (c, a) ∈ ((machine ι κ α).run (machine ι κ α).init ms).served) :
    ∃ i, (i, c) ∈ ((machine ι κ α).run (machine ι κ α).init ms).asked :=
  (sound_run sound_init hms).served_asked c a hc

/-! ## One call through a run -/

section OneCall

/-- The call `c` was opened under `i` and waits for its answer. -/
structure Open (t : Table ι κ α) (i : ι) (c : κ) : Prop where
  sound : Sound t
  asked : (i, c) ∈ t.asked
  waiting : t.waiting i = some c

theorem open_of_ask {t : Table ι κ α} (h : Sound t) {i : ι} {c : κ} (hf : t.Fresh i c) :
    Open (t.step (.ask i c)) i c :=
  ⟨sound_ask h hf, List.mem_append_right _ (List.mem_singleton_self _), Function.update_self _ _ _⟩

theorem open_ask {t : Table ι κ α} {i : ι} {c : κ} (h : Open t i c) {j : ι} {d : κ} (hf : t.Fresh j d) :
    Open (t.step (.ask j d)) i c := by
  refine ⟨sound_ask h.sound hf, List.mem_append_left _ h.asked, ?_⟩
  change Function.update t.waiting j (some d) i = some c
  rw [Function.update_of_ne (hf (i, c) h.asked).1]
  exact h.waiting

variable [DecidableEq κ]

/-- The call `c`, opened under `i`, was handed exactly the answers `l` and waits no more. -/
structure Closed (t : Table ι κ α) (i : ι) (c : κ) (l : List α) : Prop where
  sound : Sound t
  asked : (i, c) ∈ t.asked
  waiting : t.waiting i = none
  servedTo : t.servedTo c = l

omit [DecidableEq ι] in
theorem Open.servedTo {t : Table ι κ α} {i : ι} {c : κ} (h : Open t i c) : t.servedTo c = [] := by
  unfold Table.servedTo
  rw [List.map_eq_nil_iff, List.filter_eq_nil_iff]
  rintro ⟨d, a⟩ hd hdc
  have : d = c := by simpa using hdc
  exact h.sound.waiting_unserved i c h.waiting a (this ▸ hd)

theorem closed_step {i : ι} {c : κ} {l : List α} (t : Table ι κ α) (m : Move ι κ α) (h : Closed t i c l)
    (hm : (machine ι κ α).allowed t m) : Closed ((machine ι κ α).step t m) i c l := by
  have hs := sound_step t m h.sound hm
  cases m with
  | ask j d =>
      have hne := hm (i, c) h.asked
      refine ⟨hs, List.mem_append_left _ h.asked, ?_, h.servedTo⟩
      change Function.update t.waiting j (some d) i = none
      rw [Function.update_of_ne hne.1]
      exact h.waiting
  | answer j a =>
      change Closed (t.step (.answer j a)) i c l
      change Sound (t.step (.answer j a)) at hs
      cases hw : t.waiting j with
      | none =>
          rw [Table.step_answer_idle hw]
          exact h
      | some d =>
          rw [Table.step_answer_waiting hw] at hs ⊢
          have hji : i ≠ j := by
            rintro rfl
            rw [h.waiting] at hw
            cases hw
          have hdc : d ≠ c := by
            rintro rfl
            exact hji (h.sound.callId i j d h.asked (h.sound.waiting_asked j d hw))
          refine ⟨hs, h.asked, ?_, ?_⟩
          · change Function.update t.waiting j none i = none
            rw [Function.update_of_ne hji]
            exact h.waiting
          · rw [← h.servedTo]
            simp [Table.servedTo, List.filter_append, hdc]

theorem closed_run {t : Table ι κ α} {i : ι} {c : κ} {l : List α} (h : Closed t i c l) {ms : List (Move ι κ α)}
    (hms : (machine ι κ α).Admits t ms) : Closed ((machine ι κ α).run t ms) i c l :=
  Machine.run_induction closed_step h hms

/-- An answer to another id leaves the call open; the answer to its id closes it with that answer. -/
theorem open_answer {t : Table ι κ α} {i : ι} {c : κ} (h : Open t i c) (j : ι) (a : α) :
    if j = i then Closed (t.step (.answer j a)) i c [a] else Open (t.step (.answer j a)) i c := by
  have hs := sound_answer h.sound j a
  split
  · next hji =>
      subst hji
      rw [Table.step_answer_waiting h.waiting] at hs ⊢
      refine ⟨hs, h.asked, Function.update_self _ _ _, ?_⟩
      have hnil := h.servedTo
      unfold Table.servedTo at hnil ⊢
      rw [List.filter_append, List.map_append, hnil]
      simp
  · next hji =>
      cases hw : t.waiting j with
      | none =>
          rw [Table.step_answer_idle hw]
          exact h
      | some d =>
          rw [Table.step_answer_waiting hw] at hs ⊢
          refine ⟨hs, h.asked, ?_⟩
          change Function.update t.waiting j none i = some c
          rw [Function.update_of_ne (Ne.symm hji)]
          exact h.waiting

/-- **The life of an open call**: it stays open until the first answer to its id, which closes it for good. -/
theorem open_run {t : Table ι κ α} {i : ι} {c : κ} (h : Open t i c) {ms : List (Move ι κ α)}
    (hms : (machine ι κ α).Admits t ms) :
    match firstAnswer i ms with
    | none => Open ((machine ι κ α).run t ms) i c
    | some a => Closed ((machine ι κ α).run t ms) i c [a] := by
  induction ms generalizing t with
  | nil => exact h
  | cons m ms ih =>
      cases m with
      | ask j d => exact ih (open_ask h hms.1) hms.2
      | answer j a =>
          have hstep := open_answer h j a
          rw [firstAnswer]
          split at hstep
          · next hji =>
              rw [if_pos hji]
              exact closed_run hstep hms.2
          · next hji =>
              rw [if_neg hji]
              exact ih hstep hms.2

/-- **A call is served by exactly the first answer to its id that comes after it**, and waits while there is none. -/
theorem ask_run {pre post : List (Move ι κ α)} {i : ι} {c : κ}
    (h : (machine ι κ α).Admits (machine ι κ α).init (pre ++ .ask i c :: post)) :
    match firstAnswer i post with
    | none => Open ((machine ι κ α).run (machine ι κ α).init (pre ++ .ask i c :: post)) i c
    | some a => Closed ((machine ι κ α).run (machine ι κ α).init (pre ++ .ask i c :: post)) i c [a] := by
  rw [Machine.admits_append] at h
  obtain ⟨hpre, hask, hpost⟩ := h
  rw [Machine.run_append]
  exact open_run (open_of_ask (sound_run sound_init hpre) hask) hpost

end OneCall

end FlowDemo.Exchange
