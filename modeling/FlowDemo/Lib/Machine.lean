import Mathlib.Data.List.Infix

/-!
# Guarded machines, their runs and their simulations

A `Machine` is a step function with a guard on what the environment may do next. Every order of events the guard
lets through is a run, so a statement about all runs is a statement about all interleavings.

* `run_induction`, `Reachable.induction`: an invariant of one step is an invariant of every run;
* `always_iff_restrict`: when a step keeps `P` exactly if it meets `C`, a run keeps `P` throughout exactly if each of
  its steps meets `C`;
* `schedule`: the infinite schedule of a rule that picks the next event, with its invariant rule `picked_induction`;
* `Simulation`: one machine followed by another, each event answered by a list of moves, and the induced map on runs.
-/

namespace FlowDemo

/-- A state machine whose environment picks the next event among the allowed ones. -/
structure Machine (σ ε : Type*) where
  init : σ
  allowed : σ → ε → Prop
  step : σ → ε → σ

namespace Machine

variable {σ ε : Type*} (M : Machine σ ε)

def run (s : σ) (es : List ε) : σ := es.foldl M.step s

/-- Every event of `es` is allowed where it happens. -/
def Admits : σ → List ε → Prop
  | _, [] => True
  | s, e :: es => M.allowed s e ∧ Admits (M.step s e) es

def Reachable (s : σ) : Prop := ∃ es, M.Admits M.init es ∧ M.run M.init es = s

@[simp] theorem run_nil (s : σ) : M.run s [] = s := rfl

@[simp] theorem run_cons (s : σ) (e : ε) (es : List ε) : M.run s (e :: es) = M.run (M.step s e) es := rfl

theorem run_append (s : σ) (es es' : List ε) : M.run s (es ++ es') = M.run (M.run s es) es' :=
  List.foldl_append

@[simp] theorem admits_nil (s : σ) : M.Admits s [] := trivial

@[simp] theorem admits_cons (s : σ) (e : ε) (es : List ε) :
    M.Admits s (e :: es) ↔ M.allowed s e ∧ M.Admits (M.step s e) es := Iff.rfl

theorem admits_append (s : σ) (es es' : List ε) :
    M.Admits s (es ++ es') ↔ M.Admits s es ∧ M.Admits (M.run s es) es' := by
  induction es generalizing s with
  | nil => simp
  | cons e es ih => rw [List.cons_append, admits_cons, admits_cons, ih, run_cons, and_assoc]

theorem Admits.getElem? {M : Machine σ ε} {s : σ} {es : List ε} (h : M.Admits s es) {k : Nat} {e : ε}
    (hk : es[k]? = some e) : M.allowed (M.run s (es.take k)) e := by
  induction es generalizing s k with
  | nil => cases hk
  | cons e' es ih =>
      cases k with
      | zero =>
          obtain rfl := Option.some.inj hk
          exact h.1
      | succ k => exact ih h.2 hk

instance decidableAdmits [∀ s e, Decidable (M.allowed s e)] : ∀ (s : σ) (es : List ε), Decidable (M.Admits s es)
  | _, [] => isTrue trivial
  | s, e :: es =>
      have := decidableAdmits (M.step s e) es
      inferInstanceAs (Decidable (M.allowed s e ∧ M.Admits (M.step s e) es))

/-- **The invariant rule for runs.** -/
theorem run_induction {M : Machine σ ε} {I : σ → Prop} (hstep : ∀ s e, I s → M.allowed s e → I (M.step s e))
    {s : σ} (hs : I s) {es : List ε} (h : M.Admits s es) : I (M.run s es) := by
  induction es generalizing s with
  | nil => exact hs
  | cons e es ih => exact ih (hstep s e hs h.1) h.2

theorem Reachable.of_admits {M : Machine σ ε} {es : List ε} (h : M.Admits M.init es) :
    M.Reachable (M.run M.init es) := ⟨es, h, rfl⟩

theorem Reachable.step {M : Machine σ ε} {s : σ} (hs : M.Reachable s) {e : ε} (he : M.allowed s e) :
    M.Reachable (M.step s e) := by
  obtain ⟨es, h, rfl⟩ := hs
  refine ⟨es ++ [e], (M.admits_append _ _ _).mpr ⟨h, he, trivial⟩, ?_⟩
  rw [run_append, run_cons, run_nil]

theorem Reachable.induction {M : Machine σ ε} {I : σ → Prop} (hinit : I M.init)
    (hstep : ∀ s e, I s → M.allowed s e → I (M.step s e)) {s : σ} (h : M.Reachable s) : I s := by
  obtain ⟨es, hes, rfl⟩ := h
  exact run_induction hstep hinit hes

/-! ## Runs whose steps all meet a condition -/

/-- The runs of `M` whose steps all meet `C`. -/
def restrict (C : σ → ε → Prop) : Machine σ ε := { M with allowed := fun s e => M.allowed s e ∧ C s e }

/-- `P` holds in every state the run passes through. -/
def Throughout (P : σ → Prop) (s : σ) (es : List ε) : Prop := ∀ pre, pre <+: es → P (M.run s pre)

theorem throughout_nil {P : σ → Prop} {s : σ} : M.Throughout P s [] ↔ P s := by
  constructor
  · intro h
    exact h [] (List.nil_prefix)
  · intro h pre hpre
    rw [List.prefix_nil.mp hpre]
    exact h

theorem throughout_cons {P : σ → Prop} {s : σ} {e : ε} {es : List ε} :
    M.Throughout P s (e :: es) ↔ P s ∧ M.Throughout P (M.step s e) es := by
  constructor
  · intro h
    exact ⟨h [] List.nil_prefix, fun pre hpre => h (e :: pre) ((List.prefix_cons_inj e).mpr hpre)⟩
  · rintro ⟨hs, h⟩ pre hpre
    cases pre with
    | nil => exact hs
    | cons e' pre =>
        rw [List.cons_prefix_cons] at hpre
        obtain ⟨rfl, hpre⟩ := hpre
        exact h pre hpre

theorem admits_initial {M : Machine σ ε} {s : σ} {es pre : List ε} (h : M.Admits s es) (hpre : pre <+: es) :
    M.Admits s pre := by
  obtain ⟨post, rfl⟩ := hpre
  exact ((M.admits_append _ _ _).mp h).1

/-- **An invariant holds throughout every run.** -/
theorem throughout_of_invariant {M : Machine σ ε} {I P : σ → Prop}
    (hI : ∀ s e, I s → M.allowed s e → I (M.step s e)) (hP : ∀ s, I s → P s) {s : σ} (hs : I s) {es : List ε}
    (h : M.Admits s es) : M.Throughout P s es :=
  fun _ hpre => hP _ (run_induction hI hs (admits_initial h hpre))

/-- An invariant of the steps that meet a condition holds throughout the runs whose steps all meet it. -/
theorem throughout_of_restrict {M : Machine σ ε} {I P : σ → Prop} {C : σ → ε → Prop}
    (hI : ∀ s e, I s → M.allowed s e → C s e → I (M.step s e)) (hP : ∀ s, I s → P s)
    {s : σ} (hs : I s) {es : List ε} (h : (M.restrict C).Admits s es) : M.Throughout P s es :=
  throughout_of_invariant (M := M.restrict C) (fun s e hs he => hI s e hs he.1 he.2) hP hs h

theorem admits_restrict {M : Machine σ ε} {C : σ → ε → Prop} {s : σ} {es : List ε} (h : M.Admits s es)
    (hC : ∀ e ∈ es, ∀ s, C s e) : (M.restrict C).Admits s es := by
  induction es generalizing s with
  | nil => trivial
  | cons e es ih =>
      exact ⟨⟨h.1, hC e List.mem_cons_self s⟩, ih h.2 fun e' he' => hC e' (List.mem_cons_of_mem _ he')⟩

/-- What a restricted machine admits, the machine does. -/
theorem Admits.of_restrict {M : Machine σ ε} {C : σ → ε → Prop} {s : σ} {es : List ε}
    (h : (M.restrict C).Admits s es) : M.Admits s es := by
  induction es generalizing s with
  | nil => trivial
  | cons e es ih => exact ⟨h.1.1, ih h.2⟩

/-- A run keeps `P` throughout exactly when each of its steps meets the condition under which a step keeps `P`. -/
theorem throughout_iff_restrict {M : Machine σ ε} {I P : σ → Prop} {C : σ → ε → Prop}
    (hI : ∀ s e, I s → M.allowed s e → I (M.step s e))
    (hC : ∀ s e, I s → P s → M.allowed s e → (P (M.step s e) ↔ C s e))
    {s : σ} (hs : I s) (hP : P s) {es : List ε} (h : M.Admits s es) :
    M.Throughout P s es ↔ (M.restrict C).Admits s es := by
  induction es generalizing s with
  | nil => exact (M.throughout_nil).trans (iff_of_true hP trivial)
  | cons e es ih =>
      have hstep := hC s e hs hP h.1
      rw [throughout_cons, admits_cons]
      constructor
      · rintro ⟨-, ht⟩
        have hP' : P (M.step s e) := ht [] List.nil_prefix
        exact ⟨⟨h.1, hstep.mp hP'⟩, (ih (hI s e hs h.1) hP' h.2).mp ht⟩
      · rintro ⟨⟨-, hc⟩, ht⟩
        exact ⟨hP, (ih (hI s e hs h.1) (hstep.mpr hc) h.2).mpr ht⟩

/-! ## Infinite schedules -/

def upTo (es : ℕ → ε) (n : ℕ) : List ε := (List.range n).map es

theorem upTo_succ (es : ℕ → ε) (n : ℕ) : upTo es (n + 1) = upTo es n ++ [es n] := by
  rw [upTo, List.range_succ, List.map_append]
  rfl

/-- Every event of a schedule is allowed where it happens. -/
def AdmitsForever (s : σ) (es : ℕ → ε) : Prop := ∀ n, M.Admits s (upTo es n)

theorem run_upTo_succ (s : σ) (es : ℕ → ε) (n : ℕ) :
    M.run s (upTo es (n + 1)) = M.step (M.run s (upTo es n)) (es n) := by
  rw [upTo_succ, run_append, run_cons, run_nil]

/-- The states passed through when the next event is picked by what the state is. -/
def picked (pick : σ → ε) (s : σ) : ℕ → σ
  | 0 => s
  | n + 1 => M.step (picked pick s n) (pick (picked pick s n))

def schedule (pick : σ → ε) (s : σ) (n : ℕ) : ε := pick (M.picked pick s n)

theorem run_schedule (pick : σ → ε) (s : σ) (n : ℕ) :
    M.run s (upTo (M.schedule pick s) n) = M.picked pick s n := by
  induction n with
  | zero => rfl
  | succ n ih =>
      rw [run_upTo_succ, ih]
      rfl

theorem admitsForever_schedule {pick : σ → ε} (h : ∀ s, M.allowed s (pick s)) (s : σ) :
    M.AdmitsForever s (M.schedule pick s) := by
  intro n
  induction n with
  | zero => trivial
  | succ n ih =>
      rw [upTo_succ, admits_append, run_schedule]
      exact ⟨ih, h _, trivial⟩

theorem picked_induction {M : Machine σ ε} {pick : σ → ε} {I : σ → Prop} (hstep : ∀ s, I s → I (M.step s (pick s)))
    {s : σ} (hs : I s) (n : ℕ) : I (M.picked pick s n) := by
  induction n with
  | zero => exact hs
  | succ n ih => exact hstep _ ih

end Machine

/-! ## Simulation -/

/-- Every step of `M` is matched by a list of moves of `N`. -/
structure Simulation {σ ε τ δ : Type*} (M : Machine σ ε) (N : Machine τ δ) where
  rel : σ → τ → Prop
  moves : σ → ε → List δ
  init : rel M.init N.init
  step : ∀ s t e, rel s t → M.allowed s e → N.Admits t (moves s e) ∧ rel (M.step s e) (N.run t (moves s e))

namespace Simulation

variable {σ ε τ δ : Type*} {M : Machine σ ε} {N : Machine τ δ} (S : Simulation M N)

/-- The moves of `N` along a run of `M`. -/
def trace : σ → List ε → List δ
  | _, [] => []
  | s, e :: es => S.moves s e ++ trace (M.step s e) es

theorem trace_append (s : σ) (es es' : List ε) :
    S.trace s (es ++ es') = S.trace s es ++ S.trace (M.run s es) es' := by
  induction es generalizing s with
  | nil => rfl
  | cons e es ih => rw [List.cons_append, trace, trace, ih, List.append_assoc, Machine.run_cons]

/-- **The run lemma of a simulation.** -/
theorem run_rel {s : σ} {t : τ} (hst : S.rel s t) {es : List ε} (h : M.Admits s es) :
    N.Admits t (S.trace s es) ∧ S.rel (M.run s es) (N.run t (S.trace s es)) := by
  induction es generalizing s t with
  | nil => exact ⟨trivial, hst⟩
  | cons e es ih =>
      obtain ⟨ha, hr⟩ := S.step s t e hst h.1
      obtain ⟨ha', hr'⟩ := ih hr h.2
      rw [trace, Machine.run_append, Machine.admits_append]
      exact ⟨⟨ha, ha'⟩, hr'⟩

end Simulation

end FlowDemo
