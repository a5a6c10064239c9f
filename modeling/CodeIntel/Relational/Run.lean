import Mathlib.Tactic.Common

/-!
# Runs of a step function

A machine offers each label a partial step. A run feeds a list of labels to the
machine and stops at the first label that is not enabled. Invariants and
preorders carried by single steps are carried by whole runs, and a simulation of
one machine by another carries runs and what holds at each of their steps.
-/

namespace CodeIntel.Relational

theorem exists_last_split {α : Type*} {P : α → Prop} {as : List α} (h : ∃ a ∈ as, P a) :
    ∃ pre a post, as = pre ++ a :: post ∧ P a ∧ ∀ b ∈ post, ¬P b := by
  induction as with
  | nil =>
    obtain ⟨a, ha, -⟩ := h
    cases ha
  | cons b as ih =>
    by_cases hlater : ∃ a ∈ as, P a
    · obtain ⟨pre, a, post, rfl, ha, hpost⟩ := ih hlater
      exact ⟨b :: pre, a, post, rfl, ha, hpost⟩
    · obtain ⟨a, ha, hP⟩ := h
      obtain rfl : a = b := (List.mem_cons.1 ha).resolve_right fun hmem => hlater ⟨a, hmem, hP⟩
      exact ⟨[], a, as, rfl, hP, fun c hc hPc => hlater ⟨c, hc, hPc⟩⟩

/-- A labelled transition function; `none` means the label is not enabled. -/
structure Machine (σ ℓ : Type*) where
  step : σ → ℓ → Option σ

namespace Machine

variable {σ ℓ : Type*} (M : Machine σ ℓ)

/-- The state reached by a list of labels, if all of them are enabled in turn. -/
def run : σ → List ℓ → Option σ
  | s, [] => some s
  | s, a :: as => (M.step s a).bind fun s' => run s' as

@[simp] theorem run_nil (s : σ) : M.run s [] = some s := rfl

theorem run_cons (s : σ) (a : ℓ) (as : List ℓ) :
    M.run s (a :: as) = (M.step s a).bind fun s' => M.run s' as := rfl

theorem run_cons_eq_some {s s' : σ} {a : ℓ} {as : List ℓ} :
    M.run s (a :: as) = some s' ↔ ∃ s₁, M.step s a = some s₁ ∧ M.run s₁ as = some s' := by
  rw [run_cons, Option.bind_eq_some_iff]

theorem run_append (s : σ) (as bs : List ℓ) :
    M.run s (as ++ bs) = (M.run s as).bind fun s' => M.run s' bs := by
  induction as generalizing s with
  | nil => rfl
  | cons a as ih =>
    rw [List.cons_append, run_cons, run_cons, Option.bind_assoc]
    exact congrArg _ (funext ih)

theorem run_append_eq_some {s s' : σ} {as bs : List ℓ} :
    M.run s (as ++ bs) = some s' ↔ ∃ s₁, M.run s as = some s₁ ∧ M.run s₁ bs = some s' := by
  rw [run_append, Option.bind_eq_some_iff]

theorem run_split {s s₁ s' : σ} {a : ℓ} {pre post : List ℓ} (hpre : M.run s pre = some s₁)
    (hrun : M.run s (pre ++ a :: post) = some s') :
    ∃ s₂, M.step s₁ a = some s₂ ∧ M.run s₂ post = some s' := by
  rw [run_append, hpre] at hrun
  exact M.run_cons_eq_some.1 hrun

/-- A run and a decidable property of the state it reaches can be evaluated together. -/
theorem exists_run_of_any {s : σ} {as : List ℓ} (P : σ → Prop) [DecidablePred P]
    (h : (M.run s as).any (fun s' => decide (P s')) = true) :
    ∃ s', M.run s as = some s' ∧ P s' := by
  obtain ⟨s', hrun, hP⟩ := (Option.any_eq_true _ _).1 h
  exact ⟨s', hrun, of_decide_eq_true hP⟩

/-- What is known about the run can be added to what was evaluated. -/
theorem exists_run_of_any_imp {s : σ} {as : List ℓ} {Q : σ → Prop} (P : σ → Prop) [DecidablePred P]
    (h : (M.run s as).any (fun s' => decide (P s')) = true)
    (hQ : ∀ s', M.run s as = some s' → P s' → Q s') : ∃ s', M.run s as = some s' ∧ Q s' := by
  obtain ⟨s', hrun, hP⟩ := M.exists_run_of_any P h
  exact ⟨s', hrun, hQ s' hrun hP⟩

/-- Some run leads from one state to the other. -/
def Reaches (s s' : σ) : Prop := ∃ as, M.run s as = some s'

variable {M} in
theorem Reaches.refl (s : σ) : M.Reaches s s := ⟨[], rfl⟩

variable {M} in
theorem Reaches.head {s s₁ s' : σ} {a : ℓ} (hstep : M.step s a = some s₁)
    (hrest : M.Reaches s₁ s') : M.Reaches s s' := by
  obtain ⟨as, hrun⟩ := hrest
  exact ⟨a :: as, M.run_cons_eq_some.2 ⟨s₁, hstep, hrun⟩⟩

variable {M} in
theorem Reaches.single {s s' : σ} {a : ℓ} (hstep : M.step s a = some s') : M.Reaches s s' :=
  .head hstep (.refl s')

/-- `P` holds at every step of the run, in the state the step starts from. -/
def Always (P : σ → ℓ → Prop) : σ → List ℓ → Prop
  | _, [] => True
  | s, a :: as => P s a ∧ ∀ s', M.step s a = some s' → Always P s' as

/-- Whether a decidable property holds along a run can be evaluated. -/
instance decidableAlways (P : σ → ℓ → Prop) [∀ s a, Decidable (P s a)] :
    ∀ s as, Decidable (M.Always P s as)
  | _, [] => isTrue trivial
  | s, a :: as =>
    match h : M.step s a with
    | none => decidable_of_iff (P s a) (by simp [Always, h])
    | some s' =>
      have := decidableAlways P s' as
      decidable_of_iff (P s a ∧ M.Always P s' as) (by simp [Always, h])

variable {M}

theorem always_iff {P : σ → ℓ → Prop} {s : σ} {as : List ℓ} :
    M.Always P s as ↔
      ∀ pre a post s₁, as = pre ++ a :: post → M.run s pre = some s₁ → P s₁ a := by
  induction as generalizing s with
  | nil => simp [Always]
  | cons b bs ih =>
    constructor
    · rintro ⟨hb, hbs⟩ pre a post s₁ heq hrun
      cases pre with
      | nil =>
        obtain ⟨rfl, rfl⟩ := List.cons.inj heq
        exact Option.some.inj hrun ▸ hb
      | cons c pre =>
        obtain ⟨rfl, rfl⟩ := List.cons.inj heq
        obtain ⟨s₂, hstep, hrest⟩ := M.run_cons_eq_some.1 hrun
        exact ih.1 (hbs s₂ hstep) pre a post s₁ rfl hrest
    · intro h
      refine ⟨h [] b bs s rfl rfl, fun s₂ hstep => ih.2 fun pre a post s₁ heq hrun => ?_⟩
      exact h (b :: pre) a post s₁ (by rw [heq, List.cons_append])
        (M.run_cons_eq_some.2 ⟨s₂, hstep, hrun⟩)

theorem Always.of_append {P : σ → ℓ → Prop} {s s₁ : σ} {as bs : List ℓ}
    (h : M.Always P s (as ++ bs)) (hrun : M.run s as = some s₁) :
    M.Always P s as ∧ M.Always P s₁ bs := by
  refine ⟨always_iff.2 fun pre a post t heq ht => ?_, always_iff.2 fun pre b post t heq ht => ?_⟩
  · exact always_iff.1 h pre a (post ++ bs) t (by rw [heq]; simp) ht
  · refine always_iff.1 h (as ++ pre) b post t (by rw [heq]; simp) ?_
    exact M.run_append_eq_some.2 ⟨s₁, hrun, ht⟩

/-- A predicate kept by every step is kept by every run. -/
theorem run_invariant (Inv : σ → Prop)
    (hstep : ∀ s a s', Inv s → M.step s a = some s' → Inv s') {s s' : σ} {as : List ℓ}
    (hs : Inv s) (hrun : M.run s as = some s') : Inv s' := by
  induction as generalizing s with
  | nil => exact Option.some.inj hrun ▸ hs
  | cons a as ih =>
    obtain ⟨s₁, h₁, h₂⟩ := M.run_cons_eq_some.1 hrun
    exact ih (hstep s a s₁ hs h₁) h₂

/-- A reflexive and transitive relation that holds across every step taken from
an invariant state holds across every run from such a state, and the invariant is kept. -/
theorem run_rel (Inv : σ → Prop) (R : σ → σ → Prop) (hrefl : ∀ s, R s s)
    (htrans : ∀ s₁ s₂ s₃, R s₁ s₂ → R s₂ s₃ → R s₁ s₃)
    (hstep : ∀ s a s', Inv s → M.step s a = some s' → Inv s' ∧ R s s') {s s' : σ} {as : List ℓ}
    (hs : Inv s) (hrun : M.run s as = some s') : Inv s' ∧ R s s' := by
  refine run_invariant (fun t => Inv t ∧ R s t) ?_ ⟨hs, hrefl s⟩ hrun
  rintro t a t' ⟨ht, hR⟩ hstep'
  obtain ⟨ht', hR'⟩ := hstep t a t' ht hstep'
  exact ⟨ht', htrans _ _ _ hR hR'⟩

/-- A predicate kept by every step that meets a condition `P` is kept by every run whose
steps all meet it. -/
theorem invariant_of_always (Inv : σ → Prop) {P : σ → ℓ → Prop}
    (hstep : ∀ s a s', Inv s → P s a → M.step s a = some s' → Inv s') {s s' : σ}
    {as : List ℓ} (hs : Inv s) (hall : M.Always P s as) (hrun : M.run s as = some s') : Inv s' := by
  induction as generalizing s with
  | nil => exact Option.some.inj hrun ▸ hs
  | cons a as ih =>
    obtain ⟨s₁, h₁, h₂⟩ := M.run_cons_eq_some.1 hrun
    exact ih (hstep s a s₁ hs hall.1 h₁) (hall.2 s₁ h₁) h₂

theorem always_congr (Inv : σ → Prop) {P Q : σ → ℓ → Prop}
    (hstep : ∀ s a s', Inv s → M.step s a = some s' → Inv s')
    (hPQ : ∀ s a, Inv s → (P s a ↔ Q s a)) {s : σ} {as : List ℓ} (hs : Inv s) :
    M.Always P s as ↔ M.Always Q s as := by
  induction as generalizing s with
  | nil => exact Iff.rfl
  | cons a as ih =>
    refine and_congr (hPQ s a hs) (forall_congr' fun s' => ?_)
    exact imp_congr_right fun h => ih (hstep s a s' hs h)

/-- If a condition on steps decides whether a step keeps `Good`, then the states of a run
are all good exactly when all its steps meet the condition. The invariant `Inv` need only be
kept by steps that meet it. -/
theorem good_iff_always (Inv Good : σ → Prop) {P : σ → ℓ → Prop}
    (hkeep : ∀ s a s', Inv s → Good s → P s a → M.step s a = some s' → Inv s' ∧ Good s')
    (hbreak : ∀ s a, Inv s → Good s → ¬P s a → ∃ s', M.step s a = some s' ∧ ¬Good s')
    {s : σ} {as : List ℓ} (hs : Inv s) (hgood : Good s) :
    (∀ pre post s', as = pre ++ post → M.run s pre = some s' → Good s') ↔ M.Always P s as := by
  constructor
  · intro h
    induction as generalizing s with
    | nil => trivial
    | cons a as ih =>
      have hP : P s a := by
        by_contra hP
        obtain ⟨s', hstep, hbad⟩ := hbreak s a hs hgood hP
        exact hbad (h [a] as s' rfl (M.run_cons_eq_some.2 ⟨s', hstep, rfl⟩))
      refine ⟨hP, fun s' hstep => ?_⟩
      obtain ⟨hs', hgood'⟩ := hkeep s a s' hs hgood hP hstep
      refine ih hs' hgood' fun pre post s₁ heq hrun => ?_
      exact h (a :: pre) post s₁ (by rw [heq, List.cons_append])
        (M.run_cons_eq_some.2 ⟨s', hstep, hrun⟩)
  · intro hall pre post s' heq hrun
    subst heq
    exact (invariant_of_always (fun s => Inv s ∧ Good s)
      (fun s a s' h hP hstep => hkeep s a s' h.1 h.2 hP hstep)
      ⟨hs, hgood⟩ (hall.of_append hrun).1 hrun).2

end Machine

/-- `M` simulates into `N`: from an invariant state, a step of `M` is a step of `N`
on the abstractions. -/
structure Simulation {σ ℓ τ κ : Type*} (M : Machine σ ℓ) (N : Machine τ κ) where
  Inv : σ → Prop
  abs : σ → τ
  lab : ℓ → κ
  inv_step : ∀ s a s', Inv s → M.step s a = some s' → Inv s'
  abs_step : ∀ s a s', Inv s → M.step s a = some s' → N.step (abs s) (lab a) = some (abs s')

namespace Simulation

variable {σ ℓ τ κ : Type*} {M : Machine σ ℓ} {N : Machine τ κ} (S : Simulation M N)

theorem run {s s' : σ} {as : List ℓ} (hs : S.Inv s) (hrun : M.run s as = some s') :
    N.run (S.abs s) (as.map S.lab) = some (S.abs s') := by
  induction as generalizing s with
  | nil => rw [Option.some.inj hrun]; rfl
  | cons a as ih =>
    obtain ⟨s₁, hstep, hrest⟩ := M.run_cons_eq_some.1 hrun
    rw [List.map_cons, Machine.run_cons_eq_some]
    exact ⟨S.abs s₁, S.abs_step s a s₁ hs hstep, ih (S.inv_step s a s₁ hs hstep) hrest⟩

/-- Properties of steps that correspond under the abstraction correspond along runs. -/
theorem always_iff {P : σ → ℓ → Prop} {Q : τ → κ → Prop}
    (hPQ : ∀ s a s', S.Inv s → M.step s a = some s' → (P s a ↔ Q (S.abs s) (S.lab a)))
    {s s' : σ} {as : List ℓ} (hs : S.Inv s) (hrun : M.run s as = some s') :
    M.Always P s as ↔ N.Always Q (S.abs s) (as.map S.lab) := by
  induction as generalizing s with
  | nil => exact Iff.rfl
  | cons a as ih =>
    obtain ⟨s₁, hstep, hrest⟩ := M.run_cons_eq_some.1 hrun
    have htail := ih (S.inv_step s a s₁ hs hstep) hrest
    simp only [Machine.Always, List.map_cons, hPQ s a s₁ hs hstep, hstep,
      S.abs_step s a s₁ hs hstep, Option.some.injEq, forall_eq', htail]

end Simulation

end CodeIntel.Relational
