import CodeIntel.Subjobs.Lifecycle

/-!
# How rows and jobs progress

A summary of what any sequence of table moves does to the subjobs and their jobs:
no row is deleted or leaves a final status, rows become SUCCEEDED only when they are
marked and SKIPPED only in the optional layers, and jobs only fail.
-/

namespace CodeIntel.Subjobs

open Relational Schema

/-! ## Rows -/

/-- A row and a later version of it; `marks` holds of the subjobs marked SUCCEEDED
in between. -/
structure RowProgress (marks : String → Prop) (r r' : Subjob) : Prop where
  identity_eq : identity r' = identity r
  terminal : r.status ∈ terminal → r' = r
  succeeded : r'.status = .succeeded → r.status = .succeeded ∨ marks r.id
  skipped : r'.status = .skipped → r.status = .skipped ∨ isScipOrAst r.layer = true

/-- A table and a later version of it; `inserts` holds of the rows added in between. -/
structure RowsProgress (marks : String → Prop) (inserts : Subjob → Prop)
    (rows rows' : List Subjob) : Prop where
  unique : UniqueKey Subjob.id rows'
  kept : ∀ r ∈ rows, ∃ r' ∈ rows', RowProgress marks r r'
  origin : ∀ r' ∈ rows', (∃ r ∈ rows, RowProgress marks r r') ∨
    (∀ r ∈ rows, r.id ≠ r'.id) ∧ inserts r'

section Rows

variable {marks : String → Prop} {inserts : Subjob → Prop} {rules : CallRules}
  {db db' : Database} {r r' : Subjob}

theorem RowProgress.refl (r : Subjob) : RowProgress marks r r :=
  ⟨rfl, fun _ => rfl, Or.inl, Or.inl⟩

theorem RowProgress.id_eq (h : RowProgress marks r r') : r'.id = r.id :=
  (congrArg Subjob.id h.identity_eq :)

theorem RowProgress.layer_eq (h : RowProgress marks r r') : r'.layer = r.layer :=
  (congrArg Subjob.layer h.identity_eq :)

theorem RowProgress.trans {r'' : Subjob} (h : RowProgress marks r r') (h' : RowProgress marks r' r'') :
    RowProgress marks r r'' := by
  refine ⟨h'.identity_eq.trans h.identity_eq, ?_, ?_, ?_⟩
  · intro hst
    obtain rfl := h.terminal hst
    exact h'.terminal hst
  · intro hst
    rcases h'.succeeded hst with hst' | hmarks
    · exact h.succeeded hst'
    · exact .inr (h.id_eq ▸ hmarks)
  · intro hst
    rcases h'.skipped hst with hst' | hlayer
    · exact h.skipped hst'
    · exact .inr (h.layer_eq ▸ hlayer)

theorem Move.progress (hmarks : ∀ id, rules.succeeds = some id → marks id)
    (h : Move rules db r r') : RowProgress marks r r' := by
  refine ⟨h.identity_eq, h.eq_of_terminal, ?_, ?_⟩
  · intro hst
    cases h with
    | keep => exact .inl hst
    | claim => cases hst
    | hold _ _ _ hflight =>
      rw [hst] at hflight
      exact absurd hflight (by decide)
    | succeed _ hsucceeds _ => exact .inr (hmarks _ hsucceeds)
    | ended now st code message hended =>
      obtain rfl : st = .succeeded := hst
      cases hended
  · intro hst
    cases h with
    | keep => exact .inl hst
    | claim | succeed => cases hst
    | hold _ _ _ hflight =>
      rw [hst] at hflight
      exact absurd hflight (by decide)
    | ended now st code message hended =>
      obtain rfl : st = .skipped := hst
      cases hended with
      | skip _ hlayer => exact .inr hlayer
      | empty _ hlayer => exact .inr (by rw [hlayer]; rfl)

variable {rows : List Subjob}

theorem RowsProgress.refl (h : UniqueKey Subjob.id rows) : RowsProgress marks inserts rows rows :=
  ⟨h, fun r hr => ⟨r, hr, .refl r⟩, fun r hr => .inl ⟨r, hr, .refl r⟩⟩

theorem RowsProgress.imp {inserts' : Subjob → Prop} {rows' : List Subjob}
    (himp : ∀ r, inserts r → inserts' r) (h : RowsProgress marks inserts rows rows') :
    RowsProgress marks inserts' rows rows' :=
  ⟨h.unique, h.kept, fun r' hr' => (h.origin r' hr').imp_right fun hnew => ⟨hnew.1, himp r' hnew.2⟩⟩

/-- Tables progress transitively when an inserted row may go on to change. -/
theorem RowsProgress.trans {rows₁ rows₂ rows₃ : List Subjob}
    (hinserts : ∀ r r', inserts r → RowProgress marks r r' → inserts r')
    (h : RowsProgress marks inserts rows₁ rows₂) (h' : RowsProgress marks inserts rows₂ rows₃) :
    RowsProgress marks inserts rows₁ rows₃ := by
  refine ⟨h'.unique, ?_, ?_⟩
  · intro r hr
    obtain ⟨r₂, hr₂, hprogress⟩ := h.kept r hr
    obtain ⟨r₃, hr₃, hprogress'⟩ := h'.kept r₂ hr₂
    exact ⟨r₃, hr₃, hprogress.trans hprogress'⟩
  · intro r₃ hr₃
    rcases h'.origin r₃ hr₃ with ⟨r₂, hr₂, hprogress'⟩ | ⟨hnew, hins⟩
    · rcases h.origin r₂ hr₂ with ⟨r, hr, hprogress⟩ | ⟨hnew, hins⟩
      · exact .inl ⟨r, hr, hprogress.trans hprogress'⟩
      · refine .inr ⟨?_, hinserts r₂ r₃ hins hprogress'⟩
        intro r hr heq
        exact hnew r hr (heq.trans hprogress'.id_eq)
    · refine .inr ⟨?_, hins⟩
      intro r hr heq
      -- the row is still there under its id, so a row of that id is not new
      obtain ⟨r₂, hr₂, hprogress⟩ := h.kept r hr
      exact hnew r₂ hr₂ (hprogress.id_eq.trans heq)

theorem RowsProgress.map {f : Subjob → Subjob} (hunique : UniqueKey Subjob.id rows)
    (hf : ∀ r ∈ rows, RowProgress marks r (f r)) :
    RowsProgress marks inserts rows (rows.map f) := by
  refine ⟨hunique.map_of_mem fun r hr => (hf r hr).id_eq, ?_, ?_⟩
  · intro r hr
    exact ⟨f r, List.mem_map_of_mem hr, hf r hr⟩
  · intro r' hr'
    obtain ⟨r, hr, rfl⟩ := List.mem_map.1 hr'
    exact .inl ⟨r, hr, hf r hr⟩

theorem RowsProgress.append (hunique : UniqueKey Subjob.id rows)
    (hfresh : ∀ r₀ ∈ rows, r₀.id ≠ r.id) (hinserts : inserts r) :
    RowsProgress marks inserts rows (rows ++ [r]) := by
  refine ⟨hunique.append_fresh hfresh, ?_, ?_⟩
  · intro r₀ hr₀
    exact ⟨r₀, List.mem_append_left _ hr₀, .refl r₀⟩
  · intro r' hr'
    rcases List.mem_append.1 hr' with hold | hnew
    · exact .inl ⟨r', hold, .refl r'⟩
    · obtain rfl := List.mem_singleton.1 hnew
      exact .inr ⟨hfresh, hinserts⟩

theorem TableMove.rowsProgress (hunique : UniqueKey Subjob.id db.subjobs)
    (hmarks : ∀ id, rules.succeeds = some id → marks id)
    (hinserts : ∀ now inp status code message completed, rules.inserts now inp →
      status ≠ .succeeded → inserts (newSubjob now inp status code message completed))
    (h : TableMove rules db db') : RowsProgress marks inserts db.subjobs db'.subjobs := by
  cases h with
  | update f g h hrows hmoves =>
    rw [hrows]
    exact .map hunique fun r hr => (hmoves r hr).progress hmarks
  | insert now inp status code message completed hstatus hcompleted hins hvalid hlive hmanifest
      hfresh =>
    have hnew : status ≠ .succeeded := by
      rcases hstatus with rfl | rfl <;> decide
    exact .append hunique hfresh (hinserts now inp status code message completed hins hnew)

theorem rowsProgress_of_moves (hunique : UniqueKey Subjob.id db.subjobs)
    (hmarks : ∀ id, rules.succeeds = some id → marks id)
    (hrows : ∀ now inp status code message completed, rules.inserts now inp →
      status ≠ .succeeded → inserts (newSubjob now inp status code message completed))
    (hinserts : ∀ r r', inserts r → RowProgress marks r r' → inserts r')
    (h : Relation.ReflTransGen (TableMove rules) db db') :
    RowsProgress marks inserts db.subjobs db'.subjobs := by
  induction h with
  | refl => exact .refl hunique
  | tail _ hmove ih => exact ih.trans hinserts (hmove.rowsProgress ih.unique hmarks hrows)

end Rows

/-! ## Jobs -/

/-- A job and a later version of it; it may have failed. -/
structure JobKept (j j' : RepoIndexingJob) : Prop where
  id_eq : j'.id = j.id
  repoId_eq : j'.repoId = j.repoId
  type_eq : j'.type = j.type
  status : j'.status = j.status ∨ j'.status = .failed

/-- Store calls rewrite the jobs one by one. -/
def JobsKept (jobs jobs' : List RepoIndexingJob) : Prop :=
  ∃ g : RepoIndexingJob → RepoIndexingJob, jobs' = jobs.map g ∧ ∀ j ∈ jobs, JobKept j (g j)

section Jobs

variable {rules : CallRules} {db db' : Database}

theorem JobKept.refl (j : RepoIndexingJob) : JobKept j j := ⟨rfl, rfl, rfl, .inl rfl⟩

theorem JobKept.trans {j j' j'' : RepoIndexingJob} (h : JobKept j j') (h' : JobKept j' j'') :
    JobKept j j'' := by
  refine ⟨h'.id_eq.trans h.id_eq, h'.repoId_eq.trans h.repoId_eq, h'.type_eq.trans h.type_eq, ?_⟩
  rcases h'.status with hst | hfailed
  · rw [hst]
    exact h.status
  · exact .inr hfailed

theorem JobMove.jobKept {j j' : RepoIndexingJob} (h : JobMove db j j') : JobKept j j' := by
  cases h with
  | keep => exact .refl j
  | fail => exact ⟨rfl, rfl, rfl, .inr rfl⟩

theorem JobsKept.refl (jobs : List RepoIndexingJob) : JobsKept jobs jobs :=
  ⟨id, (List.map_id jobs).symm, fun j _ => .refl j⟩

theorem JobsKept.trans {jobs₁ jobs₂ jobs₃ : List RepoIndexingJob} (h : JobsKept jobs₁ jobs₂)
    (h' : JobsKept jobs₂ jobs₃) : JobsKept jobs₁ jobs₃ := by
  obtain ⟨g, rfl, hg⟩ := h
  obtain ⟨g', rfl, hg'⟩ := h'
  refine ⟨g' ∘ g, List.map_map, fun j hj => ?_⟩
  exact (hg j hj).trans (hg' (g j) (List.mem_map_of_mem hj))

theorem jobsKept_of_moves (h : Relation.ReflTransGen (TableMove rules) db db') :
    JobsKept db.jobs db'.jobs := by
  induction h with
  | refl => exact .refl _
  | tail _ hmove ih =>
    cases hmove with
    | update f g h hrows hmoves hjobs hjobMoves =>
      exact ih.trans ⟨g, hjobs, fun j hj => (hjobMoves j hj).jobKept⟩
    | insert => exact ih

end Jobs

end CodeIntel.Subjobs
