import CodeIntel.Subjobs.Store

/-!
# Which subjobs are dispatched

`ListDispatchable` selects the waiting subjobs whose dependencies are finished,
and among the ACTIVATE subjobs of a job only the oldest unfinished one. The
dispatcher turns each of them into a queue message for the next attempt.
-/

namespace CodeIntel.Subjobs

open Relational Schema

structure DispatchableSubjob where
  (id repoIndexingJobId : String)
  orgId : ℤ
  workspaceId : Option String
  repoId : ℤ
  (branch revision commitHash : String)
  layer : Layer
  (language projectRoot indexer : Option String)
  (workerClass queueName : String)
  attempt : ℤ
  deriving DecidableEq, Repr

/-- The columns `ListDispatchable` selects. -/
def dispatchColumns (s : Subjob) : DispatchableSubjob where
  id := s.id
  repoIndexingJobId := s.repoIndexingJobId
  orgId := s.orgId
  workspaceId := some s.workspaceId
  repoId := s.repoId
  branch := s.branch
  revision := s.revision
  commitHash := s.commitHash
  layer := s.layer
  language := s.language
  projectRoot := s.projectRoot
  indexer := s.indexer
  workerClass := s.workerClass
  queueName := s.queueName
  attempt := s.attempt

def sameRevision (s dep : Subjob) : Bool :=
  dep.repoIndexingJobId = s.repoIndexingJobId && dep.workspaceId = s.workspaceId &&
    dep.repoId = s.repoId && dep.branch = s.branch && dep.revision = s.revision &&
    dep.commitHash = s.commitHash

/-- `dep.status NOT IN ('SUCCEEDED', 'SKIPPED')`. -/
def unfinished (dep : Subjob) : Bool := !(dep.status = .succeeded || dep.status = .skipped)

/-- A SCIP subjob that ended without a result holds nothing back. -/
def lostScip (dep : Subjob) : Bool :=
  dep.layer = .scip && (dep.status = .failed || dep.status = .canceled)

/-- The statuses in which an ACTIVATE subjob holds back the younger ones. -/
def activating : List SubjobStatus := [.queued, .claimed, .running, .validating, .retrying]

/-- The order in which subjobs are dispatched and activated. -/
def dispatchKey (s : Subjob) : Time ×ₗ String := toLex (s.createdAt, s.id)

def awaitsClone (db : Database) (s : Subjob) : Bool :=
  db.subjobs.any fun dep => sameRevision s dep && dep.layer = .clone && unfinished dep

def awaitsProducer (db : Database) (s : Subjob) : Bool :=
  db.subjobs.any fun dep =>
    sameRevision s dep && isScipOrAst dep.layer && unfinished dep && !lostScip dep

def awaitsRevision (db : Database) (s : Subjob) : Bool :=
  db.subjobs.any fun dep =>
    sameRevision s dep && dep.id ≠ s.id && dep.layer ≠ .activate && unfinished dep &&
      !lostScip dep

/-- An older ACTIVATE subjob of the job is still to be activated. -/
def awaitsActivate (db : Database) (s : Subjob) : Bool :=
  db.subjobs.any fun act =>
    act.repoIndexingJobId = s.repoIndexingJobId && act.workspaceId = s.workspaceId &&
      act.repoId = s.repoId && act.layer = .activate && act.id ≠ s.id &&
      activating.contains act.status && dispatchKey act < dispatchKey s

def dependenciesMet (db : Database) (s : Subjob) : Bool :=
  match s.layer with
  | .clone | .remove => true
  | .zoekt | .astTreeSitter | .scip => !awaitsClone db s
  | .graphMerge => !awaitsProducer db s
  | .activate => !awaitsRevision db s && !awaitsActivate db s

/-- The `WHERE` clause and the joins of `ListDispatchable`. -/
def dispatchable (db : Database) (s : Subjob) : Bool :=
  waiting s && liveJob db s.repoIndexingJobId s.repoId s.orgId && s.attempt < s.maxAttempts &&
    dependenciesMet db s

def listDispatchable (limit : ℤ) (db : Database) : Except String (List DispatchableSubjob) :=
  if limit ≤ 0 then .error "indexsubjobs: ListDispatchable requires positive limit"
  else .ok ((((db.subjobs.filter (dispatchable db)).insertionSort
    fun s s' => dispatchKey s ≤ dispatchKey s').take limit.toNat).map dispatchColumns)

/-- The queue message of `enqueue` and `enqueueRescue`: the scope of the next attempt, on the
queue of the row's worker class. -/
def dispatchMessage (row : DispatchableSubjob) : Except String ClaimScope :=
  match classByName row.workerClass with
  | none => .error ("subjob " ++ row.id ++ " has unknown worker class " ++ row.workerClass.quote)
  | some c =>
    if row.queueName ≠ "" && row.queueName ≠ c.queueName then
      .error ("subjob " ++ row.id ++ " queue " ++ row.queueName.quote ++
        " does not match worker class " ++ row.workerClass.quote ++ " queue " ++ c.queueName.quote)
    else .ok
      { id := row.id
        repoIndexingJobId := row.repoIndexingJobId
        orgId := row.orgId
        workspaceId := row.workspaceId
        repoId := row.repoId
        branch := row.branch
        revision := row.revision
        commitHash := row.commitHash
        layer := row.layer
        language := row.language
        projectRoot := row.projectRoot
        indexer := row.indexer
        workerClass := row.workerClass
        queueName := c.queueName
        attempt := row.attempt + 1 }

/-! ## What is listed -/

section Listing

variable {db : Database} {limit : ℤ} {items : List DispatchableSubjob}

theorem dispatchable_of_mem_listDispatchable (h : listDispatchable limit db = .ok items)
    {item : DispatchableSubjob} (hitem : item ∈ items) :
    ∃ s ∈ db.subjobs, dispatchable db s = true ∧ item = dispatchColumns s := by
  unfold listDispatchable at h
  split_ifs at h with hlimit
  cases h
  obtain ⟨s, hs, rfl⟩ := List.mem_map.1 hitem
  have hsorted := (List.mem_insertionSort _).1 (List.mem_of_mem_take hs)
  obtain ⟨hmem, hdispatchable⟩ := List.mem_filter.1 hsorted
  exact ⟨s, hmem, hdispatchable, rfl⟩

theorem waiting_of_dispatchable {s : Subjob} (h : dispatchable db s = true) :
    waiting s = true := by
  simp only [dispatchable, Bool.and_eq_true] at h
  exact h.1.1.1

theorem mem_listDispatchable_of_le {s : Subjob} (hs : s ∈ db.subjobs)
    (hdispatchable : dispatchable db s = true)
    (hlimit : ((db.subjobs.filter waiting).length : ℤ) ≤ limit) :
    ∃ items, listDispatchable limit db = .ok items ∧ dispatchColumns s ∈ items := by
  have hle : (db.subjobs.filter (dispatchable db)).length ≤ (db.subjobs.filter waiting).length := by
    apply List.Sublist.length_le
    apply List.monotone_filter_right
    intro r hr
    exact waiting_of_dispatchable hr
  have hmem : s ∈ db.subjobs.filter (dispatchable db) := List.mem_filter.2 ⟨hs, hdispatchable⟩
  have hpos := List.length_pos_of_mem hmem
  unfold listDispatchable
  rw [if_neg (by omega)]
  refine ⟨_, rfl, List.mem_map_of_mem ?_⟩
  rw [List.take_of_length_le]
  · exact (List.mem_insertionSort _).2 hmem
  · rw [List.length_insertionSort]
    omega

end Listing

end CodeIntel.Subjobs
