import CodeIntel.Subjobs.Dispatch
import CodeIntel.Subjobs.Lifecycle

/-!
# Serialization of ACTIVATE subjobs

`ClaimScoped` does not look at other rows, so two activations of one job exclude
each other only through the messages that `ListDispatchable` produces. A message
for an ACTIVATE subjob is produced when all older ones are finished. Finished
rows stay finished, so a late or repeated delivery finds them finished as well,
unless an older row is inserted behind the message.
-/

namespace CodeIntel.Subjobs

open Relational Schema

/-! ## Dispatching with delayed messages -/

/-- The database and every queue message produced so far. A message is never
removed: it may be delivered late and more than once. -/
structure DispatchState where
  db : Database
  issued : List ClaimScope

inductive DispatchStep where
  | store (call : StoreCall)
  | dispatch (limit : ℤ)

/-- The messages `DispatchReady` enqueues. -/
def dispatchMessages (limit : ℤ) (db : Database) : List ClaimScope :=
  match listDispatchable limit db with
  | .error _ => []
  | .ok items => items.filterMap fun item => (dispatchMessage item).toOption

/-- Claims carry a produced message, and the handler of ACTIVATE subjobs never
publishes an artifact. -/
def DispatchState.allows (s : DispatchState) : StoreCall → Bool
  | .claimScoped _ scope _ _ _ => s.issued.contains scope
  | .markArtifactWritten _ lease _ _ _ =>
    s.db.subjobs.all fun r => r.layer ≠ .activate || r.id ≠ lease.subjobId
  | _ => true

def dispatchMachine : Machine DispatchState DispatchStep where
  step s
    | .store call => if s.allows call then some { s with db := call.apply s.db } else none
    | .dispatch limit => some { s with issued := s.issued ++ dispatchMessages limit s.db }

def rivals (a b : Subjob) : Bool :=
  a.layer = .activate && b.layer = .activate && a.repoIndexingJobId = b.repoIndexingJobId &&
    a.workspaceId = b.workspaceId && a.repoId = b.repoId

/-- An ACTIVATE row that is really inserted is younger than its unfinished rivals. -/
def GoesLast (db : Database) (now : Time) (inp : CreateInput) : Prop :=
  inp.layer = .activate → (∀ r ∈ db.subjobs, r.id ≠ inp.id) →
    ∀ b ∈ db.subjobs, b.layer = .activate → b.repoIndexingJobId = inp.repoIndexingJobId →
      b.workspaceId = coalesce inp.workspaceId → b.repoId = inp.repoId → b.status ∉ terminal →
        dispatchKey b < toLex (now, inp.id)

instance (db : Database) (now : Time) (inp : CreateInput) : Decidable (GoesLast db now inp) :=
  decidable_of_iff
    (inp.layer ≠ .activate ∨ (∃ r ∈ db.subjobs, r.id = inp.id) ∨
      ∀ b ∈ db.subjobs, ¬(b.layer = .activate ∧ b.repoIndexingJobId = inp.repoIndexingJobId ∧
        b.workspaceId = coalesce inp.workspaceId ∧ b.repoId = inp.repoId ∧ b.status ∉ terminal) ∨
          dispatchKey b < toLex (now, inp.id)) <| by
    unfold GoesLast
    grind

/-- Every step inserts ACTIVATE rows in the order of `createdAt` and id. -/
def InsertsInOrder (s : DispatchState) : DispatchStep → Prop
  | .store (.upsertQueued now inp) => GoesLast s.db now inp
  | .store (.upsertSkipped now _ inp _ _) => GoesLast s.db now inp
  | _ => True

instance (s : DispatchState) : DecidablePred (InsertsInOrder s)
  | .store (.upsertQueued now inp) => inferInstanceAs (Decidable (GoesLast s.db now inp))
  | .store (.upsertSkipped now _ inp _ _) => inferInstanceAs (Decidable (GoesLast s.db now inp))
  | .dispatch _ | .store (.claimScoped ..) | .store (.heartbeat ..)
  | .store (.markArtifactWritten ..) | .store (.markSucceeded ..) | .store (.markFailed ..)
  | .store (.markRetryableInfrastructureFailure ..) | .store (.validateLiveSubjobLease ..)
  | .store (.requeueExpiredLeases ..) | .store (.requeueLeasesForOwnerPrefixes ..)
  | .store (.reconcileTerminalFailures ..) | .store (.otherTables ..) => isTrue trivial

/-! ## Rows under moves -/

section Moves

variable {rules : CallRules} {db db' : Database} {issued : List ClaimScope}

variable {r r' : Subjob}

theorem Move.inFlight_cases (h : Move rules db r r') (hst : r'.status ∈ inFlight) :
    r.status ∈ inFlight ∨ rules.claims = some r.id := by
  cases h with
  | keep => exact .inl hst
  | claim _ _ _ _ hclaims => exact .inr hclaims
  | hold _ _ hflight | succeed _ _ hflight => exact .inl hflight
  | ended now st code message hended =>
    have hout : st ∉ inFlight := by
      cases hended <;> decide
    exact absurd hst hout

theorem Move.artifactWritten_cases (h : Move rules db r r') (hst : r'.status = .artifactWritten) :
    r.status = .artifactWritten ∨ rules.writes = some r.id := by
  cases h with
  | keep => exact .inl hst
  | claim | succeed => cases hst
  | hold _ _ _ _ hwrites => exact hwrites hst
  | ended now st code message hended =>
    obtain rfl : st = .artifactWritten := hst
    cases hended

theorem rivals_congr {a a' b b' : Subjob} (ha : identity a' = identity a)
    (hb : identity b' = identity b) : rivals a' b' = rivals a b := by
  calc rivals a' b' = rivals (identity a') (identity b') := rfl
    _ = rivals (identity a) (identity b) := by rw [ha, hb]

theorem dispatchKey_congr (h : identity r' = identity r) : dispatchKey r' = dispatchKey r := by
  calc dispatchKey r' = dispatchKey (identity r') := rfl
    _ = dispatchKey (identity r) := by rw [h]

/-- What dispatching keeps true: rows in flight had a message, and the rivals older
than a row with a message are finished unless that row is. -/
structure Ordered (s : DispatchState) : Prop where
  table : LifecycleTable s.db.subjobs
  flight : ∀ r ∈ s.db.subjobs, r.status ∈ inFlight → ∃ m ∈ s.issued, m.id = r.id
  unwritten : ∀ r ∈ s.db.subjobs, r.layer = .activate → r.status ≠ .artifactWritten
  known : ∀ m ∈ s.issued, ∃ r ∈ s.db.subjobs, r.id = m.id
  older : ∀ a ∈ s.db.subjobs, ∀ b ∈ s.db.subjobs, rivals a b = true →
    (∃ m ∈ s.issued, m.id = b.id) → dispatchKey a < dispatchKey b →
      a.status ∈ terminal ∨ b.status ∈ terminal

theorem TableMove.ordered_update {f : Subjob → Subjob} (hrows : db'.subjobs = db.subjobs.map f)
    (hmoves : ∀ r ∈ db.subjobs, Move rules db r (f r)) (htable : LifecycleTable db'.subjobs)
    (hclaims : ∀ id, rules.claims = some id → ∃ m ∈ issued, m.id = id)
    (hwrites : ∀ r ∈ db.subjobs, r.layer = .activate → rules.writes ≠ some r.id)
    (hs : Ordered ⟨db, issued⟩) : Ordered ⟨db', issued⟩ := by
  have hmem : ∀ {r'}, r' ∈ db'.subjobs → ∃ r ∈ db.subjobs, f r = r' := by
    intro r' hr'
    rw [hrows] at hr'
    exact List.mem_map.1 hr'
  refine ⟨htable, ?_, ?_, ?_, ?_⟩
  · intro r' hr' hst
    obtain ⟨r, hr, rfl⟩ := hmem hr'
    have hid := (hmoves r hr).id_eq
    obtain hflight | hclaim := (hmoves r hr).inFlight_cases hst
    · rw [hid]
      exact hs.flight r hr hflight
    · rw [hid]
      exact hclaims _ hclaim
  · intro r' hr' hlayer hst
    obtain ⟨r, hr, rfl⟩ := hmem hr'
    have hlayer' : (f r).layer = r.layer := congrArg (·.layer) (hmoves r hr).identity_eq
    rw [hlayer'] at hlayer
    obtain hold | hwrite := (hmoves r hr).artifactWritten_cases hst
    · exact hs.unwritten r hr hlayer hold
    · exact hwrites r hr hlayer hwrite
  · intro m hm
    obtain ⟨r, hr, hid⟩ := hs.known m hm
    refine ⟨f r, ?_, (hmoves r hr).id_eq.trans hid⟩
    rw [hrows]
    exact List.mem_map_of_mem hr
  · intro a' ha' b' hb' hrivals hissued hlt
    obtain ⟨a, ha, rfl⟩ := hmem ha'
    obtain ⟨b, hb, rfl⟩ := hmem hb'
    rw [rivals_congr (hmoves a ha).identity_eq (hmoves b hb).identity_eq] at hrivals
    rw [dispatchKey_congr (hmoves a ha).identity_eq,
      dispatchKey_congr (hmoves b hb).identity_eq] at hlt
    rw [(hmoves b hb).id_eq] at hissued
    -- finished rows are left alone by every move
    obtain hfinished | hfinished := hs.older a ha b hb hrivals hissued hlt
    · left
      rw [(hmoves a ha).eq_of_terminal hfinished]
      exact hfinished
    · right
      rw [(hmoves b hb).eq_of_terminal hfinished]
      exact hfinished

theorem TableMove.ordered_insert {now : Time} {inp : CreateInput} {status : SubjobStatus}
    {code message : String} {completed : Option Time}
    (hstatus : status = .queued ∨ status = .skipped) (hfresh : ∀ r ∈ db.subjobs, r.id ≠ inp.id)
    (htable : LifecycleTable
      (db.subjobs ++ [newSubjob now inp status code message completed]))
    (hlast : GoesLast db now inp) (hs : Ordered ⟨db, issued⟩) :
    Ordered
      ⟨{ db with
          subjobs := db.subjobs ++ [newSubjob now inp status code message completed] },
        issued⟩ := by
  have hunissued : ∀ m ∈ issued, m.id ≠ inp.id := by
    intro m hm heq
    obtain ⟨r, hr, hid⟩ := hs.known m hm
    exact hfresh r hr (hid.trans heq)
  refine ⟨htable, ?_, ?_, ?_, ?_⟩
  · intro r hr hst
    rcases List.mem_append.1 hr with hold | hnew
    · exact hs.flight r hold hst
    · rw [List.mem_singleton.1 hnew] at hst
      obtain rfl | rfl := hstatus
      · exact absurd (show SubjobStatus.queued ∈ inFlight from hst) (by decide)
      · exact absurd (show SubjobStatus.skipped ∈ inFlight from hst) (by decide)
  · intro r hr hlayer hst
    rcases List.mem_append.1 hr with hold | hnew
    · exact hs.unwritten r hold hlayer hst
    · rw [List.mem_singleton.1 hnew] at hst
      obtain rfl : status = .artifactWritten := hst
      simp at hstatus
  · intro m hm
    obtain ⟨r, hr, hid⟩ := hs.known m hm
    exact ⟨r, List.mem_append_left _ hr, hid⟩
  · intro a ha b hb hrivals hissued hlt
    rcases List.mem_append.1 hb with hbold | hbnew
    · rcases List.mem_append.1 ha with haold | hanew
      · exact hs.older a haold b hbold hrivals hissued hlt
      · -- a new row is younger than its unfinished rivals
        right
        by_contra hunfinished
        rw [List.mem_singleton.1 hanew] at hrivals hlt
        simp only [rivals, Bool.and_eq_true, decide_eq_true_eq] at hrivals
        obtain ⟨⟨⟨⟨hlayer, hblayer⟩, hjob⟩, hws⟩, hrepo⟩ := hrivals
        have hgt := hlast hlayer hfresh b hbold hblayer hjob.symm hws.symm hrepo.symm hunfinished
        exact lt_asymm hlt hgt
    · rw [List.mem_singleton.1 hbnew] at hissued
      obtain ⟨m, hm, hid⟩ := hissued
      exact absurd hid (hunissued m hm)

theorem TableMove.ordered (h : TableMove rules db db')
    (hclaims : ∀ id, rules.claims = some id → ∃ m ∈ issued, m.id = id)
    (hwrites : ∀ r ∈ db.subjobs, r.layer = .activate → rules.writes ≠ some r.id)
    (hinserts : ∀ now inp, rules.inserts now inp → GoesLast db now inp)
    (hs : Ordered ⟨db, issued⟩) : Ordered ⟨db', issued⟩ := by
  have htable := h.lifecycleTable hs.table
  cases h with
  | update f g h hrows hmoves => exact ordered_update hrows hmoves htable hclaims hwrites hs
  | insert now inp status code message completed hstatus hcompleted hinsert hvalid hlive hmanifest
      hfresh =>
    exact ordered_insert hstatus hfresh htable (hinserts now inp hinsert) hs

end Moves

/-! ## Steps -/

variable {rules : CallRules} {issued : List ClaimScope} {db : Database} {s : DispatchState}

theorem claims_of_none (h : rules.claims = none) (id : String) (hclaim : rules.claims = some id) :
    ∃ m ∈ issued, m.id = id := by
  rw [h] at hclaim
  cases hclaim

theorem mem_dispatchMessages {limit : ℤ} {m : ClaimScope} (h : m ∈ dispatchMessages limit db) :
    ∃ s ∈ db.subjobs, dispatchable db s = true ∧ m.id = s.id := by
  unfold dispatchMessages at h
  split at h
  · cases h
  · rename_i items hlist
    obtain ⟨item, hitem, hm⟩ := List.mem_filterMap.1 h
    obtain ⟨s, hs, hdispatchable, rfl⟩ := dispatchable_of_mem_listDispatchable hlist hitem
    refine ⟨s, hs, hdispatchable, ?_⟩
    unfold dispatchMessage at hm
    split at hm
    · cases hm
    · split_ifs at hm
      · cases hm
      · rw [← Option.some.inj hm]
        rfl

theorem terminal_of_dispatchable {a b : Subjob} (ha : a ∈ db.subjobs)
    (hb : dispatchable db b = true) (hrivals : rivals a b = true)
    (hlt : dispatchKey a < dispatchKey b) (hid : a.id ≠ b.id)
    (hunwritten : a.status ≠ .artifactWritten) : a.status ∈ terminal := by
  simp only [rivals, Bool.and_eq_true, decide_eq_true_eq] at hrivals
  obtain ⟨⟨⟨⟨halayer, hblayer⟩, hjob⟩, hws⟩, hrepo⟩ := hrivals
  simp only [dispatchable, dependenciesMet, hblayer, Bool.and_eq_true, Bool.not_eq_true'] at hb
  have hawaits := List.any_eq_false.1 hb.2.2 a ha
  have hactivating : a.status ∉ activating := by
    intro hst
    apply hawaits
    simp [hjob, hws, hrepo, halayer, hid, hst, hlt]
  revert hactivating hunwritten
  cases a.status <;> decide

theorem Ordered.dispatch (hs : Ordered s) (limit : ℤ) :
    Ordered { s with issued := s.issued ++ dispatchMessages limit s.db } := by
  refine ⟨hs.table, ?_, hs.unwritten, ?_, ?_⟩
  · intro r hr hst
    obtain ⟨m, hm, hid⟩ := hs.flight r hr hst
    exact ⟨m, List.mem_append_left _ hm, hid⟩
  · intro m hm
    rcases List.mem_append.1 hm with hold | hnew
    · exact hs.known m hold
    · obtain ⟨r, hr, -, hid⟩ := mem_dispatchMessages hnew
      exact ⟨r, hr, hid.symm⟩
  · rintro a ha b hb hrivals ⟨m, hm, hid⟩ hlt
    rcases List.mem_append.1 hm with hold | hnew
    · exact hs.older a ha b hb hrivals ⟨m, hold, hid⟩ hlt
    · left
      obtain ⟨r, hr, hdispatchable, hrid⟩ := mem_dispatchMessages hnew
      obtain rfl : r = b := hs.table.unique.eq_of_key_eq hr hb (hrid.symm.trans hid)
      have hne : a.id ≠ r.id := by
        intro heq
        rw [hs.table.unique.eq_of_key_eq ha hb heq] at hlt
        exact lt_irrefl _ hlt
      have halayer : a.layer = .activate := by
        simp only [rivals, Bool.and_eq_true, decide_eq_true_eq] at hrivals
        exact hrivals.1.1.1.1
      exact terminal_of_dispatchable ha hdispatchable hrivals hlt hne
        (hs.unwritten a ha halayer)

/-- Moves of a call that neither inserts rows nor publishes artifacts. -/
theorem moves_ordered {db' : Database} (h : Relation.ReflTransGen (TableMove rules) db db')
    (hclaims : ∀ id, rules.claims = some id → ∃ m ∈ issued, m.id = id)
    (hwrites : rules.writes = none) (hinserts : ∀ now inp, ¬ rules.inserts now inp)
    (hs : Ordered ⟨db, issued⟩) : Ordered ⟨db', issued⟩ := by
  apply moves_invariant (fun db => Ordered ⟨db, issued⟩) _ h hs
  intro db db' hmove hdb
  apply hmove.ordered hclaims _ _ hdb
  · intro r _ _
    rw [hwrites]
    exact nofun
  · intro now inp hinsert
    exact absurd hinsert (hinserts now inp)

theorem Ordered.upsert (hs : Ordered s) {now : Time} {inp : CreateInput}
    (hlast : GoesLast s.db now inp) (completedAt : Time) (status : SubjobStatus)
    (code message : String) :
    Ordered { s with db := (upsertWithStatus now completedAt inp status code message s.db).2 } := by
  have hinserts : (insertRules now inp).inserts now inp := ⟨rfl, rfl⟩
  have hmove : Relation.ReflGen (TableMove (insertRules now inp)) s.db
      (upsertWithStatus now completedAt inp status code message s.db).2 :=
    upsertWithStatus_move hinserts completedAt status code message
  obtain heq | hmove := (Relation.reflGen_iff _ _ _).1 hmove
  · rw [heq]
    exact hs
  · apply hmove.ordered (claims_of_none rfl) (fun _ _ _ hwrite => nomatch hwrite) _ hs
    rintro now' inp' ⟨rfl, rfl⟩
    exact hlast

theorem Ordered.store (hs : Ordered s) {call : StoreCall} (hallowed : s.allows call = true)
    (horder : InsertsInOrder s (.store call)) :
    Ordered { s with db := call.apply s.db } := by
  have hunique := hs.table.unique
  cases call with
  | upsertQueued now inp => exact hs.upsert horder now .queued "" ""
  | upsertSkipped now completedAt inp code msg =>
    simp only [StoreCall.apply, upsertSkipped]
    split_ifs
    · exact hs
    · exact hs.upsert horder completedAt .skipped code msg
  | claimScoped now scope owner attemptId leaseUntil =>
    have hissued : scope ∈ s.issued := List.contains_iff_mem.1 hallowed
    refine moves_ordered (apply_moves hunique rfl) ?_ rfl (fun _ _ h => h) hs
    intro id hid
    exact ⟨scope, hissued, Option.some.inj hid⟩
  | markArtifactWritten now lease tempPath path sha256 =>
    have hmove : TableMove (StoreCall.markArtifactWritten now lease tempPath path sha256).rules
        s.db (markArtifactWritten now lease tempPath path sha256 s.db).2 :=
      markArtifactWritten_move rfl now tempPath path sha256
    refine hmove.ordered (claims_of_none rfl) ?_ (fun _ _ hinsert => hinsert.elim) hs
    intro r hr hlayer hwrite
    have hother := List.all_eq_true.1 hallowed r hr
    simp [hlayer, Option.some.inj hwrite] at hother
  | otherTables other => exact ⟨hs.table, hs.flight, hs.unwritten, hs.known, hs.older⟩
  | _ =>
    exact moves_ordered (apply_moves hunique rfl) (claims_of_none rfl) rfl
      (fun _ _ h => h) hs

/-! ## Runs -/

def manyRevisions : Database :=
  { sampleDatabase with
    manifests := [sampleManifest, { sampleManifest with id := "dev", branch := "dev" },
      { sampleManifest with id := "other", workspaceId := "ws2" }] }

def activateInput (id workspaceId branch : String) : CreateInput :=
  { sampleInput with
    id
    workspaceId := some workspaceId
    branch
    layer := .activate }

def activateClaim (now : Time) (id workspaceId branch : String) : DispatchStep :=
  .store (.claimScoped now
    { (sampleClaim now 1 "").scope with
      id
      workspaceId := some workspaceId
      branch
      layer := .activate }
    "core-1" id (now + 100))

end CodeIntel.Subjobs
