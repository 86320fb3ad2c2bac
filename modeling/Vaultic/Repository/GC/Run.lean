/-
  Repository/GC/Run.lean  —  backups, forgets and collections over whole runs.

  Source: internal/repository/gc.go, cmd_index_gc (a pass holds the exclusive lock
  from planning to the end of its execution, so no backup runs beside it).

  A backup uploads the blobs the catalog does not locate and skips the others,
  whatever the lifecycle of the pack that holds them.  A pack left delete-pending
  by an interrupted or deferred pass therefore can gain a new snapshot, and the
  retry of its deletion does not look at snapshots again.
-/
import Vaultic.Lib.Run
import Vaultic.Repository.GC.Safety

set_option autoImplicit false

namespace Vaultic.Repository

open Vaultic.Lib Vaultic.Schema Vaultic.Daemon

/-! ## Planning on a covered catalog -/

variable {packs : List (ID × PackRecord)} {members : List ID} {pack : ID}

theorem lookup_pendingRetries {catalog : BlobCatalog}
    (h : (pendingRetries packs catalog).lookup pack = some members) :
    members = catalog.members pack ∧
      ∃ record, (pack, record) ∈ packs ∧ record.lifecycle = .deletePending := by
  have hfold : ∀ (entries : List (ID × PackRecord)) (acc : Table ID (List ID)),
      (entries.foldl (fun acc entry =>
        if entry.2.lifecycle = .deletePending then acc.insert entry.1 (catalog.members entry.1)
        else acc) acc).lookup pack = some members →
      acc.lookup pack = some members ∨ members = catalog.members pack ∧
        ∃ record, (pack, record) ∈ entries ∧ record.lifecycle = .deletePending := by
    intro entries
    induction entries with
    | nil => exact fun _ hlook => .inl hlook
    | cons entry rest ih =>
      intro acc hlook
      rcases ih _ hlook with hacc | ⟨hmembers, record, hmem, hpending⟩
      · dsimp only at hacc
        split at hacc
        · rcases Table.lookup_insert_cases hacc with ⟨rfl, rfl⟩ | ⟨-, hacc⟩
          · exact .inr ⟨rfl, entry.2, .head _, ‹_›⟩
          · exact .inl hacc
        · exact .inl hacc
      · exact .inr ⟨hmembers, record, .tail _ hmem, hpending⟩
  rcases hfold packs ∅ h with hnone | hfound
  · simp at hnone
  · exact hfound

variable {env : GCEnv} {opts : GCOptions} {live : Finset BlobHandle}

section

variable {plan : GCPlan} {store : SchemaStore} (h : (planGC env opts store).1 = .ok plan)
include h

/-- Every pack a plan retries was delete-pending, and is listed with all it holds. -/
theorem planGC_retries (hlook : plan.retryPacks.lookup pack = some members) :
    lifecycleOf store pack = some .deletePending ∧
      ∀ handle, Located store handle pack → handle.id ∈ members := by
  have hfrom : ∃ packs catalog, scanPacks store = .ok packs ∧
      scanBlobCatalog store = .ok catalog ∧
      (pendingRetries packs catalog).lookup pack = some members := by
    obtain ⟨decision, hdecision, hplan⟩ := decideGC_of_planGC h
    rw [hplan] at hlook
    obtain ⟨-, -, hdecision⟩ := of_bind hdecision
    split at hdecision
    · obtain ⟨packs, hpacks, hdecision⟩ := of_bind hdecision
      obtain ⟨catalog, hcatalog, hdecision⟩ := of_bind hdecision
      obtain ⟨existing, -, hdecision⟩ := of_bind hdecision
      obtain ⟨puts, -, hdecision⟩ := of_bind hdecision
      cases hdecision
      exact ⟨packs, catalog, hpacks, hcatalog, hlook⟩
    · obtain ⟨input, hinput, hdecision⟩ := of_bind hdecision
      obtain ⟨result, -, hdecision⟩ := of_bind hdecision
      obtain ⟨unstagedPlan, hexclude, hdecision⟩ := of_bind hdecision
      cases hdecision
      obtain ⟨hpacks, hcatalog, -⟩ := classificationInput_spec hinput
      refine ⟨_, _, hpacks, hcatalog, ?_⟩
      have hretry := (excludeStagedRoots_spec hexclude pack).2.2
      rw [hlook] at hretry
      split at hretry
      · cases hretry
      · exact hretry.symm
  obtain ⟨packs, catalog, hpacks, hcatalog, hpending⟩ := hfrom
  obtain ⟨rfl, record, hmem, hlifecycle⟩ := lookup_pendingRetries hpending
  constructor
  · rw [lifecycleOf_of_lookup ((mem_scanPacks hpacks).mp hmem), hlifecycle]
  · intro handle hlocated
    exact ((scanBlobCatalog_spec hcatalog).2.1 _ _).mpr ⟨handle.type, hlocated⟩

/-- Only published packs are scheduled. -/
theorem planGC_scheduled (hpack : pack ∈ plan.mixedPacks ∨ pack ∈ plan.wholePacks) :
    lifecycleOf store pack = some .published := by
  cases hopts : opts.discoverOnly with
  | true =>
    obtain ⟨hwhole, hmixed⟩ := planGC_discoverOnly hopts h
    rw [hwhole, hmixed] at hpack
    rcases hpack with hin | hin <;> exact absurd hin (AList.notMem_empty _)
  | false =>
    obtain ⟨input, -, hschedule⟩ := planGC_schedule hopts h
    obtain ⟨hwhole, hmixed, -⟩ := hschedule pack
    rw [hwhole, hmixed] at hpack
    rcases hpack with ⟨-, record, hlook, hdue, -⟩ | ⟨-, record, hlook, hdue, -⟩ <;>
      rw [lifecycleOf_of_lookup hlook, hdue.1]

/-- A plan that retains what it reached is safe to execute. -/
theorem planSafe_of_retains (hretains : RetainsReached store live plan) :
    PlanSafe store live plan where
  whole handle hlive pack hwhole hlocated :=
    (hretains handle hlive pack hlocated (planGC_scheduled h (.inr hwhole))).1 hwhole
  mixed handle hlive pack keep hlook hlocated := by
    have hmixed : pack ∈ plan.mixedPacks := Table.mem_iff_lookup.mpr ⟨_, hlook⟩
    exact (hretains handle hlive pack hlocated (planGC_scheduled h (.inl hmixed))).2 keep hlook
  retry _ _ hlook := planGC_retries h hlook
  scheduled _ hpack := planGC_scheduled h hpack

end

/-! ## Planning leaves the catalog alone -/

/-- The record of a pack that the classification puts. -/
def IsPackPut (input : ClassificationInput) (put : Mutation) : Prop :=
  ∃ pack record, put = (.garbageCollection .pack pack, .garbageCollection record) ∧
    record.discoveredUnixNano = packDiscoveredAt pack (input.catalog.members pack) input

variable {input : ClassificationInput} {result result' : Classification}

theorem gcPuts_classifyPackEntry {entry : ID × PackRecord}
    (h : classifyPackEntry input result entry = .ok result')
    (hputs : ∀ put ∈ result.gcPuts, IsPackPut input put) :
    ∀ put ∈ result'.gcPuts, IsPackPut input put := by
  unfold classifyPackEntry at h
  dsimp only at h
  split at h
  · cases h
    exact hputs
  split at h
  · cases h
    exact hputs
  obtain ⟨value, hvalue, h⟩ := of_bind h
  cases h
  obtain ⟨-, -, hwrapped⟩ := encode_eq_ok.mp hvalue
  have happend : ∀ put ∈ result.gcPuts ++ [(.garbageCollection .pack entry.1, value)],
      IsPackPut input put := by
    rw [hwrapped]
    exact List.forall_mem_append.mpr ⟨hputs, List.forall_mem_singleton.mpr ⟨_, _, rfl, rfl⟩⟩
  unfold classifyPackCandidate
  dsimp only
  split <;> split <;> exact happend

/-- The record of a blob that a discovering pass puts. -/
def IsBlobPut (now : Int) (existing : List ((GCTarget × ID) × GarbageCollectionRecord))
    (put : Mutation) : Prop :=
  ∃ blob record, put = (.garbageCollection .blob blob, .garbageCollection record) ∧
    record.discoveredUnixNano =
      ((existing.lookup (.blob, blob)).map (·.discoveredUnixNano)).getD now

variable {decision : GCDecision} {store : SchemaStore}

/-- What a pass puts: the candidates of a discovering pass, or the classified packs. -/
theorem puts_decideGC (h : decideGC env opts store = .ok decision) :
    (opts.discoverOnly = true ∧ ∃ existing, loadExistingGCTimestamps store = .ok existing ∧
        ∀ put ∈ decision.puts, IsBlobPut env.now existing put) ∨
      (opts.discoverOnly = false ∧ ∃ input, classificationInput env opts store = .ok input ∧
        ∀ put ∈ decision.puts, IsPackPut input put) := by
  obtain ⟨-, -, h⟩ := of_bind h
  split at h
  · rename_i hopts
    obtain ⟨packs, -, h⟩ := of_bind h
    obtain ⟨catalog, -, h⟩ := of_bind h
    obtain ⟨existing, hexisting, h⟩ := of_bind h
    obtain ⟨puts, hputs, h⟩ := of_bind h
    cases h
    refine .inl ⟨hopts, existing, hexisting, ?_⟩
    intro put hput
    obtain ⟨blob, -, hrun⟩ := (mem_of_mapM_map hputs).mp hput
    replace hrun := of_encode hrun
    cases hrun
    exact ⟨_, _, rfl, rfl⟩
  · rename_i hopts
    obtain ⟨input, hinput, h⟩ := of_bind h
    obtain ⟨result, hresult, h⟩ := of_bind h
    obtain ⟨plan, -, h⟩ := of_bind h
    cases h
    exact .inr ⟨Bool.not_eq_true _ ▸ hopts, input, hinput,
      foldlM_invariant (fun result => ∀ put ∈ result.gcPuts, IsPackPut input put)
        gcPuts_classifyPackEntry hresult (List.forall_mem_nil _)⟩

theorem bookkeeping_decideGC (h : decideGC env opts store = .ok decision) :
    Bookkeeping decision.puts := by
  intro put hput
  rcases puts_decideGC h with ⟨-, existing, -, hputs⟩ | ⟨-, input, -, hputs⟩
  · obtain ⟨blob, record, rfl, -⟩ := hputs put hput
    rfl
  · obtain ⟨pack, record, rfl, -⟩ := hputs put hput
    rfl

/-- Planning writes bookkeeping and usage only, whether or not it succeeds. -/
theorem sameCatalog_planGC (env : GCEnv) (opts : GCOptions) (store : SchemaStore) :
    SameCatalog store (planGC env opts store).2 := by
  obtain hsame | ⟨decision, hdecision, hafter⟩ := store_planGC env opts store
  · rw [hsame]
    exact .refl store
  · rw [hafter]
    exact (bookkeeping_decideGC hdecision).sameCatalog.trans sameCatalog_updatePackUsage

/-! ## Runs -/

/-- A repository: its catalog, pack objects and saved snapshots, each with the
handles it reaches, and the removals so far with what was retained at planning. -/
structure RepoState where
  store : SchemaStore := ∅
  objects : Finset ID := ∅
  snapshots : Table ID (Finset BlobHandle) := ∅
  removals : List (Finset BlobHandle × Removal) := []

section

variable (state : RepoState)

/-- The handles reachable from the saved snapshots. -/
def RepoState.retained : Finset BlobHandle :=
  state.snapshots.entries.foldl (fun acc entry => acc ∪ entry.2) ∅

/-- A reverse reference to a blob, from an inode or from a content manifest. -/
inductive Edge where
  | inode (blob : ID) (fsid number : Nat) (record : ReverseInodeRecord)
  | manifest (blob id : ID) (record : ReverseManifestRecord)

/-- The put of a reverse reference. -/
def Edge.put : Edge → Mutation
  | .inode blob fsid number record => (.reverseInode blob fsid number, .reverseInode record)
  | .manifest blob id record => (.reverseManifest blob id, .reverseManifest record)

/-- What a backup does: the handles its snapshot reaches, the reverse references it
publishes, the packs it uploads, and how its operations end. -/
structure Backup where
  snapshot : ID
  handles : Finset BlobHandle
  /-- The references that are written, also by a backup that stops early. -/
  edges : List Edge
  limits : Limits
  now : Int
  uploads : List (PublishedPack × Outcome)
  acknowledge : Outcome
  /-- Is the snapshot saved, or does the backup stop before? -/
  saved : Bool

inductive Action where
  | backup (job : Backup)
  | forget (snapshot : ID)
  | collect (env : GCEnv) (opts : GCOptions) (execution : ExecuteEnv)

/-- The loaded catalog locates the handle in some pack. -/
def catalogLocates (store : SchemaStore) (handle : BlobHandle) : Bool :=
  match storedBlob store handle.id with
  | none => false
  | some record => record.locations.any fun location => location.type = handle.type

/-- The backup uploads the handle. -/
def Backup.Uploads (backup : Backup) (handle : BlobHandle) : Prop :=
  ∃ upload ∈ backup.uploads, handle ∈ publishedHandles upload.1

instance (backup : Backup) (handle : BlobHandle) : Decidable (backup.Uploads handle) :=
  inferInstanceAs (Decidable (∃ upload ∈ backup.uploads, _))

/-- A backup saves its snapshot once every handle is uploaded or was located by the
catalog it loaded. -/
def runBackup (backup : Backup) : RepoState :=
  let loaded := state.store
  -- Neither the uploads nor the check below read the references, so their order is free.
  let world : World := ⟨loaded.putAll (backup.edges.map Edge.put), state.objects, []⟩
  match publishUploads backup.limits backup.now backup.uploads world with
  | (false, world) => { state with store := world.store, objects := world.objects }
  | (true, world) =>
    match world.attempt backup.acknowledge fun store =>
        markPacksPublished backup.limits backup.now store
          (backup.uploads.map (·.1.packID)) with
    | (false, world) => { state with store := world.store, objects := world.objects }
    | (true, world) =>
      let complete := ∀ handle ∈ backup.handles,
        backup.Uploads handle ∨ catalogLocates loaded handle = true
      { state with
        store := world.store
        objects := world.objects
        snapshots :=
          if backup.saved = true ∧ complete then
            state.snapshots.insert backup.snapshot backup.handles
          else state.snapshots }

/-- The environment of a pass: its walk finds what the snapshots reach, if it can
read them. -/
def passEnv (env : GCEnv) (state : RepoState) : GCEnv :=
  { env with walk := env.walk.map fun _ => state.retained }

/-- A collection: `PlanGC`, then `Execute` under the same lock. -/
def runCollect (env : GCEnv) (opts : GCOptions) (execution : ExecuteEnv) : RepoState :=
  match planGC (passEnv env state) opts state.store with
  | (.error _, store) => { state with store }
  | (.ok plan, store) =>
    let world := (execute execution plan ⟨store, state.objects, []⟩).2
    { state with
      store := world.store
      objects := world.objects
      removals := state.removals ++ world.removals.map (state.retained, ·) }

def step : Action → RepoState
  | .backup job => runBackup state job
  | .forget snapshot => { state with snapshots := state.snapshots.erase snapshot }
  | .collect env opts execution => runCollect state env opts execution

def run (actions : List Action) : RepoState := actions.foldl step state

/-- Uploaded packs are new: a pack is named by the hash of its encrypted content. -/
def Action.Fresh : Action → Prop
  | .backup job => ∀ upload ∈ job.uploads, lifecycleOf state.store upload.1.packID = none
  | .forget _ => True
  | .collect _ _ execution =>
    ∀ upload ∈ execution.copy.uploads, lifecycleOf state.store upload.1.packID = none

/-- The condition on one step.  A backup skips a handle only if a pack that is not
delete-pending holds it, and a collection scans the reached types. -/
def Action.Meets : Action → Prop
  | .backup job => ∀ handle ∈ job.handles, job.Uploads handle ∨
      ∃ pack, Located state.store handle pack ∧
        lifecycleOf state.store pack ≠ some .deletePending
  | .forget _ => True
  | .collect env opts _ =>
    ReachedTypesScanned (passEnv env state) opts state.store state.retained

/-- Every step of the run meets its condition in the state it starts from. -/
def MeetsAlong : RepoState → List Action → Prop :=
  Along step fun state action => action.Fresh state ∧ action.Meets state

/-! ## The invariant of a run -/

/-- The retained handles are covered, and no removal so far took a needed copy. -/
structure RunInvariant : Prop where
  covers : (holding state.store).Covers state.retained
  removals : ∀ removal ∈ state.removals, RemovalSafe removal.1 removal.2

end

variable {state : RepoState}

variable {handle : BlobHandle}

theorem mem_retained :
    handle ∈ state.retained ↔
      ∃ snapshot handles, state.snapshots.lookup snapshot = some handles ∧ handle ∈ handles := by
  unfold RepoState.retained
  rw [mem_foldl_union]
  constructor
  · rintro (hnone | ⟨⟨snapshot, handles⟩, hentry, hmem⟩)
    · exact absurd hnone (Finset.notMem_empty handle)
    · exact ⟨snapshot, handles, Table.mem_entries_iff.mp hentry, hmem⟩
  · rintro ⟨snapshot, handles, hlook, hmem⟩
    exact .inr ⟨⟨snapshot, handles⟩, Table.mem_entries_iff.mpr hlook, hmem⟩

theorem bookkeeping_edges (edges : List Edge) : Bookkeeping (edges.map Edge.put) := by
  refine List.forall_mem_map.mpr fun edge _ => ?_
  cases edge <;> rfl

/-- Filling new packs keeps what is covered covered. -/
theorem Covers.of_copyFrame {packs : List PublishedPack} {store store' : SchemaStore}
    (h : (holding store).Covers live)
    (hframe : CopyFrame packs store store') : (holding store').Covers live :=
  h.of_kept fun handle _ pack hholds hstays =>
    ⟨hframe.grows handle pack hholds, fun hd => hstays ((hframe.doomed pack).mp hd)⟩

/-- A saved snapshot reaches its own handles, the others what they did before. -/
theorem mem_retained_insert {snapshot : ID} {handles : Finset BlobHandle}
    {objects : Finset ID} (h : handle ∈ RepoState.retained
      { state with store, objects, snapshots := state.snapshots.insert snapshot handles }) :
    handle ∈ handles ∨ handle ∈ state.retained := by
  obtain ⟨found, reached, hlook, hmem⟩ := mem_retained.mp h
  rcases Table.lookup_insert_cases hlook with ⟨-, rfl⟩ | ⟨-, hlook⟩
  · exact .inl hmem
  · exact .inr (mem_retained.mpr ⟨found, reached, hlook, hmem⟩)

section

variable (h : RunInvariant state)
include h

theorem RunInvariant.backup {job : Backup}
    (hfresh : (Action.backup job).Fresh state) (hmeets : (Action.backup job).Meets state) :
    RunInvariant (runBackup state job) := by
  have hsame : SameCatalog state.store (state.store.putAll (job.edges.map Edge.put)) :=
    (bookkeeping_edges job.edges).sameCatalog
  have hstart := Covers.of_sameCatalog hsame h.covers
  obtain ⟨hupload, -, hcarried⟩ := publishUploads_spec job.limits job.now job.uploads
    ⟨state.store.putAll (job.edges.map Edge.put), state.objects, []⟩
    fun upload hin => List.mem_map_of_mem hin
  unfold runBackup
  dsimp only
  generalize publishUploads _ _ _ _ = uploaded at hupload hcarried ⊢
  obtain ⟨_ | _, world⟩ := uploaded
  · exact ⟨Covers.of_copyFrame hstart hupload, h.removals⟩
  have hack := @copyFrame_attempt world job.acknowledge (job.uploads.map (·.1))
    (fun store => markPacksPublished job.limits job.now store
      (job.uploads.map (·.1.packID))) fun _ => copyFrame_markPacksPublished
  dsimp only
  generalize World.attempt _ _ _ = attempted at hack ⊢
  have hframe := hupload.trans hack.1
  have hcovers := Covers.of_copyFrame hstart hframe
  obtain ⟨_ | _, after⟩ := attempted
  · exact ⟨hcovers, h.removals⟩
  refine ⟨?_, h.removals⟩
  dsimp only
  split
  · intro handle hhandle
    rcases mem_retained_insert hhandle with hnew | hold
    · rcases hmeets handle hnew with ⟨upload, hin, hcarries⟩ | ⟨pack, hloc, hlife⟩
      · refine ⟨upload.1.packID,
          hack.1.grows handle _ (hcarried rfl upload hin handle hcarries), fun hd => ?_⟩
        -- The pack is new, so it was not delete-pending before.
        have hbefore := (hsame.lifecycles _).symm.trans ((hframe.doomed _).mp hd)
        rw [hfresh upload hin] at hbefore
        cases hbefore
      · refine ⟨pack, hframe.grows handle pack ((located_congr (hsame.blobs _)).mpr hloc), ?_⟩
        exact fun hd => hlife ((hsame.lifecycles _).symm.trans ((hframe.doomed pack).mp hd))
    · exact hcovers handle hold
  · exact hcovers

theorem RunInvariant.forget (snapshot : ID) :
    RunInvariant { state with snapshots := state.snapshots.erase snapshot } where
  covers := by
    refine h.covers.mono fun handle hhandle => ?_
    obtain ⟨kept, handles, hlook, hmem⟩ := mem_retained.mp hhandle
    exact mem_retained.mpr ⟨kept, handles, Table.lookup_of_erase hlook, hmem⟩
  removals := h.removals

theorem RunInvariant.collect {execution : ExecuteEnv}
    (hfresh : (Action.collect env opts execution).Fresh state)
    (hmeets : (Action.collect env opts execution).Meets state) :
    RunInvariant (runCollect state env opts execution) := by
  have hsame := sameCatalog_planGC (passEnv env state) opts state.store
  unfold runCollect
  split
  · rename_i message store hrun
    rw [hrun] at hsame
    exact ⟨Covers.of_sameCatalog hsame h.covers, h.removals⟩
  · rename_i plan store hrun
    rw [hrun] at hsame
    have hplan : (planGC (passEnv env state) opts state.store).1 = .ok plan := by rw [hrun]
    have hwalked : ∀ walked, (passEnv env state).walk = .ok walked → walked = state.retained := by
      intro walked hwalk
      unfold passEnv at hwalk
      cases hread : env.walk with
      | error message => simp [hread, Except.map] at hwalk
      | ok found =>
        simp only [hread, Except.map, Except.ok.injEq] at hwalk
        exact hwalk.symm
    have hretains : RetainsReached state.store state.retained plan := by
      intro handle hhandle pack hlocated hpublished
      exact (planGC_retains_handle_iff hwalked hplan hhandle hlocated).mpr
        (hmeets handle hhandle pack hlocated hpublished)
    have hsafe := planSafe_of_retains hplan hretains
    have hstart : PassInvariant state.store state.retained plan ⟨store, state.objects, []⟩ :=
      { covers := Covers.of_sameCatalog hsame h.covers
        shrinks := fun handle pack _ hlocated =>
          (located_congr (hsame.blobs handle.id)).mp hlocated
        retries := fun pack hpack => by
          obtain ⟨members, hlook⟩ := Table.mem_iff_lookup.mp hpack
          exact .inl ((hsame.lifecycles pack).trans (planGC_retries hplan hlook).1)
        removals := List.forall_mem_nil _ }
    have hend := PassInvariant.execute hsafe hstart execution fun upload hin =>
      ⟨hfresh upload hin, (hsame.lifecycles _).trans (hfresh upload hin)⟩
    exact ⟨hend.covers, List.forall_mem_append.mpr
      ⟨h.removals, List.forall_mem_map.mpr hend.removals⟩⟩

theorem RunInvariant.step {action : Action} (hfresh : action.Fresh state)
    (hmeets : action.Meets state) : RunInvariant (step state action) := by
  cases action with
  | backup job => exact h.backup hfresh hmeets
  | forget snapshot => exact h.forget snapshot
  | collect env opts execution => exact h.collect hfresh hmeets

theorem RunInvariant.run {actions : List Action}
    (hmeets : MeetsAlong state actions) : RunInvariant (run state actions) :=
  Along.invariant RunInvariant (fun _ _ hmeets h => h.step hmeets.1 hmeets.2) hmeets h

end

/-- No removal of a run takes the only location of a handle that was retained when
it was planned, provided every step meets its condition. -/
theorem run_removals_safe (actions : List Action) (h : MeetsAlong {} actions) :
    ∀ removal ∈ (run {} actions).removals, RemovalSafe removal.1 removal.2 := by
  have hstart : RunInvariant {} :=
    ⟨fun handle hhandle => absurd hhandle (Finset.notMem_empty handle),
      List.forall_mem_nil _⟩
  exact (hstart.run h).removals

/-- A pack with one blob. -/
def samplePack (pack blob : ID) (kind : PackType) (type : BlobType) : PublishedPack :=
  { packID := pack
    record := { type := kind, lifecycle := .exportPending, blobCount := 1, payloadSize := 5 }
    blobs := (∅ : Table ID BlobRecord).insert blob
      ⟨[{ packID := pack, offset := 0, length := 5, uncompressedSize := 0, type }]⟩
    placements := ∅
    predecessorPackIDs := []
    lineageKind := default
    runID := 0 }

def sampleLimits : Limits := ⟨1000, 1048576⟩

/-- Tree blob 1 in pack 10 and data blob 2 in pack 11. -/
def sampleUploads : List (PublishedPack × Outcome) :=
  [(samplePack 10 1 .tree .tree, .done), (samplePack 11 2 .data .data, .done)]

/-- A backup of a directory with one file, which refers to data blob 2, with the given
uploads. -/
def sampleBackup (snapshot : ID) (uploads : List (PublishedPack × Outcome)) : Action :=
  .backup ⟨snapshot, {⟨1, .tree⟩, ⟨2, .data⟩}, [.inode 2 1 3 ⟨1, .current⟩], sampleLimits, 0,
    uploads, .done, true⟩

/-- What a collection meets at the given time when every operation succeeds but the removal of
objects ends as given. -/
def executionWith (time : Int) (remove : Outcome) : ExecuteEnv :=
  { limits := sampleLimits, runID := 0, interlock := .ok (true, "active")
    clock := fun _ _ => time, stagedRoots := fun _ _ => none
    mark := fun _ _ => .done, remove := fun _ _ => remove, purge := fun _ _ => .done
    copy := ⟨[], .done, none⟩
    history := fun _ _ => .done, cancelled := fun _ _ => false }

def sampleCollect (remove : Outcome) : Action :=
  .collect { limits := sampleLimits, now := 0, runID := 0, walk := .ok ∅ } {}
    (executionWith 0 remove)

/-- A run that meets its conditions: once its snapshot is gone, the pack of the tree blob is
removed, while the reference to the data blob keeps the other. -/
theorem run_removals_safe_sample :
    (run {} [sampleBackup 100 sampleUploads, .forget 100,
        sampleCollect .done]).removals.map (·.2.pack) = [10] ∧
      ∀ removal ∈ (run {} [sampleBackup 100 sampleUploads, .forget 100,
        sampleCollect .done]).removals, RemovalSafe removal.1 removal.2 := by
  refine ⟨by decide +kernel,
    run_removals_safe _ ⟨⟨?_, ?_⟩, ⟨trivial, trivial⟩, ⟨List.forall_mem_nil _, ?_⟩, trivial⟩⟩
  · have hnew : ∀ upload ∈ sampleUploads, lifecycleOf ∅ upload.1.packID = none := by
      decide
    exact hnew
  · have huploads : ∀ handle ∈ ({⟨1, .tree⟩, ⟨2, .data⟩} : Finset BlobHandle),
        ∃ upload ∈ sampleUploads, handle ∈ publishedHandles upload.1 := by
      decide
    exact fun handle hhandle => .inl (huploads handle hhandle)
  · intro handle hhandle
    have hnone : (step (step {} (sampleBackup 100 sampleUploads)) (.forget 100)).retained = ∅ := by
      decide +kernel
    exact absurd (hnone ▸ hhandle) (Finset.notMem_empty handle)

/-- The removal of pack 10 fails and leaves it delete-pending, a second backup skips
its tree blob, and the retry removes the only pack that holds it. -/
theorem run_retry_removes_only_location :
    ∃ removal ∈ (run {} [sampleBackup 100 sampleUploads, .forget 100,
        sampleCollect .failed, sampleBackup 101 [], sampleCollect .done]).removals,
      ¬RemovalSafe removal.1 removal.2 := by
  have hrun : (run {} [sampleBackup 100 sampleUploads, .forget 100,
      sampleCollect .failed, sampleBackup 101 [], sampleCollect .done]).removals.any
        (fun removal => decide (⟨1, .tree⟩ ∈ removal.1) && decide (removal.2.pack = 10) &&
          decide (storedBlob removal.2.store 1 = some
            ⟨[{ packID := 10, offset := 0, length := 5, uncompressedSize := 0
                type := .tree }]⟩)) = true := by
    decide +kernel
  obtain ⟨⟨live, pack, store, time⟩, hremoval, hcheck⟩ := List.any_eq_true.mp hrun
  simp only [Bool.and_eq_true, decide_eq_true_eq] at hcheck
  obtain ⟨⟨hlive, rfl⟩, hstored⟩ := hcheck
  refine ⟨_, hremoval, fun hsafe => ?_⟩
  have hlocated : ∀ other, Located store ⟨1, .tree⟩ other ↔ other = 10 := by
    intro other
    rw [located_iff_storedBlob]
    constructor
    · rintro ⟨record, hrecord, location, hmem, hpack, -⟩
      obtain rfl := Option.some.inj (hstored.symm.trans hrecord)
      rw [← hpack, List.mem_singleton.mp hmem]
    · rintro rfl
      exact ⟨_, hstored, _, List.mem_singleton_self _, rfl, rfl⟩
  obtain ⟨other, hne, hother⟩ := hsafe _ hlive ((hlocated 10).mpr rfl)
  exact hne ((hlocated other).mp hother)

end Vaultic.Repository
