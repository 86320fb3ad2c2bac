/-
  Repository/Prune/World.lean  —  a prune and backups on one repository.

  Source: internal/repository/prune_plan.go, internal/repository/prune.go
  (`Execute`), cmd/vaultic/cmd_prune.go (`runPrune`), and for the rewriting of
  index files internal/repository/index/master_index.go (`Rewrite`).

  A minimal-lock prune claims the repository under the exclusive lock, plans,
  copies and rewrites under the shared one, and deletes under the exclusive one.
  Each of these is a step here, and so is each access of a backup, so that a run is
  any interleaving of them.  How blobs are grouped into packs and packs into index
  files is an input of the step that writes them.
-/
import Vaultic.Repository.Prune.Plan

set_option autoImplicit false

namespace Vaultic.Repository.Prune

open Vaultic.Lib Vaultic.Schema

/-! ## The repository -/

/-- A saved snapshot: the blobs it reaches, and those among them that lay in a pack
when its backup referred to them. -/
structure SavedSnapshot where
  (reaches stored : List BlobHandle)
  deriving DecidableEq, Repr

/-- A backup under way: the index it loaded, what it refers to so far, and what it has
uploaded but not yet indexed. -/
structure RunningBackup where
  known : List IndexedBlob
  (reaches stored : List BlobHandle := [])
  pending : List IndexedBlob := []

/-- The durable marker of a prune. -/
inductive Marker where
  | phaseA
  | ready (requiredIndexes indexIDs packIDs : Finset ID)

/-- How far a prune has come, with what it holds in memory. -/
inductive Stage where
  | idle
  | claimed
  /-- The index files it loaded, and what they list. -/
  | loaded (files : List ID) (index : List IndexedBlob)
  | scanned (files : List ID) (index : List IndexedBlob) (used : List BlobHandle)
  | planned (files : List ID) (used : List BlobHandle) (plan : PrunePlan)
  | repacked (files : List ID) (used : List BlobHandle) (plan : PrunePlan)
  | rewritten (used : List BlobHandle) (obsolete : Finset ID)

structure World where
  /-- The pack files, with their sizes. -/
  packs : Table ID Nat := ∅
  indexes : Table ID (List IndexedBlob) := ∅
  snapshots : List SavedSnapshot := []
  backups : Table Nat RunningBackup := ∅
  marker : Option Marker := none
  stage : Stage := .idle

section

variable (world : World) (keep : ID → Bool) (plan : PrunePlan)

/-- The names of the index files. -/
def indexFiles : List ID := world.indexes.entries.map (·.1)

/-- What the index files list. -/
def indexEntries (indexes : Table ID (List IndexedBlob)) : List IndexedBlob :=
  indexes.entries.flatMap (·.2)

def contents (indexes : Table ID (List IndexedBlob)) (file : ID) : List IndexedBlob :=
  (indexes.lookup file).getD []

/-- Add entries to an index file. -/
def addEntries (indexes : Table ID (List IndexedBlob)) (file : ID) (blobs : List IndexedBlob) :
    Table ID (List IndexedBlob) :=
  indexes.insert file (contents indexes file ++ blobs)

/-- A pack to upload; its blobs are listed under its own name. -/
structure NewPack where
  id : ID
  size : Nat
  blobs : List IndexedBlob

def NewPack.occurrences (pack : NewPack) : List IndexedBlob :=
  pack.blobs.map fun blob => { blob with packID := pack.id }

/-! ## The marker -/

/-- `BeginPrunePlan` -/
def beginPrunePlan : Result World :=
  match world.marker with
  | some _ =>
    .error
      "repository already contains a prune plan; finalize or clear it before starting another prune"
  | none => .ok { world with marker := some .phaseA, stage := .claimed }

/-- `FinalizePrunePlan`.  Packs that a staging journal protects are kept. -/
def finalizePrunePlan (staged : Finset ID) (world : World) : Result World :=
  match world.marker with
  | none => .ok world
  | some .phaseA => .ok { world with marker := none, stage := .idle }
  | some (.ready requiredIndexes indexIDs packIDs) =>
    if ¬requiredIndexes ⊆ (indexFiles world).toFinset then
      .error "deferred prune plan cannot be finalized: replacement index is missing"
    else
      let surviving := world.indexes.discard fun file => decide (file ∈ indexIDs)
      if ∃ blob ∈ indexEntries surviving, blob.packID ∈ packIDs then
        .error
          "deferred prune plan cannot delete pack: it is referenced by a current non-obsolete index"
      else
        .ok { world with
          indexes := surviving
          packs := world.packs.discard fun pack => decide (pack ∈ packIDs ∧ pack ∉ staged)
          marker := none, stage := .idle }

/-! ## Execution of a plan -/

/-- What an execution drops from the index: packs that go and packs that are missing. -/
def doomed : Finset ID :=
  plan.removePacks ∪ plan.repackPacks ∪ plan.ignorePacks

/-- The handles to copy. -/
def keptHandles : List BlobHandle :=
  (plan.keepBlobs.map fun keep => keep.entries.map (·.1)).getD []

/-- The part of a pack that carries handles to copy. -/
def copyOnly (pack : NewPack) : NewPack :=
  { pack with blobs := pack.blobs.filter fun blob => decide (blob.handle ∈ keptHandles plan) }

/-- The repacking part of `Execute`: each new pack comes with the index file that lists
it. -/
def executeRepack (uploads : List (NewPack × ID)) (plan : PrunePlan) (files : List ID)
    (used : List BlobHandle) (world : World) : Result World :=
  if plan.repackPacks = ∅ then .ok { world with stage := .repacked files used plan }
  else if ¬∀ handle ∈ keptHandles plan, ∃ upload ∈ uploads,
      ∃ blob ∈ upload.1.blobs, blob.handle = handle then
    .error "internal error: blobs were not repacked"
  else
    .ok { world with
      packs := world.packs.putAll (uploads.map fun upload => (upload.1.id, upload.1.size))
      indexes := uploads.foldl (fun indexes upload =>
        addEntries indexes upload.2 (copyOnly plan upload.1).occurrences) world.indexes
      stage := .repacked (files ++ uploads.map (·.2)) used plan }

/-- `keepCurrentIndex`: a file that lists a dropped pack is rewritten, another one may
be, according to its size. -/
def keepCurrentIndex (excluded : Finset ID) (indexes : Table ID (List IndexedBlob)) (file : ID) :
    Bool :=
  keep file && (contents indexes file).all fun blob => decide (blob.packID ∉ excluded)

/-- The files that `Rewrite` replaces. -/
def obsoleteIndexes (files : List ID) (world : World) : Finset ID :=
  if doomed plan = ∅ then ∅
  else (files.filter fun file => !keepCurrentIndex keep (doomed plan) world.indexes file).toFinset

/-- What `Rewrite` copies out of them. -/
def copiedEntries (files : List ID) (world : World) : List IndexedBlob :=
  ((files.filter fun file => decide (file ∈ obsoleteIndexes keep plan files world)).flatMap
    (contents world.indexes)).filter fun blob => decide (blob.packID ∉ doomed plan)

/-- `CompletePrunePlan` -/
def completePrunePlan (requiredIndexes indexIDs packIDs : Finset ID) (world : World) :
    Result World :=
  match world.marker with
  | some .phaseA => .ok { world with marker := some (.ready requiredIndexes indexIDs packIDs) }
  | _ => .error "prune plan changed while phase A was running"

/-- The rest of `Execute`: rewrite the index files and store the marker.  Without
anything to delete the claim is given up. -/
def executeRewrite (target : ID → ID) (plan : PrunePlan) (files : List ID)
    (used : List BlobHandle) (world : World) : Result World :=
  let obsolete := obsoleteIndexes keep plan files world
  let copied := copiedEntries keep plan files world
  let packIDs := plan.removePacksFirst ∪ plan.removePacks ∪ plan.repackPacks
  if obsolete = ∅ ∧ packIDs = ∅ then .ok { world with marker := none, stage := .idle }
  else
    completePrunePlan (copied.map fun blob => target blob.packID).toFinset obsolete packIDs
      { world with
        indexes := copied.foldl (fun indexes blob =>
          addEntries indexes (target blob.packID) [blob]) world.indexes
        stage := .rewritten used obsolete }

/-! ## Steps -/

inductive Action where
  | claim
  | load
  | scan
  | plan (opts : PruneOptions) (config : PruneSource)
  | repack (uploads : List (NewPack × ID))
  | rewrite (keep : ID → Bool) (target : ID → ID)
  | finalize (staged : Finset ID)
  | start (backup : Nat)
  | skip (backup : Nat) (handle : BlobHandle)
  | upload (backup : Nat) (pack : NewPack)
  | saveIndex (backup : Nat) (file : ID)
  | saveSnapshot (backup : Nat)

/-- The blob lies in a pack file that is there. -/
def storedIn (packs : Table ID Nat) (index : List IndexedBlob) (handle : BlobHandle) : Bool :=
  index.any fun blob => decide (blob.handle = handle) && (packs.lookup blob.packID).isSome

/-- The source of a plan: the loaded index and the pack files listed now. -/
def planSource (config : PruneSource) (world : World) (index : List IndexedBlob) : PruneSource :=
  { config with index, listing := world.packs }

/-- One step of the prune.  A step that cannot be taken, or that fails, changes
nothing; the exclusive lock keeps backups out of the claim and of the end. -/
def pruneStep : Action → World
  | .claim =>
    if world.backups.entries = [] then (beginPrunePlan world).toOption.getD world else world
  | .load =>
    match world.stage with
    | .claimed =>
      { world with stage := .loaded (indexFiles world) (indexEntries world.indexes) }
    | _ => world
  | .scan =>
    match world.stage with
    | .loaded files index =>
      { world with stage := .scanned files index (world.snapshots.flatMap (·.reaches)) }
    | _ => world
  | .plan opts config =>
    match world.stage with
    | .scanned files index used =>
      match planPrune opts (planSource config world index) used with
      | .ok plan => { world with stage := .planned files used plan }
      | .error _ => world
    | _ => world
  | .repack uploads =>
    match world.stage with
    | .planned files used plan =>
      (executeRepack uploads plan files used world).toOption.getD world
    | _ => world
  | .rewrite keep target =>
    match world.stage with
    | .repacked files used plan =>
      (executeRewrite keep target plan files used world).toOption.getD world
    | _ => world
  | .finalize staged =>
    if world.backups.entries = [] then (finalizePrunePlan staged world).toOption.getD world
    else world
  | _ => world

/-- One step of a backup. -/
def backupStep (id : Nat) (backup : RunningBackup) : Action → World
  | .skip _ handle =>
    -- Only a blob of the loaded index is skipped.
    if backup.known.any fun blob => decide (blob.handle = handle) then
      { world with
        backups := world.backups.insert id { backup with
          reaches := handle :: backup.reaches
          stored := if storedIn world.packs backup.known handle then handle :: backup.stored
            else backup.stored } }
    else world
  | .upload _ pack =>
    { world with
      packs := world.packs.insert pack.id pack.size
      backups := world.backups.insert id { backup with
        reaches := pack.blobs.map (·.handle) ++ backup.reaches
        stored := pack.blobs.map (·.handle) ++ backup.stored
        pending := pack.occurrences ++ backup.pending } }
  | .saveIndex _ file =>
    { world with
      indexes := addEntries world.indexes file backup.pending
      backups := world.backups.insert id { backup with pending := [] } }
  | .saveSnapshot _ =>
    -- A snapshot is saved after the index of all that was uploaded.
    if backup.pending = [] then
      { world with
        snapshots := ⟨backup.reaches, backup.stored⟩ :: world.snapshots
        backups := world.backups.erase id }
    else world
  | _ => world

/-- The backup an action belongs to. -/
def Action.backup : Action → Option Nat
  | .skip id _ | .upload id _ | .saveIndex id _ | .saveSnapshot id => some id
  | _ => none

def step (action : Action) : World :=
  match action with
  | .start id =>
    match world.backups.lookup id with
    | some _ => world
    | none =>
      { world with backups := world.backups.insert id ⟨indexEntries world.indexes, [], [], []⟩ }
  | action =>
    match action.backup with
    | none => pruneStep world action
    | some id =>
      match world.backups.lookup id with
      | none => world
      | some backup => backupStep world id backup action

def run (actions : List Action) : World := actions.foldl step world

end

end Vaultic.Repository.Prune
