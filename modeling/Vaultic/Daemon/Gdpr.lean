/-
  Daemon/Gdpr.lean  —  forgetting a user.

  Source: internal/index/daemon/schema_store_gdpr.go (`ExecuteGDPRForget` and what
  it calls), internal/index/schema/validation.go (`RebuildReferenceCounts`).

  One transaction redacts the revisions a user owns, prunes the directory entries
  that name them, deletes their hardlink and path records, rebuilds the reference
  counts of the blobs they held, and marks the packs that no remaining revision
  references.  Hashing and signing are inputs.
-/
import Vaultic.Daemon.Catalog

set_option autoImplicit false

namespace Vaultic.Daemon

open Vaultic.Lib Vaultic.Schema

/-! ## Requests and inventory -/

/-- The hash of a purged record, and the signing key: the public half and the
signature it makes. -/
structure GdprCrypto where
  recordHash : Key → Value → ID
  publicKey : GoString
  sign : Value → GoString

structure GdprForgetRequest where
  uid : Nat
  executedAt : Int
  runID : ID
  crypto : GdprCrypto
  /-- Does the signing key have the size of a private key? -/
  validSigningKey : Bool := true

/-- A revision is named by its file system, inode and revision number. -/
abbrev RevisionID := Nat × Nat × Nat

abbrev RevisionID.inodeKey (id : RevisionID) : Key := .inodeRevision id.1 id.2.1 id.2.2
abbrev RevisionID.directoryKey (id : RevisionID) : Key := .directoryRevision id.1 id.2.1 id.2.2
abbrev RevisionID.hardlinkKey (id : RevisionID) : Key := .hardlinkRefs id.1 id.2.1 id.2.2

section

variable (store : SchemaStore) (request : GdprForgetRequest)

/-- `scanGDPRRevisions` -/
def scanGdprRevisions : Result (List (RevisionID × InodeRevision)) :=
  store.collectBy
    (fun | .inodeRevision fsid inode revision => some (fsid, inode, revision) | _ => none)
    unmarshalInodeRevision

/-- `scanGDPRDirectories` -/
def scanGdprDirectories : Result (List (RevisionID × DirectoryRevision)) :=
  store.collectBy
    (fun | .directoryRevision fsid inode revision => some (fsid, inode, revision) | _ => none)
    unmarshalDirectoryRevision

/-- `scanGDPRManifests`: the segments of every manifest. -/
def scanGdprManifests : Result (List ((ID × Nat) × ContentManifest)) :=
  store.collectBy (fun | .contentManifest id segment => some (id, segment) | _ => none)
    unmarshalContentManifest

/-- `gdprRevisionContent`: the blobs of a revision, inline or through its manifest. -/
def gdprRevisionContent (record : InodeRevision) (manifests : List ((ID × Nat) × ContentManifest)) :
    List ID :=
  match record.contentMode with
  | .inline => record.contentIDs
  | .none => []
  | .manifestRef =>
    (manifests.filter (·.1.1 = record.contentManifestID)).flatMap (·.2.contentIDs)

/-- The user is known to own the revision. -/
def ownedInode (uid : Nat) (record : InodeRevision) : Bool :=
  KnownMask.has record.known knownUID && record.uid == uid

def ownedDirectory (uid : Nat) (record : DirectoryRevision) : Bool :=
  KnownMask.has record.known knownUID && record.uid == uid

structure GdprInventory where
  revisions : List (RevisionID × InodeRevision)
  manifests : List ((ID × Nat) × ContentManifest)

variable (inventory : GdprInventory)

/-- How many of the revisions refer to a manifest. -/
def manifestUses (revisions : List (RevisionID × InodeRevision)) (manifest : ID) : Nat :=
  (revisions.filter fun revision =>
    decide (revision.2.contentMode = .manifestRef) &&
      decide (revision.2.contentManifestID = manifest)).length

section

variable (uid : Nat) (inventory : GdprInventory)

/-- `orphanedManifests`: manifests that only owned revisions use. -/
def orphanedManifests : List ID :=
  let owned := inventory.revisions.filter fun revision => ownedInode uid revision.2
  let used := (owned.filter fun revision => revision.2.contentMode = .manifestRef).map
    (·.2.contentManifestID)
  used.dedup.filter fun manifest =>
    manifestUses owned manifest = manifestUses inventory.revisions manifest

/-- `buildGDPRInventory` -/
def buildGdprInventory : Result GdprInventory := do
  let revisions ← scanGdprRevisions store
  let manifests ← scanGdprManifests store
  .ok ⟨revisions, manifests⟩

/-! ## Redaction -/

/-- The fields that are no longer known after a redaction. -/
def redactedMask : KnownMask := knownSize ||| knownUID ||| knownPath

def redactInode (record : InodeRevision) : InodeRevision :=
  { record with
    size := 0, uid := 0, sourcePath := [], known := record.known &&& ~~~redactedMask
    contentMode := .none, contentCount := 0, contentIDs := [], contentManifestID := 0
    fileContentHash := 0, hashKnown := false }

def redactDirectory (record : DirectoryRevision) : DirectoryRevision :=
  { record with size := 0, uid := 0, sourcePath := [], known := record.known &&& ~~~redactedMask }

/-- What the redactions select. -/
structure GdprTargets where
  keys : List Key
  revisions : List RevisionID
  paths : List GoString

/-- The revisions and directories a user owns, with their trimmed source paths. -/
def gdprTargets (revisions : List (RevisionID × InodeRevision))
    (directories : List (RevisionID × DirectoryRevision)) : GdprTargets :=
  let inodes := revisions.filter fun revision => ownedInode uid revision.2
  let owned := directories.filter fun directory => ownedDirectory uid directory.2
  { keys := inodes.map (·.1.inodeKey) ++ owned.map (·.1.directoryKey)
    revisions := inodes.map (·.1) ++ owned.map (·.1)
    paths := ((inodes.map (·.2.sourcePath) ++ owned.map (·.2.sourcePath)).filter (· ≠ [])).map
      trimSlash }

/-- The redaction of one revision. -/
def redactInodePut (revision : RevisionID × InodeRevision) : Result Mutation := do
  let value ← marshalInodeRevision (redactInode revision.2)
  .ok (revision.1.inodeKey, value)

/-- `pruneGDPRDirectoryChildren` -/
def pruneChildren (targets : List Key) (record : DirectoryRevision) : DirectoryRevision :=
  { record with children := record.children.filter fun child => child.metadataKey ∉ targets }

/-- The directory after pruning and, if the user owns it, redaction; none where
neither changes it. -/
def redactedDirectory (targets : List Key) (record : DirectoryRevision) :
    Option DirectoryRevision :=
  let pruned := pruneChildren targets record
  if ownedDirectory uid record then some (redactDirectory pruned)
  else if record.children.any (fun child => child.metadataKey ∈ targets) then some pruned
  else none

/-- The redaction of one directory. -/
def redactDirectoryPut (targets : List Key) (directory : RevisionID × DirectoryRevision) :
    Result (Option Mutation) :=
  match redactedDirectory uid targets directory.2 with
  | none => .ok none
  | some record => do
      let value ← marshalDirectoryRevision record
      .ok (some (directory.1.directoryKey, value))

/-! ## Paths and derived data -/

/-- One record of `planGDPRPathDeletes`: it goes if its path is one of the redacted
ones, or if it binds a redacted revision of the file system its key names. -/
def pathTargeted (targets : GdprTargets) (fsid : Nat) (path : GoString)
    (record : PathVersionRecord) : Bool :=
  decide (trimSlash path ∈ targets.paths) ||
    (decide (record.path ≠ []) && decide (trimSlash record.path ∈ targets.paths)) ||
    (decide (record.state = .bound) &&
      decide ((fsid, record.inode, record.revision) ∈ targets.revisions))

/-- `planGDPRPathDeletes` -/
def planGdprPathDeletes (targets : GdprTargets) : Result (List Key) := do
  let records ← store.collectBy
    (fun | .pathVersion fsid path revision => some (fsid, path, revision) | _ => none)
    unmarshalPathVersionRecord
  .ok ((records.filter fun entry => pathTargeted targets entry.1.1 entry.1.2.1 entry.2).map
    fun entry => .pathVersion entry.1.1 entry.1.2.1 entry.1.2.2)

def asciiBytes (text : String) : GoString := text.toList.map fun c => UInt8.ofNat c.toNat

/-- `gdprAnalyticsPrefixes` -/
def gdprAnalyticsPrefixes : List String :=
  ["an:", "af:", "am:", "ai:", "ar:", "ad:", "ap:", "aw:applied:", "aq:", "av1:", "g:time:",
    "g:path:", "u:summary:", "g:summary:", "u:statsv1:", "g:statsv1:", "u:churn:", "u:inodes:",
    "u:blobs:", "u:blobv1:", "meta:analytics-build", "meta:analytics"]

def isAnalyticsKey : Key → Bool
  | .other bytes => gdprAnalyticsPrefixes.any fun text => (asciiBytes text).isPrefixOf bytes
  | _ => false

/-- The segments of the manifests only the user's revisions use. -/
def orphanedSegments : List ((ID × Nat) × ContentManifest) :=
  inventory.manifests.filter fun segment => segment.1.1 ∈ orphanedManifests uid inventory

/-- `planGDPRGlobalCleanup`: the orphaned manifests with their reverse edges, and all
analytics. -/
def planGdprGlobalCleanup (store : SchemaStore) : List Key :=
  (orphanedSegments uid inventory).flatMap (fun segment =>
      .contentManifest segment.1.1 segment.1.2 ::
        segment.2.contentIDs.map fun blob => .reverseManifest blob segment.1.1) ++
    store.scan fun key _ => if isAnalyticsKey key then some key else none

/-! ## References -/

/-- `RebuildReferenceCounts` for one blob; none where no edge names it. -/
def rebuildReferenceCounts (manifestEdges : List (ID × ID)) (inodeEdges : List (ID × RevisionID))
    (updateSequence : Nat) (blob : ID) : Option ReferenceCountRecord :=
  let manifests := (manifestEdges.filter (·.1 = blob)).map (·.2)
  let revisions := (inodeEdges.filter (·.1 = blob)).map (·.2)
  if manifests = [] ∧ revisions = [] then none
  else
    some
      { totalReferences := manifests.length + revisions.length
        distinctInodes := (revisions.map fun id => (id.1, id.2.1)).dedup.length
        distinctRevisions := revisions.dedup.length
        distinctManifests := manifests.dedup.length
        updateSequence }

/-- The revisions that stay as they are. -/
def remainingRevisions : List (RevisionID × InodeRevision) :=
  inventory.revisions.filter fun revision => !ownedInode uid revision.2

/-- `gdprRemainingInodeEdges` -/
def remainingInodeEdges : List (ID × RevisionID) :=
  (remainingRevisions uid inventory).flatMap fun revision =>
    (gdprRevisionContent revision.2 inventory.manifests).map fun blob => (blob, revision.1)

/-- The edges of the manifests that stay. -/
def remainingManifestEdges : List (ID × ID) :=
  (inventory.manifests.filter fun segment =>
      segment.1.1 ∉ orphanedManifests uid inventory).flatMap
    fun segment => segment.2.contentIDs.map fun blob => (blob, segment.1.1)

/-- The rebuilt count of a blob. -/
def gdprCounts : ID → Option ReferenceCountRecord :=
  rebuildReferenceCounts (remainingManifestEdges request.uid inventory)
    (remainingInodeEdges request.uid inventory) request.executedAt.toNat

/-- The blobs whose references change: those of owned revisions and of orphaned
manifests. -/
def affectedBlobs : List ID :=
  ((inventory.revisions.filter fun revision => ownedInode uid revision.2).flatMap (fun revision =>
      gdprRevisionContent revision.2 inventory.manifests) ++
    (orphanedSegments uid inventory).flatMap (·.2.contentIDs)).dedup

/-- The inodes with an owned revision. -/
def affectedInodes : List (Nat × Nat) :=
  ((inventory.revisions.filter fun revision => ownedInode uid revision.2).map fun revision =>
    (revision.1.1, revision.1.2.1)).dedup

end

/-- The rebuilt counts of the affected blobs. -/
def referencePuts : Result (List Mutation) := do
  let puts ← ((affectedBlobs request.uid inventory).map fun blob =>
    match gdprCounts request inventory blob with
    | none => .ok none
    | some count => do
        let value ← marshalReferenceCountRecord count
        .ok (some ((.referenceCount blob, value) : Mutation))).mapM id
  .ok (puts.filterMap id)

/-- The counts and reverse edges that no remaining revision backs. -/
def referenceDeletes : List Key :=
  (affectedBlobs request.uid inventory).flatMap fun blob =>
    (if gdprCounts request inventory blob = none then [.referenceCount blob] else []) ++
      ((affectedInodes request.uid inventory).filter fun inode =>
        (remainingInodeEdges request.uid inventory).all fun edge =>
          decide ((edge.1, edge.2.1, edge.2.2.1) ≠ (blob, inode.1, inode.2))).map
        fun inode => .reverseInode blob inode.1 inode.2

/-! ## Packs -/

/-- The blob records that `scanGDPRPackBlobs` visits. -/
def scanGdprBlobs : Result (List (ID × BlobRecord)) :=
  store.collectBy (fun | .blob blob => some blob | _ => none) unmarshalBlobRecord

/-- `packBlobs[pack]`: the blobs with a location in a pack, whatever its type. -/
def gdprPackBlobs (blobs : List (ID × BlobRecord)) (pack : ID) : List ID :=
  blobs.flatMap fun blob => (blob.2.locations.filter (·.packID = pack)).map fun _ => blob.1

/-- `gdprPackHasReferences` -/
def gdprPackHasReferences (counts : ID → Option ReferenceCountRecord) (blobs : List ID) : Bool :=
  blobs.any fun blob => decide (((counts blob).map (·.totalReferences)).getD 0 ≠ 0)

/-- The packs with a location, each once. -/
def gdprPacks (blobs : List (ID × BlobRecord)) : List ID :=
  (blobs.flatMap fun blob => blob.2.locations.map (·.packID)).dedup

/-- One pack of `discoverGDPRDeletionPacks`: touched by an affected blob, without
references, and published or already delete-pending. -/
def eligiblePack (blobs : List (ID × BlobRecord)) (affected : List ID)
    (counts : ID → Option ReferenceCountRecord) (pack : ID) : Result (Option (ID × PackRecord)) :=
  let members := gdprPackBlobs blobs pack
  if (members.all fun blob => decide (blob ∉ affected)) = true ∨
      gdprPackHasReferences counts members = true then
    .ok none
  else do
    let found ← loadPackRecord store pack
    .ok (found.bind fun record =>
      if record.lifecycle = .published ∨ record.lifecycle = .deletePending then
        some (pack, record)
      else none)

/-- `discoverGDPRDeletionPacks` -/
def discoverGdprDeletionPacks (affected : List ID) (counts : ID → Option ReferenceCountRecord) :
    Result (List (ID × PackRecord)) := do
  let blobs ← scanGdprBlobs store
  let found ← ((gdprPacks blobs).map (eligiblePack store blobs affected counts)).mapM id
  .ok (found.filterMap id)

/-- Is the placement one that a forget schedules for deletion? -/
def schedulable (placement : PlacementRecord) : Bool :=
  (decide (placement.state = .evicting) && decide (placement.deleteAfter ≠ 0)) ||
    decide (placement.state = .live) || decide (placement.state = .pending)

/-- When a scheduled placement may be deleted. -/
def gdprDeleteAfter (placement : PlacementRecord) : Int :=
  if placement.state = .evicting ∧ placement.deleteAfter ≠ 0 then placement.deleteAfter
  else max (toInt64 (request.executedAt * 1000000000)) placement.minRetentionUntil

/-- The eviction of a scheduled placement, unless it is under way. -/
def evictPuts (pack : ID) (backend : Nat) (placement : PlacementRecord) : Result (List Mutation) :=
  if placement.state = .evicting ∧ placement.deleteAfter ≠ 0 then .ok []
  else do
    let value ← marshalPlacementRecord
      { placement with state := .evicting, deleteAfter := gdprDeleteAfter request placement }
    let backendValue ← marshalBackendPackRecord ⟨.evicting, placement.bytes, placement.placedAt⟩
    .ok
      [((.packPlacement pack backend, value) : Mutation), (.backendPack backend pack, backendValue)]

/-- The puts of one schedulable placement: its eviction and its entry of the delete
queue. -/
def schedulePuts (pack : ID) (backend : Nat) (placement : PlacementRecord) :
    Result (List Mutation) := do
  let evicting ← evictPuts request pack backend placement
  let queued ← marshalPlacementDeleteRecord ⟨backend, placement.bytes, "gdpr-forget", request.runID⟩
  .ok (evicting ++
    [(.placementDeleteQueue (gdprDeleteAfter request placement) pack backend, queued)])

/-- The placements of `planGDPRPackDeletion` that are scheduled. -/
def scheduledPlacements (eligible : List (ID × PackRecord)) :
    Result (List ((ID × Nat) × PlacementRecord)) := do
  -- Placements of other packs are not decoded.
  let placements ← store.collectBy
    (fun
      | .packPlacement pack backend =>
        if pack ∈ eligible.map (·.1) then some (pack, backend) else none
      | _ => none)
    unmarshalPlacementRecord
  .ok (placements.filter fun placement => schedulable placement.2)

/-- The packs that `finalizeGDPRPackDeletion` moves to delete-pending. -/
def movedPacks (eligible : List (ID × PackRecord))
    (scheduled : List ((ID × Nat) × PlacementRecord)) : List (ID × PackRecord) :=
  eligible.filter fun entry =>
    decide (entry.1 ∈ scheduled.map (·.1.1)) && decide (entry.2.lifecycle ≠ .deletePending)

def movedPut (entry : ID × PackRecord) : Result Mutation := do
  let value ← marshalPackRecord { entry.2 with lifecycle := .deletePending }
  .ok (.pack entry.1, value)

def movedEvent (entry : ID × PackRecord) : PackEvent :=
  ⟨entry.1,
    { type := .deletePending, packType := entry.2.type, physicalSize := entry.2.physicalSize
      payloadSize := entry.2.payloadSize, runID := request.runID }⟩

/-- What `planGDPRPackDeletion` decides. -/
structure GdprPackPlan where
  schedules : List DeletionSchedule
  puts : List Mutation
  events : List PackEvent

/-- `planGDPRPackDeletion` -/
def planGdprPackDeletion (affected : List ID) (counts : ID → Option ReferenceCountRecord) :
    Result GdprPackPlan := do
  let eligible ← discoverGdprDeletionPacks store affected counts
  let scheduled ← scheduledPlacements store eligible
  let placementPuts ← (scheduled.map fun placement =>
    schedulePuts request placement.1.1 placement.1.2 placement.2).mapM id
  let moved := movedPacks eligible scheduled
  let packPuts ← (moved.map movedPut).mapM id
  .ok
    { schedules := (scheduled.map fun placement =>
        ⟨placement.1.1, placement.1.2, gdprDeleteAfter request placement.2⟩).insertionSort
          fun left right => right.before left = false
      puts := placementPuts.flatten ++ packPuts
      events := moved.map (movedEvent request) }

/-! ## The transaction -/

/-- `findGDPRReplay`: the certificate of an earlier run with the same identity. -/
def findGdprReplay : Result (Option DeletionCertificateRecord) :=
  match store.lookup (.deletionCertificate request.uid request.executedAt.toNat request.runID) with
  | some value => (unmarshalDeletionCertificate value).map some
  | none => do
      let certificates ← store.collectBy
        (fun
          | .deletionCertificate uid seconds runID =>
            if uid = request.uid then some (seconds, runID) else none
          | _ => none)
        unmarshalDeletionCertificate
      .ok ((certificates.map (·.2)).reverse.find? (·.runID = request.runID))

/-- The signed certificate of a run. -/
def gdprCertificate (purged : List ID) (schedules : List DeletionSchedule) :
    Result DeletionCertificateRecord := do
  let unsigned : DeletionCertificateRecord :=
    { uid := request.uid, executedAt := request.executedAt, runID := request.runID
      purgedReferenceHashes := (purged.insertionSort (· ≤ ·)).dedup
      pendingDeletion := schedules, signingAlgorithm := "Ed25519"
      publicKey := request.crypto.publicKey, signature := [] }
  let bytes ← deletionCertificateSigningBytes unsigned
  .ok { unsigned with signature := request.crypto.sign bytes }

structure GdprForgetPlan where
  certificate : DeletionCertificateRecord
  puts : List Mutation
  deletes : List Key

/-- `planGDPRForget` -/
def planGdprForget (now : Int) (store : SchemaStore) (request : GdprForgetRequest) :
    Result GdprForgetPlan := do
  let inventory ← buildGdprInventory store
  let owned := inventory.revisions.filter fun revision => ownedInode request.uid revision.2
  let inodePuts ← (owned.map redactInodePut).mapM id
  let directories ← scanGdprDirectories store
  let targets := gdprTargets request.uid inventory.revisions directories
  let directoryPuts ← (directories.map (redactDirectoryPut request.uid targets.keys)).mapM id
  let pathDeletes ← planGdprPathDeletes store targets
  let references ← referencePuts request inventory
  let packs ← planGdprPackDeletion store request (affectedBlobs request.uid inventory)
    (gdprCounts request inventory)
  let history ← packHistoryMutations (historySeconds now) store packs.events
  let changed := directories.filter fun directory =>
    (redactedDirectory request.uid targets.keys directory.2).isSome
  let purged := owned.map (fun revision =>
      request.crypto.recordHash revision.1.inodeKey (.inodeRevision revision.2)) ++
    changed.map fun directory =>
      request.crypto.recordHash directory.1.directoryKey (.directoryRevision directory.2)
  let certificate ← gdprCertificate request purged packs.schedules
  let value ← marshalDeletionCertificate certificate
  .ok
    { certificate
      puts := inodePuts ++ directoryPuts.filterMap id ++ references ++ packs.puts ++ history ++
        [(.deletionCertificate request.uid request.executedAt.toNat request.runID, value)]
      deletes := (targets.revisions.map (·.hardlinkKey) ++ pathDeletes ++
        planGdprGlobalCleanup request.uid inventory store ++
        referenceDeletes request inventory).dedup }

/-- `ExecuteGDPRForget`: the certificate and the store; a replayed run writes
nothing. -/
def executeGdprForget (limits : Limits) (now : Int) (request : GdprForgetRequest)
    (store : SchemaStore) : Result (DeletionCertificateRecord × SchemaStore) :=
  if request.executedAt ≤ 0 ∨ request.runID = 0 ∨ request.validSigningKey = false then
    .error "invalid GDPR forget request"
  else do
    let replayed ← findGdprReplay store request
    match replayed with
    | some certificate => .ok (certificate, store)
    | none => do
        let plan ← planGdprForget now store request
        let store ← writeTransactionBatches limits store plan.puts plan.deletes
        .ok (plan.certificate, store)

/-! ## The parts of a forget that was carried out -/

/-- What a plan was made of. -/
structure ForgetParts (store : SchemaStore) (request : GdprForgetRequest) where
  inventory : GdprInventory
  directories : List (RevisionID × DirectoryRevision)
  inodePuts : List Mutation
  directoryPuts : List (Option Mutation)
  pathDeletes : List Key
  references : List Mutation
  packs : GdprPackPlan
  rest : List Mutation

end

namespace ForgetParts

variable {store : SchemaStore} {request : GdprForgetRequest}

section

variable (parts : ForgetParts store request)

def targets : GdprTargets :=
  gdprTargets request.uid parts.inventory.revisions parts.directories

/-- The parts are those the functions of the plan return. -/
structure Planned : Prop where
  inventory : buildGdprInventory store = .ok parts.inventory
  directories : scanGdprDirectories store = .ok parts.directories
  inodePuts : ((parts.inventory.revisions.filter fun revision =>
    ownedInode request.uid revision.2).map redactInodePut).mapM id = .ok parts.inodePuts
  directoryPuts : (parts.directories.map
    (redactDirectoryPut request.uid parts.targets.keys)).mapM id = .ok parts.directoryPuts
  pathDeletes : planGdprPathDeletes store parts.targets = .ok parts.pathDeletes
  references : referencePuts request parts.inventory = .ok parts.references
  packs : planGdprPackDeletion store request (affectedBlobs request.uid parts.inventory)
    (gdprCounts request parts.inventory) = .ok parts.packs
  /-- What is left is history and the certificate. -/
  rest : ∀ put ∈ parts.rest, isHistoryKey put.1 = true ∨
    ∃ uid seconds runID, put.1 = .deletionCertificate uid seconds runID

def puts : List Mutation :=
  parts.inodePuts ++ (parts.directoryPuts.filterMap id ++ (parts.references ++
    (parts.packs.puts ++ parts.rest)))

def deletes : List Key :=
  (parts.targets.revisions.map (·.hardlinkKey) ++ parts.pathDeletes ++
    planGdprGlobalCleanup request.uid parts.inventory store ++
    referenceDeletes request parts.inventory).dedup

/-- The store that the plan leaves. -/
def after : SchemaStore :=
  (store.putAll parts.puts).deleteAll parts.deletes

end

end ForgetParts

variable {request : GdprForgetRequest}

/-- A forget that returned was a replay, or wrote the puts and then the deletes of
its parts. -/
theorem executeGdprForget_inv {limits : Limits} {now : Int} {store store' : SchemaStore}
    {certificate : DeletionCertificateRecord}
    (h : executeGdprForget limits now request store = .ok (certificate, store')) :
    (findGdprReplay store request = .ok (some certificate) ∧ store' = store) ∨
      findGdprReplay store request = .ok none ∧
        ∃ parts : ForgetParts store request, parts.Planned ∧ store' = parts.after := by
  unfold executeGdprForget at h
  split at h
  · cases h
  obtain ⟨replayed, hreplayed, h⟩ := of_bind h
  cases replayed with
  | some found =>
    cases h
    exact .inl ⟨hreplayed, rfl⟩
  | none =>
    obtain ⟨plan, hplan, h⟩ := of_bind h
    obtain ⟨written, hwritten, h⟩ := of_bind h
    cases h
    refine .inr ⟨hreplayed, ?_⟩
    obtain ⟨inventory, hinventory, hplan⟩ := of_bind hplan
    obtain ⟨inodePuts, hinodePuts, hplan⟩ := of_bind hplan
    obtain ⟨directories, hdirectories, hplan⟩ := of_bind hplan
    obtain ⟨directoryPuts, hdirectoryPuts, hplan⟩ := of_bind hplan
    obtain ⟨pathDeletes, hpathDeletes, hplan⟩ := of_bind hplan
    obtain ⟨references, hreferences, hplan⟩ := of_bind hplan
    obtain ⟨packs, hpacks, hplan⟩ := of_bind hplan
    obtain ⟨history, hhistory, hplan⟩ := of_bind hplan
    obtain ⟨signed, -, hplan⟩ := of_bind hplan
    obtain ⟨value, -, hplan⟩ := of_bind hplan
    cases hplan
    refine ⟨⟨inventory, directories, inodePuts, directoryPuts, pathDeletes, references, packs,
      history ++ [(.deletionCertificate request.uid request.executedAt.toNat request.runID,
        value)]⟩, ⟨hinventory, hdirectories, hinodePuts, hdirectoryPuts, hpathDeletes,
      hreferences, hpacks, ?_⟩, ?_⟩
    · exact List.forall_mem_append.mpr
        ⟨fun put hput => .inl (packHistoryMutations_keys hhistory hput),
          List.forall_mem_singleton.mpr (.inr ⟨_, _, _, rfl⟩)⟩
    · rw [writeTransactionBatches_eq hwritten]
      simp only [ForgetParts.after, ForgetParts.puts, ForgetParts.deletes,
        ForgetParts.targets, List.append_assoc]

/-! ## What a forget writes -/

variable {put : Mutation}

theorem redactInodePut_eq_ok {revision : RevisionID × InodeRevision}
    (h : redactInodePut revision = .ok put) :
    put = (revision.1.inodeKey, .inodeRevision (redactInode revision.2)) := by
  replace h := of_encode h
  exact (Except.ok.inj h).symm

theorem redactDirectoryPut_eq_ok {uid : Nat} {targets : List Key}
    {directory : RevisionID × DirectoryRevision}
    (h : redactDirectoryPut uid targets directory = .ok (some put)) :
    ∃ record, redactedDirectory uid targets directory.2 = some record ∧
      put = (directory.1.directoryKey, .directoryRevision
        { record with children := sortDirectoryChildren record.children }) := by
  unfold redactDirectoryPut at h
  split at h
  · cases h
  rename_i record hrecord
  replace h := of_encode h
  cases h
  exact ⟨record, hrecord, rfl⟩

theorem movedPut_eq_ok {entry : ID × PackRecord} (h : movedPut entry = .ok put) :
    put = (.pack entry.1, .pack { entry.2 with lifecycle := .deletePending }) := by
  replace h := of_encode h
  exact (Except.ok.inj h).symm

/-- The puts of one scheduled placement. -/
def scheduledPuts (request : GdprForgetRequest) (pack : ID) (backend : Nat)
    (placement : PlacementRecord) : List Mutation :=
  (if placement.state = .evicting ∧ placement.deleteAfter ≠ 0 then []
    else placedPuts pack backend
      { placement with state := .evicting, deleteAfter := gdprDeleteAfter request placement }) ++
    [(.placementDeleteQueue (gdprDeleteAfter request placement) pack backend,
      .placementDelete ⟨backend, placement.bytes, "gdpr-forget", request.runID⟩)]

theorem schedulePuts_eq_ok {pack : ID} {backend : Nat} {placement : PlacementRecord}
    {puts : List Mutation} (h : schedulePuts request pack backend placement = .ok puts) :
    puts = scheduledPuts request pack backend placement := by
  obtain ⟨evicting, hevicting, h⟩ := of_bind h
  replace h := of_encode h
  cases h
  unfold scheduledPuts
  unfold evictPuts at hevicting
  split_ifs at hevicting ⊢
  · cases hevicting
    rfl
  replace hevicting := of_encode hevicting
  replace hevicting := of_encode hevicting
  cases hevicting
  rfl

/-- What the pack plan writes: scheduled placements, and the record of each pack it moves. -/
theorem planGdprPackDeletion_inv {store : SchemaStore} {affected : List ID}
    {counts : ID → Option ReferenceCountRecord} {plan : GdprPackPlan}
    (h : planGdprPackDeletion store request affected counts = .ok plan) :
    ∃ eligible scheduled,
      discoverGdprDeletionPacks store affected counts = .ok eligible ∧
      scheduledPlacements store eligible = .ok scheduled ∧
      plan.puts =
        (scheduled.flatMap fun entry => scheduledPuts request entry.1.1 entry.1.2 entry.2) ++
          (movedPacks eligible scheduled).map fun entry =>
            (.pack entry.1, .pack { entry.2 with lifecycle := .deletePending }) := by
  obtain ⟨eligible, heligible, h⟩ := of_bind h
  obtain ⟨scheduled, hscheduled, h⟩ := of_bind h
  obtain ⟨placementPuts, hplacement, h⟩ := of_bind h
  obtain ⟨packPuts, hpack, h⟩ := of_bind h
  cases h
  refine ⟨eligible, scheduled, heligible, hscheduled, ?_⟩
  rw [mapM_map_eq_map hplacement fun _ _ => schedulePuts_eq_ok,
    mapM_map_eq_map hpack fun _ _ => movedPut_eq_ok, List.flatMap_def]

/-- The rebuilt counts: one put for each affected blob that has one. -/
theorem mem_referencePuts {inventory : GdprInventory} {puts : List Mutation}
    (h : referencePuts request inventory = .ok puts) :
    put ∈ puts ↔ ∃ blob ∈ affectedBlobs request.uid inventory, ∃ count,
      gdprCounts request inventory blob = some count ∧
        put = (.referenceCount blob, .referenceCount count) := by
  obtain ⟨found, hfound, h⟩ := of_bind h
  cases h
  simp only [List.mem_filterMap, id_eq, exists_eq_right]
  rw [mem_of_mapM_map hfound]
  refine exists_congr fun blob => and_congr_right fun hblob => ?_
  obtain ⟨planned, -, hplanned⟩ := ok_of_mapM_map hfound hblob
  cases hcount : gdprCounts request inventory blob with
  | none => simp
  | some count =>
    rw [hcount] at hplanned
    obtain ⟨value, hvalue, -⟩ := of_bind hplanned
    obtain ⟨-, -, rfl⟩ := encode_eq_ok.mp hvalue
    simp only [hvalue, bind, Except.bind, Except.ok.injEq, Option.some.injEq, exists_eq_left']
    exact eq_comm

namespace ForgetParts

variable {store : SchemaStore} {request : GdprForgetRequest} {parts : ForgetParts store request}

/-- The puts of a plan, by the kind of their key. -/
inductive IsPut (parts : ForgetParts store request) : Mutation → Prop
  | inode {fsid inode revision : Nat} {record : InodeRevision}
      (hmem : ((fsid, inode, revision), record) ∈ parts.inventory.revisions)
      (howned : ownedInode request.uid record = true) :
      IsPut parts (.inodeRevision fsid inode revision, .inodeRevision (redactInode record))
  | directory {fsid inode revision : Nat} {record changed : DirectoryRevision}
      (hmem : ((fsid, inode, revision), record) ∈ parts.directories)
      (hchanged : redactedDirectory request.uid parts.targets.keys record = some changed) :
      IsPut parts (.directoryRevision fsid inode revision, .directoryRevision
        { changed with children := sortDirectoryChildren changed.children })
  | reference {blob : ID} {count : ReferenceCountRecord}
      (haffected : blob ∈ affectedBlobs request.uid parts.inventory)
      (hcount : gdprCounts request parts.inventory blob = some count) :
      IsPut parts (.referenceCount blob, .referenceCount count)
  | pack {pack : ID} {value : Value} (hput : (.pack pack, value) ∈ parts.packs.puts) :
      IsPut parts (.pack pack, value)
  | placement {pack : ID} {backend : Nat} {value : Value} :
      IsPut parts (.packPlacement pack backend, value)
  | reverse {backend : Nat} {pack : ID} {value : Value} :
      IsPut parts (.backendPack backend pack, value)
  | queue {deadline : Int} {pack : ID} {backend : Nat} {value : Value} :
      IsPut parts (.placementDeleteQueue deadline pack backend, value)
  | event {seconds sequence : Nat} {pack : ID} {value : Value} :
      IsPut parts (.packHistory seconds sequence pack, value)
  | sequence {value : Value} : IsPut parts (.nextEventSequence, value)
  | enabled {value : Value} : IsPut parts (.historyEnabledAt, value)
  | certificate {uid seconds : Nat} {runID : ID} {value : Value} :
      IsPut parts (.deletionCertificate uid seconds runID, value)

theorem Planned.isPut (h : parts.Planned) (hput : put ∈ parts.puts) : parts.IsPut put := by
  simp only [puts, List.mem_append, List.mem_filterMap, id_eq, exists_eq_right] at hput
  rcases hput with hput | hput | hput | hput | hput
  · obtain ⟨revision, hmem, hredact⟩ := (mem_of_mapM_map h.inodePuts).mp hput
    obtain ⟨hmem, howned⟩ := List.mem_filter.mp hmem
    rw [redactInodePut_eq_ok hredact]
    exact .inode hmem howned
  · obtain ⟨directory, hmem, hredact⟩ := (mem_of_mapM_map h.directoryPuts).mp hput
    obtain ⟨changed, hchanged, rfl⟩ := redactDirectoryPut_eq_ok hredact
    exact .directory hmem hchanged
  · obtain ⟨blob, haffected, count, hcount, rfl⟩ := (mem_referencePuts h.references).mp hput
    exact .reference haffected hcount
  · obtain ⟨eligible, scheduled, -, -, hputs⟩ := planGdprPackDeletion_inv h.packs
    have hplanned := hput
    rw [hputs] at hput
    rcases List.mem_append.mp hput with hput | hput
    · obtain ⟨entry, -, hput⟩ := List.mem_flatMap.mp hput
      rcases List.mem_append.mp hput with hput | hput
      · split_ifs at hput
        · cases hput
        simp only [placedPuts, List.mem_cons, List.not_mem_nil, or_false] at hput
        rcases hput with rfl | rfl
        · exact .placement
        · exact .reverse
      · rw [List.mem_singleton.mp hput]
        exact .queue
    · obtain ⟨entry, -, rfl⟩ := List.mem_map.mp hput
      exact .pack hplanned
  · obtain ⟨key, value⟩ := put
    rcases h.rest _ hput with hhistory | ⟨uid, seconds, runID, hkey⟩
    · cases key <;> cases hhistory
      · exact .event
      · exact .sequence
      · exact .enabled
    · obtain rfl : key = _ := hkey
      exact .certificate

/-- The deletes of a plan, by the kind of the key. -/
inductive IsDelete (parts : ForgetParts store request) : Key → Prop
  | hardlink {fsid inode revision : Nat}
      (htarget : (fsid, inode, revision) ∈ parts.targets.revisions) :
      IsDelete parts (.hardlinkRefs fsid inode revision)
  | path {fsid : Nat} {path : GoString} {revision : Nat} {value : Value}
      {record : PathVersionRecord}
      (hlook : store.lookup (.pathVersion fsid path revision) = some value)
      (hvalue : unmarshalPathVersionRecord value = .ok record)
      (htargeted : pathTargeted parts.targets fsid path record = true) :
      IsDelete parts (.pathVersion fsid path revision)
  | segment {manifest : ID} {segment : Nat} {record : ContentManifest}
      (horphaned : ((manifest, segment), record) ∈ orphanedSegments request.uid parts.inventory) :
      IsDelete parts (.contentManifest manifest segment)
  | reverseManifest {blob manifest : ID} : IsDelete parts (.reverseManifest blob manifest)
  | analytics {bytes : GoString} : IsDelete parts (.other bytes)
  | count {blob : ID} (haffected : blob ∈ affectedBlobs request.uid parts.inventory)
      (hnone : gdprCounts request parts.inventory blob = none) :
      IsDelete parts (.referenceCount blob)
  | reverseInode {blob : ID} {fsid inode : Nat} : IsDelete parts (.reverseInode blob fsid inode)

theorem Planned.mem_pathDeletes (h : parts.Planned) {fsid : Nat} {path : GoString}
    {revision : Nat} {value : Value} {record : PathVersionRecord}
    (hlook : store.lookup (.pathVersion fsid path revision) = some value)
    (hvalue : unmarshalPathVersionRecord value = .ok record)
    (htargeted : pathTargeted parts.targets fsid path record = true) :
    .pathVersion fsid path revision ∈ parts.pathDeletes := by
  obtain ⟨records, hrecords, hpaths⟩ := of_bind h.pathDeletes
  rw [← Except.ok.inj hpaths]
  have hmem := (Table.mem_of_collectBy hrecords).mpr ⟨_, _, hlook, rfl, hvalue⟩
  exact List.mem_map.mpr ⟨_, List.mem_filter.mpr ⟨hmem, htargeted⟩, rfl⟩

theorem Planned.isDelete (h : parts.Planned) {key : Key} (hkey : key ∈ parts.deletes) :
    parts.IsDelete key := by
  simp only [deletes, List.mem_dedup, List.mem_append, List.mem_map] at hkey
  rcases hkey with ((⟨id, hid, rfl⟩ | hpath) | hcleanup) | hreference
  · exact .hardlink hid
  · obtain ⟨records, hrecords, hpaths⟩ := of_bind h.pathDeletes
    rw [← Except.ok.inj hpaths] at hpath
    obtain ⟨⟨⟨fsid, path, revision⟩, record⟩, hmem, rfl⟩ := List.mem_map.mp hpath
    obtain ⟨hmem, htargeted⟩ := List.mem_filter.mp hmem
    obtain ⟨key, value, hlook, hkey, hvalue⟩ := (Table.mem_of_collectBy hrecords).mp hmem
    cases key <;> cases hkey
    exact .path hlook hvalue htargeted
  · rcases List.mem_append.mp hcleanup with hsegment | hanalytics
    · obtain ⟨segment, horphaned, hsegment⟩ := List.mem_flatMap.mp hsegment
      rcases List.mem_cons.mp hsegment with rfl | hreverse
      · exact .segment horphaned
      · obtain ⟨blob, -, rfl⟩ := List.mem_map.mp hreverse
        exact .reverseManifest
    · obtain ⟨found, value, -, hselect⟩ := Table.mem_scan.mp hanalytics
      split at hselect
      · rename_i hanalytics
        cases hselect
        cases key <;> first | exact .analytics | cases hanalytics
      · cases hselect
  · obtain ⟨blob, haffected, hreference⟩ := List.mem_flatMap.mp hreference
    rcases List.mem_append.mp hreference with hcount | hinode
    · split at hcount
      · rename_i hnone
        rw [List.mem_singleton.mp hcount]
        exact .count haffected hnone
      · cases hcount
    · obtain ⟨inode, -, rfl⟩ := List.mem_map.mp hinode
      exact .reverseInode

/-- A key that no plan deletes has what was put under it. -/
theorem Planned.lookup_kept (h : parts.Planned) (key : Key) (hkey : ¬parts.IsDelete key) :
    parts.after.lookup key = (store.putAll parts.puts).lookup key := by
  rw [after, Table.lookup_deleteAll, if_neg fun hmem => hkey (h.isDelete hmem)]

end ForgetParts

end Vaultic.Daemon
