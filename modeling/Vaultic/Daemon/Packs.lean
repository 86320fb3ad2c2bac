/-
  Daemon/Packs.lean  —  the pack catalog: publication and two-phase deletion.

  Source: internal/index/daemon/schema_store_import.go,
  internal/index/schema/validation.go (`ClassifyPack`).

  A pack enters the catalog through `publishPack`, becomes visible to deletion
  through `markPacksPublished`, and leaves it in two phases:
  `markPackDeletePending` before its object is removed and `markPackDeleted`
  after.  `now` is the wall clock in nanoseconds.

  Not modelled: transaction conflicts (the source retries), telemetry, and the
  legacy-import variant of publication.
-/
import Vaultic.Daemon.Aggregates

set_option autoImplicit false

namespace Vaultic.Daemon

open Vaultic.Lib Vaultic.Schema

section

variable (limits : Limits) (now : Int) (store : SchemaStore)

/-- The whole seconds of a wall-clock reading, as the history log stores them. -/
def historySeconds : Nat := (now / 1000000000).toNat

/-! ## Blob records -/

/-- `samePhysicalLocation` -/
def samePhysicalLocation (left right : BlobLocation) : Bool :=
  left.packID == right.packID && left.offset == right.offset && left.length == right.length &&
    left.type == right.type

/-- `containsPhysicalLocation` -/
def containsPhysicalLocation (locations : List BlobLocation) (candidate : BlobLocation) : Bool :=
  locations.any fun location => samePhysicalLocation location candidate

/-- Add one location to a list: the first location at the same place keeps the
larger uncompressed size, and a new place is appended. -/
def mergeLocation (candidate : BlobLocation) : List BlobLocation → List BlobLocation
  | [] => [candidate]
  | location :: rest =>
    if samePhysicalLocation location candidate then
      { location with
        uncompressedSize := max location.uncompressedSize candidate.uncompressedSize } :: rest
    else location :: mergeLocation candidate rest

/-- The order of canonical locations: pack, type, offset, length, size. -/
def locationLE (left right : BlobLocation) : Bool :=
  if left.packID ≠ right.packID then decide (left.packID < right.packID)
  else if left.type ≠ right.type then decide (left.type.code < right.type.code)
  else if left.offset ≠ right.offset then decide (left.offset < right.offset)
  else if left.length ≠ right.length then decide (left.length < right.length)
  else decide (left.uncompressedSize ≤ right.uncompressedSize)

/-- `canonicalBlobRecord` -/
def canonicalBlobRecord (record : BlobRecord) : BlobRecord :=
  ⟨(record.locations.foldl (fun acc candidate => mergeLocation candidate acc) []).insertionSort
    fun left right => locationLE left right = true⟩

/-- `mergeBlobRecords` -/
def mergeBlobRecords (existing incoming : BlobRecord) : BlobRecord :=
  canonicalBlobRecord
    ⟨incoming.locations.foldl (fun acc candidate => mergeLocation candidate acc)
      existing.locations⟩

/-- `ClassifyPack` -/
def classifyPack (types : List BlobType) : PackType :=
  if types = [] then .unknown
  else if types.contains .data && types.contains .tree then .mixed
  else if types.contains .data then .data
  else .tree

/-! ## Pack records -/

/-- `appendUniqueID` -/
def appendUniqueID (ids : List ID) (candidate : ID) : List ID :=
  if candidate ∈ ids then ids else ids ++ [candidate]

/-- Identifiers in byte order. -/
def sortIDs (ids : List ID) : List ID :=
  ids.insertionSort (· ≤ ·)

/-- `applyPackLifetime`: a known fact is never replaced by an unknown one. -/
def applyPackLifetime (result existing incoming : PackRecord) : PackRecord :=
  let learnsCreation := !existing.creationTimeKnown && incoming.creationTimeKnown
  let creationTimeKnown := learnsCreation || result.creationTimeKnown
  let learnsRetention := existing.retentionSource == .unknown &&
    incoming.retentionSource != .unknown && creationTimeKnown
  { result with
    creationTime := if learnsCreation then incoming.creationTime else result.creationTime
    creationTimeKnown
    tier :=
      if existing.tier = .unknown ∧ incoming.tier ≠ .unknown then incoming.tier else result.tier
    storageClass :=
      if existing.storageClass = "" then incoming.storageClass else result.storageClass
    retentionSource :=
      if learnsRetention then incoming.retentionSource else result.retentionSource
    minRetentionUntil :=
      if learnsRetention then incoming.minRetentionUntil else result.minRetentionUntil
    deleteAfter := if incoming.deleteAfter ≠ 0 then incoming.deleteAfter else result.deleteAfter
    usageKnown := incoming.usageKnown || result.usageKnown
    usedPayloadBytes :=
      if incoming.usageKnown then incoming.usedPayloadBytes else result.usedPayloadBytes
    unusedPayloadBytes :=
      if incoming.usageKnown then incoming.unusedPayloadBytes else result.unusedPayloadBytes }

/-- The type of a pack seen twice: an unknown type gives way, two different known
types make a mixed pack. -/
def mergePackType (existing incoming : PackType) : PackType :=
  if incoming = .unknown then existing
  else if existing = .unknown then incoming
  else if existing = incoming then existing
  else .mixed

/-- `mergeImportedPackRecord`, for a publication: the lifecycle, the counts and
everything not merged below are those of the existing record. -/
def mergeImportedPackRecord (existing incoming : PackRecord) : PackRecord :=
  let merged := { existing with
    sourceIndexIDs := sortIDs (incoming.sourceIndexIDs.foldl appendUniqueID existing.sourceIndexIDs)
    physicalSize :=
      if incoming.physicalSizeKnown then incoming.physicalSize else existing.physicalSize
    headerSize := if incoming.physicalSizeKnown then incoming.headerSize else existing.headerSize
    physicalSizeKnown := incoming.physicalSizeKnown || existing.physicalSizeKnown
    type := mergePackType existing.type incoming.type }
  applyPackLifetime merged existing incoming

/-- `clearStalePackUsage` -/
def clearStalePackUsage (record : PackRecord) : PackRecord :=
  if record.usageKnown = false then
    { record with usedPayloadBytes := 0, unusedPayloadBytes := 0 }
  else if record.usedPayloadBytes > record.payloadSize ∨
      record.usedPayloadBytes + record.unusedPayloadBytes ≠ record.payloadSize then
    { record with usageKnown := false, usedPayloadBytes := 0, unusedPayloadBytes := 0 }
  else record

/-- The header of a pack is what its object holds beyond the payload. -/
def deriveHeaderSize (record : PackRecord) : PackRecord :=
  if record.physicalSizeKnown = true then
    { record with headerSize := record.physicalSize - record.payloadSize }
  else record

/-- The stored record of a pack, if the catalog has one. -/
def loadPackRecord (pack : ID) : Result (Option PackRecord) :=
  match store.lookup (.pack pack) with
  | none => .ok none
  | some value => do
      let record ← unmarshalPackRecord value
      .ok (some record)

/-- `usageDeltas` -/
def usageDeltas (old : Option PackRecord) (current : PackRecord) : Int × Int :=
  let (oldUsed, oldUnused) :=
    match old with
    | some record =>
      if record.usageKnown then (record.usedPayloadBytes, record.unusedPayloadBytes) else (0, 0)
    | none => (0, 0)
  if current.usageKnown = false then (-(oldUsed : Int), -(oldUnused : Int))
  else ((current.usedPayloadBytes : Int) - oldUsed, (current.unusedPayloadBytes : Int) - oldUnused)

/-! ## Publication -/

/-- `PublishedPack`: a pack object that was just uploaded. -/
structure PublishedPack where
  packID : ID
  record : PackRecord
  blobs : Table ID BlobRecord
  placements : Table Nat PlacementRecord
  predecessorPackIDs : List ID
  lineageKind : RepackLineageKind
  runID : ID

/-- `preparePackImport`: the canonical blobs of a publication, once its record
agrees with them. -/
def preparePackImport (published : PublishedPack) : Result (List (ID × BlobRecord)) :=
  let blobs := published.blobs.entries.map fun entry => (entry.1, canonicalBlobRecord entry.2)
  let locations := blobs.flatMap fun blob => blob.2.locations
  if published.packID = 0 then .error "pack publication requires its identity"
  else if published.record.lifecycle ≠ .exportPending then
    .error "pack publication has invalid lifecycle"
  else if locations.any (fun location => location.packID != published.packID) then
    .error "legacy blob location belongs to a different pack"
  else if locations.length ≠ published.record.blobCount ∨
      classifyPack (locations.map BlobLocation.type) ≠ published.record.type then
    .error "legacy pack record does not match its blob locations"
  else .ok blobs

/-- `packImportPlan` -/
structure BlobPlan where
  puts : List Mutation := []
  (newLocationCount newPayloadSize : Nat := 0)

/-- The payload of the accumulated locations, kept below the counter's limit. -/
def addLengths (payload : Nat) : List BlobLocation → Result Nat
  | [] => .ok payload
  | location :: rest =>
    if maxUint64 - payload < location.length then .error "pack payload size overflow"
    else addLengths (payload + location.length) rest

/-- The stored record of a blob, if the catalog has one. -/
def loadBlobRecord (blob : ID) : Result (Option BlobRecord) :=
  match store.lookup (.blob blob) with
  | none => .ok none
  | some value => do
      let record ← unmarshalBlobRecord value
      .ok (some record)

/-- The record of a blob after a publication names it. -/
def importedBlobRecord : Option BlobRecord → BlobRecord → BlobRecord
  | none, incoming => incoming
  | some existing, incoming => mergeBlobRecords existing incoming

/-- The locations a publication adds to what the catalog already has. -/
def newLocations : Option BlobRecord → BlobRecord → List BlobLocation
  | none, incoming => incoming.locations
  | some existing, incoming =>
    incoming.locations.filter fun location =>
      !containsPhysicalLocation existing.locations location

/-- `appendImportedBlobMutation` -/
def appendImportedBlobMutation (plan : BlobPlan) (blob : ID × BlobRecord) :
    Result BlobPlan := do
  let existing ← loadBlobRecord store blob.1
  let payload ← addLengths plan.newPayloadSize (newLocations existing blob.2)
  let value ← marshalBlobRecord (importedBlobRecord existing blob.2)
  .ok { puts := plan.puts ++ [(.blob blob.1, value)]
        newLocationCount := plan.newLocationCount + (newLocations existing blob.2).length
        newPayloadSize := payload }

/-- `blobLookupBatchEnd`: the limits under which blobs can be looked up at all. -/
def checkBlobLookupLimits : Result Unit :=
  if limits.maxBatchItems = 0 ∨ limits.maxMessageBytes < 256 then
    .error "vaulticdb advertised insufficient blob lookup limits"
  else if limits.maxMessageBytes / 2 < 128 + (34 + 16) then
    .error "blob lookup batch made no progress"
  else .ok ()

/-- `planImportedBlobs` -/
def planImportedBlobs (blobs : List (ID × BlobRecord)) : Result BlobPlan :=
  if blobs = [] then .ok {}
  else do
    checkBlobLookupLimits limits
    blobs.foldlM (appendImportedBlobMutation store) {}

/-- The puts of one placement: by pack, and by backend. -/
def placementPuts (pack : ID) (backend : Nat) (placement : PlacementRecord) :
    Result (List Mutation) :=
  if backend = 0 then .error "pack placement requires a backend"
  else do
    let value ← marshalPlacementRecord placement
    let backendValue ← marshalBackendPackRecord
      ⟨placement.state, placement.bytes, placement.placedAt⟩
    .ok [(.packPlacement pack backend, value), (.backendPack backend pack, backendValue)]

/-- `placementMutations` -/
def placementMutations (pack : ID) (placements : Table Nat PlacementRecord) :
    Result (List Mutation) := do
  let puts ← (placements.entries.map fun entry => placementPuts pack entry.1 entry.2).mapM id
  .ok puts.flatten

/-- The put that records which pack a published pack was made from. -/
def lineagePut (published : PublishedPack) (predecessor : ID) : Result Mutation := do
  let value ← marshalRepackLineageRecord ⟨published.runID, published.lineageKind⟩
  .ok (.repackLineage predecessor published.packID, value)

/-- The record of a publication over the one the catalog has. -/
def publishedRecord (published : PublishedPack) (old : Option PackRecord) (plan : BlobPlan) :
    Result PackRecord :=
  match old with
  | none =>
    .ok { published.record with sourceIndexIDs := sortIDs published.record.sourceIndexIDs }
  | some record =>
    if maxUint64 - record.blobCount < plan.newLocationCount ∨
        maxUint64 - record.payloadSize < plan.newPayloadSize then
      .error "pack catalog size overflow"
    else
      .ok { mergeImportedPackRecord record published.record with
        blobCount := record.blobCount + plan.newLocationCount
        payloadSize := record.payloadSize + plan.newPayloadSize }

/-- `planPackRecord` -/
def planPackRecord (published : PublishedPack) (old : Option PackRecord) (plan : BlobPlan) :
    Result (PackRecord × List Mutation) := do
  let record ← publishedRecord published old plan
  let record := clearStalePackUsage (deriveHeaderSize record)
  let value ← marshalPackRecord record
  let placements ← placementMutations published.packID published.placements
  let lineage ← (published.predecessorPackIDs.map (lineagePut published)).mapM id
  .ok (record, (.pack published.packID, value) :: (placements ++ lineage))

/-- `planResolvedUnavailableDebt`: a pack that was reported unavailable and is
published now settles that debt. -/
def planResolvedUnavailableDebt (pack : ID) : Result (List Mutation) :=
  match store.lookup (.crawlDebt 0 pack) with
  | none => .ok []
  | some value => do
      let debt ← unmarshalCrawlDebtRecord value
      if debt.reason ≠ .unavailablePack ∨ debt.status = .resolved then .ok []
      else
        let value ← marshalCrawlDebtRecord
          { debt with status := .resolved, errorClass := "", lastAttemptUnixNano := now }
        .ok [(.crawlDebt 0 pack, value)]

/-- `packImportEvents`, for a publication. -/
def packImportEvents (published : PublishedPack) (old : Option PackRecord)
    (record : PackRecord) : List PackEvent :=
  let type : PackEventType :=
    if published.predecessorPackIDs = [] then .created
    else if published.lineageKind = .promotion then .promoted
    else .repackedInto
  let (usedDelta, unusedDelta) := usageDeltas old record
  let created : PackEvent :=
    ⟨published.packID,
      { type, packType := record.type, physicalSize := record.physicalSize,
        payloadSize := record.payloadSize, usedDelta, unusedDelta,
        predecessorPackIDs := published.predecessorPackIDs, runID := published.runID }⟩
  let tierName : PackTier → String
    | .unknown => "unknown"
    | .hot => "hot"
    | .cold => "cold"
    | .mirrored => "mirrored"
    | .single => "single"
  match old with
  | some existing =>
    if existing.tier ≠ record.tier then
      [created, ⟨published.packID,
        { type := .tierChanged, packType := record.type, physicalSize := record.physicalSize,
          payloadSize := record.payloadSize, runID := published.runID,
          reasonCode := tierName record.tier }⟩]
    else [created]
  | none => [created]

/-- `PublishPack`: merge a newly written pack's catalog entry, blob locations and
aggregates. -/
def publishPack (published : PublishedPack) : Result SchemaStore := do
  let blobs ← preparePackImport published
  let old ← loadPackRecord store published.packID
  let plan ← planImportedBlobs limits store blobs
  let (record, packPuts) ← planPackRecord published old plan
  let aggregates ← updatePackAggregates store old record
  let debt ← planResolvedUnavailableDebt now store published.packID
  let history ← packHistoryMutations (historySeconds now) store
    (packImportEvents published old record)
  writeTransactionBatches limits store
    (plan.puts ++ (packPuts ++ (aggregates ++ (debt ++ history)))) []

/-! ## Acknowledgment -/

/-- `vaultic.BlobLookupBatchSize` -/
def blobLookupBatchSize : Nat := 256

/-- One pack of `markPacksPublishedOnce`: the put and the event of its
transition, or nothing when it is published already. -/
def acknowledgePack (pack : ID) : Result (Option (Mutation × PackEvent)) := do
  let found ← loadPackRecord store pack
  match found with
  | none => .error "published pack is missing"
  | some record =>
    if record.lifecycle = .published then .ok none
    else if record.lifecycle ≠ .exportPending ∧ record.lifecycle ≠ .imported then
      let code := record.lifecycle.code
      .error s!"pack cannot transition from lifecycle {code} to published"
    else
      let value ← marshalPackRecord { record with lifecycle := .published }
      .ok (some ((.pack pack, value),
        ⟨pack,
          { type := .published, packType := record.type,
            physicalSize := record.physicalSize, payloadSize := record.payloadSize }⟩))

/-- `MarkPacksPublished` -/
def markPacksPublished (packs : List ID) : Result SchemaStore :=
  if min blobLookupBatchSize limits.maxBatchItems = 0 then
    .error "daemon does not support pack acknowledgment batches"
  else do
    let found ← (packs.map (acknowledgePack store)).mapM id
    let transitions := found.filterMap id
    if transitions = [] then .ok store
    else
      let history ← packHistoryMutations (historySeconds now) store
        (transitions.map Prod.snd)
      writeTransactionBatches limits store (transitions.map Prod.fst ++ history) []

/-! ## Two-phase deletion -/

/-- `packPlacementKeys`: the backends that hold a placement of a pack. -/
def packPlacementBackends (pack : ID) : List Nat :=
  store.scan fun key _ =>
    match key with
    | .packPlacement owner backend => if owner = pack then some backend else none
    | _ => none

/-- The placement of a pack that is to be evicted: live and pending placements
start their retention clock, all others stay. -/
def evictPlacement (placement : PlacementRecord) : Option PlacementRecord :=
  if placement.state ≠ .live ∧ placement.state ≠ .pending then none
  else
    let deleteAfter :=
      if placement.retentionSource ≠ .unknown ∧ placement.minRetentionUntil > now then
        placement.minRetentionUntil
      else now
    some { placement with state := .evicting, deleteAfter }

/-- The puts that evict one placement and queue its deletion. -/
def evictionPuts (pack : ID) (backend : Nat) (reason : String) (runID : ID)
    (placement : PlacementRecord) : Result (List Mutation) := do
  let value ← marshalPlacementRecord placement
  let backendValue ← marshalBackendPackRecord
    ⟨placement.state, placement.bytes, placement.placedAt⟩
  let queueValue ← marshalPlacementDeleteRecord ⟨backend, placement.bytes, reason, runID⟩
  .ok [(.packPlacement pack backend, value), (.backendPack backend pack, backendValue),
    (.placementDeleteQueue placement.deleteAfter pack backend, queueValue)]

/-- One placement of `markPackDeletePendingOnce`. -/
def planEviction (pack : ID) (backend : Nat) : Result (List Mutation) :=
  match store.lookup (.packPlacement pack backend) with
  | none => .ok []
  | some value => do
      let placement ← unmarshalPlacementRecord value
      match evictPlacement now placement with
      | none => .ok []
      | some evicted => evictionPuts pack backend "gc" 0 evicted

/-- `markPackDeletePendingOnce`: `backends` are those its scan has found, before and outside
the transaction on `store`. -/
def markPackDeletePendingOnce (pack : ID) (backends : List Nat) : Result SchemaStore := do
  let found ← loadPackRecord store pack
  match found with
  | none => .error "pack to delete is missing"
  | some record =>
    if record.lifecycle = .deletePending then .ok store
    else if record.lifecycle ≠ .published then
      let code := record.lifecycle.code
      .error s!"pack cannot transition from lifecycle {code} to delete-pending"
    else
      let value ← marshalPackRecord { record with lifecycle := .deletePending }
      let evictions ← (backends.map (planEviction now store pack)).mapM id
      let history ← packHistoryMutations (historySeconds now) store
        [⟨pack,
          { type := .deletePending, packType := record.type,
            physicalSize := record.physicalSize, payloadSize := record.payloadSize }⟩]
      .ok (store.putAll ((.pack pack, value) :: (evictions.flatten ++ history)))

/-- `MarkPackDeletePending`: the first phase of deleting a pack, with no other write between
its scan and its transaction. -/
def markPackDeletePending (pack : ID) : Result SchemaStore :=
  markPackDeletePendingOnce now store pack (packPlacementBackends store pack)

/-- The keys that go with one placement of a deleted pack. -/
def placementDeletes (pack : ID) (backend : Nat) : Result (List Key) :=
  match store.lookup (.packPlacement pack backend) with
  | none => .ok [.packPlacement pack backend, .backendPack backend pack]
  | some value => do
      let placement ← unmarshalPlacementRecord value
      .ok ([.packPlacement pack backend, .backendPack backend pack] ++
        if placement.deleteAfter ≠ 0 then
          [.placementDeleteQueue placement.deleteAfter pack backend]
        else [])

/-- The locations of a blob that lie outside a pack. -/
def remainingLocations (record : BlobRecord) (pack : ID) : List BlobLocation :=
  record.locations.filter fun location => location.packID != pack

/-- What becomes of one member of a deleted pack: its record loses the pack's
locations, and goes when none are left. -/
def stripMember (pack blob : ID) : Result (List Mutation × List Key) := do
  let found ← loadBlobRecord store blob
  match found with
  | none => .ok ([], [])
  | some record =>
    let remaining := remainingLocations record pack
    if remaining = [] then .ok ([], [.blob blob])
    else if remaining.length ≠ record.locations.length then
      let value ← marshalBlobRecord ⟨remaining⟩
      .ok ([(.blob blob, value)], [])
    else .ok ([], [])

/-- The bookkeeping of garbage collection that is stale once a pack is gone. -/
def staleGCKeys (pack : ID) (members : List ID) : List Key :=
  (.garbageCollection .pack pack :: members.map (.garbageCollection .blob)).filter fun key =>
    (store.lookup key).isSome

/-- `markPackDeletedOnce`: `members` are the blobs that had a location in the pack, and
`backends` are those the scan before the transaction has found. -/
def markPackDeletedOnce (pack : ID) (members : List ID) (backends : List Nat) :
    Result SchemaStore := do
  let found ← loadPackRecord store pack
  match found with
  | none => .error "pack to delete is missing"
  | some record =>
    if record.lifecycle ≠ .deletePending then
      let code := record.lifecycle.code
      .error s!"pack cannot be deleted from lifecycle {code}"
    else
      let placements ← (backends.map (placementDeletes store pack)).mapM id
      let stripped ← (members.map (stripMember store pack)).mapM id
      let aggregates ← removePackAggregates store record
      let (usedDelta, unusedDelta) :=
        usageDeltas (some record) { type := .unknown, lifecycle := .stateUnknown }
      let history ← packHistoryMutations (historySeconds now) store
        [⟨pack,
          { type := .deleted, packType := record.type, physicalSize := record.physicalSize,
            payloadSize := record.payloadSize, usedDelta, unusedDelta }⟩]
      writeTransactionBatches limits store
        (stripped.flatMap Prod.fst ++ (aggregates ++ history))
        (.pack pack :: (placements.flatten ++ (stripped.flatMap Prod.snd ++
          staleGCKeys store pack members)))

/-- `MarkPackDeleted`: the second phase of deleting a pack, after its object was
removed, with no other write between its scan and its transaction. -/
def markPackDeleted (pack : ID) (members : List ID) : Result SchemaStore :=
  markPackDeletedOnce limits now store pack members (packPlacementBackends store pack)

end

end Vaultic.Daemon
