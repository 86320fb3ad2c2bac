/-
  Daemon/Publication.lean  —  publishing reconciled inode and directory revisions.

  Source: internal/index/daemon/schema_store_publish.go, internal/index/schema
  (`SegmentContent`, `AssembleContent`).

  A publication writes a revision, moves the current pointer of its inode to it, stores the
  manifest of a long content, and advances the reverse records and the counts of the blobs
  of the old and of the new content.  The plan is a map of pending puts; each phase reads
  the transaction and, for counts, the pending puts before it.  The identity of a manifest
  is a hash of its content, here any function.
-/
import Vaultic.Lib.Planning
import Vaultic.Wire.Analytics
import Vaultic.Wire.Metadata
import Vaultic.Daemon.References

set_option autoImplicit false

namespace Vaultic.Daemon

open Vaultic.Lib Vaultic.Schema

/-! ## Content -/

/-- The segments of at most `size` identifiers that a content is cut into. -/
def contentSegments (ids : List ID) (size : Nat) : List ContentManifest :=
  let count := (ids.length + size - 1) / size
  (List.range count).map fun segment =>
    ⟨ids.length, segment, count, (ids.drop (segment * size)).take size⟩

/-- The segments of the default size. -/
abbrev defaultSegments (ids : List ID) : List ContentManifest :=
  contentSegments ids defaultContentSegmentIDs

section

variable (manifestHash : List ID → ID) (now : Int) (store : SchemaStore)

/-- `SegmentContent`, where `manifestHash` is `ContentManifestID`.  A negative size is refused
as zero is. -/
def segmentContent (ids : List ID) (maxPerSegment : Nat) : Result (ID × List ContentManifest) :=
  if ids = [] ∨ ids.length > maxContentIDs ∨ maxPerSegment = 0 ∨
      maxPerSegment > maxContentSegmentIDs then
    .error (malformed "invalid content segmentation")
  else .ok (manifestHash ids, contentSegments ids maxPerSegment)

/-- `reconciledManifest`: short content is inline and has no manifest. -/
def reconciledManifest (ids : List ID) : Result (ID × List ContentManifest) :=
  if ids.length ≤ maxInlineContentIDs then .ok (0, [])
  else segmentContent manifestHash ids defaultContentSegmentIDs

/-- `AssembleContent` -/
def assembleContent (manifestID : ID) (segments : List ContentManifest) : Result (List ID) :=
  match segments.insertionSort fun left right => left.segment ≤ right.segment with
  | [] => .error (malformed "content manifest has no segments")
  | first :: rest =>
    let sorted := first :: rest
    let ids := sorted.flatMap (·.contentIDs)
    if first.totalCount > maxContentIDs ∨ first.segmentCount ≠ sorted.length then
      .error (malformed "missing content manifest segment")
    else if ids.length ≠ first.totalCount then
      .error (malformed "content manifest count mismatch")
    else if (sorted.zipIdx.any fun entry => decide (entry.1.segment ≠ entry.2 ∨
        entry.1.segmentCount ≠ first.segmentCount ∨ entry.1.totalCount ≠ first.totalCount)) then
      .error (malformed "inconsistent content manifest segment")
    else if manifestHash ids ≠ manifestID then
      .error (malformed "content manifest identity mismatch")
    else .ok ids

/-- The stored segment of a manifest. -/
def loadSegment (manifestID : ID) (segment : Nat) : Result ContentManifest :=
  match store.lookup (.contentManifest manifestID segment) with
  | none => .error "content manifest segment is missing"
  | some value => unmarshalContentManifest value

/-- `transactionContentIDs` -/
def transactionContentIDs (record : InodeRevision) : Result (List ID) :=
  match record.contentMode with
  | .none => .ok []
  | .inline => .ok record.contentIDs
  | .manifestRef => do
      let count := (record.contentCount + defaultContentSegmentIDs - 1) / defaultContentSegmentIDs
      let segments ← ((List.range count).map (loadSegment store record.contentManifestID)).mapM id
      assembleContent manifestHash record.contentManifestID segments

/-! ## Requests -/

/-- `ReconciledRevision` -/
structure ReconciledRevision where
  (currentKey revisionKey : Key)
  revisionValue : Value
  revision : Nat
  contentIDs : List ID := []
  debtKeys : List Key := []
  relatedPuts : List Mutation := []
  hasMultipleParents : Bool := false
  hardlinkParents : List HardlinkParentRef := []

/-- The kinds without a key of their own that can be both put and deleted. -/
def derivedKinds : List Wire.KeyKind :=
  [.packHistoryBucket, .placementRequest, .promotionEligibility, .analyticsFact, .analyticsCache,
    .analyticsMetadata, .analyticsBuildCheckpoint, .analyticsDictionary, .analyticsFactSegment,
    .analyticsSegmentMetadata, .analyticsDimensionIndex, .analyticsResidency,
    .analyticsWatermark, .analyticsManifest, .analyticsQueryResult, .analyticsQueryHeat,
    .analyticsQueryView, .analyticsQueryJob, .growthTime, .growthPath, .userSummary,
    .groupSummary, .userStats, .groupStats, .userChurn, .userInode, .userBlob,
    .userBlobContribution, .analyticsDerivedMarker, .uidExclusionPolicy]

/-- The kinds without a key of their own that `validateMutableKey` accepts. -/
def mutableKinds : List Wire.KeyKind :=
  [.importCheckpoint, .snapshotImportCheckpoint, .exportCheckpoint, .historyRawFloor] ++
    derivedKinds

/-- `validateMutableKey` -/
def validateMutableKey : Key → Result Unit
  | .pack _ | .packAggregate _ | .tierAggregate _ | .reverseManifest _ _ | .reverseInode _ _ _
  | .referenceCount _ | .garbageCollection _ _ | .crawlDebt _ _ | .historyEnabledAt
  | .packPlacement _ _ | .backendPack _ _ | .placementDeleteQueue _ _ _ | .repackLineage _ _
  | .pathVersion _ _ _ => .ok ()
  | .packHistory _ _ _ => .error "pack history events are append-only"
  | .other bytes => do
      let parsed ← Wire.parseKey bytes
      if parsed.kind ∈ mutableKinds then .ok ()
      else if parsed.kind = .nextRevision then
        .error "revision sequence requires AllocateRevision"
      else .error "schema key requires a dedicated transactional operation"
  | _ => .error "schema key requires a dedicated transactional operation"

/-- `ValidateValue` for a mutable key: the value decodes as the record of the key.  The
values of keys without a kind of their own are not looked into. -/
def validMutableValue : Key → Value → Bool
  | .pack _, .pack record => (checkPackRecord record).isNone
  | .packAggregate _, .packAggregate _ | .tierAggregate _, .packAggregate _ => true
  | .reverseManifest _ _, .reverseManifest _ | .referenceCount _, .referenceCount _ => true
  | .reverseInode _ _ _, .reverseInode record => (checkReverseInodeRecord record).isNone
  | .garbageCollection _ _, .garbageCollection _ | .crawlDebt _ _, .crawlDebt _ => true
  | .historyEnabledAt, .historyMarker _ => true
  | .packPlacement _ _, .placement record => (checkPlacementRecord record).isNone
  | .backendPack _ _, .backendPack _ | .placementDeleteQueue _ _ _, .placementDelete _ => true
  | .repackLineage _ _, .repackLineage _ => true
  | .pathVersion _ _ _, .pathVersion record => (checkPathVersionRecord record).isNone
  | .other _, .raw _ => true
  | _, _ => false

/-- A request with its identity: is it an inode, and which one. -/
structure PublicationInput where
  reconciled : ReconciledRevision
  currentValue : Value
  isInode : Bool
  (fsid inode : Nat)

variable (input : PublicationInput)

/-- The identity that both keys of a request name. -/
def reconciledIdentity (reconciled : ReconciledRevision) : Option (Bool × Nat × Nat) :=
  match reconciled.currentKey, reconciled.revisionKey with
  | .currentInode fsid inode, .inodeRevision fsid' inode' revision =>
    if reconciled.revision ≠ 0 ∧ revision = reconciled.revision ∧ fsid = fsid' ∧
        inode = inode' then
      some (true, fsid, inode)
    else none
  | .currentDirectory fsid inode, .directoryRevision fsid' inode' revision =>
    if reconciled.revision ≠ 0 ∧ revision = reconciled.revision ∧ fsid = fsid' ∧
        inode = inode' then
      some (false, fsid, inode)
    else none
  | _, _ => none

/-- `ValidateValue` of the revision. -/
def validateRevisionValue (isInode : Bool) (value : Value) : Result Unit :=
  if isInode then (unmarshalInodeRevision value).map fun _ => ()
  else (unmarshalDirectoryRevision value).map fun _ => ()

/-- `validateReconciledRevisionExtras` -/
def validateReconciledRevisionExtras (reconciled : ReconciledRevision) : Result Unit :=
  if reconciled.debtKeys.any (fun key => match key with | .crawlDebt _ _ => false | _ => true) then
    .error "reconciliation debt key is invalid"
  else do
    let _ ← (reconciled.relatedPuts.map fun put => do
      validateMutableKey put.1
      if validMutableValue put.1 put.2 then (.ok () : Result Unit)
      else .error (malformed "truncated value")).mapM id
    .ok ()

/-- `prepareReconciledRevision` -/
def prepareReconciledRevision (reconciled : ReconciledRevision) :
    Result PublicationInput := do
  let currentValue ← marshalCurrentPointer ⟨reconciled.revision, reconciled.revisionKey⟩
  match reconciledIdentity reconciled with
  | none => .error "reconciled revision key mismatch"
  | some (isInode, fsid, inode) => do
      validateRevisionValue isInode reconciled.revisionValue
      if !isInode && decide (reconciled.contentIDs ≠ []) then
        .error "directory reconciliation cannot contain file content"
      else do
        validateReconciledRevisionExtras reconciled
        .ok { reconciled, currentValue, isInode, fsid, inode }

/-! ## The state before -/

/-- `reconciledRevisionState` -/
structure ReconciledState where
  (revisionFound currentFound : Bool := false)
  oldContent : List ID := []
  oldManifestID : ID := 0
  noop : Bool := false

/-- `loadPriorInodeContent` -/
def loadPriorInodeContent (key : Key) (state : ReconciledState) : Result ReconciledState :=
  match store.lookup key with
  | none => .error "current inode revision is missing"
  | some value => do
      let record ← unmarshalInodeRevision value
      let oldContent ← transactionContentIDs manifestHash store record
      .ok { state with
        oldContent
        oldManifestID :=
          if record.contentMode = .manifestRef then record.contentManifestID else 0 }

/-- `loadReconciledRevisionState` -/
def loadReconciledRevisionState : Result ReconciledState :=
  let reconciled := input.reconciled
  let existing := store.lookup reconciled.revisionKey
  if existing.any (fun value => decide (value ≠ reconciled.revisionValue)) then
    .error "immutable revision already exists with different data"
  else
    let state : ReconciledState := { revisionFound := existing.isSome }
    match store.lookup reconciled.currentKey with
    | none => .ok state
    | some oldCurrent => do
        let state := { state with currentFound := true }
        let pointer ← unmarshalCurrentPointer oldCurrent
        if existing.isSome = true ∧ pointer.revision = reconciled.revision ∧
            pointer.recordKey = reconciled.revisionKey then
          .ok { state with noop := true }
        else if pointer.revision > reconciled.revision then
          .error "current revision is newer"
        else if !input.isInode then .ok state
        else loadPriorInodeContent manifestHash store pointer.recordKey state

/-! ## The plan -/

/-- The pending puts of a plan. -/
abbrev Pending := Table Key Value

/-- `reconciledRevisionPlan` -/
structure PublicationPlan where
  puts : Pending
  manifestID : ID
  segments : List ContentManifest
  (oldUnique newUnique : List ID)

/-- The put of one manifest segment, unless it is stored. -/
def segmentPut (manifestID : ID) (segment : ContentManifest) : Result (Option Mutation) := do
  let encoded ← marshalContentManifest segment
  match store.lookup (.contentManifest manifestID segment.segment) with
  | none => .ok (some (.contentManifest manifestID segment.segment, encoded))
  | some existing =>
    if existing = encoded then .ok none
    else .error "immutable content manifest segment already exists with different data"

/-- `uniqueSchemaIDs`: the first occurrence of each. -/
def uniqueSchemaIDs (ids : List ID) : List ID :=
  ids.reverse.dedup.reverse

/-- `newReconciledRevisionPlan` -/
def newReconciledRevisionPlan (state : ReconciledState) : Result PublicationPlan := do
  let reconciled := input.reconciled
  let (manifestID, segments) ← reconciledManifest manifestHash reconciled.contentIDs
  let segmentPuts ← (segments.map (segmentPut store manifestID)).mapM id
  let revisionPut : List Mutation :=
    if state.revisionFound then [] else [(reconciled.revisionKey, reconciled.revisionValue)]
  .ok
    { puts := (∅ : Pending).putAll
        ((reconciled.currentKey, input.currentValue) :: revisionPut ++ segmentPuts.filterMap id)
      manifestID, segments
      oldUnique := uniqueSchemaIDs state.oldContent
      newUnique := uniqueSchemaIDs reconciled.contentIDs }

/-- `transactionReferenceCount`: the pending count, or the stored one, or none yet. -/
def transactionReferenceCount (puts : Pending) (blob : ID) : Result ReferenceCountRecord :=
  match puts.lookup (.referenceCount blob) with
  | some value => unmarshalReferenceCountRecord value
  | none =>
    match store.lookup (.referenceCount blob) with
    | some value => unmarshalReferenceCountRecord value
    | none => .ok {}

/-- A blob that the new content does not have any more. -/
def historicalInodePuts (puts : Pending) (blob : ID) : Result (List Mutation) := do
  let reverse ← marshalReverseInodeRecord ⟨input.reconciled.revision, .historical⟩
  let count ← transactionReferenceCount store puts blob
  let encoded ← marshalReferenceCountRecord
    { count with updateSequence := input.reconciled.revision }
  .ok [(.reverseInode blob input.fsid input.inode, reverse), (.referenceCount blob, encoded)]

/-- A blob of a manifest that the inode does not refer to any more. -/
def historicalManifestPuts (oldManifestID : ID) (_ : Pending) (blob : ID) :
    Result (List Mutation) :=
  match store.lookup (.reverseManifest blob oldManifestID) with
  | none => .ok []
  | some value => do
      let reverse ← unmarshalReverseManifestRecord value
      let encoded ← marshalReverseManifestRecord { reverse with state := .historical }
      .ok [(.reverseManifest blob oldManifestID, encoded)]

/-- `planHistoricalReferences` -/
def planHistoricalReferences (state : ReconciledState) (plan : PublicationPlan) (puts : Pending) :
    Result Pending := do
  let puts ← planEach (historicalInodePuts store input)
    (plan.oldUnique.filter fun id => id ∉ plan.newUnique) puts
  if state.oldManifestID = 0 ∨ state.oldManifestID = plan.manifestID then .ok puts
  else planEach (historicalManifestPuts store state.oldManifestID) plan.oldUnique puts

/-- A blob of the new content: one revision more, and one inode more if it is the first
of this inode with the blob. -/
def currentInodePuts (puts : Pending) (blob : ID) : Result (List Mutation) := do
  let reverseKey : Key := .reverseInode blob input.fsid input.inode
  let found := (store.lookup reverseKey).isSome
  let reverse ← marshalReverseInodeRecord ⟨input.reconciled.revision, .current⟩
  let count ← transactionReferenceCount store puts blob
  let occurrences := input.reconciled.contentIDs.count blob
  if maxUint64 - count.totalReferences < occurrences ∨ count.distinctRevisions = maxUint64 ∨
      (found = false ∧ count.distinctInodes = maxUint64) then
    .error "reference count overflow"
  else
    let encoded ← marshalReferenceCountRecord { count with
      totalReferences := count.totalReferences + occurrences
      distinctRevisions := count.distinctRevisions + 1
      distinctInodes := if found then count.distinctInodes else count.distinctInodes + 1
      updateSequence := input.reconciled.revision }
    .ok [(reverseKey, reverse), (.referenceCount blob, encoded)]

/-- `planCurrentManifestReference`: a blob of the new manifest, counted the first time. -/
def currentManifestPuts (manifestID : ID) (puts : Pending) (blob : ID) :
    Result (List Mutation) := do
  let reverseKey : Key := .reverseManifest blob manifestID
  let segment := input.reconciled.contentIDs.idxOf blob / defaultContentSegmentIDs
  let reverse ← marshalReverseManifestRecord ⟨segment, .current⟩
  if (store.lookup reverseKey).isSome then .ok [(reverseKey, reverse)]
  else
    let count ← transactionReferenceCount store puts blob
    if count.totalReferences = maxUint64 ∨ count.distinctManifests = maxUint64 then
      .error "reference count overflow"
    else
      let encoded ← marshalReferenceCountRecord { count with
        totalReferences := count.totalReferences + 1
        distinctManifests := count.distinctManifests + 1
        updateSequence := input.reconciled.revision }
      .ok [(reverseKey, reverse), (.referenceCount blob, encoded)]

/-- `planCurrentInodeReferences` -/
def planCurrentInodeReferences (plan : PublicationPlan) (puts : Pending) : Result Pending :=
  planEach (currentInodePuts store input) plan.newUnique puts

/-- `planCurrentManifestReferences` -/
def planCurrentManifestReferences (plan : PublicationPlan) (puts : Pending) : Result Pending :=
  if plan.segments = [] then .ok puts
  else planEach (currentManifestPuts store input plan.manifestID) plan.newUnique puts

/-- The debts that a publication settles; `now` is the clock. -/
def debtPuts (key : Key) : Result (Option Mutation) :=
  match store.lookup key with
  | none => .ok none
  | some value => do
      let debt ← unmarshalCrawlDebtRecord value
      let encoded ← marshalCrawlDebtRecord
        { debt with status := .resolved, errorClass := "", lastAttemptUnixNano := now }
      .ok (some (key, encoded))

/-- `planReconciledDebt` -/
def planReconciledDebt (reconciled : ReconciledRevision) (puts : Pending) :
    Result Pending := do
  let debts ← (reconciled.debtKeys.map (debtPuts now store)).mapM id
  .ok ((puts.putAll (debts.filterMap id)).putAll reconciled.relatedPuts)

/-- The creation delta of an inode that is seen for the first time. -/
def creationDelta (record : InodeRevision) (generation : UInt64) : Wire.AnalyticsDeltaRecord :=
  { kind := Wire.analyticsDeltaCreation
    fsid := UInt32.ofNat input.fsid, inode := UInt64.ofNat input.inode
    identityGeneration := UInt64.ofNat input.reconciled.revision
    revision := UInt64.ofNat input.reconciled.revision
    uid := UInt32.ofNat record.uid, gid := UInt32.ofNat record.gid
    known := UInt16.ofNat record.known.toNat, createdAt := Int64.ofInt now
    logicalSize := UInt64.ofNat record.size, creationBasis := Wire.analyticsFirstSeen
    identityContinuity := Wire.analyticsContinuityUnknown, state := Wire.analyticsLive
    retainedSnapshotRefs := 0, classificationEpoch := generation, svm := 0, volume := 0
    pathGroup := 0, referenceOperation := Wire.analyticsReferencesLegacy }

/-- The analytics metadata, where it is stored, decodes and is enabled. -/
def enabledAnalytics : Option Wire.AnalyticsMetadataRecord :=
  match store.lookup (.other Wire.analyticsMetadataKey) with
  | some (.raw data) =>
    match Wire.unmarshalAnalyticsMetadataRecord data with
    | .ok metadata => if metadata.enabled then some metadata else none
    | .error _ => none
  | _ => none

/-- `planReconciledAnalytics` -/
def planReconciledAnalytics (state : ReconciledState) (puts : Pending) : Result Pending :=
  if !input.isInode || state.currentFound then .ok puts
  else
    match enabledAnalytics store with
    | none => .ok puts
    | some metadata => do
        let record ← unmarshalInodeRevision input.reconciled.revisionValue
        let encoded ← (creationDelta now input record metadata.generation).marshalBinary
        let key := (Wire.analyticsDeltaKey (UInt64.ofNat input.reconciled.revision) 0).getD []
        .ok (puts.putAll [(.other key, .raw encoded)])

def checkHardlinkRefsRecord (record : HardlinkRefsRecord) : Option String :=
  if record.parents.length < 2 ∨ record.parents.length > 65535 then
    some "invalid hardlink state"
  else none

/-- `planReconciledHardlinks` -/
def planReconciledHardlinks (puts : Pending) : Result Pending := do
  let reconciled := input.reconciled
  if !reconciled.hasMultipleParents || decide (reconciled.hardlinkParents = []) then .ok puts
  else
    let encoded ← encode checkHardlinkRefsRecord .hardlinkRefs
      { fsid := input.fsid, inode := input.inode, revision := reconciled.revision
        parents := reconciled.hardlinkParents, freshness := .verified }
    .ok (puts.putAll [(.hardlinkRefs input.fsid input.inode reconciled.revision, encoded)])

/-- `planReconciledRevision`: the pending puts, or none where the revision is published. -/
def planReconciledRevision : Result (Option Pending) := do
  let state ← loadReconciledRevisionState manifestHash store input
  if state.noop then .ok none
  else
    let plan ← newReconciledRevisionPlan manifestHash store input state
    let puts ← planHistoricalReferences store input state plan plan.puts
    let puts ← planCurrentInodeReferences store input plan puts
    let puts ← planCurrentManifestReferences store input plan puts
    let puts ← planReconciledDebt now store input.reconciled puts
    let puts ← planReconciledAnalytics now store input state puts
    let puts ← planReconciledHardlinks input puts
    .ok (some puts)

/-! ## The publications -/

/-- `sortedReconciledMutations`; the order of puts under different keys is left out. -/
def reconciledMutations (puts : Pending) : List Mutation :=
  puts.entries.map fun entry => (entry.1, entry.2)

/-- `publishReconciledRevisionOnce`: a revision that is published is left alone. -/
def publishReconciledRevision (limits : Limits) (manifestHash : List ID → ID) (now : Int)
    (reconciled : ReconciledRevision) (store : SchemaStore) : Result SchemaStore := do
  let input ← prepareReconciledRevision reconciled
  let plan ← planReconciledRevision manifestHash now store input
  match plan with
  | none => .ok store
  | some puts => writeTransactionBatches limits store (reconciledMutations puts) []

/-! ## Allocated publications -/

/-- The key of the revision counter. -/
def nextRevisionKey : Key := .other Wire.nextRevisionKey

/-- The counter that a transaction reads; it starts at one. -/
def loadNextRevision : Result Nat :=
  match store.lookup nextRevisionKey with
  | none => .ok 1
  | some (.raw data) => (Wire.unmarshalNextRevision data).map UInt64.toNat
  | some _ => .error (malformed "unsupported or missing schema version")

end

/-- The put that advances the counter, in the arithmetic of the source. -/
def nextRevisionPut (next : Nat) : Result Mutation := do
  let encoded ← Wire.marshalNextRevision (UInt64.ofNat next)
  .ok (nextRevisionKey, .raw encoded)

section

variable (limits : Limits) (manifestHash : List ID → ID) (now : Int)

/-- `publishAllocatedReconciledRevisionOnce`: the revision and the store after. -/
def publishAllocatedReconciledRevision (build : Nat → Result ReconciledRevision)
    (store : SchemaStore) : Result (Nat × SchemaStore) := do
  let revision ← loadNextRevision store
  if revision = maxUint64 then .error "repository revision sequence exhausted"
  else
    let reconciled ← build revision
    if reconciled.revision ≠ revision then
      .error "publication does not use allocated revision"
    else
      let input ← prepareReconciledRevision reconciled
      let plan ← planReconciledRevision manifestHash now store input
      match plan with
      | none => .error "allocated revision already published"
      | some puts => do
          let counter ← nextRevisionPut (revision + 1)
          if (puts.lookup nextRevisionKey).isSome then
            .error "publication modifies revision allocation counter"
          else
            let written ← writeTransactionBatches limits store
              (reconciledMutations (puts.putAll [counter])) []
            .ok (revision, written)

/-- `MaxAllocatedPublicationGroupSize` -/
def maxAllocatedPublicationGroupSize : Nat := 64

/-- The input bytes of one request. -/
def publicationInputBytes (request : ReconciledRevision) : Nat :=
  request.revisionValue.encodedSize +
    (request.relatedPuts.map fun put => put.1.encodedSize + put.2.encodedSize).sum +
    (request.debtKeys.map Key.encodedSize).sum +
    (request.hardlinkParents.map fun parent => parent.name.length).sum

/-- The loop of `ValidateAllocatedPublicationGroupInputs`. -/
def checkGroupInputs (contentIDs inputBytes : Nat) : List ReconciledRevision → Result Unit
  | [] => .ok ()
  | request :: rest =>
    if request.relatedPuts.length > 1024 ∨ request.debtKeys.length > 1024 ∨
        request.hardlinkParents.length > 1024 then
      .error "publication group exceeds related metadata limit"
    else if contentIDs + request.contentIDs.length > 4096 ∨
        inputBytes + publicationInputBytes request > 8 * 2 ^ 20 then
      .error "publication group exceeds content or input byte limit"
    else
      checkGroupInputs (contentIDs + request.contentIDs.length)
        (inputBytes + publicationInputBytes request) rest

/-- `ValidateAllocatedPublicationGroupInputs` -/
def validateAllocatedPublicationGroupInputs (requests : List ReconciledRevision) : Result Unit :=
  if requests.length < 1 ∨ requests.length > maxAllocatedPublicationGroupSize then
    .error "publication group exceeds inode count limit"
  else checkGroupInputs 0 0 requests

/-- `validateAllocatedPublicationGroup` -/
def validateAllocatedPublicationGroup (requests : List ReconciledRevision) (first : Nat) :
    Result Unit :=
  if requests.map (·.revision) = (List.range requests.length).map (first + ·) ∧
      (requests.map (·.currentKey)).Nodup then
    validateAllocatedPublicationGroupInputs requests
  else .error "publication group has mismatched revisions or duplicate identities"

/-- One request of a group, planned and written inside the open transaction: the next one
reads what it wrote. -/
def publishGroupMember (store : SchemaStore) (request : ReconciledRevision) :
    Result SchemaStore := do
  let input ← prepareReconciledRevision request
  let plan ← planReconciledRevision manifestHash now store input
  match plan with
  | none => .error "allocated group revision already published"
  | some puts =>
    if (puts.lookup nextRevisionKey).isSome then
      .error "publication group modifies allocation counter"
    else writeTransactionBatches limits store (reconciledMutations puts) []

/-- `PublishAllocatedReconciledRevisionGroup`: the first revision and the store after. -/
def publishAllocatedReconciledRevisionGroup (count : Nat)
    (build : Nat → Result (List ReconciledRevision)) (store : SchemaStore) :
    Result (Nat × SchemaStore) := do
  if count < 1 ∨ count > maxAllocatedPublicationGroupSize then
    .error "allocated publication group requires 1 to 64 revisions and a builder"
  else
    let first ← loadNextRevision store
    if first > maxUint64 - count then .error "repository revision sequence exhausted"
    else
      let requests ← build first
      if requests.length ≠ count then
        .error "publication group does not match allocated count"
      else
        validateAllocatedPublicationGroup requests first
        let written ← requests.foldlM (publishGroupMember limits manifestHash now) store
        let counter ← nextRevisionPut (first + count)
        .ok (first, written.putAll [counter])

end

end Vaultic.Daemon
