/-
  Wire/Metadata.lean  —  the records of references, collection, debts and checkpoints
  (`internal/index/schema/metadata.go`).

  A receipt of a legacy import holds encoded pack records and history events, which the
  writer and the reader decode to check them.
-/
import Vaultic.Wire.History

set_option autoImplicit false

namespace Vaultic.Wire

open Vaultic.Lib
open Vaultic.Schema (ID)

/-! ## References -/

/-- Whether the current content refers to a blob, or an older one. -/
abbrev ReferenceState := UInt8

def referenceCurrent : ReferenceState := 1
def referenceUnresolved : ReferenceState := 3

def validReferenceState (state : ReferenceState) : Bool :=
  referenceCurrent ≤ state && state ≤ referenceUnresolved

/-- A reference to a blob from a manifest. -/
structure ReverseManifestRecord where
  segment : UInt32
  state : ReferenceState

def ReverseManifestRecord.marshalBinary (record : ReverseManifestRecord) : Result Bytes := do
  rejected (!validReferenceState record.state) "invalid reference state"
  encoded do
    Put.u32 record.segment
    Put.u8 record.state

def unmarshalReverseManifestRecord : Bytes → Result ReverseManifestRecord := decoded do
  let segment ← Get.u32
  let state ← named (malformed "invalid reference state") Get.u8
  reject (!validReferenceState state) "invalid reference state"
  Get.done
  pure { segment, state }

theorem ReverseManifestRecord.unmarshal_marshalBinary :
    ReadsBack marshalBinary unmarshalReverseManifestRecord :=
  readsBack_checked fun _ hvalid =>
    .bind .u32 <| .last (.named .u8) <| .checkRead hvalid .done

/-- A reference to a blob from an inode. -/
structure ReverseInodeRecord where
  latestRevision : UInt64
  state : ReferenceState

def ReverseInodeRecord.marshalBinary (record : ReverseInodeRecord) : Result Bytes := do
  rejected (record.latestRevision == 0 || !validReferenceState record.state)
    "invalid reverse inode record"
  encoded do
    Put.u64 record.latestRevision
    Put.u8 record.state

def unmarshalReverseInodeRecord : Bytes → Result ReverseInodeRecord := decoded do
  let latestRevision ← Get.u64
  let state ← named (malformed "invalid reverse inode record") Get.u8
  reject (latestRevision == 0 || !validReferenceState state) "invalid reverse inode record"
  Get.done
  pure { latestRevision, state }

theorem ReverseInodeRecord.unmarshal_marshalBinary :
    ReadsBack marshalBinary unmarshalReverseInodeRecord :=
  readsBack_checked fun _ hvalid =>
    .bind .u64 <| .last (.named .u8) <| .checkRead hvalid .done

/-- The references to a blob, counted. -/
structure ReferenceCountRecord where
  (totalReferences distinctInodes distinctRevisions distinctManifests reachableSnapshots : UInt64)
  updateSequence : UInt64

def ReferenceCountRecord.marshalBinary (record : ReferenceCountRecord) : Result Bytes :=
  encoded do
    Put.u64 record.totalReferences
    Put.u64 record.distinctInodes
    Put.u64 record.distinctRevisions
    Put.u64 record.distinctManifests
    Put.u64 record.reachableSnapshots
    Put.u64 record.updateSequence

def unmarshalReferenceCountRecord : Bytes → Result ReferenceCountRecord := decoded do
  let totalReferences ← Get.u64
  let distinctInodes ← Get.u64
  let distinctRevisions ← Get.u64
  let distinctManifests ← Get.u64
  let reachableSnapshots ← Get.u64
  let updateSequence ← Get.u64
  Get.done
  pure { totalReferences, distinctInodes, distinctRevisions, distinctManifests,
         reachableSnapshots, updateSequence }

theorem ReferenceCountRecord.unmarshal_marshalBinary :
    ReadsBack marshalBinary unmarshalReferenceCountRecord := by
  intro record data h
  refine decoded_encoded h ?_
  exact .bind .u64 <| .bind .u64 <| .bind .u64 <| .bind .u64 <| .bind .u64 <| .last .u64 .done

/-! ## Collection and debts -/

/-- How far a candidate has come. -/
abbrev GCState := UInt8

def gcCandidate : GCState := 1
def gcRejected : GCState := 4

/-- A candidate for collection, and since when. -/
structure GarbageCollectionRecord where
  state : GCState
  observedCommit : UInt64
  discoveredUnixNano : Int64
  revalidatedCommit : UInt64

def GarbageCollectionRecord.marshalBinary (record : GarbageCollectionRecord) :
    Result Bytes := do
  rejected (record.state < gcCandidate || record.state > gcRejected)
    "invalid garbage-collection state"
  encoded do
    Put.u8 record.state
    Put.u64 record.observedCommit
    Put.i64 record.discoveredUnixNano
    Put.u64 record.revalidatedCommit

def unmarshalGarbageCollectionRecord : Bytes → Result GarbageCollectionRecord := decoded do
  let state ← Get.u8
  let observedCommit ← Get.u64
  let discoveredUnixNano ← Get.i64
  let revalidatedCommit ← Get.u64
  reject (state < gcCandidate || state > gcRejected) "invalid garbage-collection state"
  Get.done
  pure { state, observedCommit, discoveredUnixNano, revalidatedCommit }

theorem GarbageCollectionRecord.unmarshal_marshalBinary :
    ReadsBack marshalBinary unmarshalGarbageCollectionRecord :=
  readsBack_checked fun _ hvalid =>
    .bind .u8 <| .bind .u64 <| .bind .i64 <| .last .u64 <| .checkRead hvalid .done

/-- Why a crawl has left work. -/
abbrev DebtReason := UInt8

def debtMissingInode : DebtReason := 1
def debtUnavailablePack : DebtReason := 5

/-- Whether the work was done since. -/
abbrev DebtStatus := UInt8

def debtPending : DebtStatus := 1
def debtFailed : DebtStatus := 3

/-- Work that a crawl has left. -/
structure CrawlDebtRecord where
  sourceIndexOrPack : ID
  sourceKnown : Bool
  pathOrTree : Bytes
  reason : DebtReason
  retryCount : UInt32
  lastAttemptUnixNano : Int64
  status : DebtStatus
  errorClass : Bytes

namespace CrawlDebtRecord

def invalid (reason : DebtReason) (status : DebtStatus) : Bool :=
  reason < debtMissingInode || reason > debtUnavailablePack || status < debtPending ||
    status > debtFailed

def marshalBinary (record : CrawlDebtRecord) : Result Bytes := do
  rejected (invalid record.reason record.status) "invalid crawl-debt state"
  encoded do
    Put.id record.sourceIndexOrPack
    Put.bool record.sourceKnown
    Put.bytes record.pathOrTree
    Put.u8 record.reason
    Put.u32 record.retryCount
    Put.i64 record.lastAttemptUnixNano
    Put.u8 record.status
    Put.string record.errorClass

end CrawlDebtRecord

def unmarshalCrawlDebtRecord : Bytes → Result CrawlDebtRecord := decoded do
  let sourceIndexOrPack ← Get.id
  let sourceKnown ← Get.bool
  let pathOrTree ← Get.bytes
  let reason ← Get.u8
  let retryCount ← Get.u32
  let lastAttemptUnixNano ← Get.i64
  let status ← Get.u8
  let errorClass ← Get.string
  reject (CrawlDebtRecord.invalid reason status) "invalid crawl-debt state"
  Get.done
  pure { sourceIndexOrPack, sourceKnown, pathOrTree, reason, retryCount, lastAttemptUnixNano,
         status, errorClass }

theorem CrawlDebtRecord.unmarshal_marshalBinary :
    ReadsBack marshalBinary unmarshalCrawlDebtRecord :=
  readsBack_checked fun _ hvalid =>
    .bind .id <| .bind .bool <| .bind .bytes <| .bind .u8 <| .bind .u32 <| .bind .i64 <|
    .bind .u8 <| .last .string <| .checkRead hvalid .done

/-! ## Imports -/

/-- What an import took from one index. -/
structure ImportCheckpointRecord where
  (packsImported blobsImported errorsSeen : UInt64)

def ImportCheckpointRecord.marshalBinary (record : ImportCheckpointRecord) : Result Bytes :=
  encoded do
    Put.u64 record.packsImported
    Put.u64 record.blobsImported
    Put.u64 record.errorsSeen

def unmarshalImportCheckpointRecord : Bytes → Result ImportCheckpointRecord := decoded do
  let packsImported ← Get.u64
  let blobsImported ← Get.u64
  let errorsSeen ← Get.u64
  Get.done
  pure { packsImported, blobsImported, errorsSeen }

theorem ImportCheckpointRecord.unmarshal_marshalBinary :
    ReadsBack marshalBinary unmarshalImportCheckpointRecord :=
  readsBack fun _ =>
    .bind .u64 <| .bind .u64 <| .last .u64 .done

/-- What an import took from one snapshot. -/
structure SnapshotImportCheckpointRecord where
  (treesVisited nodesImported debtsCreated : UInt64)

def SnapshotImportCheckpointRecord.marshalBinary (record : SnapshotImportCheckpointRecord) :
    Result Bytes :=
  encoded do
    Put.u64 record.treesVisited
    Put.u64 record.nodesImported
    Put.u64 record.debtsCreated

def unmarshalSnapshotImportCheckpointRecord : Bytes → Result SnapshotImportCheckpointRecord :=
  decoded do
    let treesVisited ← Get.u64
    let nodesImported ← Get.u64
    let debtsCreated ← Get.u64
    Get.done
    pure { treesVisited, nodesImported, debtsCreated }

theorem SnapshotImportCheckpointRecord.unmarshal_marshalBinary :
    ReadsBack marshalBinary unmarshalSnapshotImportCheckpointRecord :=
  readsBack fun _ =>
    .bind .u64 <| .bind .u64 <| .last .u64 .done

/-- A pack record before and after a batch. -/
structure LegacyImportPackChange where
  packID : ID
  (old current : Bytes)

/-- An event that a batch has still to append. -/
structure LegacyImportEvent where
  packID : ID
  value : Bytes

/-- What a batch took from one index. -/
structure LegacyImportIndexTally where
  sourceIndex : ID
  (packsImported blobsImported errorsSeen : UInt64)

/-- The receipt of one batch of an import. -/
structure LegacyImportReceiptRecord where
  (contentHash sourceIndex : ID)
  (packsImported blobsImported errorsSeen : UInt64)
  reduced : Bool
  changes : List LegacyImportPackChange
  events : List LegacyImportEvent
  indexTallies : List LegacyImportIndexTally

namespace LegacyImportReceiptRecord

/-- Both encoded pack records of a change decode; there may be no old one. -/
def checkPacks (change : LegacyImportPackChange) : Result Unit := do
  if !change.old.isEmpty then
    let _ ← unmarshalPackRecord change.old
  let _ ← unmarshalPackRecord change.current

def checkEvent (event : LegacyImportEvent) : Result Unit := do
  let _ ← unmarshalPackHistoryEvent event.value

def writeChange (change : LegacyImportPackChange) : Encoder := do
  reject (change.packID == 0 || change.current.isEmpty) "invalid legacy import receipt change"
  check (checkPacks change)
  Put.id change.packID
  Put.bytes change.old
  Put.bytes change.current

def writeEvent (event : LegacyImportEvent) : Encoder := do
  reject (event.packID == 0) "invalid legacy import receipt event"
  check (checkEvent event)
  Put.id event.packID
  Put.bytes event.value

def writeTally (tally : LegacyImportIndexTally) : Encoder := do
  reject (tally.sourceIndex == 0) "invalid legacy import receipt index tally"
  Put.id tally.sourceIndex
  Put.u64 tally.packsImported
  Put.u64 tally.blobsImported
  Put.u64 tally.errorsSeen

def writeTallies (tallies : List LegacyImportIndexTally) : Encoder := do
  Put.u32 (UInt32.ofNat tallies.length)
  writeEach writeTally tallies

def marshalBinary (record : LegacyImportReceiptRecord) : Result Bytes := do
  rejected (record.contentHash == 0 || record.sourceIndex == 0 || record.changes.length > 256 ||
    record.events.length > 1024) "invalid legacy import receipt"
  encoded do
    Put.id record.contentHash
    Put.id record.sourceIndex
    Put.u64 record.packsImported
    Put.u64 record.blobsImported
    Put.u64 record.errorsSeen
    Put.bool record.reduced
    Put.u32 (UInt32.ofNat record.changes.length)
    writeEach writeChange record.changes
    Put.u32 (UInt32.ofNat record.events.length)
    writeEach writeEvent record.events
    reject (record.indexTallies.length > 256) "too many legacy import receipt index tallies"
    writeTallies record.indexTallies

def readChange : Decoder LegacyImportPackChange := do
  let packID ← Get.id
  let old ← Get.bytes
  let current ← Get.bytes
  let change : LegacyImportPackChange := { packID, old, current }
  reject (packID == 0 || current.isEmpty) "invalid legacy import receipt change"
  check (checkPacks change)
  pure change

def readEvent : Decoder LegacyImportEvent := do
  let packID ← Get.id
  let value ← Get.bytes
  let event : LegacyImportEvent := { packID, value }
  reject (packID == 0) "invalid legacy import receipt event"
  check (checkEvent event)
  pure event

def readTally : Decoder LegacyImportIndexTally := do
  let sourceIndex ← Get.id
  let packsImported ← Get.u64
  let blobsImported ← Get.u64
  let errorsSeen ← Get.u64
  reject (sourceIndex == 0) "invalid legacy import receipt index tally"
  pure { sourceIndex, packsImported, blobsImported, errorsSeen }

def readTallies : Decoder (List LegacyImportIndexTally) := do
  let count ← named (malformed "invalid legacy import receipt index tallies") Get.u32
  reject (count > 256) "invalid legacy import receipt index tallies"
  readEach readTally count.toNat

end LegacyImportReceiptRecord

def unmarshalLegacyImportReceiptRecord : Bytes → Result LegacyImportReceiptRecord :=
  decoded do
    let contentHash ← Get.id
    let sourceIndex ← Get.id
    let packsImported ← Get.u64
    let blobsImported ← Get.u64
    let errorsSeen ← Get.u64
    let reduced ← Get.bool
    let changeCount ← named (malformed "invalid legacy import receipt changes") Get.u32
    reject (changeCount > 256) "invalid legacy import receipt changes"
    let changes ← readEach LegacyImportReceiptRecord.readChange changeCount.toNat
    let eventCount ← named (malformed "invalid legacy import receipt events") Get.u32
    reject (eventCount > 1024) "invalid legacy import receipt events"
    let events ← readEach LegacyImportReceiptRecord.readEvent eventCount.toNat
    let indexTallies ← orDefault [] LegacyImportReceiptRecord.readTallies
    reject (contentHash == 0 || sourceIndex == 0) "invalid legacy import receipt"
    Get.done
    pure { contentHash, sourceIndex, packsImported, blobsImported, errorsSeen, reduced, changes,
           events, indexTallies }

namespace LegacyImportReceiptRecord

theorem readChange_roundTrips (change : LegacyImportPackChange) (rest : Bytes) :
    RoundTrips rest (writeChange change) readChange change :=
  .checkWrite fun hchange => .checkWrite fun hpacks => .bind .id <|
    .bind .bytes <| .last .bytes <| .checkRead hchange <| .checkRead hpacks .pure

theorem readEvent_roundTrips (event : LegacyImportEvent) (rest : Bytes) :
    RoundTrips rest (writeEvent event) readEvent event :=
  .checkWrite fun hevent => .checkWrite fun hvalue => .bind .id <|
    .last .bytes <| .checkRead hevent <| .checkRead hvalue .pure

theorem readTally_roundTrips (tally : LegacyImportIndexTally) (rest : Bytes) :
    RoundTrips rest (writeTally tally) readTally tally :=
  .checkWrite fun hindex => .bind .id <| .bind .u64 <|
    .bind .u64 <| .last .u64 <| .checkRead hindex .pure

/-- A list the writer bounds passes the reader's bound. -/
theorem count_rejected {length : Nat} {bound : UInt32} {text : String}
    (hbound : bound.toNat ≤ maxEncodedValueBytes) (h : length ≤ bound.toNat) :
    rejected (UInt32.ofNat length > bound) text = .ok () := by
  rw [rejected_eq_ok, decide_eq_false_iff_not, gt_iff_lt, UInt32.lt_iff_toNat_lt,
    toNat_count (h.trans hbound)]
  omega

theorem readTallies_roundTrips {tallies : List LegacyImportIndexTally}
    (h : tallies.length ≤ 256) (rest : Bytes) :
    RoundTrips rest (writeTallies tallies) (orDefault [] readTallies) tallies := by
  have happends : Appends (writeTallies tallies) (4 + tallies.length * 56) :=
    .bind .u32 <| .eachOf (fun _ => .checked <| .bind .id <| .bind .u64 <|
      .bind .u64 .u64) tallies
  refine .orDefault happends (by omega) ?_
  exact .bind (.named .u32) <| .checkRead (count_rejected (by decide) h) <|
    .counted (toNat_count (h.trans (by decide))) fun tally _ => readTally_roundTrips tally

theorem unmarshal_marshalBinary : ReadsBack marshalBinary unmarshalLegacyImportReceiptRecord := by
  intro record data h
  obtain ⟨⟨⟩, hreceipt, hencoded⟩ := of_bind h
  have hreceipt := rejected_eq_ok.mp hreceipt
  simp only [Bool.or_eq_false_iff, decide_eq_false_iff_not, not_lt] at hreceipt
  obtain ⟨⟨⟨hhash, hsource⟩, hchanges⟩, hevents⟩ := hreceipt
  refine decoded_encoded hencoded ?_
  refine .bind .id <| .bind .id <| .bind .u64 <|
    .bind .u64 <| .bind .u64 <| .bind .bool <| .bind (.named .u32) <|
    .checkRead (count_rejected (by decide) hchanges) <|
    .bind (.counted (toNat_count (hchanges.trans (by decide))) fun change _ =>
      readChange_roundTrips change) <|
    .bind (.named .u32) <| .checkRead (count_rejected (by decide) hevents) <|
    .bind (.counted (toNat_count (hevents.trans (by decide))) fun event _ =>
      readEvent_roundTrips event) <|
    .checkWrite fun htallies => ?_
  rw [rejected_eq_ok, decide_eq_false_iff_not, not_lt] at htallies
  refine .last (readTallies_roundTrips htallies _) <| .checkRead ?_ .done
  rw [rejected_eq_ok, Bool.or_eq_false_iff]
  exact ⟨hhash, hsource⟩

end LegacyImportReceiptRecord

/-! ## Exports -/

def validExportRoot (key : Bytes) : Bool :=
  match parseKey key with
  | .error _ => false
  | .ok parsed => parsed.kind == .directoryRevision && parsed.revision != 0

/-- A snapshot by its commit. -/
structure SnapshotCommitRecord where
  snapshotTimeUnixNano : Int64
  rootKey : Bytes

def SnapshotCommitRecord.marshalBinary (record : SnapshotCommitRecord) : Result Bytes := do
  rejected (!validExportRoot record.rootKey) "invalid snapshot commit root"
  encoded do
    Put.i64 record.snapshotTimeUnixNano
    Put.bytes record.rootKey

def unmarshalSnapshotCommitRecord : Bytes → Result SnapshotCommitRecord := decoded do
  let snapshotTimeUnixNano ← Get.i64
  let rootKey ← Get.bytes
  reject (!validExportRoot rootKey) "invalid snapshot commit root"
  Get.done
  pure { snapshotTimeUnixNano, rootKey }

theorem SnapshotCommitRecord.unmarshal_marshalBinary :
    ReadsBack marshalBinary unmarshalSnapshotCommitRecord := by
  intro record data h
  obtain ⟨⟨⟩, hroot, hencoded⟩ := of_bind h
  refine decoded_encoded hencoded ?_
  exact .bind .i64 <| .last .bytes <| .checkRead hroot .done

/-- The state of an export. -/
abbrev ExportState := UInt8

def exportPending : ExportState := 1
def exportComplete : ExportState := 2
def exportFailed : ExportState := 3

/-- How far the export of a snapshot has come. -/
structure ExportCheckpointRecord where
  state : ExportState
  commitSequence : UInt64
  attempts : UInt32
  (rootKey lastError : Bytes)

namespace ExportCheckpointRecord

def invalid (record : ExportCheckpointRecord) : Bool :=
  record.state < exportPending || record.state > exportFailed ||
    (record.state == exportPending && record.commitSequence != 0) ||
    (record.state == exportComplete &&
      (record.commitSequence == 0 || !record.lastError.isEmpty)) ||
    (record.state == exportFailed && (record.commitSequence != 0 || record.lastError.isEmpty)) ||
    !validExportRoot record.rootKey

def marshalBinary (record : ExportCheckpointRecord) : Result Bytes := do
  rejected record.invalid "invalid export checkpoint"
  encoded do
    Put.u8 record.state
    Put.u64 record.commitSequence
    Put.u32 record.attempts
    Put.bytes record.rootKey
    Put.string record.lastError

end ExportCheckpointRecord

def unmarshalExportCheckpointRecord : Bytes → Result ExportCheckpointRecord := decoded do
  let state ← Get.u8
  let commitSequence ← Get.u64
  let attempts ← Get.u32
  let rootKey ← Get.bytes
  let lastError ← Get.string
  let record : ExportCheckpointRecord := { state, commitSequence, attempts, rootKey, lastError }
  reject record.invalid "invalid export checkpoint"
  Get.done
  pure record

theorem ExportCheckpointRecord.unmarshal_marshalBinary :
    ReadsBack marshalBinary unmarshalExportCheckpointRecord :=
  readsBack_checked fun _ hvalid =>
    .bind .u8 <| .bind .u64 <| .bind .u32 <| .bind .bytes <| .last .string <|
    .checkRead hvalid .done

/-- The packs of an exported index. -/
structure ExportIndexCheckpointRecord where
  sequence : UInt64
  packIDs : List ID

/-- `id == (ID{}) || (index > 0 && bytes.Compare(previous[:], id[:]) >= 0)` -/
def outOfOrder (previous : Option ID) (id : ID) : Bool :=
  id == 0 || previous.any fun before => before ≥ id

namespace ExportIndexCheckpointRecord

def writePack (previous : Option ID) (id : ID) : Encoder := do
  reject (outOfOrder previous id) "export pack IDs are not uniquely sorted"
  Put.id id

def marshalBinary (record : ExportIndexCheckpointRecord) : Result Bytes := do
  rejected (record.sequence == 0 || record.packIDs.isEmpty) "invalid export index checkpoint"
  encoded do
    Put.u64 record.sequence
    Put.u32 (UInt32.ofNat record.packIDs.length)
    writeChain writePack none record.packIDs

def readPack (previous : Option ID) : Decoder ID := do
  let id ← Get.id
  reject (outOfOrder previous id) "export pack IDs are not uniquely sorted"
  pure id

end ExportIndexCheckpointRecord

def unmarshalExportIndexCheckpointRecord : Bytes → Result ExportIndexCheckpointRecord :=
  decoded do
    let sequence ← named (malformed "invalid export sequence") Get.u64
    reject (sequence == 0) "invalid export sequence"
    let count ← named (malformed "invalid export pack count") Get.u32
    reject (count == 0) "invalid export pack count"
    let packIDs ← readChain ExportIndexCheckpointRecord.readPack none count.toNat
    Get.done
    pure { sequence, packIDs }

namespace ExportIndexCheckpointRecord

theorem unmarshal_marshalBinary : ReadsBack marshalBinary unmarshalExportIndexCheckpointRecord := by
  intro record data h
  obtain ⟨⟨⟩, hvalid, hencoded⟩ := of_bind h
  have hvalid := rejected_eq_ok.mp hvalid
  rw [Bool.or_eq_false_iff] at hvalid
  obtain ⟨hlength, hmax⟩ := length_of_encoded hencoded <| .bind .u64 <| .bind .u32 <|
    .chainOf (fun _ _ => .checked .id) record.packIDs none
  have hle : record.packIDs.length ≤ maxEncodedValueBytes := by omega
  refine decoded_encoded hencoded ?_
  refine .bind (.named .u64) <| .checkRead (rejected_eq_ok.mpr hvalid.1) <|
    .bind (.named .u32) <| .checkRead ?_ <| .last (.countedChain (toNat_count hle) fun _ _ _ =>
      .checkWrite fun horder => .last .id <| .checkRead horder .pure) .done
  rw [rejected_eq_ok, beq_eq_false_iff_ne, ne_eq, count_eq_zero_iff hle]
  simpa using hvalid.2

end ExportIndexCheckpointRecord

/-! ## Counters -/

/-- `MarshalNextRevision`, which the other counters use as well. -/
def marshalNextRevision (next : UInt64) : Result Bytes := do
  rejected (next == 0) "next revision must be non-zero"
  pure (version :: be64 next)

def unmarshalNextRevision : Bytes → Result UInt64 := decoded do
  let value ← Get.u64
  reject (value == 0) "next revision must be non-zero"
  Get.done
  pure value

theorem unmarshal_marshalNextRevision {next : UInt64} {data : Bytes}
    (h : marshalNextRevision next = .ok data) : unmarshalNextRevision data = .ok next := by
  obtain ⟨⟨⟩, hvalid, hdata⟩ := of_bind h
  have hencoded : encoded (Put.u64 next) = .ok data := by
    obtain rfl : version :: be64 next = data := Except.ok.inj hdata
    rfl
  refine decoded_encoded hencoded ?_
  exact .last .u64 <| .checkRead hvalid .done

theorem unmarshalNextRevision_ne_zero {data : Bytes} {next : UInt64}
    (h : unmarshalNextRevision data = .ok next) : next ≠ 0 := by
  unfold unmarshalNextRevision decoded at h
  obtain ⟨left, hread⟩ := decoded_inv h
  obtain ⟨value, rest, -, hread⟩ := bind_run_eq_ok hread
  obtain ⟨⟨⟩, rest, hreject, hread⟩ := bind_run_eq_ok hread
  obtain ⟨⟨⟩, rest, -, hread⟩ := bind_run_eq_ok hread
  cases hread
  exact beq_eq_false_iff_ne.mp (reject_run_eq_ok hreject)

end Vaultic.Wire
