/-
  Wire/StoreKeys.lean  —  the keys of the metadata store as bytes.

  The daemon holds a key by its kind and its arguments (`Schema.Key`) and counts its bytes
  with `Key.encodedSize`.  Here each key is written by its constructor of `keys.go`: the size
  is the length of its bytes, and both models have the same keys of paths.
-/
import Vaultic.Schema.Codec
import Vaultic.Wire.Keys

set_option autoImplicit false

namespace Vaultic.Wire

open Vaultic.Lib
open Vaultic.Schema (ID Key)

def aggregateByte : Schema.AggregateKind → AggregateKind
  | .data => aggregateData
  | .tree => aggregateTree
  | .mixed => aggregateMixed
  | .unknown => aggregateUnknown
  | .all => aggregateAll

def tierByte : Schema.PackTier → PackTier
  | .unknown => tierUnknown
  | .hot => tierHot
  | .cold => tierCold
  | .mirrored => tierMirrored
  | .single => tierSingle

/-- The bytes of a key, its numbers cut to their widths. -/
def keyBytes : Key → Bytes
  | .blob id => blobKey id
  | .pack id => packKey id
  | .packAggregate kind => packAggregateKey (aggregateByte kind)
  | .tierAggregate tier => (tierAggregateKey (tierByte tier)).getD []
  | .currentInode fsid inode => currentInodeKey (.ofNat fsid) (.ofNat inode)
  | .inodeRevision fsid inode revision =>
    inodeRevisionKey (.ofNat fsid) (.ofNat inode) (.ofNat revision)
  | .currentDirectory fsid inode => currentDirectoryKey (.ofNat fsid) (.ofNat inode)
  | .directoryRevision fsid inode revision =>
    directoryRevisionKey (.ofNat fsid) (.ofNat inode) (.ofNat revision)
  | .snapshot id => snapshotKey id
  | .contentManifest id segment => contentManifestKey id (.ofNat segment)
  | .reverseManifest blob manifest => reverseManifestKey blob manifest
  | .reverseInode blob fsid inode => reverseInodeKey blob (.ofNat fsid) (.ofNat inode)
  | .referenceCount blob => referenceCountKey blob
  | .garbageCollection .blob id => (garbageCollectionKey gcBlob id).getD []
  | .garbageCollection .pack id => (garbageCollectionKey gcPack id).getD []
  | .crawlDebt snapshot work => crawlDebtKey snapshot work
  | .hardlinkRefs fsid inode revision =>
    hardlinkRefsKey (.ofNat fsid) (.ofNat inode) (.ofNat revision)
  | .packHistory seconds sequence pack => packHistoryKey (.ofNat seconds) (.ofNat sequence) pack
  | .nextEventSequence => nextEventSequenceKey
  | .historyEnabledAt => historyEnabledAtKey
  | .packPlacement pack backend => packPlacementKey pack (.ofNat backend)
  | .backendPack backend pack => backendPackKey (.ofNat backend) pack
  | .placementDeleteQueue deleteAfter pack backend =>
    placementDeleteQueueKey (.ofInt deleteAfter) pack (.ofNat backend)
  -- The path of a stored key is trimmed, and is not to be trimmed again.
  | .pathVersion fsid path revision =>
    ascii "pv:" ++ (be32 (.ofNat fsid) ++ (path ++ ([0] ++ be64 (.ofNat revision))))
  | .repackLineage source successor => repackLineageKey source successor
  | .deletionCertificate uid seconds runID =>
    deletionCertificateKey (.ofNat uid) (.ofNat seconds) runID
  | .other bytes => bytes

theorem length_keyBytes (key : Key) : (keyBytes key).length = key.encodedSize := by
  cases key with
  | packAggregate kind => cases kind <;> rfl
  | tierAggregate tier => cases tier <;> rfl
  | garbageCollection target id => cases target <;> rfl
  | pathVersion fsid path revision =>
    simp +arith [keyBytes, Key.encodedSize, ascii]
  | _ => rfl

section

variable (fsid : Nat) (path : Bytes) (revision : Nat)

theorem keyBytes_pathVersionKey :
    (Schema.pathVersionKey fsid path revision).map keyBytes =
      pathVersionKey (.ofNat fsid) path (.ofNat revision) := by
  have htrim : Schema.trimSlash path = trimPrefix 47 path := by
    unfold Schema.trimSlash trimPrefix
    cases path with
    | nil => rfl
    | cons byte rest => by_cases hbyte : byte = 47 <;> simp [hbyte]
  unfold Schema.pathVersionKey
  rw [htrim]
  refine (apply_ite (Option.map keyBytes) _ _ _).trans (if_congr ?_ rfl rfl)
  simp [or_assoc, Schema.maxPathIndexPathBytes, maxPathIndexPathBytes]

theorem keyBytes_pathOverflowKey (sha256 : Bytes → ID) :
    (Schema.pathOverflowKey (fun path => hexEncode ((idBytes (sha256 path)).take 16)) fsid path
      revision).map keyBytes = pathOverflowKey sha256 (.ofNat fsid) path (.ofNat revision) :=
  keyBytes_pathVersionKey fsid (overflowPath sha256 path) revision

end

end Vaultic.Wire
