/-
  Schema/Keys.lean  —  identifiers, enumerations and keys of the metadata store.

  Source: internal/index/schema/keys.go, keys_parse.go, records.go.

  A stored key is modelled by what `ParseKey` returns for it: its kind and its
  arguments.  The kinds that the modelled functions read or write have a
  constructor of their own; every other key is `other`, held as its bytes, so
  that prefix scans over unmodelled kinds can still be expressed.

  Identifiers are 32-byte strings.  They are bit vectors here, so that the
  byte order of the source (`bytes.Compare`) is the numeric order and the zero
  identifier is `0`.
-/
import Mathlib

set_option autoImplicit false

namespace Vaultic.Schema

/-- A 32-byte identifier: the SHA-256 of a blob, of a pack file, of a manifest. -/
abbrev ID := BitVec 256

instance : LawfulBEq ID := inferInstance

/-- A Go string: a sequence of bytes. -/
abbrev GoString := List UInt8

/-! ## Enumerations -/

/-- What a blob holds. -/
inductive BlobType where
  | data
  | tree
  deriving DecidableEq, Repr

/-- The position of a blob type in the order of the source's constants. -/
def BlobType.code : BlobType → Nat
  | .data => 1
  | .tree => 2

/-- A blob as snapshots reference it: the same identifier may exist as a data
blob and as a tree blob, and the two are different objects. -/
structure BlobHandle where
  id : ID
  type : BlobType
  deriving DecidableEq, Repr

/-- Which blobs a pack holds. -/
inductive PackType where
  | data
  | tree
  | mixed
  | unknown
  deriving DecidableEq, Repr

/-- The state of a pack in the catalog. -/
inductive PackLifecycle where
  | imported
  | published
  | exportPending
  | deletePending
  | deleted
  | orphaned
  | stateUnknown
  deriving DecidableEq, Repr

def PackLifecycle.code : PackLifecycle → Nat
  | .imported => 1
  | .published => 2
  | .exportPending => 3
  | .deletePending => 4
  | .deleted => 5
  | .orphaned => 6
  | .stateUnknown => 7

/-- Where the copies of a pack are. -/
inductive PackTier where
  | unknown
  | hot
  | cold
  | mirrored
  | single
  deriving DecidableEq, Repr

/-- Where a retention deadline comes from. -/
inductive RetentionSource where
  | unknown
  | config
  | backend
  deriving DecidableEq, Repr

/-- The state of a copy. -/
inductive PlacementState where
  | pending
  | live
  | evicting
  | evicted
  | failed
  deriving DecidableEq, Repr

/-- Why a pack replaced another. -/
inductive RepackLineageKind where
  | repack
  | promotion
  deriving DecidableEq, Repr, Inhabited

/-- The types that packs are summed up by. -/
inductive AggregateKind where
  | data
  | tree
  | mixed
  | unknown
  | all
  deriving DecidableEq, Repr

/-- What may be collected. -/
inductive GCTarget where
  | blob
  | pack
  deriving DecidableEq, Repr

/-- What an entry of a directory is. -/
inductive NodeType where
  | file
  | directory
  | symlink
  | other
  deriving DecidableEq, Repr

/-! ## Keys -/

/-- A key of the store, by kind and arguments. -/
inductive Key where
  /-- `b:` -/
  | blob (id : ID)
  /-- `p:` -/
  | pack (id : ID)
  /-- `a:pack:` -/
  | packAggregate (kind : AggregateKind)
  /-- `a:tier:` -/
  | tierAggregate (tier : PackTier)
  /-- `i:` -/
  | currentInode (fsid inode : Nat)
  /-- `iv:` -/
  | inodeRevision (fsid inode revision : Nat)
  /-- `d:` -/
  | currentDirectory (fsid inode : Nat)
  /-- `dv:` -/
  | directoryRevision (fsid inode revision : Nat)
  /-- `s:` -/
  | snapshot (id : ID)
  /-- `cm:` -/
  | contentManifest (id : ID) (segment : Nat)
  /-- `rm:` -/
  | reverseManifest (blob manifest : ID)
  /-- `ri:` -/
  | reverseInode (blob : ID) (fsid inode : Nat)
  /-- `rc:` -/
  | referenceCount (blob : ID)
  /-- `gc:b:` and `gc:p:` -/
  | garbageCollection (target : GCTarget) (id : ID)
  /-- `q:` -/
  | crawlDebt (snapshot work : ID)
  /-- `hr:` -/
  | hardlinkRefs (fsid inode revision : Nat)
  /-- `ph:` -/
  | packHistory (seconds sequence : Nat) (pack : ID)
  /-- `meta:next-event-seq` -/
  | nextEventSequence
  /-- `meta:history-enabled-at` -/
  | historyEnabledAt
  /-- `pl:` -/
  | packPlacement (pack : ID) (backend : Nat)
  /-- `bp:` -/
  | backendPack (backend : Nat) (pack : ID)
  /-- `dq:` -/
  | placementDeleteQueue (deleteAfter : Int) (pack : ID) (backend : Nat)
  /-- `pv:` -/
  | pathVersion (fsid : Nat) (path : GoString) (revision : Nat)
  /-- `rl:` -/
  | repackLineage (source successor : ID)
  /-- `dc:` -/
  | deletionCertificate (uid seconds : Nat) (runID : ID)
  /-- A key of a kind that no modelled function decodes. -/
  | other (bytes : GoString)
  deriving DecidableEq, Repr

/-! ## Path keys -/

/-- `MaxPathIndexPathBytes` -/
def maxPathIndexPathBytes : Nat := 4096

/-- `strings.TrimPrefix(path, "/")` -/
def trimSlash : GoString → GoString
  | 0x2f :: rest => rest
  | path => path

/-- `PathVersionKey`: no key exists for the empty path, for a path over the
limit and for a path that holds a zero byte. -/
def pathVersionKey (fsid : Nat) (path : GoString) (revision : Nat) : Option Key :=
  let path := trimSlash path
  if path = [] ∨ path.length > maxPathIndexPathBytes ∨ 0 ∈ path then none
  else some (.pathVersion fsid path revision)

/-- The bytes of `"overflow/"`. -/
def overflowDirectory : GoString :=
  [0x6f, 0x76, 0x65, 0x72, 0x66, 0x6c, 0x6f, 0x77, 0x2f]

/-- `PathOverflowKey`: the key of a path over the limit is made of a digest of
the path.  `digest` stands for the hexadecimal form of the first sixteen bytes
of its SHA-256. -/
def pathOverflowKey (digest : GoString → GoString) (fsid : Nat) (path : GoString)
    (revision : Nat) : Option Key :=
  pathVersionKey fsid (overflowDirectory ++ digest path) revision

end Vaultic.Schema
