/-
  Repository/GC/Scan.lean  —  what a garbage collection reads from the catalog.

  Source: internal/repository/gc.go (`scanReferencedDataBlobs`, `scanPacks`,
  `scanBlobCatalog`, `scanGCPlacements`, `loadExistingGCTimestamps`).

  The blob scan keeps one type for each blob ID, that of the location it visited
  last.  A blob ID that is stored both as data and as a tree has locations of both
  types, and the scan forgets one of them.
-/
import Vaultic.Daemon.Usage

set_option autoImplicit false

namespace Vaultic.Repository

open Vaultic.Lib Vaultic.Schema Vaultic.Daemon

/-! ## The scans -/

/-- The maps that `scanBlobCatalog` fills. -/
structure BlobCatalog where
  blobTypes : Table ID BlobType := ∅
  packMembers : Table ID (List ID) := ∅
  packMemberBytes : Table ID (List (ID × Nat)) := ∅
  seen : Finset (ID × ID) := ∅

section

variable (catalog : BlobCatalog) (store : SchemaStore)

/-- `scanReferencedDataBlobs`: the blobs with a reverse reference. -/
def scanReferencedDataBlobs : List ID :=
  store.scan fun key _ =>
    match key with
    | .reverseInode blob _ _ => some blob
    | .reverseManifest blob _ => some blob
    | _ => none

/-- `scanPacks` -/
def scanPacks : Result (List (ID × PackRecord)) :=
  store.collectBy (fun | .pack pack => some pack | _ => none) unmarshalPackRecord

/-- The blob records that `scanBlobCatalog` visits. -/
def scanBlobRecords : Result (List (ID × BlobRecord)) :=
  store.collectBy (fun | .blob blob => some blob | _ => none) unmarshalBlobRecord

/-- `packMembers[pack]`, empty for a pack without members. -/
def BlobCatalog.members (pack : ID) : List ID :=
  (catalog.packMembers.lookup pack).getD []

/-- `packMemberBytes[pack]` -/
def BlobCatalog.memberBytes (pack : ID) : List (ID × Nat) :=
  (catalog.packMemberBytes.lookup pack).getD []

/-- One location of `scanBlobCatalog`.  The type is recorded before the membership
is found to be a duplicate. -/
def scanLocation (blob : ID) (location : BlobLocation) : BlobCatalog :=
  let blobTypes := catalog.blobTypes.insert blob location.type
  if (location.packID, blob) ∈ catalog.seen then { catalog with blobTypes }
  else
    { blobTypes
      packMembers := catalog.packMembers.insert location.packID
        (catalog.members location.packID ++ [blob])
      packMemberBytes := catalog.packMemberBytes.insert location.packID
        (catalog.memberBytes location.packID ++ [(blob, location.length)])
      seen := insert (location.packID, blob) catalog.seen }

/-- One blob record of `scanBlobCatalog`. -/
def scanBlob (entry : ID × BlobRecord) : BlobCatalog :=
  entry.2.locations.foldl (fun acc location => scanLocation acc entry.1 location) catalog

/-- `scanBlobCatalog` -/
def scanBlobCatalog : Result BlobCatalog := do
  let records ← scanBlobRecords store
  .ok (records.foldl scanBlob {})

/-- `scanGCPlacements`: the placements of every pack, by pack and backend. -/
def scanGCPlacements : Result (List ((ID × Nat) × PlacementRecord)) :=
  store.collectBy (fun | .packPlacement pack backend => some (pack, backend) | _ => none)
    unmarshalPlacementRecord

/-- `loadExistingGCTimestamps`: the record of every candidate found before, which
holds when it was discovered. -/
def loadExistingGCTimestamps : Result (List ((GCTarget × ID) × GarbageCollectionRecord)) :=
  store.collectBy (fun | .garbageCollection target id => some (target, id) | _ => none)
    unmarshalGarbageCollectionRecord

/-! ## What the blob scan has seen -/

/-- The one type the scan keeps for a blob: that of its last location. -/
def scannedType (blob : ID) : Option BlobType :=
  (storedBlob store blob).bind fun record => record.locations.getLast?.map (·.type)

end

variable {store : SchemaStore}

theorem exists_scannedType_of_located {handle : BlobHandle} {pack : ID}
    (h : Located store handle pack) : ∃ type, scannedType store handle.id = some type := by
  obtain ⟨record, hstored, location, hmem, -⟩ := located_iff_storedBlob.mp h
  unfold scannedType
  rw [hstored, Option.bind_some]
  cases hlast : record.locations.getLast? with
  | none => simp [List.getLast?_eq_none_iff.mp hlast] at hmem
  | some last => exact ⟨last.type, rfl⟩

/-- The invariant of the scan's bookkeeping: the membership set, the member lists
and their lack of duplicates say the same. -/
structure BlobCatalog.Consistent (catalog : BlobCatalog) : Prop where
  seen : ∀ pack blob, (pack, blob) ∈ catalog.seen ↔ blob ∈ catalog.members pack
  nodup : ∀ pack, (catalog.members pack).Nodup

theorem BlobCatalog.consistent_empty : BlobCatalog.Consistent {} :=
  ⟨by simp [members], by simp [members]⟩

theorem lookup_blobTypes_scanLocation (catalog : BlobCatalog) (blob other : ID)
    (location : BlobLocation) :
    (scanLocation catalog blob location).blobTypes.lookup other =
      if other = blob then some location.type else catalog.blobTypes.lookup other := by
  have hinsert := Table.lookup_insert_eq catalog.blobTypes blob other location.type
  unfold scanLocation
  split <;> simpa [eq_comm] using hinsert

variable {catalog : BlobCatalog}

section

variable (hcatalog : catalog.Consistent)
include hcatalog

theorem consistent_scanLocation (blob : ID)
    (location : BlobLocation) : (scanLocation catalog blob location).Consistent := by
  unfold scanLocation
  split
  · exact ⟨hcatalog.seen, hcatalog.nodup⟩
  rename_i hnew
  have hfresh : blob ∉ catalog.members location.packID :=
    fun hmem => hnew ((hcatalog.seen _ _).mpr hmem)
  constructor
  · intro pack other
    by_cases hpack : pack = location.packID
    · subst hpack
      simp only [BlobCatalog.members, AList.lookup_insert, Option.getD_some, Finset.mem_insert,
        Prod.mk.injEq, true_and, List.mem_append, List.mem_singleton]
      rw [hcatalog.seen]
      exact or_comm
    · simp only [BlobCatalog.members, AList.lookup_insert_ne hpack, Finset.mem_insert,
        Prod.mk.injEq, hpack, false_and, false_or]
      exact hcatalog.seen pack other
  · intro pack
    by_cases hpack : pack = location.packID
    · subst hpack
      simp only [BlobCatalog.members, AList.lookup_insert, Option.getD_some]
      refine List.Nodup.append (hcatalog.nodup _) (List.nodup_singleton blob) ?_
      simpa [BlobCatalog.members] using hfresh
    · simp only [BlobCatalog.members, AList.lookup_insert_ne hpack]
      exact hcatalog.nodup pack

theorem mem_members_scanLocation {blob other pack : ID} {location : BlobLocation} :
    other ∈ (scanLocation catalog blob location).members pack ↔
      other ∈ catalog.members pack ∨ other = blob ∧ location.packID = pack := by
  unfold scanLocation
  split
  · rename_i hdup
    have hold : blob ∈ catalog.members location.packID := (hcatalog.seen _ _).mp hdup
    constructor
    · exact .inl
    · rintro (hmem | ⟨rfl, rfl⟩)
      · exact hmem
      · exact hold
  · by_cases hpack : pack = location.packID
    · subst hpack
      simp [BlobCatalog.members, AList.lookup_insert]
    · simp [BlobCatalog.members, AList.lookup_insert_ne hpack, Ne.symm hpack]

/-- One record adds its blob to the packs of its locations and leaves the type of
its last one. -/
theorem scanBlob_spec (blob : ID) (locations : List BlobLocation) :
    (scanBlob catalog (blob, ⟨locations⟩)).Consistent ∧
      (∀ other pack, other ∈ (scanBlob catalog (blob, ⟨locations⟩)).members pack ↔
        other ∈ catalog.members pack ∨
          other = blob ∧ ∃ location ∈ locations, location.packID = pack) ∧
      ∀ other, (scanBlob catalog (blob, ⟨locations⟩)).blobTypes.lookup other =
        if other = blob then
          (locations.getLast?.map (·.type)).or (catalog.blobTypes.lookup other)
        else catalog.blobTypes.lookup other := by
  induction locations generalizing catalog with
  | nil => exact ⟨hcatalog, by simp [scanBlob], by simp [scanBlob]⟩
  | cons location rest ih =>
    obtain ⟨hconsistent, hmembers, htypes⟩ :=
      ih (consistent_scanLocation hcatalog blob location)
    refine ⟨hconsistent, ?_, ?_⟩
    · intro other pack
      refine (hmembers other pack).trans ?_
      rw [mem_members_scanLocation hcatalog]
      simp only [List.mem_cons, exists_eq_or_imp]
      tauto
    · intro other
      refine (htypes other).trans ?_
      rw [lookup_blobTypes_scanLocation]
      by_cases hother : other = blob
      · cases rest with
        | nil => simp [hother]
        | cons next rest => simp [hother, List.getLast?_cons]
      · simp [hother]

end

variable {records : List (ID × BlobRecord)} {record : BlobRecord} {blob : ID}

section

variable (hcatalog : catalog.Consistent)
include hcatalog

theorem foldl_scanBlob_consistent : (records.foldl scanBlob catalog).Consistent := by
  induction records generalizing catalog with
  | nil => exact hcatalog
  | cons entry rest ih => exact ih (scanBlob_spec hcatalog entry.1 entry.2.locations).1

theorem mem_members_foldl_scanBlob {blob pack : ID} :
    blob ∈ (records.foldl scanBlob catalog).members pack ↔
      blob ∈ catalog.members pack ∨
        ∃ record, (blob, record) ∈ records ∧
          ∃ location ∈ record.locations, location.packID = pack := by
  induction records generalizing catalog with
  | nil => simp
  | cons entry rest ih =>
    obtain ⟨hconsistent, hmembers, -⟩ := scanBlob_spec hcatalog entry.1 entry.2.locations
    rw [List.foldl_cons, ih hconsistent]
    refine (or_congr_left (hmembers blob pack)).trans ?_
    constructor
    · rintro ((hold | ⟨rfl, hlocation⟩) | ⟨record, hmem, hlocation⟩)
      · exact .inl hold
      · exact .inr ⟨entry.2, .head _, hlocation⟩
      · exact .inr ⟨record, .tail _ hmem, hlocation⟩
    · rintro (hold | ⟨record, hmem, hlocation⟩)
      · exact .inl (.inl hold)
      · rcases List.mem_cons.mp hmem with rfl | hmem
        · exact .inl (.inr ⟨rfl, hlocation⟩)
        · exact .inr ⟨record, hmem, hlocation⟩

/-- Records of other blobs leave the type of a blob alone. -/
theorem lookup_blobTypes_foldl_of_ne (hne : ∀ entry ∈ records, entry.1 ≠ blob) :
    (records.foldl scanBlob catalog).blobTypes.lookup blob = catalog.blobTypes.lookup blob := by
  induction records generalizing catalog with
  | nil => rfl
  | cons entry rest ih =>
    obtain ⟨hconsistent, -, htypes⟩ := scanBlob_spec hcatalog entry.1 entry.2.locations
    rw [List.foldl_cons, ih hconsistent fun e he => hne e (.tail _ he)]
    refine (htypes blob).trans (if_neg ?_)
    exact fun heq => hne entry (.head _) heq.symm

/-- The records of one blob agree, so whichever comes last leaves the same type. -/
theorem lookup_blobTypes_foldl (hmem : (blob, record) ∈ records)
    (hunique : ∀ entry ∈ records, entry.1 = blob → entry.2 = record) :
    (records.foldl scanBlob catalog).blobTypes.lookup blob =
      (record.locations.getLast?.map (·.type)).or (catalog.blobTypes.lookup blob) := by
  induction records generalizing catalog with
  | nil => cases hmem
  | cons entry rest ih =>
    obtain ⟨hconsistent, -, htypes⟩ := scanBlob_spec hcatalog entry.1 entry.2.locations
    have htail : ∀ e ∈ rest, e.1 = blob → e.2 = record :=
      fun e he => hunique e (.tail _ he)
    rw [List.foldl_cons]
    by_cases hrest : (blob, record) ∈ rest
    · rw [ih hconsistent hrest htail]
      refine (congrArg _ (htypes blob)).trans ?_
      split
      · rename_i hentry
        rw [hunique entry (.head _) hentry.symm, ← Option.or_assoc, Option.or_self]
      · rfl
    · obtain rfl : (blob, record) = entry := by
        rcases List.mem_cons.mp hmem with heq | hmem
        · exact heq
        · exact absurd hmem hrest
      rw [lookup_blobTypes_foldl_of_ne hconsistent]
      · exact (htypes blob).trans (if_pos rfl)
      · intro e he heq
        exact hrest (by rw [← htail e he heq, ← heq]; exact he)

end

theorem mem_scanBlobRecords (h : scanBlobRecords store = .ok records) :
    (blob, record) ∈ records ↔ storedBlob store blob = some record := by
  refine (Table.mem_collectBy_iff Key.blob h ?_ unmarshalBlobRecord_eq_ok
    fun _ _ => Value.blob.inj).trans ⟨fun hlook => ?_, lookup_of_storedBlob⟩
  · intro key blob
    cases key <;> simp
  · rw [storedBlob, hlook]

theorem mem_scanPacks {packs : List (ID × PackRecord)}
    (h : scanPacks store = .ok packs) {pack : ID} {record : PackRecord} :
    (pack, record) ∈ packs ↔ store.lookup (.pack pack) = some (.pack record) := by
  refine Table.mem_collectBy_iff Key.pack h ?_ unmarshalPackRecord_eq_ok
    fun _ _ => Value.pack.inj
  intro key pack
  cases key <;> simp

/-- What the blob scan says about the catalog: which blobs a pack holds, whatever
their type, and the one type it keeps for a blob. -/
theorem scanBlobCatalog_spec (h : scanBlobCatalog store = .ok catalog) :
    (∀ pack, (catalog.members pack).Nodup) ∧
      (∀ blob pack, blob ∈ catalog.members pack ↔ ∃ type, Located store ⟨blob, type⟩ pack) ∧
      ∀ blob, catalog.blobTypes.lookup blob = scannedType store blob := by
  obtain ⟨records, hrecords, h⟩ := of_bind h
  cases h
  refine ⟨(foldl_scanBlob_consistent BlobCatalog.consistent_empty).nodup, ?_, ?_⟩
  · intro blob pack
    rw [mem_members_foldl_scanBlob BlobCatalog.consistent_empty]
    simp only [mem_scanBlobRecords hrecords, located_iff_storedBlob, LocationIn]
    constructor
    · rintro (hnone | ⟨record, hstored, location, hmem, hpack⟩)
      · simp [BlobCatalog.members] at hnone
      · exact ⟨location.type, record, hstored, location, hmem, hpack, rfl⟩
    · rintro ⟨type, record, hstored, location, hmem, hpack, -⟩
      exact .inr ⟨record, hstored, location, hmem, hpack⟩
  · intro blob
    unfold scannedType
    cases hstored : storedBlob store blob with
    | none =>
      rw [lookup_blobTypes_foldl_of_ne BlobCatalog.consistent_empty]
      · rfl
      · rintro ⟨other, record⟩ hmem rfl
        rw [(mem_scanBlobRecords hrecords).mp hmem] at hstored
        cases hstored
    | some record =>
      rw [lookup_blobTypes_foldl BlobCatalog.consistent_empty
        ((mem_scanBlobRecords hrecords).mpr hstored)]
      · simp
      · rintro ⟨other, found⟩ hmem rfl
        have hfound := (mem_scanBlobRecords hrecords).mp hmem
        exact Option.some.inj (hfound.symm.trans hstored)

end Vaultic.Repository
