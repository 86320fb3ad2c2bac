/-
  Daemon/Catalog.lean  —  what the pack operations do to the catalog.

  The catalog is seen here through two questions: in which packs is a blob
  handle located, and what is the lifecycle of a pack.  Each operation of
  Daemon/Packs.lean has one lemma that answers both for the store it leaves
  behind; later modules use these lemmas and never look into the operations.
-/
import Vaultic.Daemon.BlobMerge

set_option autoImplicit false

namespace Vaultic.Daemon

open Vaultic.Lib Vaultic.Schema

/-! ## The two questions -/

/-- Some location of a list lies in the given pack and has the given type. -/
def LocationIn (locations : List BlobLocation) (type : BlobType) (pack : ID) : Prop :=
  ∃ location ∈ locations, location.packID = pack ∧ location.type = type

instance (locations : List BlobLocation) (type : BlobType) (pack : ID) :
    Decidable (LocationIn locations type pack) :=
  inferInstanceAs (Decidable (∃ location ∈ locations, _ ∧ _))

/-- The catalog locates a blob handle in a pack. -/
def Located (store : SchemaStore) (handle : BlobHandle) (pack : ID) : Prop :=
  ∃ record, store.lookup (.blob handle.id) = some (.blob record) ∧
    LocationIn record.locations handle.type pack

/-- The lifecycle the catalog records for a pack. -/
def lifecycleOf (store : SchemaStore) (pack : ID) : Option PackLifecycle :=
  match store.lookup (.pack pack) with
  | some (.pack record) => some record.lifecycle
  | _ => none

/-- Two stores agree on both questions. -/
structure SameCatalog (store store' : SchemaStore) : Prop where
  blobs : ∀ id, store'.lookup (.blob id) = store.lookup (.blob id)
  lifecycles : ∀ pack, lifecycleOf store' pack = lifecycleOf store pack

theorem SameCatalog.refl (store : SchemaStore) : SameCatalog store store :=
  ⟨fun _ => rfl, fun _ => rfl⟩

theorem SameCatalog.trans {a b c : SchemaStore} (hab : SameCatalog a b) (hbc : SameCatalog b c) :
    SameCatalog a c :=
  ⟨fun id => (hbc.blobs id).trans (hab.blobs id),
    fun pack => (hbc.lifecycles pack).trans (hab.lifecycles pack)⟩

variable {handle : BlobHandle} {pack : ID} {store store' : SchemaStore}

theorem located_congr (h : store'.lookup (.blob handle.id) = store.lookup (.blob handle.id)) :
    Located store' handle pack ↔ Located store handle pack := by
  unfold Located
  rw [h]

theorem lifecycleOf_congr (h : store'.lookup (.pack pack) = store.lookup (.pack pack)) :
    lifecycleOf store' pack = lifecycleOf store pack := by
  unfold lifecycleOf
  rw [h]

variable {store : SchemaStore} {record : PackRecord}

theorem lifecycleOf_of_lookup (h : store.lookup (.pack pack) = some (.pack record)) :
    lifecycleOf store pack = some record.lifecycle := by
  unfold lifecycleOf
  rw [h]

/-! ## Keys -/

/-- The keys that say where blobs and packs are.  What the operations write under other keys
is bookkeeping. -/
def isCatalogKey : Key → Bool
  | .blob _ | .pack _ | .packPlacement _ _ | .backendPack _ _ | .placementDeleteQueue _ _ _ => true
  | _ => false

variable {key : Key}

theorem isCatalogKey_of_history (h : isHistoryKey key = true) : isCatalogKey key = false := by
  cases key <;> simp_all [isCatalogKey, isHistoryKey]

theorem isCatalogKey_of_aggregate (h : isAggregateKey key = true) : isCatalogKey key = false := by
  cases key <;> simp_all [isCatalogKey, isAggregateKey]

/-- All puts are bookkeeping. -/
def Bookkeeping (puts : List Mutation) : Prop := ∀ m ∈ puts, isCatalogKey m.1 = false

section Bookkeeping

variable {puts side : List Mutation} {store : SchemaStore}

theorem Bookkeeping.append (hputs : Bookkeeping puts) (hside : Bookkeeping side) :
    Bookkeeping (puts ++ side) :=
  List.forall_mem_append.mpr ⟨hputs, hside⟩

theorem Bookkeeping.ne (h : Bookkeeping side) (hkey : isCatalogKey key = true) :
    ∀ m ∈ side, m.1 ≠ key := by
  intro m hm heq
  have hside := h m hm
  rw [heq, hkey] at hside
  cases hside

theorem Bookkeeping.lookup (h : Bookkeeping side) (hkey : isCatalogKey key = true) :
    (store.putAll (puts ++ side)).lookup key = (store.putAll puts).lookup key := by
  rw [Table.putAll_append, Table.lookup_putAll_of_forall_ne (h.ne hkey)]

theorem Bookkeeping.sameCatalog (h : Bookkeeping side) : SameCatalog store (store.putAll side) where
  blobs _ := Table.lookup_putAll_of_forall_ne (h.ne rfl)
  lifecycles _ := lifecycleOf_congr (Table.lookup_putAll_of_forall_ne (h.ne rfl))

theorem bookkeeping_of_aggregates (h : ∀ m ∈ puts, isAggregateKey m.1 = true) : Bookkeeping puts :=
  fun m hm => isCatalogKey_of_aggregate (h m hm)

theorem bookkeeping_of_history {seconds : Nat} {events : List PackEvent}
    (h : packHistoryMutations seconds store events = .ok puts) : Bookkeeping puts :=
  fun _ hm => isCatalogKey_of_history (packHistoryMutations_keys h hm)

end Bookkeeping

/-! ## Decoding catalog records -/

variable {value : Value}

theorem unmarshalBlobRecord_eq_ok {record : BlobRecord}
    (h : unmarshalBlobRecord value = .ok record) : value = .blob record := by
  obtain ⟨-, hview, -⟩ := decode_eq_ok.mp h
  cases value <;> simp_all

theorem unmarshalPackRecord_eq_ok
    (h : unmarshalPackRecord value = .ok record) : value = .pack record := by
  obtain ⟨-, hview, -⟩ := decode_eq_ok.mp h
  cases value <;> simp_all

theorem unmarshalPlacementRecord_eq_ok {record : PlacementRecord}
    (h : unmarshalPlacementRecord value = .ok record) : value = .placement record := by
  obtain ⟨-, hview, -⟩ := decode_eq_ok.mp h
  cases value <;> simp_all

variable {found : Option BlobRecord} {blob : ID}

theorem loadBlobRecord_eq_ok (h : loadBlobRecord store blob = .ok found) :
    store.lookup (.blob blob) = found.map .blob := by
  unfold loadBlobRecord at h
  split at h
  · rename_i hlook
    cases h
    exact hlook
  · rename_i value hlook
    obtain ⟨record, hrecord, h⟩ := of_bind h
    cases h
    rw [hlook, unmarshalBlobRecord_eq_ok hrecord, Option.map_some]

theorem loadPackRecord_eq_ok {found : Option PackRecord}
    (h : loadPackRecord store pack = .ok found) : store.lookup (.pack pack) = found.map .pack := by
  unfold loadPackRecord at h
  split at h
  · rename_i hlook
    cases h
    exact hlook
  · rename_i value hlook
    obtain ⟨record, hrecord, h⟩ := of_bind h
    cases h
    rw [hlook, unmarshalPackRecord_eq_ok hrecord, Option.map_some]

/-! ## Merging blob records -/

variable {type : BlobType}

theorem not_locationIn_nil : ¬ LocationIn [] type pack := by
  simp [LocationIn]

theorem locationIn_iff_place {locations : List BlobLocation} :
    LocationIn locations type pack ↔
      ∃ spot ∈ locations.map place, spot.1 = pack ∧ spot.2.2.2 = type := by
  simp [LocationIn, place]

theorem locationIn_canonicalBlobRecord {record : BlobRecord} :
    LocationIn (canonicalBlobRecord record).locations type pack ↔
      LocationIn record.locations type pack := by
  simp only [locationIn_iff_place, place_mem_canonicalBlobRecord]

theorem locationIn_mergeBlobRecords {existing incoming : BlobRecord} :
    LocationIn (mergeBlobRecords existing incoming).locations type pack ↔
      LocationIn existing.locations type pack ∨ LocationIn incoming.locations type pack := by
  simp only [locationIn_iff_place, place_mem_mergeBlobRecords, or_and_right, exists_or]

/-! ## Publication -/

/-- The stored record of a blob, where it can be read as one. -/
def storedBlob (store : SchemaStore) (blob : ID) : Option BlobRecord :=
  match store.lookup (.blob blob) with
  | some (.blob record) => some record
  | _ => none

theorem lookup_of_storedBlob {record : BlobRecord} (h : storedBlob store blob = some record) :
    store.lookup (.blob blob) = some (.blob record) := by
  unfold storedBlob at h
  split at h
  · rename_i hlook
    cases h
    exact hlook
  · cases h

theorem storedBlob_of_load
    (h : loadBlobRecord store blob = .ok found) : storedBlob store blob = found := by
  rw [storedBlob, loadBlobRecord_eq_ok h]
  cases found <;> rfl

theorem located_iff_storedBlob :
    Located store handle pack ↔
      ∃ record, storedBlob store handle.id = some record ∧
        LocationIn record.locations handle.type pack := by
  unfold Located storedBlob
  cases hlook : store.lookup (.blob handle.id) with
  | none => simp
  | some value => cases value <;> simp

/-- The put of one blob of a publication. -/
def blobPut (store : SchemaStore) (blob : ID × BlobRecord) : Mutation :=
  (.blob blob.1, .blob (importedBlobRecord (storedBlob store blob.1) blob.2))

variable {blobs : List (ID × BlobRecord)}

theorem foldlM_appendImported_puts {plan plan' : BlobPlan}
    (h : blobs.foldlM (appendImportedBlobMutation store) plan = .ok plan') :
    plan'.puts = plan.puts ++ blobs.map (blobPut store) := by
  induction blobs generalizing plan with
  | nil =>
    cases h
    simp
  | cons blob rest ih =>
    obtain ⟨next, hnext, hrest⟩ := of_bind h
    rw [ih hrest]
    obtain ⟨existing, hexisting, hnext⟩ := of_bind hnext
    obtain ⟨payload, -, hnext⟩ := of_bind hnext
    replace hnext := of_encode hnext
    cases hnext
    simp [blobPut, storedBlob_of_load hexisting]

variable {limits : Limits}

theorem planImportedBlobs_puts {plan : BlobPlan}
    (h : planImportedBlobs limits store blobs = .ok plan) :
    plan.puts = blobs.map (blobPut store) := by
  unfold planImportedBlobs at h
  split at h
  · rename_i hempty
    cases h
    rw [hempty]
    rfl
  · obtain ⟨-, -, h⟩ := of_bind h
    simpa using foldlM_appendImported_puts h

variable {m : Mutation} {published : PublishedPack} {now : Int}

/-- What stands in the reverse index for a placement. -/
def reversePlacement (placement : PlacementRecord) : BackendPackRecord :=
  ⟨placement.state, placement.bytes, placement.placedAt⟩

/-- The two puts of a placement. -/
def placedPuts (pack : ID) (backend : Nat) (placement : PlacementRecord) : List Mutation :=
  [(.packPlacement pack backend, .placement placement),
    (.backendPack backend pack, .backendPack (reversePlacement placement))]

variable {placements : Table Nat PlacementRecord} {puts : List Mutation}

theorem placementMutations_eq_ok (h : placementMutations pack placements = .ok puts) :
    puts = placements.entries.flatMap fun entry => placedPuts pack entry.1 entry.2 := by
  obtain ⟨groups, hgroups, h⟩ := of_bind h
  cases h
  have hplaced : ∀ {backend placement group}, placementPuts pack backend placement = .ok group →
      group = placedPuts pack backend placement := by
    intro backend placement group hrun
    unfold placementPuts at hrun
    split at hrun
    · cases hrun
    replace hrun := of_encode hrun
    replace hrun := of_encode hrun
    cases hrun
    rfl
  rw [List.flatMap_def, mapM_map_eq_map hgroups fun entry _ => hplaced]

theorem placementMutations_keys
    (h : placementMutations pack placements = .ok puts) (hm : m ∈ puts) :
    ∃ backend, m.1 = .packPlacement pack backend ∨ m.1 = .backendPack backend pack := by
  rw [placementMutations_eq_ok h] at hm
  obtain ⟨entry, -, hm⟩ := List.mem_flatMap.mp hm
  simp only [placedPuts, List.mem_cons, List.not_mem_nil, or_false] at hm
  rcases hm with rfl | rfl
  · exact ⟨entry.1, .inl rfl⟩
  · exact ⟨entry.1, .inr rfl⟩

theorem bookkeeping_lineage
    (h : (published.predecessorPackIDs.map (lineagePut published)).mapM id = .ok puts) :
    Bookkeeping puts := by
  intro m hm
  obtain ⟨predecessor, -, hrun⟩ := (mem_of_mapM_map h).mp hm
  obtain ⟨value, -, hrun⟩ := of_bind hrun
  cases hrun
  rfl

theorem bookkeeping_debt
    (h : planResolvedUnavailableDebt now store pack = .ok puts) : Bookkeeping puts := by
  unfold planResolvedUnavailableDebt at h
  split at h
  · cases h
    exact List.forall_mem_nil _
  obtain ⟨debt, -, h⟩ := of_bind h
  split at h
  · cases h
    exact List.forall_mem_nil _
  · obtain ⟨value, -, h⟩ := of_bind h
    cases h
    exact List.forall_mem_singleton.mpr rfl

/-- The record a publication stores over the one the catalog has. -/
def IsPublishedRecord (published : PublishedPack) (old : Option PackRecord)
    (record : PackRecord) : Prop :=
  ∃ plan merged, publishedRecord published old plan = .ok merged ∧
    record = clearStalePackUsage (deriveHeaderSize merged)

theorem lifecycle_clearStalePackUsage (record : PackRecord) :
    (clearStalePackUsage record).lifecycle = record.lifecycle := by
  unfold clearStalePackUsage
  split
  · rfl
  · split <;> rfl

theorem lifecycle_deriveHeaderSize (record : PackRecord) :
    (deriveHeaderSize record).lifecycle = record.lifecycle := by
  unfold deriveHeaderSize
  split <;> rfl

variable {old : Option PackRecord}

/-- The record of a publication keeps the lifecycle the catalog has. -/
theorem IsPublishedRecord.lifecycle (h : IsPublishedRecord published old record) :
    record.lifecycle = (old.map PackRecord.lifecycle).getD published.record.lifecycle := by
  obtain ⟨plan, merged, hmerged, rfl⟩ := h
  rw [lifecycle_clearStalePackUsage, lifecycle_deriveHeaderSize]
  unfold publishedRecord at hmerged
  split at hmerged
  · cases hmerged
    rfl
  split at hmerged
  · cases hmerged
  · cases hmerged
    rfl

/-- The pack record of a publication, and what else is written with it. -/
theorem planPackRecord_spec {plan : BlobPlan}
    (h : planPackRecord published old plan = .ok (record, puts)) :
    IsPublishedRecord published old record ∧
      ∃ placements side, placementMutations published.packID published.placements = .ok placements ∧
        Bookkeeping side ∧
        puts = (.pack published.packID, .pack record) :: (placements ++ side) := by
  obtain ⟨merged, hmerged, h⟩ := of_bind h
  replace h := of_encode h
  obtain ⟨placements, hplacements, h⟩ := of_bind h
  obtain ⟨lineage, hlineage, h⟩ := of_bind h
  cases h
  exact ⟨⟨plan, merged, hmerged, rfl⟩, placements, lineage, hplacements,
    bookkeeping_lineage hlineage, rfl⟩

/-- What a publication writes: the merged records of its blobs, the record of its
pack, its placements, and bookkeeping. -/
theorem publishPack_inv (h : publishPack limits now store published = .ok store') :
    ∃ blobs old record placements side,
      preparePackImport published = .ok blobs ∧
      loadPackRecord store published.packID = .ok old ∧
      IsPublishedRecord published old record ∧
      placementMutations published.packID published.placements = .ok placements ∧
      Bookkeeping side ∧
      store' = store.putAll ((blobs.map (blobPut store) ++
        (.pack published.packID, .pack record) :: placements) ++ side) := by
  obtain ⟨blobs, hblobs, h⟩ := of_bind h
  obtain ⟨old, hold, h⟩ := of_bind h
  obtain ⟨plan, hplan, h⟩ := of_bind h
  obtain ⟨⟨record, packPuts⟩, hrecord, h⟩ := of_bind h
  obtain ⟨aggregates, haggregates, h⟩ := of_bind h
  obtain ⟨debt, hdebt, h⟩ := of_bind h
  obtain ⟨history, hhistory, h⟩ := of_bind h
  obtain ⟨hpublished, placements, side, hplacements, hside, rfl⟩ := planPackRecord_spec hrecord
  have hall : Bookkeeping (side ++ (aggregates ++ (debt ++ history))) :=
    hside.append ((bookkeeping_of_aggregates fun _ => updatePackAggregates_keys haggregates).append
      ((bookkeeping_debt hdebt).append (bookkeeping_of_history hhistory)))
  refine ⟨blobs, old, record, placements, _, hblobs, hold, hpublished, hplacements, hall, ?_⟩
  rw [writeTransactionBatches_eq h, planImportedBlobs_puts hplan]
  simp

theorem preparePackImport_spec (h : preparePackImport published = .ok blobs) :
    blobs = published.blobs.entries.map (fun entry => (entry.1, canonicalBlobRecord entry.2)) ∧
      published.record.lifecycle = .exportPending ∧
      ∀ blob ∈ blobs, ∀ location ∈ blob.2.locations, location.packID = published.packID := by
  unfold preparePackImport at h
  dsimp only at h
  split_ifs at h with hidentity hlifecycle hforeign hcount
  cases h
  refine ⟨rfl, by simpa using hlifecycle, ?_⟩
  intro blob hblob location hlocation
  rw [Bool.not_eq_true, List.any_eq_false] at hforeign
  have hsame := hforeign location (List.mem_flatMap.mpr ⟨blob, hblob, hlocation⟩)
  simpa using hsame

section

variable {store store' : SchemaStore} (h : publishPack limits now store published = .ok store')
include h

/-- The catalog after a publication, blob by blob. -/
theorem lookup_blob_publishPack (blob : ID) :
    store'.lookup (.blob blob) =
      (published.blobs.lookup blob).elim (store.lookup (.blob blob)) fun incoming =>
        some (.blob (importedBlobRecord (storedBlob store blob)
          (canonicalBlobRecord incoming))) := by
  obtain ⟨blobs, old, record, placements, side, hblobs, -, -, hplacements, hside, rfl⟩ :=
    publishPack_inv h
  obtain ⟨rfl, -, -⟩ := preparePackImport_spec hblobs
  rw [hside.lookup rfl, Table.putAll_append, Table.lookup_putAll_of_forall_ne]
  · rw [List.map_map]
    exact Table.lookup_putAll_entries (s := published.blobs) (f := Key.blob)
      (g := fun id incoming =>
        Value.blob (importedBlobRecord (storedBlob store id) (canonicalBlobRecord incoming)))
      (fun _ _ heq => Key.blob.inj heq) blob
  · refine List.forall_mem_cons.mpr ⟨nofun, fun m hm => ?_⟩
    obtain ⟨backend, hkey | hkey⟩ := placementMutations_keys hplacements hm <;> simp [hkey]

/-- A publication locates a handle in its own pack when it names it, and keeps
every other location. -/
theorem located_publishPack :
    Located store' handle pack ↔
      Located store handle pack ∨
        ∃ incoming, published.blobs.lookup handle.id = some incoming ∧
          LocationIn incoming.locations handle.type pack := by
  have hlook := lookup_blob_publishPack h handle.id
  cases hincoming : published.blobs.lookup handle.id with
  | none =>
    rw [hincoming, Option.elim_none] at hlook
    rw [located_congr hlook]
    simp
  | some incoming =>
    rw [hincoming, Option.elim_some] at hlook
    simp only [Option.some.injEq, exists_eq_left']
    rw [@located_iff_storedBlob _ _ store]
    simp only [Located, hlook, Option.some.injEq, Value.blob.injEq, exists_eq_left']
    cases hstored : storedBlob store handle.id with
    | none => simp [importedBlobRecord, locationIn_canonicalBlobRecord]
    | some existing =>
      simp [importedBlobRecord, locationIn_mergeBlobRecords, locationIn_canonicalBlobRecord]

/-- What a publication names lies in the published pack. -/
theorem packID_of_published {incoming : BlobRecord}
    (hincoming : published.blobs.lookup blob = some incoming)
    (hlocation : LocationIn incoming.locations type pack) : pack = published.packID := by
  obtain ⟨blobs, old, record, placements, side, hblobs, -⟩ := publishPack_inv h
  obtain ⟨rfl, -, hpacks⟩ := preparePackImport_spec hblobs
  obtain ⟨location, hmem, hpack, -⟩ := locationIn_canonicalBlobRecord.mpr hlocation
  rw [← hpack]
  refine hpacks (blob, canonicalBlobRecord incoming) ?_ location hmem
  exact List.mem_map.mpr ⟨⟨blob, incoming⟩, Table.mem_entries_iff.mpr hincoming, rfl⟩

/-- The pack records after a publication: its own is merged, all others stay. -/
theorem lookup_pack_publishPack :
    ∃ old record, loadPackRecord store published.packID = .ok old ∧
      IsPublishedRecord published old record ∧ published.record.lifecycle = .exportPending ∧
      ∀ pack, store'.lookup (.pack pack) =
        if pack = published.packID then some (.pack record) else store.lookup (.pack pack) := by
  obtain ⟨blobs, old, record, placements, side, hblobs, hold, hrecord, hplacements, hside, rfl⟩ :=
    publishPack_inv h
  obtain ⟨-, hpending, -⟩ := preparePackImport_spec hblobs
  refine ⟨old, record, hold, hrecord, hpending, fun pack => ?_⟩
  have hplacementKeys : ∀ m ∈ placements, m.1 ≠ .pack pack := by
    intro m hm
    obtain ⟨backend, hkey | hkey⟩ := placementMutations_keys hplacements hm <;> simp [hkey]
  have hblobKeys : ∀ m ∈ blobs.map (blobPut store), m.1 ≠ .pack pack :=
    List.forall_mem_map.mpr fun _ _ => nofun
  rw [hside.lookup rfl, Table.putAll_append, Table.putAll_cons,
    Table.lookup_putAll_of_forall_ne hplacementKeys, Table.lookup_insert_eq,
    Table.lookup_putAll_of_forall_ne hblobKeys]
  simp only [Key.pack.injEq, eq_comm]

/-- A publication changes no lifecycle: a new pack awaits its export. -/
theorem lifecycleOf_publishPack (pack : ID) :
    lifecycleOf store' pack =
      if pack = published.packID then
        some ((lifecycleOf store pack).getD .exportPending)
      else lifecycleOf store pack := by
  obtain ⟨old, record, hold, hrecord, hpending, hlookup⟩ := lookup_pack_publishPack h
  split_ifs with hpack
  · subst hpack
    rw [lifecycleOf_of_lookup ((hlookup _).trans (if_pos rfl)), hrecord.lifecycle, hpending,
      lifecycleOf, loadPackRecord_eq_ok hold]
    cases old <;> rfl
  · exact lifecycleOf_congr ((hlookup pack).trans (if_neg hpack))

end

/-! ## Acknowledgment -/

/-- One acknowledged pack was published already, or becomes so. -/
theorem acknowledgePack_spec {found : Option (Mutation × PackEvent)}
    (h : acknowledgePack store pack = .ok found) :
    ∃ record, store.lookup (.pack pack) = some (.pack record) ∧
      record.lifecycle ≠ .deletePending ∧
      ((found = none ∧ record.lifecycle = .published) ∨
        ∃ event, found =
          some ((.pack pack, .pack { record with lifecycle := .published }), event)) := by
  obtain ⟨loaded, hloaded, h⟩ := of_bind h
  cases loaded with
  | none => cases h
  | some record =>
    refine ⟨record, loadPackRecord_eq_ok hloaded, ?_⟩
    dsimp only at h
    split_ifs at h with hpublished hstate
    · cases h
      exact ⟨by simp [hpublished], .inl ⟨rfl, hpublished⟩⟩
    replace h := of_encode h
    cases h
    refine ⟨?_, .inr ⟨_, rfl⟩⟩
    intro hpending
    exact hstate (by simp [hpending])

section

variable {packs : List ID} {store store' : SchemaStore}
  (h : markPacksPublished limits now store packs = .ok store')
include h

/-- What an acknowledgment writes: the published records of its packs, and history. -/
theorem markPacksPublished_inv :
    ∃ acknowledged side,
      (∀ m ∈ acknowledged, ∃ pack ∈ packs, ∃ record,
        store.lookup (.pack pack) = some (.pack record) ∧ record.lifecycle ≠ .deletePending ∧
          m = (.pack pack, .pack { record with lifecycle := .published })) ∧
      Bookkeeping side ∧ store' = store.putAll (acknowledged ++ side) := by
  unfold markPacksPublished at h
  split at h
  · cases h
  obtain ⟨found, hfound, h⟩ := of_bind h
  dsimp only at h
  split at h
  · cases h
    exact ⟨[], [], List.forall_mem_nil _, List.forall_mem_nil _, rfl⟩
  obtain ⟨history, hhistory, h⟩ := of_bind h
  refine ⟨_, history, ?_, bookkeeping_of_history hhistory, writeTransactionBatches_eq h⟩
  intro m hm
  obtain ⟨⟨put, event⟩, hpair, rfl⟩ := List.mem_map.mp hm
  have hmem : some (put, event) ∈ found := by simpa using hpair
  obtain ⟨pack, hpack, hrun⟩ := (mem_of_mapM_map hfound).mp hmem
  obtain ⟨record, hlook, hstate, hnone | ⟨_, hsome⟩⟩ := acknowledgePack_spec hrun
  · cases hnone.1
  · cases hsome
    exact ⟨pack, hpack, record, hlook, hstate, rfl⟩

/-- An acknowledgment writes pack records only. -/
theorem lookup_markPacksPublished
    (hkey : isCatalogKey key = true) (hpack : ∀ pack, key ≠ .pack pack) :
    store'.lookup key = store.lookup key := by
  obtain ⟨acknowledged, side, hacknowledged, hside, rfl⟩ := markPacksPublished_inv h
  rw [hside.lookup hkey]
  refine Table.lookup_putAll_of_forall_ne fun m hm => ?_
  obtain ⟨pack, -, record, -, -, rfl⟩ := hacknowledged m hm
  exact (hpack pack).symm

/-- An acknowledgment leaves every blob where it is. -/
theorem lookup_blob_markPacksPublished (blob : ID) :
    store'.lookup (.blob blob) = store.lookup (.blob blob) :=
  lookup_markPacksPublished h rfl nofun

/-- An acknowledged pack is published; it was not delete-pending before, and no
other lifecycle changes. -/
theorem lifecycleOf_markPacksPublished (pack : ID) :
    (lifecycleOf store' pack = lifecycleOf store pack) ∨
      (pack ∈ packs ∧ lifecycleOf store pack ≠ some .deletePending ∧
        lifecycleOf store' pack = some .published) := by
  obtain ⟨acknowledged, side, hacknowledged, hside, rfl⟩ := markPacksPublished_inv h
  rw [lifecycleOf_congr (hside.lookup rfl)]
  rcases Table.lookup_putAll_or store acknowledged (.pack pack) with
    ⟨value, hput, hlook⟩ | ⟨-, hlook⟩
  · obtain ⟨owner, howner, record, hstored, hstate, heq⟩ := hacknowledged _ hput
    cases heq
    refine .inr ⟨howner, ?_, lifecycleOf_of_lookup hlook⟩
    rw [lifecycleOf_of_lookup hstored]
    simpa using hstate
  · exact .inl (lifecycleOf_congr hlook)

end

/-! ## The first phase of deletion -/

/-- The puts that evict a placement. -/
def evictedPuts (pack : ID) (backend : Nat) (reason : String) (runID : ID)
    (placement : PlacementRecord) : List Mutation :=
  placedPuts pack backend placement ++
    [(.placementDeleteQueue placement.deleteAfter pack backend,
      .placementDelete ⟨backend, placement.bytes, reason, runID⟩)]

variable {backend : Nat} {placement : PlacementRecord}

/-- A live or pending placement is evicted; nothing is put for another one. -/
theorem planEviction_spec (h : planEviction now store pack backend = .ok puts) :
    (puts = [] ∧ ∀ placement, store.lookup (.packPlacement pack backend) =
      some (.placement placement) → evictPlacement now placement = none) ∨
    ∃ placement evicted,
      store.lookup (.packPlacement pack backend) = some (.placement placement) ∧
      evictPlacement now placement = some evicted ∧
      puts = evictedPuts pack backend "gc" 0 evicted := by
  unfold planEviction at h
  split at h
  · rename_i hlookup
    cases h
    refine .inl ⟨rfl, fun placement hstored => ?_⟩
    rw [hlookup] at hstored
    cases hstored
  · rename_i value hlookup
    obtain ⟨placement, hdecoded, hrun⟩ := of_bind h
    rw [unmarshalPlacementRecord_eq_ok hdecoded] at hlookup
    split at hrun
    · rename_i hstays
      cases hrun
      refine .inl ⟨rfl, fun stored hstored => ?_⟩
      rw [hlookup] at hstored
      cases hstored
      exact hstays
    · rename_i evicted hevicted
      replace hrun := of_encode hrun
      replace hrun := of_encode hrun
      replace hrun := of_encode hrun
      exact .inr ⟨placement, evicted, hlookup, hevicted, (Except.ok.inj hrun).symm⟩

section Evictions

variable {store store' : SchemaStore} {backends : List Nat} {evictions : List (List Mutation)}

theorem mem_evictions (h : (backends.map (planEviction now store pack)).mapM id = .ok evictions)
    (hm : m ∈ evictions.flatten) :
    ∃ backend ∈ backends, ∃ placement evicted,
      store.lookup (.packPlacement pack backend) = some (.placement placement) ∧
      evictPlacement now placement = some evicted ∧
      m ∈ evictedPuts pack backend "gc" 0 evicted := by
  obtain ⟨group, hgroup, hm⟩ := List.mem_flatten.mp hm
  obtain ⟨backend, hbackend, hrun⟩ := (mem_of_mapM_map h).mp hgroup
  obtain ⟨rfl, -⟩ | ⟨placement, evicted, hstored, hevicted, rfl⟩ := planEviction_spec hrun
  · cases hm
  · exact ⟨backend, hbackend, placement, evicted, hstored, hevicted, hm⟩

section

variable (h : markPackDeletePendingOnce now store pack backends = .ok store')
include h

/-- What marking a pack delete-pending writes. -/
theorem markPackDeletePendingOnce_inv :
    ∃ record, store.lookup (.pack pack) = some (.pack record) ∧
      (record.lifecycle = .deletePending ∧ store' = store ∨
        record.lifecycle = .published ∧ ∃ evictions side,
          (backends.map (planEviction now store pack)).mapM id = .ok evictions ∧
          Bookkeeping side ∧
          store' = store.putAll (((.pack pack, .pack { record with lifecycle := .deletePending }) ::
            evictions.flatten) ++ side)) := by
  obtain ⟨found, hfound, h⟩ := of_bind h
  cases found with
  | none => cases h
  | some record =>
    refine ⟨record, loadPackRecord_eq_ok hfound, ?_⟩
    dsimp only at h
    split_ifs at h with hpending hpublished
    · cases h
      exact .inl ⟨hpending, rfl⟩
    replace h := of_encode h
    obtain ⟨evictions, hevictions, h⟩ := of_bind h
    obtain ⟨history, hhistory, h⟩ := of_bind h
    cases h
    exact .inr ⟨not_not.mp hpublished, evictions, history, hevictions,
      bookkeeping_of_history hhistory, rfl⟩

/-- Marking a pack delete-pending moves no blob and no other pack, and only a
published pack can be marked. -/
theorem markPackDeletePending_spec :
    (∀ blob, store'.lookup (.blob blob) = store.lookup (.blob blob)) ∧
      lifecycleOf store' pack = some .deletePending ∧
      (∀ other, other ≠ pack → lifecycleOf store' other = lifecycleOf store other) ∧
      (lifecycleOf store pack = some .published ∨
        lifecycleOf store pack = some .deletePending) := by
  obtain
    ⟨record, hstored, ⟨hpending, rfl⟩ | ⟨hpublished, evictions, side, hevictions, hside, rfl⟩⟩ :=
    markPackDeletePendingOnce_inv h
  · have hlifecycle := hpending ▸ lifecycleOf_of_lookup hstored
    exact ⟨fun _ => rfl, hlifecycle, fun _ _ => rfl, .inr hlifecycle⟩
  have hlookup : ∀ {key}, isCatalogKey key = true → (∀ m ∈ evictions.flatten, m.1 ≠ key) →
      (store.putAll (((.pack pack, .pack { record with lifecycle := .deletePending }) ::
        evictions.flatten) ++ side)).lookup key =
      if .pack pack = key then some (.pack { record with lifecycle := .deletePending })
      else store.lookup key := by
    intro key hkey havoids
    rw [hside.lookup hkey, Table.putAll_cons, Table.lookup_putAll_of_forall_ne havoids,
      Table.lookup_insert_eq]
  have hkeys : ∀ m ∈ evictions.flatten,
      (∀ blob, m.1 ≠ .blob blob) ∧ ∀ other, m.1 ≠ .pack other := by
    intro m hm
    obtain ⟨backend, -, placement, evicted, -, -, hm⟩ := mem_evictions hevictions hm
    simp only [evictedPuts, placedPuts, List.cons_append, List.nil_append, List.mem_cons,
      List.not_mem_nil, or_false] at hm
    rcases hm with rfl | rfl | rfl <;> simp
  refine ⟨fun blob => ?_, ?_, fun other hother => lifecycleOf_congr ?_, .inl ?_⟩
  · rw [hlookup rfl fun m hm => (hkeys m hm).1 blob, if_neg nofun]
  · exact lifecycleOf_of_lookup
      ((hlookup rfl fun m hm => (hkeys m hm).2 pack).trans (if_pos rfl))
  · rw [hlookup rfl fun m hm => (hkeys m hm).2 other,
      if_neg fun heq => hother (Key.pack.inj heq).symm]
  · rw [lifecycleOf_of_lookup hstored, hpublished]

end

end Evictions

/-! ## The second phase of deletion -/

/-- The queue key that goes with a placement: the one of its present deadline. -/
def queueKeys (store : SchemaStore) (pack : ID) (backend : Nat) : List Key :=
  match store.lookup (.packPlacement pack backend) with
  | some (.placement placement) =>
    if placement.deleteAfter ≠ 0 then [.placementDeleteQueue placement.deleteAfter pack backend]
    else []
  | _ => []

section

variable {backend : Nat} {deletes : List Key} {store : SchemaStore}
  (h : placementDeletes store pack backend = .ok deletes)
include h

theorem placementDeletes_eq_ok :
    deletes = [.packPlacement pack backend, .backendPack backend pack] ++
      queueKeys store pack backend := by
  unfold placementDeletes at h
  split at h
  · rename_i hlookup
    cases h
    simp [queueKeys, hlookup]
  · rename_i value hlookup
    obtain ⟨placement, hdecoded, h⟩ := of_bind h
    cases h
    rw [unmarshalPlacementRecord_eq_ok hdecoded] at hlookup
    simp [queueKeys, hlookup]

theorem placementDeletes_keys (hkey : key ∈ deletes) :
    key = .packPlacement pack backend ∨ key = .backendPack backend pack ∨
      ∃ deadline, key = .placementDeleteQueue deadline pack backend := by
  rw [placementDeletes_eq_ok h] at hkey
  rcases List.mem_append.mp hkey with hkey | hkey
  · simp only [List.mem_cons, List.not_mem_nil, or_false] at hkey
    tauto
  unfold queueKeys at hkey
  split at hkey
  · split_ifs at hkey
    · exact .inr (.inr ⟨_, List.mem_singleton.mp hkey⟩)
    · cases hkey
  · cases hkey

end

theorem isCatalogKey_of_stale {members : List ID}
    (hkey : key ∈ staleGCKeys store pack members) : isCatalogKey key = false := by
  have hmem := (List.mem_filter.mp hkey).1
  rcases List.mem_cons.mp hmem with rfl | hmem
  · rfl
  · obtain ⟨blob, -, rfl⟩ := List.mem_map.mp hmem
    rfl

theorem locationIn_remainingLocations {record : BlobRecord} {removed : ID} :
    LocationIn (remainingLocations record removed) type pack ↔
      LocationIn record.locations type pack ∧ pack ≠ removed := by
  simp only [LocationIn, remainingLocations, List.mem_filter, bne_iff_ne]
  constructor
  · rintro ⟨location, ⟨hmem, hne⟩, rfl, htype⟩
    exact ⟨⟨location, hmem, rfl, htype⟩, hne⟩
  · rintro ⟨⟨location, hmem, rfl, htype⟩, hne⟩
    exact ⟨location, ⟨hmem, hne⟩, rfl, htype⟩

/-- What becomes of one member: nothing is written and it had no location in the
pack, or its record goes, or its record loses the pack's locations. -/
theorem stripMember_spec {pack blob : ID}
    {deletes : List Key} (h : stripMember store pack blob = .ok (puts, deletes)) :
    (puts = [] ∧ deletes = [] ∧
        ∀ type, ¬ Located store ⟨blob, type⟩ pack) ∨
      (puts = [] ∧ deletes = [.blob blob] ∧
        ∀ type other, Located store ⟨blob, type⟩ other → other = pack) ∨
      ∃ record, store.lookup (.blob blob) = some (.blob record) ∧
        puts = [(.blob blob, .blob ⟨remainingLocations record pack⟩)] ∧ deletes = [] := by
  obtain ⟨found, hfound, h⟩ := of_bind h
  have hlook := loadBlobRecord_eq_ok hfound
  cases found with
  | none =>
    cases h
    refine .inl ⟨rfl, rfl, ?_⟩
    rintro type ⟨record, hlook', -⟩
    rw [hlook] at hlook'
    cases hlook'
  | some record =>
    have hlocated : ∀ type other, Located store ⟨blob, type⟩ other →
        LocationIn record.locations type other := by
      rintro type other ⟨record', hlook', hlocation⟩
      rw [hlook] at hlook'
      cases hlook'
      exact hlocation
    dsimp only at h
    split_ifs at h with hempty hlength
    · cases h
      refine .inr (.inl ⟨rfl, rfl, ?_⟩)
      intro type other hother
      by_contra hne
      have hremains := locationIn_remainingLocations.mpr ⟨hlocated type other hother, hne⟩
      rw [hempty] at hremains
      exact not_locationIn_nil hremains
    · replace h := of_encode h
      cases h
      exact .inr (.inr ⟨record, hlook, rfl, rfl⟩)
    · cases h
      refine .inl ⟨rfl, rfl, ?_⟩
      intro type hother
      -- Nothing was filtered out, so no location lies in the pack.
      have hall : remainingLocations record pack = record.locations :=
        List.filter_sublist.eq_of_length (by simpa [remainingLocations] using hlength)
      have hremains : LocationIn (remainingLocations record pack) type pack := by
        rw [hall]
        exact hlocated type pack hother
      exact (locationIn_remainingLocations.mp hremains).2 rfl

section Deletion

variable {store store' : SchemaStore} {members : List ID} {backends : List Nat}
  {stripped : List (List Mutation × List Key)}

section

variable (h : (members.map (stripMember store pack)).mapM id = .ok stripped)
include h

/-- What the members' records write was planned for the blob it is written under. -/
theorem mem_stripped {result : List Mutation × List Key} (hresult : result ∈ stripped) :
    ∃ blob ∈ members, stripMember store pack blob = .ok result ∧
      (∀ m ∈ result.1, m.1 = .blob blob) ∧ ∀ key ∈ result.2, key = .blob blob := by
  obtain ⟨blob, hblob, hrun⟩ := (mem_of_mapM_map h).mp hresult
  refine ⟨blob, hblob, hrun, ?_⟩
  obtain ⟨puts, deletes⟩ := result
  obtain ⟨rfl, rfl, -⟩ | ⟨rfl, rfl, -⟩ | ⟨record, -, rfl, rfl⟩ := stripMember_spec hrun <;> simp

theorem mem_strippedPuts (hm : m ∈ stripped.flatMap Prod.fst) :
    ∃ blob ∈ members, ∃ result, stripMember store pack blob = .ok result ∧ m ∈ result.1 ∧
      m.1 = .blob blob := by
  obtain ⟨result, hresult, hm⟩ := List.mem_flatMap.mp hm
  obtain ⟨blob, hblob, hrun, hkeys, -⟩ := mem_stripped h hresult
  exact ⟨blob, hblob, result, hrun, hm, hkeys m hm⟩

theorem mem_strippedDeletes (hkey : key ∈ stripped.flatMap Prod.snd) :
    ∃ blob ∈ members, ∃ result, stripMember store pack blob = .ok result ∧ key ∈ result.2 ∧
      key = .blob blob := by
  obtain ⟨result, hresult, hkey⟩ := List.mem_flatMap.mp hkey
  obtain ⟨blob, hblob, hrun, -, hkeys⟩ := mem_stripped h hresult
  exact ⟨blob, hblob, result, hrun, hkey, hkeys key hkey⟩

end

section

variable (h : markPackDeletedOnce limits now store pack members backends = .ok store')
include h

/-- What completing a deletion writes and erases. -/
theorem markPackDeletedOnce_inv :
    lifecycleOf store pack = some .deletePending ∧ ∃ placements stripped side stale,
      (backends.map (placementDeletes store pack)).mapM id = .ok placements ∧
      (members.map (stripMember store pack)).mapM id = .ok stripped ∧
      Bookkeeping side ∧ (∀ key ∈ stale, isCatalogKey key = false) ∧
      store' = (store.putAll (stripped.flatMap Prod.fst ++ side)).deleteAll
        (.pack pack :: (placements.flatten ++ (stripped.flatMap Prod.snd ++ stale))) := by
  obtain ⟨found, hfound, h⟩ := of_bind h
  cases found with
  | none => cases h
  | some record =>
    dsimp only at h
    split_ifs at h with hpending
    obtain ⟨placements, hplacements, h⟩ := of_bind h
    obtain ⟨stripped, hstripped, h⟩ := of_bind h
    obtain ⟨aggregates, haggregates, h⟩ := of_bind h
    obtain ⟨history, hhistory, h⟩ := of_bind h
    have hside : Bookkeeping (aggregates ++ history) :=
      (bookkeeping_of_aggregates fun _ => removePackAggregates_keys haggregates).append
        (bookkeeping_of_history hhistory)
    refine ⟨?_, placements, stripped, _, _, hplacements, hstripped, hside,
      fun key => isCatalogKey_of_stale, writeTransactionBatches_eq h⟩
    rw [lifecycleOf_of_lookup (loadPackRecord_eq_ok hfound), not_not.mp hpending]

/-- The pack and blob records a completed deletion leaves. -/
theorem lookup_markPackDeletedOnce :
    (∀ other, store'.lookup (.pack other) =
        if other = pack then none else store.lookup (.pack other)) ∧
      ∃ stripped, (members.map (stripMember store pack)).mapM id = .ok stripped ∧
        ∀ blob, store'.lookup (.blob blob) =
          if .blob blob ∈ stripped.flatMap Prod.snd then none
          else (store.putAll (stripped.flatMap Prod.fst)).lookup (.blob blob) := by
  obtain ⟨-, placements, stripped, side, stale, hplacements, hstripped, hside, hstale, rfl⟩ :=
    markPackDeletedOnce_inv h
  have hplacementKeys : ∀ key ∈ placements.flatten,
      (∀ blob, key ≠ .blob blob) ∧ ∀ other, key ≠ .pack other := by
    intro key hkey
    obtain ⟨group, hgroup, hkey⟩ := List.mem_flatten.mp hkey
    obtain ⟨backend, -, hrun⟩ := (mem_of_mapM_map hplacements).mp hgroup
    obtain rfl | rfl | ⟨deadline, rfl⟩ := placementDeletes_keys hrun hkey <;> simp
  have hstaleKeys : ∀ key, isCatalogKey key = true → key ∉ stale := by
    intro key hkey hmem
    rw [hstale key hmem] at hkey
    cases hkey
  refine ⟨fun other => ?_, stripped, hstripped, fun blob => ?_⟩
  · have hplacement : .pack other ∉ placements.flatten :=
      fun hmem => (hplacementKeys _ hmem).2 other rfl
    have hmember : .pack other ∉ stripped.flatMap Prod.snd := by
      intro hmem
      obtain ⟨blob, -, result, -, -, heq⟩ := mem_strippedDeletes hstripped hmem
      cases heq
    have hput : ∀ m ∈ stripped.flatMap Prod.fst, m.1 ≠ .pack other := by
      intro m hm
      obtain ⟨blob, -, result, -, -, heq⟩ := mem_strippedPuts hstripped hm
      simp [heq]
    rw [Table.lookup_deleteAll, hside.lookup rfl, Table.lookup_putAll_of_forall_ne hput]
    simp only [List.mem_cons, List.mem_append, hplacement, hmember, or_false,
      hstaleKeys (.pack other) rfl, Key.pack.injEq]
  · have hplacement : .blob blob ∉ placements.flatten :=
      fun hmem => (hplacementKeys _ hmem).1 blob rfl
    rw [Table.lookup_deleteAll, hside.lookup rfl]
    simp only [List.mem_cons, List.mem_append, reduceCtorEq, hplacement, false_or, or_false,
      hstaleKeys (.blob blob) rfl]

/-- A deleted pack leaves the catalog, and no other pack changes. -/
theorem lifecycleOf_markPackDeleted (other : ID) :
    lifecycleOf store' other = if other = pack then none else lifecycleOf store other := by
  have hlookup := (lookup_markPackDeletedOnce h).1 other
  split_ifs at hlookup ⊢ with hother
  · rw [lifecycleOf, hlookup]
  · exact lifecycleOf_congr hlookup

/-- The deletion writes nothing under a blob that is no member. -/
theorem lookup_blob_of_not_member
    (hblob : blob ∉ members) : store'.lookup (.blob blob) = store.lookup (.blob blob) := by
  obtain ⟨-, stripped, hstripped, hlookup⟩ := lookup_markPackDeletedOnce h
  have hdeletes : .blob blob ∉ stripped.flatMap Prod.snd := by
    intro hmem
    obtain ⟨owner, howner, result, -, -, heq⟩ := mem_strippedDeletes hstripped hmem
    cases heq
    exact hblob howner
  rw [hlookup, if_neg hdeletes]
  refine Table.lookup_putAll_of_forall_ne fun m hm heq => ?_
  obtain ⟨owner, howner, result, -, -, hkey⟩ := mem_strippedPuts hstripped hm
  obtain rfl : blob = owner := Key.blob.inj (heq.symm.trans hkey)
  exact hblob howner

/-- A member keeps exactly its locations outside the deleted pack. -/
theorem located_of_member (hmember : handle.id ∈ members) {other : ID} :
    Located store' handle other ↔ Located store handle other ∧ other ≠ pack := by
  obtain ⟨-, stripped, hstripped, hlookup⟩ := lookup_markPackDeletedOnce h
  obtain ⟨⟨puts, erased⟩, hresult, hrun⟩ := ok_of_mapM_map hstripped hmember
  have hlook := hlookup handle.id
  -- Only the member's own result concerns its key.
  have hputs : ∀ m ∈ stripped.flatMap Prod.fst, m.1 = .blob handle.id → m ∈ puts := by
    intro m hm hkey
    obtain ⟨owner, -, result, howner, hm, hown⟩ := mem_strippedPuts hstripped hm
    obtain rfl : handle.id = owner := Key.blob.inj (hkey.symm.trans hown)
    rw [hrun] at howner
    cases howner
    exact hm
  have herased : .blob handle.id ∈ stripped.flatMap Prod.snd ↔ .blob handle.id ∈ erased := by
    constructor
    · intro hmem
      obtain ⟨owner, -, result, howner, hkey, hown⟩ := mem_strippedDeletes hstripped hmem
      obtain rfl : handle.id = owner := Key.blob.inj hown
      rw [hrun] at howner
      cases howner
      exact hkey
    · exact fun hkey => List.mem_flatMap.mpr ⟨_, hresult, hkey⟩
  simp only [herased] at hlook
  obtain ⟨rfl, rfl, hnone⟩ | ⟨rfl, rfl, hall⟩ | ⟨record, hstored, rfl, rfl⟩ :=
    stripMember_spec hrun
  · rw [if_neg nofun, Table.lookup_putAll_of_forall_ne fun m hm hkey => nomatch hputs m hm hkey]
      at hlook
    rw [located_congr hlook]
    refine ⟨fun hlocated => ⟨hlocated, ?_⟩, And.left⟩
    rintro rfl
    exact hnone handle.type hlocated
  · rw [if_pos List.mem_cons_self] at hlook
    constructor
    · rintro ⟨record, hrecord, -⟩
      rw [hlook] at hrecord
      cases hrecord
    · rintro ⟨hlocated, hne⟩
      exact absurd (hall handle.type other hlocated) hne
  · have hput : (.blob handle.id, .blob ⟨remainingLocations record pack⟩) ∈
        stripped.flatMap Prod.fst :=
      List.mem_flatMap.mpr ⟨_, hresult, List.mem_singleton_self _⟩
    have hagree : ∀ w, (.blob handle.id, w) ∈ stripped.flatMap Prod.fst →
        w = .blob ⟨remainingLocations record pack⟩ := by
      intro w hw
      simpa using hputs _ hw rfl
    rw [if_neg nofun, Table.lookup_putAll_of_mem hput hagree] at hlook
    simp only [Located, hlook, hstored, Option.some.injEq, Value.blob.injEq, exists_eq_left']
    exact locationIn_remainingLocations

/-- Completing a deletion removes the locations its members had in the pack, and
no others. -/
theorem located_markPackDeleted {other : ID} :
    Located store' handle other ↔
      Located store handle other ∧ ¬ (other = pack ∧ handle.id ∈ members) := by
  by_cases hmember : handle.id ∈ members
  · rw [located_of_member h hmember]
    simp [hmember]
  · rw [located_congr (lookup_blob_of_not_member h hmember)]
    simp [hmember]

end

end Deletion

end Vaultic.Daemon
