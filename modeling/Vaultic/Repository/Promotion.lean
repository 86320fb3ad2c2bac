/-
  Repository/Promotion.lean  —  promoting a pack to another backend.

  Source: internal/repository/promotion.go.

  A promotion copies the retained blobs of one pack into new packs and marks the
  source delete-pending.  A promotion that finds live successors of its source in
  the catalog takes itself for the rest of an interrupted one: it marks the source
  at once and does not ask what the successors hold.
-/
import Vaultic.Repository.GC.Scan
import Vaultic.Repository.Repack

set_option autoImplicit false

namespace Vaultic.Repository

open Vaultic.Lib Vaultic.Schema Vaultic.Daemon

/-! ## The source -/

/-- One lineage entry of `findPublishedRepackSuccessors`: a successor counts if it
is exported or published and has a live placement on the target. -/
def repackSuccessor (store : SchemaStore) (target : Nat) (successor : ID) :
    Result (Option ID) := do
  let found ← loadPackRecord store successor
  match found with
  | none => .ok none
  | some record =>
    if record.lifecycle ≠ .exportPending ∧ record.lifecycle ≠ .published then .ok none
    else
      match store.lookup (.packPlacement successor target) with
      | none => .ok none
      | some value => do
          let placement ← unmarshalPlacementRecord value
          .ok (if placement.state = .live then some successor else none)

/-- `findPublishedRepackSuccessors` -/
def findPublishedRepackSuccessors (store : SchemaStore) (source : ID) (target : Nat) :
    Result (List ID) := do
  let found ← store.collect fun key _ =>
    match key with
    | .repackLineage origin successor =>
      if origin = source then some (repackSuccessor store target successor) else none
    | _ => none
  .ok (found.filterMap id)

/-- What a promotion meets outside the store. -/
structure PromotionEnv where
  (slateDBMode daemonEngine : Bool := true)
  connections : Nat := 2
  /-- The placement configuration: is the target registered and addressable? -/
  route : Result Unit := .ok ()
  limits : Limits
  now : Int
  walk : Result (Finset BlobHandle)
  copy : CopyEnv
  mark : Outcome := .done

section

variable (env : PromotionEnv)

/-- The checks before anything is read. -/
def validatePromotion : Result Unit :=
  if env.slateDBMode = false then
    .error "promotion requires a SlateDB-authoritative repository"
  else if env.daemonEngine = false then .error "promotion requires the SlateDB daemon engine"
  else if env.connections < 2 then
    .error "promotion requires a backend connection limit of at least two"
  else env.route

/-- The outcome of a promotion, the world it leaves, and whether it marked the
source. -/
structure PromotionResult where
  outcome : Result (List ID)
  world : World
  marked : Bool := false

/-- The marking that ends a promotion; a lost acknowledgment has marked all the same. -/
def markSource (source : ID) (failure : String) (successors : List ID) (world : World) :
    PromotionResult :=
  match markPackDeletePending env.now world.store source with
  | .error message => { outcome := .error s!"{failure}: {message}", world }
  | .ok store =>
    if env.mark.applied = false then { outcome := .error failure, world }
    else
      { outcome := if env.mark = .done then .ok successors else .error failure
        world := { world with store }, marked := true }

/-- The handles of the source that are retained, under the types the scan kept. -/
def promotionKeep (catalog : BlobCatalog) (source : ID) (retained : Finset BlobHandle) :
    Finset BlobHandle :=
  ((catalog.members source).map fun blob =>
    (⟨blob, (catalog.blobTypes.lookup blob).getD .data⟩ : BlobHandle)).toFinset.filter
      (· ∈ retained)

/-- `promotePackBlobs` -/
def promotePackBlobs (source : ID) (keep : Finset BlobHandle) (world : World) : PromotionResult :=
  match scanPacks world.store with
  | .error message => { outcome := .error message, world }
  | .ok before =>
    match copyBlobs env.limits env.now env.copy keep world with
    | (.error message, world) => { outcome := .error s!"promote pack: {message}", world }
    | (.ok remaining, world) =>
      if remaining ≠ ∅ then
        { outcome := .error s!"promotion left {remaining.card} retained blobs unwritten", world }
      else
        match scanPacks world.store with
        | .error message => { outcome := .error message, world }
        | .ok after =>
          let successors := (after.filter fun entry =>
            decide (entry.1 ∉ before.map (·.1)) &&
              decide (entry.2.lifecycle = .published)).map (·.1)
          if successors = [] then
            { outcome := .error "promotion published no replacement pack", world }
          else
            markSource env source "mark promoted source delete-pending" successors world

/-- `PromotePack` once no successor was found. -/
def promoteAfresh (source : ID) (world : World) : PromotionResult :=
  match scanBlobCatalog world.store with
  | .error message => { outcome := .error message, world }
  | .ok catalog =>
    if catalog.members source = [] then
      { outcome := .error "source pack has no catalog members", world }
    else
      match env.walk with
      | .error message => { outcome := .error message, world }
      | .ok retained =>
        let keep := promotionKeep catalog source retained
        if keep = ∅ then { outcome := .error "placement request is obsolete", world }
        else promotePackBlobs env source keep world

/-- `PromotePack` -/
def promotePack (source : ID) (target : Nat) (world : World) : PromotionResult :=
  match validatePromotion env with
  | .error message => { outcome := .error message, world }
  | .ok () =>
    match findPublishedRepackSuccessors world.store source target with
    | .error message => { outcome := .error message, world }
    | .ok [] => promoteAfresh env source world
    | .ok successors => markSource env source "finish resumed promotion" successors world

end

/-! ## When the source is marked -/

variable {env : PromotionEnv} {source : ID} {world : World}

theorem markSource_marked {failure : String} {successors : List ID}
    (h : (markSource env source failure successors world).marked = true) :
    markPackDeletePending env.now world.store source =
      .ok (markSource env source failure successors world).world.store := by
  unfold markSource at h ⊢
  split at h
  · cases h
  rename_i store hrun
  split at h
  · cases h
  · rename_i happlied
    rw [hrun]
    simp only [if_neg happlied]

/-- Everything that is kept was copied before the source was marked. -/
def CopiedAndMarked (env : PromotionEnv) (source : ID) (world : World) (marked : SchemaStore) :
    Prop :=
  ∃ catalog retained after, scanBlobCatalog world.store = .ok catalog ∧
    env.walk = .ok retained ∧
    copyBlobs env.limits env.now env.copy (promotionKeep catalog source retained) world =
      (.ok ∅, after) ∧
    markPackDeletePending env.now after.store source = .ok marked

theorem promoteAfresh_marked (h : (promoteAfresh env source world).marked = true) :
    CopiedAndMarked env source world (promoteAfresh env source world).world.store := by
  unfold CopiedAndMarked
  unfold promoteAfresh at h ⊢
  split at h
  · cases h
  rename_i catalog hcatalog
  split at h
  · cases h
  rename_i hmembers
  split at h
  · cases h
  rename_i retained hwalk
  dsimp only at h
  split at h
  · cases h
  rename_i hkeep
  rw [if_neg hmembers]
  simp only [hwalk, if_neg hkeep]
  unfold promotePackBlobs at h ⊢
  split at h
  · cases h
  rename_i before hbefore
  split at h
  · cases h
  rename_i remaining after hcopy
  split at h
  · cases h
  rename_i hremaining
  rw [not_not] at hremaining
  subst hremaining
  split at h
  · cases h
  rename_i later hlater
  dsimp only at h
  split at h
  · cases h
  rename_i hsuccessors
  refine ⟨catalog, retained, after, hcatalog, rfl, hcopy, ?_⟩
  simp only [ne_eq, not_true_eq_false, if_false, if_neg hsuccessors]
  exact markSource_marked h

/-- The two ways a promotion marks its source. -/
theorem promotePack_marked {target : Nat}
    (h : (promotePack env source target world).marked = true) :
    (∃ successor rest,
        findPublishedRepackSuccessors world.store source target = .ok (successor :: rest) ∧
        markPackDeletePending env.now world.store source =
          .ok (promotePack env source target world).world.store) ∨
      findPublishedRepackSuccessors world.store source target = .ok [] ∧
        CopiedAndMarked env source world (promotePack env source target world).world.store := by
  unfold promotePack at h ⊢
  split at h
  · cases h
  rename_i hvalid
  split at h
  · cases h
  · rename_i hfind
    simp only [hfind]
    exact .inr ⟨trivial, promoteAfresh_marked h⟩
  · rename_i successors hnone hfind
    cases successors with
    | nil => exact absurd rfl hnone
    | cons successor rest =>
      simp only [hfind]
      exact .inl ⟨successor, rest, rfl, markSource_marked h⟩

/-! ## What the marked source held -/

/-- A pack other than the source, and not delete-pending, holds the handle. -/
def HeldBySurvivor (store : SchemaStore) (source : ID) (handle : BlobHandle) : Prop :=
  ∃ other, other ≠ source ∧ Located store handle other ∧
    lifecycleOf store other ≠ some .deletePending

/-- Marking the source changes nothing about the other packs. -/
theorem heldBySurvivor_mark {now : Int} {store store' : SchemaStore}
    (h : markPackDeletePending now store source = .ok store') (handle : BlobHandle) :
    HeldBySurvivor store' source handle ↔ HeldBySurvivor store source handle := by
  obtain ⟨hblobs, -, hothers, -⟩ := markPackDeletePending_spec h
  refine exists_congr fun other => and_congr_right fun hne => ?_
  rw [located_congr (hblobs handle.id), hothers other hne]

/-- After a copy of everything kept, a handle of the source is held by a survivor
exactly when it was before or was kept. -/
theorem heldBySurvivor_copy {keep : Finset BlobHandle} {world after : World} {handle : BlobHandle}
    (hcopy : copyBlobs env.limits env.now env.copy keep world = (.ok ∅, after))
    (hfresh : ∀ upload ∈ env.copy.uploads, lifecycleOf world.store upload.1.packID = none ∧
      ∀ other, ¬Located world.store other upload.1.packID)
    (hsource : Located world.store handle source) :
    HeldBySurvivor after.store source handle ↔
      HeldBySurvivor world.store source handle ∨ handle ∈ keep := by
  obtain ⟨hframe, -, hcarried⟩ := copyBlobs_spec env.limits env.now env.copy keep world
  rw [hcopy] at hframe hcarried
  constructor
  · rintro ⟨other, hne, hlocated, hlife⟩
    rcases hframe.origin handle other hlocated with hold | ⟨published, hmem, -, hhandle⟩
    · exact .inl ⟨other, hne, hold, fun hd => hlife ((hframe.doomed other).mpr hd)⟩
    · obtain ⟨upload, -, rfl⟩ := mem_packs_map.mp hmem
      exact .inr (mem_keep_of_keepOnly hhandle)
  · rintro (⟨other, hne, hlocated, hlife⟩ | hkeep)
    · exact ⟨other, hne, hframe.grows handle other hlocated,
        fun hd => hlife ((hframe.doomed other).mp hd)⟩
    obtain ⟨published, hmem, -, hlocated⟩ :=
      hcarried ∅ rfl handle hkeep (Finset.notMem_empty handle)
    obtain ⟨upload, hupload, rfl⟩ := mem_packs_map.mp hmem
    obtain ⟨hnew, hempty⟩ := hfresh upload hupload
    refine ⟨upload.1.packID, ?_, hlocated, fun hd => ?_⟩
    · -- The source holds the handle, a new pack holds nothing.
      rintro rfl
      exact hempty handle hsource
    · have hbefore := (hframe.doomed upload.1.packID).mp hd
      rw [hnew] at hbefore
      cases hbefore

/-- A retained handle of the source is kept exactly when the scan kept its type. -/
theorem mem_promotionKeep {store : SchemaStore} {catalog : BlobCatalog}
    {retained : Finset BlobHandle} {handle : BlobHandle}
    (hcatalog : scanBlobCatalog store = .ok catalog) (hretained : handle ∈ retained)
    (hlocated : Located store handle source) :
    handle ∈ promotionKeep catalog source retained ↔
      scannedType store handle.id = some handle.type := by
  obtain ⟨-, hmembers, htypes⟩ := scanBlobCatalog_spec hcatalog
  obtain ⟨type, htype⟩ := exists_scannedType_of_located hlocated
  simp only [promotionKeep, Finset.mem_filter, List.mem_toFinset, List.mem_map, htypes]
  constructor
  · rintro ⟨⟨blob, -, rfl⟩, -⟩
    dsimp only at htype ⊢
    rw [htype, Option.getD_some]
  · intro hscanned
    refine ⟨⟨handle.id, (hmembers _ _).mpr ⟨handle.type, hlocated⟩, ?_⟩, hretained⟩
    rw [hscanned, Option.getD_some]

/-- Every retained handle of the source is held by a survivor once the promotion has
marked it. -/
def SourceCovered (env : PromotionEnv) (source : ID) (target : Nat) (world : World)
    (retained : Finset BlobHandle) : Prop :=
  ∀ handle ∈ retained, Located world.store handle source →
    HeldBySurvivor (promotePack env source target world).world.store source handle

/-- Before the promotion, every retained handle of the source is held by a survivor,
or the catalog names no live successor and the scan keeps the handle's type. -/
def PromotionCovers (source : ID) (target : Nat) (store : SchemaStore)
    (retained : Finset BlobHandle) : Prop :=
  ∀ handle ∈ retained, Located store handle source →
    HeldBySurvivor store source handle ∨
      findPublishedRepackSuccessors store source target = .ok [] ∧
        scannedType store handle.id = some handle.type

/-- A promotion that marks its source leaves its retained handles covered exactly
when they were covered before, or nothing passed for a successor and their types
were scanned. -/
theorem promotePack_covers_iff (env : PromotionEnv) (source : ID) (target : Nat) (world : World)
    (retained : Finset BlobHandle) (hwalk : env.walk = .ok retained)
    (hfresh : ∀ upload ∈ env.copy.uploads, lifecycleOf world.store upload.1.packID = none ∧
      ∀ handle, ¬Located world.store handle upload.1.packID)
    (hmarked : (promotePack env source target world).marked = true) :
    SourceCovered env source target world retained ↔
      PromotionCovers source target world.store retained := by
  refine forall₂_congr fun handle hretained => forall_congr' fun hlocated => ?_
  rcases promotePack_marked hmarked with ⟨successor, rest, hfind, hmark⟩ |
    ⟨hfind, catalog, walked, after, hcatalog, hwalked, hcopy, hmark⟩
  · rw [heldBySurvivor_mark hmark, hfind]
    simp
  obtain rfl : walked = retained := Except.ok.inj (hwalked.symm.trans hwalk)
  rw [heldBySurvivor_mark hmark, heldBySurvivor_copy hcopy hfresh hlocated,
    mem_promotionKeep hcatalog hretained hlocated, hfind]
  simp

/-- One data location. -/
def sampleLocation (pack : ID) : BlobLocation :=
  { packID := pack, offset := 0, length := 5, uncompressedSize := 0, type := .data }

/-- The published pack 10 with the data blobs 1 and 2. -/
def twoBlobWorld : World :=
  { store := (∅ : SchemaStore).putAll
      [(.blob 1, .blob ⟨[sampleLocation 10]⟩), (.blob 2, .blob ⟨[sampleLocation 10]⟩),
        (.pack 10, .pack
          { type := .data, lifecycle := .published, blobCount := 2, payloadSize := 10 })]
    objects := {10} }

/-- A replacement of pack 10 with one blob, placed on backend 7. -/
def replacementPack (pack blob : ID) : PublishedPack :=
  { packID := pack
    record := { type := .data, lifecycle := .exportPending, blobCount := 1, payloadSize := 5 }
    blobs := (∅ : Table ID BlobRecord).insert blob ⟨[sampleLocation pack]⟩
    placements := (∅ : Table Nat PlacementRecord).insert 7 { state := .live }
    predecessorPackIDs := [10]
    lineageKind := .promotion
    runID := 1 }

/-- A promotion with both blobs retained, whose second publication ends as given. -/
def samplePromotion (second : Outcome) : PromotionEnv :=
  { limits := ⟨1000, 1048576⟩, now := 0, walk := .ok {⟨1, .data⟩, ⟨2, .data⟩}
    copy := ⟨[(replacementPack 30 1, .done), (replacementPack 31 2, second)], .done, none⟩ }

/-- The same promotion run again, with nothing left to upload. -/
def resumedPromotion : PromotionEnv :=
  { samplePromotion .done with copy := ⟨[], .done, none⟩ }

/-- The published pack 10 with the data blob 1 only. -/
def oneBlobWorld : World :=
  { store := (∅ : SchemaStore).putAll
      [(.blob 1, .blob ⟨[sampleLocation 10]⟩),
        (.pack 10, .pack
          { type := .data, lifecycle := .published, blobCount := 1, payloadSize := 5 })]
    objects := {10} }

/-- An undisturbed promotion of that pack. -/
def oneBlobPromotion : PromotionEnv :=
  { samplePromotion .done with
    walk := .ok {⟨1, .data⟩}, copy := ⟨[(replacementPack 30 1, .done)], .done, none⟩ }

theorem promotePack_covers_iff_sample :
    (promotePack oneBlobPromotion 10 7 oneBlobWorld).marked = true ∧
      (SourceCovered oneBlobPromotion 10 7 oneBlobWorld {⟨1, .data⟩} ↔
        PromotionCovers 10 7 oneBlobWorld.store {⟨1, .data⟩}) := by
  have hmarked : (promotePack oneBlobPromotion 10 7 oneBlobWorld).marked = true := by
    decide +kernel
  refine ⟨hmarked, promotePack_covers_iff _ _ _ _ _ rfl ?_ hmarked⟩
  intro upload hupload
  rw [List.mem_singleton.mp hupload]
  refine ⟨rfl, fun handle hlocated => ?_⟩
  -- The only blob record lies in pack 10.
  obtain ⟨record, hlook, location, hmem, hpack, -⟩ := hlocated
  rcases Table.lookup_putAll_cases hlook with hput | ⟨-, hempty⟩
  · simp only [List.mem_cons, Prod.mk.injEq, Value.blob.injEq, reduceCtorEq, and_false,
      List.not_mem_nil, or_false] at hput
    obtain ⟨-, rfl⟩ := hput
    rw [List.mem_singleton.mp hmem] at hpack
    exact absurd hpack (by decide)
  · simp at hempty

/-- The first promotion publishes pack 30 and fails on the second pack; the next one
takes pack 30 for the whole replacement and marks pack 10, the only one with blob 2. -/
theorem promotePack_resumed_drops_blob :
    (promotePack resumedPromotion 10 7
        (promotePack (samplePromotion .failed) 10 7 twoBlobWorld).world).marked = true ∧
      ¬SourceCovered resumedPromotion 10 7
        (promotePack (samplePromotion .failed) 10 7 twoBlobWorld).world
        {⟨1, .data⟩, ⟨2, .data⟩} := by
  refine ⟨by decide +kernel, fun hcovered => ?_⟩
  have hbefore : storedBlob (promotePack (samplePromotion .failed) 10 7
      twoBlobWorld).world.store 2 = some ⟨[sampleLocation 10]⟩ := by
    decide +kernel
  have hafter : storedBlob (promotePack resumedPromotion 10 7
      (promotePack (samplePromotion .failed) 10 7 twoBlobWorld).world).world.store 2 =
        some ⟨[sampleLocation 10]⟩ := by
    decide +kernel
  have hlocated : Located (promotePack (samplePromotion .failed) 10 7 twoBlobWorld).world.store
      ⟨2, .data⟩ 10 :=
    located_iff_storedBlob.mpr ⟨_, hbefore, _, List.mem_singleton_self _, rfl, rfl⟩
  obtain ⟨other, hne, hother, -⟩ := hcovered ⟨2, .data⟩ (by decide) hlocated
  obtain ⟨record, hrecord, location, hmem, hpack, -⟩ := located_iff_storedBlob.mp hother
  obtain rfl := Option.some.inj (hafter.symm.trans hrecord)
  rw [List.mem_singleton.mp hmem] at hpack
  exact hne hpack.symm

end Vaultic.Repository
