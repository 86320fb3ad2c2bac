/-
  Repository/Repack.lean  —  copying blobs into new packs.

  Source: internal/repository/repack.go (`CopyBlobs`), run inside
  `WithBlobUploader`.

  Every operation on the daemon or the backend may succeed, fail, or take effect
  and still be reported as failed.  How blobs are grouped into packs is the
  packer's choice and an input; which blobs are copied is not: a worker saves a
  blob only if it is to be kept.
-/
import Vaultic.Daemon.Catalog

set_option autoImplicit false

namespace Vaultic.Repository

open Vaultic.Lib Vaultic.Schema Vaultic.Daemon

/-! ## Operations that may fail -/

/-- How an external operation ends: `lost` took effect but reports an error. -/
inductive Outcome where
  | done
  | lost
  | failed
  deriving DecidableEq, Repr

/-- Did the operation take effect? -/
def Outcome.applied : Outcome → Bool
  | .done | .lost => true
  | .failed => false

/-- A physical removal: the pack, the catalog it found and the clock read before it. -/
structure Removal where
  pack : ID
  store : SchemaStore
  time : Int

/-- The catalog, the pack objects of the backend, and the removals so far. -/
structure World where
  store : SchemaStore
  objects : Finset ID
  removals : List Removal := []

/-- Apply a daemon operation under an outcome: the caller sees success only where
the operation itself and its acknowledgment succeed. -/
def World.attempt (world : World) (outcome : Outcome)
    (operation : SchemaStore → Result SchemaStore) : Bool × World :=
  match operation world.store with
  | .error _ => (false, world)
  | .ok store =>
    if outcome.applied then (decide (outcome = .done), { world with store })
    else (false, world)

/-! ## Copying -/

/-- The handles a pack is published with. -/
def publishedHandles (published : PublishedPack) : Finset BlobHandle :=
  (published.blobs.entries.flatMap fun entry =>
    entry.2.locations.map fun location => (⟨entry.1, location.type⟩ : BlobHandle)).toFinset

/-- The part of a pack that carries kept handles. -/
def keepOnly (keep : Finset BlobHandle) (published : PublishedPack) : PublishedPack :=
  { published with
    blobs := (∅ : Table ID BlobRecord).putAll
      (published.blobs.entries.filterMap fun entry =>
        let locations := entry.2.locations.filter fun location =>
          decide ((⟨entry.1, location.type⟩ : BlobHandle) ∈ keep)
        if locations = [] then none else some (entry.1, ⟨locations⟩)) }

/-- Upload and publish packs one after the other; the first failure ends it. -/
def publishUploads (limits : Limits) (now : Int) :
    List (PublishedPack × Outcome) → World → Bool × World
  | [], world => (true, world)
  | (published, outcome) :: rest, world =>
    let uploaded := { world with objects := insert published.packID world.objects }
    match uploaded.attempt outcome fun store => publishPack limits now store published with
    | (false, world) => (false, world)
    | (true, world) => publishUploads limits now rest world

/-- What a copy meets outside the process: the packs it fills, each with the outcome
of its publication, the outcome of acknowledging them, and a failure to read. -/
structure CopyEnv where
  uploads : List (PublishedPack × Outcome)
  acknowledge : Outcome
  error : Option String

/-- The packs a copy uploads. -/
def CopyEnv.packs (env : CopyEnv) (keep : Finset BlobHandle) : List (PublishedPack × Outcome) :=
  env.uploads.map fun upload => (keepOnly keep upload.1, upload.2)

/-- `CopyBlobs` inside `WithBlobUploader`: the handles left in `keep`. -/
def copyBlobs (limits : Limits) (now : Int) (env : CopyEnv) (keep : Finset BlobHandle)
    (world : World) : Result (Finset BlobHandle) × World :=
  match publishUploads limits now (env.packs keep) world with
  | (false, world) => (.error "publish pack", world)
  | (true, world) =>
    match world.attempt env.acknowledge fun store =>
        markPacksPublished limits now store ((env.packs keep).map (·.1.packID)) with
    | (false, world) => (.error "acknowledge packs", world)
    | (true, world) =>
      match env.error with
      | some message => (.error message, world)
      | none =>
        (.ok (keep.filter fun handle =>
          ∀ upload ∈ env.packs keep, handle ∉ publishedHandles upload.1), world)

/-! ## What a copy changes -/

/-- An attempted operation left the world as it was, or its own result. -/
theorem attempt_cases (world : World) (outcome : Outcome)
    (operation : SchemaStore → Result SchemaStore) :
    world.attempt outcome operation = (false, world) ∨
      ∃ store, operation world.store = .ok store ∧
        (world.attempt outcome operation).2 = { world with store } := by
  unfold World.attempt
  cases hrun : operation world.store with
  | error message => exact .inl rfl
  | ok store =>
    dsimp only
    split
    · exact .inr ⟨store, rfl, rfl⟩
    · exact .inl rfl

/-- What holds of the world and of the operation's result holds after the attempt. -/
theorem attempt_rule {P : World → Prop} {world : World} {outcome : Outcome}
    {operation : SchemaStore → Result SchemaStore} (h : P world)
    (hrun : ∀ store, operation world.store = .ok store → P { world with store }) :
    P (world.attempt outcome operation).2 := by
  rcases attempt_cases world outcome operation with hfailed | ⟨store, hstore, hworld⟩
  · rw [hfailed]
    exact h
  · rw [hworld]
    exact hrun store hstore

variable {published : PublishedPack} {handle : BlobHandle}

theorem mem_publishedHandles :
    handle ∈ publishedHandles published ↔
      ∃ incoming, published.blobs.lookup handle.id = some incoming ∧
        ∃ location ∈ incoming.locations, location.type = handle.type := by
  simp only [publishedHandles, List.mem_toFinset, List.mem_flatMap, List.mem_map]
  constructor
  · rintro ⟨⟨blob, incoming⟩, hentry, location, hlocation, rfl⟩
    exact ⟨incoming, Table.mem_entries_iff.mp hentry, location, hlocation, rfl⟩
  · rintro ⟨incoming, hlook, location, hlocation, htype⟩
    refine ⟨⟨handle.id, incoming⟩, Table.mem_entries_iff.mpr hlook, location, hlocation, ?_⟩
    rw [htype]

variable {store store' : SchemaStore} {limits : Limits} {now : Int}

/-- A published pack holds what it was published with. -/
theorem located_of_published (h : publishPack limits now store published = .ok store')
    (hmem : handle ∈ publishedHandles published) : Located store' handle published.packID := by
  obtain ⟨incoming, hlook, location, hlocation, htype⟩ := mem_publishedHandles.mp hmem
  refine (located_publishPack h).mpr (.inr ⟨incoming, hlook, location, hlocation, ?_, htype⟩)
  exact packID_of_published h hlook ⟨location, hlocation, rfl, rfl⟩

/-- From one catalog to another, only the given packs were filled: nothing left its
pack, and no pack became or ceased to be delete-pending. -/
structure CopyFrame (packs : List PublishedPack) (store store' : SchemaStore) : Prop where
  grows : ∀ handle pack, Located store handle pack → Located store' handle pack
  origin : ∀ handle pack, Located store' handle pack → Located store handle pack ∨
    ∃ published ∈ packs, published.packID = pack ∧ handle ∈ publishedHandles published
  doomed : ∀ pack, lifecycleOf store' pack = some .deletePending ↔
    lifecycleOf store pack = some .deletePending

theorem CopyFrame.refl (packs : List PublishedPack) (store : SchemaStore) :
    CopyFrame packs store store :=
  ⟨fun _ _ h => h, fun _ _ h => .inl h, fun _ => Iff.rfl⟩

theorem CopyFrame.trans {packs : List PublishedPack} {a b c : SchemaStore}
    (hab : CopyFrame packs a b) (hbc : CopyFrame packs b c) : CopyFrame packs a c where
  grows handle pack h := hbc.grows handle pack (hab.grows handle pack h)
  origin handle pack h := by
    rcases hbc.origin handle pack h with hb | hnew
    · exact hab.origin handle pack hb
    · exact .inr hnew
  doomed pack := (hbc.doomed pack).trans (hab.doomed pack)

theorem copyFrame_publishPack {packs : List PublishedPack} (hmem : published ∈ packs)
    (h : publishPack limits now store published = .ok store') : CopyFrame packs store store' where
  grows handle pack hin := (located_publishPack h).mpr (.inl hin)
  origin handle pack hin := by
    rcases (located_publishPack h).mp hin with hold | ⟨incoming, hlook, hlocation⟩
    · exact .inl hold
    have hpack := packID_of_published h hlook hlocation
    obtain ⟨location, hlocation, -, htype⟩ := hlocation
    exact .inr ⟨published, hmem, hpack.symm,
      mem_publishedHandles.mpr ⟨incoming, hlook, location, hlocation, htype⟩⟩
  doomed pack := by
    rw [lifecycleOf_publishPack h]
    split
    · cases lifecycleOf store pack <;> simp
    · rfl

theorem copyFrame_markPacksPublished {ids : List ID} {packs : List PublishedPack}
    (h : markPacksPublished limits now store ids = .ok store') : CopyFrame packs store store' where
  grows handle _ := (located_congr (lookup_blob_markPacksPublished h handle.id)).mpr
  origin handle _ hin :=
    .inl ((located_congr (lookup_blob_markPacksPublished h handle.id)).mp hin)
  doomed pack := by
    rcases lifecycleOf_markPacksPublished h pack with hsame | ⟨-, hbefore, hafter⟩
    · rw [hsame]
    · simp [hbefore, hafter]

/-- An attempted operation is framed as the operation is, and removes nothing. -/
theorem copyFrame_attempt {world : World} {outcome : Outcome} {packs : List PublishedPack}
    {operation : SchemaStore → Result SchemaStore}
    (h : ∀ store, operation world.store = .ok store → CopyFrame packs world.store store) :
    CopyFrame packs world.store (world.attempt outcome operation).2.store ∧
      (world.attempt outcome operation).2.removals = world.removals :=
  attempt_rule (P := fun after => CopyFrame packs world.store after.store ∧
    after.removals = world.removals) ⟨.refl _ _, rfl⟩ fun store hrun => ⟨h store hrun, rfl⟩

/-- An attempt the caller sees succeed has applied the operation. -/
theorem attempt_eq_true {world after : World} {outcome : Outcome}
    {operation : SchemaStore → Result SchemaStore}
    (h : world.attempt outcome operation = (true, after)) :
    ∃ store, operation world.store = .ok store ∧ after = { world with store } := by
  rcases attempt_cases world outcome operation with hfailed | ⟨store, hrun, hworld⟩
  · rw [hfailed] at h
    cases h
  · rw [h] at hworld
    exact ⟨store, hrun, hworld⟩

/-- Uploading fills the uploaded packs only; uploads that all succeeded are located. -/
theorem publishUploads_spec (limits : Limits) (now : Int) {packs : List PublishedPack}
    (uploads : List (PublishedPack × Outcome)) (world : World)
    (hpacks : ∀ upload ∈ uploads, upload.1 ∈ packs) :
    CopyFrame packs world.store (publishUploads limits now uploads world).2.store ∧
      (publishUploads limits now uploads world).2.removals = world.removals ∧
      ((publishUploads limits now uploads world).1 = true →
        ∀ upload ∈ uploads, ∀ handle ∈ publishedHandles upload.1,
          Located (publishUploads limits now uploads world).2.store handle upload.1.packID) := by
  induction uploads generalizing world with
  | nil => exact ⟨CopyFrame.refl _ _, rfl, fun _ => List.forall_mem_nil _⟩
  | cons upload rest ih =>
    obtain ⟨published, outcome⟩ := upload
    have hmem := hpacks (published, outcome) List.mem_cons_self
    have hframe := @copyFrame_attempt
      { world with objects := insert published.packID world.objects } outcome packs
      (fun store => publishPack limits now store published)
      fun _ => copyFrame_publishPack hmem
    unfold publishUploads
    dsimp only
    split
    · rename_i after hrun
      rw [hrun] at hframe
      exact ⟨hframe.1, hframe.2, fun hok => absurd hok (by simp)⟩
    · rename_i after hrun
      rw [hrun] at hframe
      obtain ⟨store, hpublish, rfl⟩ := attempt_eq_true hrun
      obtain ⟨hrest, hremovals, hcarried⟩ :=
        ih _ fun e he => hpacks e (.tail _ he)
      refine ⟨hframe.1.trans hrest, hremovals.trans hframe.2, ?_⟩
      intro hok upload hin handle hhandle
      rcases List.mem_cons.mp hin with rfl | hin
      · exact hrest.grows handle _ (located_of_published hpublish hhandle)
      · exact hcarried hok upload hin handle hhandle

theorem mem_packs_map {env : CopyEnv} {keep : Finset BlobHandle} :
    published ∈ (env.packs keep).map (·.1) ↔
      ∃ upload ∈ env.uploads, keepOnly keep upload.1 = published := by
  simp [CopyEnv.packs]

/-- A copied pack carries kept handles only. -/
theorem mem_keep_of_keepOnly {keep : Finset BlobHandle}
    (h : handle ∈ publishedHandles (keepOnly keep published)) : handle ∈ keep := by
  obtain ⟨incoming, hlook, location, hlocation, htype⟩ := mem_publishedHandles.mp h
  rcases Table.lookup_putAll_cases hlook with hmem | ⟨-, hempty⟩
  · obtain ⟨⟨blob, record⟩, -, hselect⟩ := List.mem_filterMap.mp hmem
    dsimp only at hselect
    split at hselect
    · cases hselect
    simp only [Option.some.injEq, Prod.mk.injEq] at hselect
    obtain ⟨rfl, rfl⟩ := hselect
    have hkept := (List.mem_filter.mp hlocation).2
    rw [decide_eq_true_eq, htype] at hkept
    exact hkept
  · simp at hempty

/-- `CopyBlobs`: it fills its packs only, and what it does not leave over is located
in one of them. -/
theorem copyBlobs_spec (limits : Limits) (now : Int) (env : CopyEnv) (keep : Finset BlobHandle)
    (world : World) :
    CopyFrame ((env.packs keep).map (·.1)) world.store
        (copyBlobs limits now env keep world).2.store ∧
      (copyBlobs limits now env keep world).2.removals = world.removals ∧
      ∀ remaining, (copyBlobs limits now env keep world).1 = .ok remaining →
        ∀ handle ∈ keep, handle ∉ remaining →
          ∃ published ∈ (env.packs keep).map (·.1), handle ∈ publishedHandles published ∧
            Located (copyBlobs limits now env keep world).2.store handle published.packID := by
  obtain ⟨hupload, hremovals, hcarried⟩ := publishUploads_spec limits now (env.packs keep) world
    fun upload hin => List.mem_map_of_mem hin
  unfold copyBlobs
  generalize publishUploads _ _ _ _ = published at hupload hremovals hcarried ⊢
  obtain ⟨_ | _, uploaded⟩ := published
  · exact ⟨hupload, hremovals, fun _ h => by cases h⟩
  have hack := @copyFrame_attempt uploaded env.acknowledge ((env.packs keep).map (·.1))
    (fun store => markPacksPublished limits now store ((env.packs keep).map (·.1.packID)))
    fun _ => copyFrame_markPacksPublished
  dsimp only
  generalize World.attempt _ _ _ = attempted at hack ⊢
  have hframe := hupload.trans hack.1
  have hkept := hack.2.trans hremovals
  obtain ⟨_ | _, after⟩ := attempted
  · exact ⟨hframe, hkept, fun _ h => by cases h⟩
  dsimp only
  split
  · exact ⟨hframe, hkept, fun _ h => by cases h⟩
  refine ⟨hframe, hkept, ?_⟩
  intro remaining hok handle hkeep hleft
  cases hok
  have hcopied : ∃ upload ∈ env.packs keep, handle ∈ publishedHandles upload.1 := by
    by_contra hmissing
    push Not at hmissing
    exact hleft (Finset.mem_filter.mpr ⟨hkeep, hmissing⟩)
  obtain ⟨upload, hin, hhandle⟩ := hcopied
  exact ⟨upload.1, List.mem_map_of_mem hin, hhandle,
    hack.1.grows handle _ (hcarried rfl upload hin handle hhandle)⟩

end Vaultic.Repository
