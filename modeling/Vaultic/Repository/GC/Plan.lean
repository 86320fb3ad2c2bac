/-
  Repository/GC/Plan.lean  —  planning a garbage collection.

  Source: internal/repository/gc.go (`PlanGC` and what it calls),
  internal/repository/placement_policy.go (`placementRepackDecision`).

  Planning scans the catalog, compares it with the blob handles reached from the
  retained snapshots, and sorts the published packs: a pack without a live member
  is swept, a pack with live and dead members is repacked, any other stays.  What
  comes from outside the store (the clock, the snapshot walk, the staged journal
  roots, the placement configuration) is an input.
-/
import Vaultic.Repository.GC.Scan

set_option autoImplicit false

namespace Vaultic.Repository

open Vaultic.Lib Vaultic.Schema Vaultic.Daemon

/-! ## Placement -/

structure PlacementBackend where
  hash : Nat
  (pricePerGBMonth pricePerGBEgress pricePer1KRequests : ℚ := 0)
  (minRetentionSeconds objectOverheadBytes : Nat := 0)

/-- `MinRetention`: the multiplication wraps as the source's durations do. -/
def PlacementBackend.minRetention (backend : PlacementBackend) : Int :=
  toInt64 (backend.minRetentionSeconds * 1000000000)

structure PlacementDecisionInputs where
  (physicalSize unusedPayloadBytes : Nat)
  (pricePerGBMonth pricePerGBEgress pricePer1KRequests : ℚ)
  remainingRetention : Int
  retentionSource : RetentionSource
  horizon : Int
  (objectOverheadBytes requests : Nat)

/-- `placementRepackDecision(input).Repack`.  The comparison of the two amounts is
floating point arithmetic and enters as `savingExceedsCost`. -/
def placementRepackDecision (savingExceedsCost : PlacementDecisionInputs → Bool)
    (input : PlacementDecisionInputs) : Bool :=
  if input.pricePerGBMonth ≤ 0 ∨ input.horizon ≤ 0 then false
  else if input.retentionSource = .unknown then false
  else savingExceedsCost input

/-! ## Inputs and results -/

structure GCOptions where
  (dryRun discoverOnly : Bool := false)
  minCandidateAge : Int := 0

/-- What planning takes from outside the store: the repository checks, the clock,
the snapshot walk, the staged roots and the placement configuration. -/
structure GCEnv where
  (slateDBMode daemonEngine : Bool := true)
  connections : Nat := 2
  limits : Limits
  now : Int
  runID : ID
  walk : Result (Finset BlobHandle)
  stagedRoots : Option (Result (Finset ID)) := none
  model : Result (List PlacementBackend) := .ok []
  savingExceedsCost : PlacementDecisionInputs → Bool := fun _ => false
  /-- What the daemon answers to the bookkeeping write, if it refuses it. -/
  bookkeepingError : Option String := none

structure GCStats where
  (blobsScanned packsScanned blobCandidates wholePackCandidates mixedPackCandidates : Nat := 0)
  (pendingAge pendingRetries packsDeleted packsRepacked packsRetried packsRetryFailed : Nat := 0)
  (blobsFreed bytesFreed packsAccounted packsUnaccountable : Nat := 0)

structure GCPlan where
  opts : GCOptions
  wholePacks : Table ID (List ID) := ∅
  mixedPacks : Table ID (Finset BlobHandle) := ∅
  (mixedPackMembers retryPacks : Table ID (List ID) := ∅)
  packBytes : Table ID Nat := ∅
  packRecords : List (ID × PackRecord) := []
  stats : GCStats := {}

/-- `gcClassificationInput` -/
structure ClassificationInput where
  packs : List (ID × PackRecord)
  catalog : BlobCatalog
  unreachable : Finset ID
  existing : List ((GCTarget × ID) × GarbageCollectionRecord)
  placements : List ((ID × Nat) × PlacementRecord)
  model : List PlacementBackend
  savingExceedsCost : PlacementDecisionInputs → Bool
  (now minAge : Int)

/-- `gcClassification` -/
structure Classification where
  wholePacks : Table ID (List ID) := ∅
  mixedPacks : Table ID (Finset BlobHandle) := ∅
  mixedPackMembers : Table ID (List ID) := ∅
  packBytes : Table ID Nat := ∅
  gcPuts : List Mutation := []
  (packsScanned wholePackCandidates mixedPackCandidates pendingAge : Nat := 0)

/-! ## Classification -/

/-- `Time.Sub`, which saturates at the bounds of a duration. -/
def timeSub (later earlier : Int) : Int :=
  max (-2 ^ 63) (min (2 ^ 63 - 1) (later - earlier))

section

variable (input : ClassificationInput) (env : GCEnv) (opts : GCOptions) (store : SchemaStore)

/-- `input.existing[key]` -/
def discoveredBefore (target : GCTarget) (id : ID) : Option Int :=
  (input.existing.lookup (target, id)).map (·.discoveredUnixNano)

/-- `livePackMembers`: the handles of the members that are not unreachable, each
under the one type the scan kept. -/
def livePackMembers (members : List ID) (input : ClassificationInput) : Finset BlobHandle × Bool :=
  let live := members.filter (· ∉ input.unreachable)
  ((live.map fun blob =>
      (⟨blob, (input.catalog.blobTypes.lookup blob).getD .data⟩ : BlobHandle)).toFinset,
    decide (live = []))

/-- `packDiscoveredAt` -/
def packDiscoveredAt (pack : ID) (members : List ID) (input : ClassificationInput) : Int :=
  let start := (discoveredBefore input .pack pack).getD input.now
  (members.filter (· ∈ input.unreachable)).foldl
    (fun discovered blob =>
      match discoveredBefore input .blob blob with
      | some candidate => if candidate < discovered then candidate else discovered
      | none => discovered)
    start

/-- The bytes of a pack's unreachable members. -/
def unusedBytes (memberBytes : List (ID × Nat)) (unreachable : Finset ID) : Nat :=
  ((memberBytes.filter (·.1 ∈ unreachable)).map (·.2)).sum % 2 ^ 64

/-- The backend configured under a hash; a later entry replaces an earlier one. -/
def backendByHash (model : List PlacementBackend) (hash : Nat) : Option PlacementBackend :=
  model.reverse.find? (·.hash == hash)

/-- One placement of `mixedPackRepackAllowed`: does it let the repack through? -/
def placementAllowsRepack (record : PackRecord) (unused : Nat) (backendHash : Nat)
    (placement : PlacementRecord) : Bool :=
  match backendByHash input.model backendHash with
  | none => true
  | some backend =>
    if placement.state ≠ .live then true
    else
      let remainingRetention :=
        if placement.retentionSource ≠ .unknown ∧ placement.minRetentionUntil > input.now then
          toInt64 (placement.minRetentionUntil - input.now)
        else 0
      if ¬(backend.pricePerGBMonth > 0 ∨ backend.pricePerGBEgress > 0 ∨
          backend.pricePer1KRequests > 0 ∨ backend.minRetention > 0 ∨
          placement.retentionSource ≠ .unknown) then
        true
      else
        placementRepackDecision input.savingExceedsCost
          { physicalSize := record.physicalSize
            unusedPayloadBytes := unused
            pricePerGBMonth := backend.pricePerGBMonth
            pricePerGBEgress := backend.pricePerGBEgress
            pricePer1KRequests := backend.pricePer1KRequests
            remainingRetention
            retentionSource := placement.retentionSource
            objectOverheadBytes := backend.objectOverheadBytes
            requests := 2
            horizon := 180 * 24 * 3600 * 1000000000 }

/-- `mixedPackRepackAllowed` -/
def mixedPackRepackAllowed (pack : ID) (record : PackRecord) : Bool :=
  let placements := input.placements.filter (·.1.1 = pack)
  if placements = [] ∨ input.model = [] then true
  else
    let unused := unusedBytes (input.catalog.memberBytes pack) input.unreachable
    placements.all fun placement =>
      placementAllowsRepack input record unused placement.1.2 placement.2

/-- `classifyPackCandidate` -/
def classifyPackCandidate (result : Classification) (pack : ID) (record : PackRecord)
    (members : List ID) (keep : Finset BlobHandle) (allUnreachable ready : Bool)
    (input : ClassificationInput) : Classification :=
  let result := { result with packBytes := result.packBytes.insert pack record.physicalSize }
  if allUnreachable then
    let result := { result with wholePackCandidates := result.wholePackCandidates + 1 }
    if ready then { result with wholePacks := result.wholePacks.insert pack members }
    else { result with pendingAge := result.pendingAge + 1 }
  else
    let result := { result with mixedPackCandidates := result.mixedPackCandidates + 1 }
    if ready && mixedPackRepackAllowed input pack record then
      { result with
        mixedPacks := result.mixedPacks.insert pack keep
        mixedPackMembers := result.mixedPackMembers.insert pack members }
    else { result with pendingAge := result.pendingAge + 1 }

/-- One pack of `classifyPacksWithPlacement`. -/
def classifyPackEntry (result : Classification) (entry : ID × PackRecord) : Result Classification :=
  let members := input.catalog.members entry.1
  if entry.2.lifecycle ≠ .published ∨ members = [] then .ok result
  else
    let result := { result with packsScanned := result.packsScanned + 1 }
    let (keep, allUnreachable) := livePackMembers members input
    if allUnreachable = false ∧ keep.card = members.length then .ok result
    else do
      let discovered := packDiscoveredAt entry.1 members input
      let value ← marshalGarbageCollectionRecord
        { state := .revalidated, discoveredUnixNano := discovered }
      let result := { result with
        gcPuts := result.gcPuts ++ [(.garbageCollection .pack entry.1, value)] }
      let ready := decide (timeSub input.now discovered ≥ input.minAge)
      .ok (classifyPackCandidate result entry.1 entry.2 members keep allUnreachable ready input)

/-- `classifyPacksWithPlacement` -/
def classifyPacksWithPlacement : Result Classification :=
  input.packs.foldlM (classifyPackEntry input) {}

/-! ## The plan -/

/-- `validateGCRepository` -/
def validateGCRepository : Result Unit :=
  if env.slateDBMode = false then
    .error "gc requires a SlateDB-authoritative repository; use prune for legacy repositories"
  else if env.daemonEngine = false then .error "gc requires the SlateDB daemon engine"
  else if env.connections < 2 then
    .error "gc requires a backend connection limit of at least two"
  else .ok ()

/-- Is a scanned blob without a reached handle and without a reverse reference?
Only data blobs have reverse references. -/
def isUnreachable (reached : Finset BlobHandle) (referenced : List ID) (blob : ID)
    (type : BlobType) : Bool :=
  decide (⟨blob, type⟩ ∉ reached) && !(decide (type = .data) && decide (blob ∈ referenced))

/-- The `unreachable` map of `PlanGC`. -/
def unreachableBlobs (blobTypes : Table ID BlobType) (reached : Finset BlobHandle)
    (referenced : List ID) : Finset ID :=
  (blobTypes.scan fun blob type =>
    if isUnreachable reached referenced blob type then some blob else none).toFinset

/-- The packs an earlier pass left delete-pending, with their members. -/
def pendingRetries (packs : List (ID × PackRecord)) (catalog : BlobCatalog) : Table ID (List ID) :=
  packs.foldl
    (fun acc entry =>
      if entry.2.lifecycle = .deletePending then acc.insert entry.1 (catalog.members entry.1)
      else acc)
    ∅

/-- The put of one candidate of `discoverOnly`. -/
def discoverPut (now : Int) (existing : List ((GCTarget × ID) × GarbageCollectionRecord))
    (blob : ID) : Result Mutation := do
  let discovered := ((existing.lookup (.blob, blob)).map (·.discoveredUnixNano)).getD now
  let value ← marshalGarbageCollectionRecord
    { state := .candidate, discoveredUnixNano := discovered }
  .ok (.garbageCollection .blob blob, value)

/-- The candidates of `discoverOnly`: data blobs without a reverse reference. -/
def discoverCandidates (blobTypes : Table ID BlobType) (referenced : List ID) : List ID :=
  blobTypes.scan fun blob type =>
    if type = .data ∧ blob ∉ referenced then some blob else none

/-- A table of the plan without the staged packs. -/
def unstaged {ν : Type} (staged : Finset ID) (table : Table ID ν) : Table ID ν :=
  table.deleteAll (table.keys.filter (· ∈ staged))

/-- `excludeStagedRoots` -/
def GCPlan.excludeStagedRoots (plan : GCPlan)
    (stagedRoots : Option (Result (Finset ID))) : Result GCPlan :=
  match stagedRoots with
  | none => .ok plan
  | some (.error message) => .error s!"load staged journal roots: {message}"
  | some (.ok staged) =>
    .ok { plan with
      wholePacks := unstaged staged plan.wholePacks
      mixedPacks := unstaged staged plan.mixedPacks
      mixedPackMembers := unstaged staged plan.mixedPackMembers
      retryPacks := unstaged staged plan.retryPacks
      stats := { plan.stats with
        wholePackCandidates := (unstaged staged plan.wholePacks).entries.length
        mixedPackCandidates := (unstaged staged plan.mixedPacks).entries.length
        pendingRetries := (unstaged staged plan.retryPacks).entries.length } }

/-- The payload split of one pack in `computePackUsage`: none where nothing is to
be recorded, `.error` where the members do not sum to the payload. -/
def packUsageSplit (record : PackRecord) (memberBytes : List (ID × Nat))
    (unreachable : Finset ID) : Except Unit (Option PackUsage) :=
  let total := (memberBytes.map (·.2)).sum % 2 ^ 64
  let unused := unusedBytes memberBytes unreachable
  let used := ((memberBytes.filter (·.1 ∉ unreachable)).map (·.2)).sum % 2 ^ 64
  if total ≠ record.payloadSize then .error ()
  else if record.usageKnown = true ∧ record.usedPayloadBytes = used ∧
      record.unusedPayloadBytes = unused then
    .ok none
  else .ok (some ⟨used, unused⟩)

/-- `computePackUsage`: the changed splits and the number of inconsistent packs. -/
def computePackUsage (packs : List (ID × PackRecord)) (catalog : BlobCatalog)
    (unreachable : Finset ID) : List (ID × PackUsage) × Nat :=
  packs.foldl
    (fun acc entry =>
      if entry.2.lifecycle = .deleted ∨ catalog.packMemberBytes.lookup entry.1 = none then acc
      else
        match packUsageSplit entry.2 (catalog.memberBytes entry.1) unreachable with
        | .error () => (acc.1, acc.2 + 1)
        | .ok none => acc
        | .ok (some usage) => (acc.1 ++ [(entry.1, usage)], acc.2))
    ([], 0)

/-- What planning decides before it writes anything. -/
structure GCDecision where
  plan : GCPlan
  puts : List Mutation := []
  usage : List (ID × PackUsage) := []

/-- The statistics known after the scans. -/
def scanStats (catalog : BlobCatalog) (retryPacks : Table ID (List ID)) : GCStats :=
  { blobsScanned := catalog.blobTypes.entries.length
    pendingRetries := retryPacks.entries.length }

/-- `PlanGC` with `DiscoverOnly`: candidates are recorded, nothing is scheduled. -/
def decideDiscoverOnly : Result GCDecision := do
  let packs ← scanPacks store
  let catalog ← scanBlobCatalog store
  let retryPacks := pendingRetries packs catalog
  let existing ← loadExistingGCTimestamps store
  let candidates := discoverCandidates catalog.blobTypes (scanReferencedDataBlobs store)
  let puts ← (candidates.map (discoverPut env.now existing)).mapM id
  .ok { plan :=
          { opts, retryPacks, packRecords := packs
            stats := { scanStats catalog retryPacks with blobCandidates := puts.length } }
        puts }

/-- What `PlanGC` hands to the classification: the scans, and the blobs the
snapshot walk and the reverse references leave unreachable. -/
def classificationInput : Result ClassificationInput := do
  let packs ← scanPacks store
  let catalog ← scanBlobCatalog store
  let reached ← env.walk
  let existing ← loadExistingGCTimestamps store
  let placements ← scanGCPlacements store
  let model ← env.model
  .ok { packs, catalog, existing, placements, model
        unreachable :=
          unreachableBlobs catalog.blobTypes reached (scanReferencedDataBlobs store)
        savingExceedsCost := env.savingExceedsCost, now := env.now
        minAge := opts.minCandidateAge }

/-- `PlanGC` after the walk. -/
def decideSweep : Result GCDecision := do
  let input ← classificationInput env opts store
  let result ← classifyPacksWithPlacement input
  let retryPacks := pendingRetries input.packs input.catalog
  let (usage, inconsistent) := computePackUsage input.packs input.catalog input.unreachable
  let plan ← GCPlan.excludeStagedRoots
    { opts, retryPacks, packRecords := input.packs
      wholePacks := result.wholePacks, mixedPacks := result.mixedPacks
      mixedPackMembers := result.mixedPackMembers, packBytes := result.packBytes
      stats := { scanStats input.catalog retryPacks with
        blobCandidates := input.unreachable.card, packsScanned := result.packsScanned
        wholePackCandidates := result.wholePackCandidates
        mixedPackCandidates := result.mixedPackCandidates
        pendingAge := result.pendingAge, packsUnaccountable := inconsistent } }
    env.stagedRoots
  .ok { plan, puts := result.gcPuts, usage }

/-- The reading part of `PlanGC`. -/
def decideGC : Result GCDecision := do
  validateGCRepository env
  if opts.discoverOnly then decideDiscoverOnly env opts store else decideSweep env opts store

/-- `PlanGC`: the outcome, and the store after the bookkeeping and the usage
refresh.  Nothing is written on a dry run. -/
def planGC : Result GCPlan × SchemaStore :=
  match decideGC env opts store with
  | .error message => (.error message, store)
  | .ok decision =>
    if opts.dryRun then (.ok decision.plan, store)
    else
      match env.bookkeepingError, decision.puts with
      | some message, _ :: _ =>
        -- `discoverOnly` returns the daemon's error as it is.
        (.error (if opts.discoverOnly then message
          else s!"record GC bookkeeping: {message}"), store)
      | _, puts =>
        match updatePackUsage env.limits env.now 0 (store.putAll puts) decision.usage with
        | (.error message, store') =>
          (.error s!"record pack usage accounting: {message}", store')
        | (.ok applied, store') =>
          (.ok { decision.plan with
            stats := { decision.plan.stats with packsAccounted := applied } }, store')

end

end Vaultic.Repository
