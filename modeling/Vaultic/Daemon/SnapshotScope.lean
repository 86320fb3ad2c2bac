/-
  Daemon/SnapshotScope.lean  —  publishing and forgetting a snapshot.

  Source: internal/index/daemon/schema_store_generation.go
  (`publishSnapshotScopeOnce`, `forgetSnapshotOnce`).

  Both take one number of the revision counter as their commit sequence, in the transaction
  that writes or deletes the snapshot.  What they read before the transaction begins (the
  identities under the root, the source bindings of the crawl's scope) is an argument.
-/
import Vaultic.Daemon.Publication
import Vaultic.Wire.Snapshots

set_option autoImplicit false

namespace Vaultic.Daemon

open Vaultic.Lib Vaultic.Schema

/-! ## Arguments -/

/-- A revision of an inode, as the walk below a snapshot root finds it. -/
structure SnapshotIdentity where
  fsid : UInt32
  (inode revision : UInt64)

structure AuthoritativeCrawlClaim where
  scopeID : ID
  rootFSID : UInt32
  (rootInode startFence : UInt64)
  complete : Bool
  debtKeys : List Key
  deriving DecidableEq, Repr

structure SnapshotScope where
  snapshotID : ID
  rootKey : Key
  originalJSON : Bytes
  crawl : Option AuthoritativeCrawlClaim

/-- A source binding as the scan of a scope finds it: the identity and generation of its key,
and its record. -/
structure SourceBinding where
  fsid : UInt32
  (inode generation : UInt64)
  record : Wire.AuthoritativeSourceBindingRecord
  deriving DecidableEq, Repr

/-- What is read before the transaction begins. -/
structure SnapshotReads where
  (identities crawlIdentities : List SnapshotIdentity)
  bindings : List SourceBinding

/-- What the source uses of other packages: SHA-256, JSON and the clock. -/
structure SnapshotEnv where
  host : Wire.SnapshotHost
  snapshotTime : Bytes → Int64
  now : Int64

/-! ## Values without a record type of their own -/

/-- The bytes of a value, where it is kept as bytes. -/
def rawBytes : Value → Result Bytes
  | .raw data => .ok data
  | _ => .error (malformed "unsupported or missing schema version")

def bindingKey (scope : ID) (fsid : UInt32) (inode generation : UInt64) : Key :=
  .other ((Wire.authoritativeSourceBindingKey scope fsid inode generation).getD [])

def deltaKey (commit : Nat) (ordinal : UInt32) : Key :=
  .other ((Wire.analyticsDeltaKey (UInt64.ofNat commit) ordinal).getD [])

def SourceBinding.key (scope : ID) (binding : SourceBinding) : Key :=
  bindingKey scope binding.fsid binding.inode binding.generation

/-! ## The base of the plan -/

structure SnapshotPlan where
  next : Nat
  puts : List Mutation
  deltaOrdinal : UInt32 := 0

section

variable (env : SnapshotEnv) (store : SchemaStore)

/-- `loadNextSnapshotRevision` -/
def loadNextSnapshotRevision : Result Nat := do
  let next ← loadNextRevision store
  if next = maxUint64 then .error "repository revision sequence exhausted" else .ok next

/-- The bytes of a root key. -/
def rootKeyBytes (fsid inode revision : Nat) : Bytes :=
  Wire.directoryRevisionKey (UInt32.ofNat fsid) (UInt64.ofNat inode) (UInt64.ofNat revision)

/-- `encodeSnapshotPublication`, with the keys of its four values. -/
def encodeSnapshotPublication (scope : SnapshotScope) (fsid inode revision next : Nat) :
    Result (List Mutation) := do
  let snapshot ← Wire.SnapshotRecord.marshalBinary env.host
    { commitSequence := UInt64.ofNat next, rootFSID := UInt32.ofNat fsid
      rootInode := UInt64.ofNat inode, rootRevision := UInt64.ofNat revision
      originalJSON := scope.originalJSON, jsonHash := 0, legacyTree := 0 }
  let commit ← Wire.SnapshotCommitRecord.marshalBinary
    { snapshotTimeUnixNano := env.snapshotTime scope.originalJSON
      rootKey := rootKeyBytes fsid inode revision }
  let checkpoint ← Wire.ExportCheckpointRecord.marshalBinary
    { state := Wire.exportComplete, commitSequence := UInt64.ofNat next, attempts := 1
      rootKey := rootKeyBytes fsid inode revision, lastError := [] }
  let counter ← nextRevisionPut (next + 1)
  .ok
    [(.snapshot scope.snapshotID, .raw snapshot),
      (.other (Wire.snapshotCommitKey (UInt64.ofNat next) scope.snapshotID), .raw commit),
      (.other (Wire.exportCheckpointKey scope.snapshotID), .raw checkpoint), counter]

/-- `planSnapshotBase`: nothing is planned where the export is not pending any more. -/
def planSnapshotBase (scope : SnapshotScope) (fsid inode revision : Nat) (store : SchemaStore) :
    Result (Option SnapshotPlan) :=
  if (store.lookup scope.rootKey).isNone then
    .error "snapshot root revision is not durable"
  else
    match store.lookup (.other (Wire.exportCheckpointKey scope.snapshotID)) with
    | none => .error "snapshot export checkpoint is missing"
    | some value => do
        let data ← rawBytes value
        let checkpoint ← Wire.unmarshalExportCheckpointRecord data
        if checkpoint.state ≠ Wire.exportPending then .ok none
        else
          let next ← loadNextSnapshotRevision store
          let puts ← encodeSnapshotPublication env scope fsid inode revision next
          .ok (some { next, puts })

/-! ## Analytics deltas -/

/-- A delta without the fields that only some deltas use. -/
def plainDelta (kind : Wire.AnalyticsDeltaKind) (fsid : UInt32)
    (inode identityGeneration revision : UInt64) (state : Wire.AnalyticsResidency)
    (epoch : UInt64) : Wire.AnalyticsDeltaRecord :=
  { kind, fsid, inode, identityGeneration, revision, uid := 0, gid := 0, known := 0
    createdAt := 0, logicalSize := 0, creationBasis := 0
    identityContinuity := Wire.analyticsContinuityUnknown, state, retainedSnapshotRefs := 0
    classificationEpoch := epoch, svm := 0, volume := 0, pathGroup := 0
    referenceOperation := Wire.analyticsReferencesLegacy }

/-- A delta that moves the retained references of an identity. -/
def referenceDelta (identity : SnapshotIdentity) (generation : UInt64) (next : Nat)
    (epoch : UInt64) (refs : UInt64) (operation : Wire.AnalyticsReferenceOperation) :
    Wire.AnalyticsDeltaRecord :=
  { plainDelta Wire.analyticsDeltaRetainedReferences identity.fsid identity.inode generation
      (UInt64.ofNat next) Wire.analyticsUnknown epoch with
    retainedSnapshotRefs := refs, referenceOperation := operation }

/-- Deltas under consecutive ordinals. -/
def numberDeltas (next : Nat) : UInt32 → List Wire.AnalyticsDeltaRecord →
    Result (List Mutation)
  | _, [] => .ok []
  | ordinal, delta :: rest => do
      let encoded ← delta.marshalBinary
      let later ← numberDeltas next (ordinal + 1) rest
      .ok ((deltaKey next ordinal, .raw encoded) :: later)

/-- `planSnapshotAnalytics`; `generation` gives the generation of a crawled identity, zero
where it has none. -/
def planSnapshotAnalytics (identities : List SnapshotIdentity)
    (generation : SnapshotIdentity → UInt64) (plan : SnapshotPlan) : Result SnapshotPlan :=
  match enabledAnalytics store with
  | none => .ok plan
  | some metadata => do
      let deltas := identities.map fun identity =>
        referenceDelta identity
          (if generation identity ≠ 0 then generation identity else identity.revision)
          plan.next metadata.generation 1 Wire.analyticsReferencesIncrement
      let puts ← numberDeltas plan.next plan.deltaOrdinal deltas
      .ok { plan with
        puts := plan.puts ++ puts
        deltaOrdinal := plan.deltaOrdinal + UInt32.ofNat deltas.length }

/-! ## The authoritative crawl -/

def sourceBindingPriority (state : Wire.AuthoritativeSourceState) : Nat :=
  if state = Wire.authoritativeSourceLive then 2
  else if state = Wire.authoritativeSourceUnknown then 1
  else 0

/-- The loop of `currentSourceBinding`: `record` displaces `selected`. -/
def displaces (record : Wire.AuthoritativeSourceBindingRecord) : Option SourceBinding → Bool
  | none => true
  | some selected =>
    decide (sourceBindingPriority record.state > sourceBindingPriority selected.record.state) ||
      (decide (sourceBindingPriority record.state =
          sourceBindingPriority selected.record.state) &&
        decide (record.lastObservedCommit > selected.record.lastObservedCommit))

/-- `currentSourceBinding` -/
def currentSourceBinding (bindings : List SourceBinding) (fsid : UInt32) (inode : UInt64) :
    Option SourceBinding :=
  bindings.foldl (fun selected binding =>
    if binding.fsid = fsid ∧ binding.inode = inode ∧ displaces binding.record selected then
      some binding
    else selected) none

/-- The generation of a crawled identity before the transaction; the last entry counts. -/
def crawlGeneration (reads : SnapshotReads) (identity : SnapshotIdentity) : UInt64 :=
  match reads.crawlIdentities.reverse.find? fun crawled =>
      decide (crawled.fsid = identity.fsid ∧ crawled.inode = identity.inode) with
  | none => 0
  | some crawled =>
    match currentSourceBinding reads.bindings crawled.fsid crawled.inode with
    | some binding =>
      if binding.record.state = Wire.authoritativeSourceLive then binding.record.generation
      else crawled.revision
    | none => crawled.revision

/-- The mutations of a crawl: records under their keys, and deltas that get a key when they
are appended to the plan. -/
inductive CrawlMutation where
  | record (key : Key) (data : Bytes)
  | delta (delta : Wire.AnalyticsDeltaRecord)

structure CrawlPlan where
  debtFree : Bool
  observed : List Key
  mutations : List CrawlMutation

/-- Whether a debt is settled, where it is stored. -/
def debtSettled (key : Key) : Result Bool :=
  match key with
  | .crawlDebt _ _ =>
    match store.lookup key with
    | none => .ok true
    | some value => do
        let debt ← unmarshalCrawlDebtRecord value
        .ok (decide (debt.status = .resolved))
  | _ => .error "invalid authoritative crawl debt key"

/-- `planAuthoritativeCrawlProof` -/
def planAuthoritativeCrawlProof (claim : AuthoritativeCrawlClaim) (commit : Nat) :
    Result CrawlPlan := do
  let settled ← (claim.debtKeys.map (debtSettled store)).mapM id
  let debtFree := settled.all id
  let proof ← Wire.AuthoritativeCrawlProofRecord.marshalBinary
    { scopeID := claim.scopeID, rootFSID := claim.rootFSID, rootInode := claim.rootInode
      startFence := claim.startFence, endCommit := UInt64.ofNat commit, completedAt := env.now
      complete := claim.complete, debtFree }
  let key : Key :=
    .other ((Wire.authoritativeCrawlProofKey claim.scopeID (UInt64.ofNat commit)).getD [])
  .ok { debtFree, observed := [], mutations := [.record key proof] }

/-- The record of a binding, as the transaction finds it. -/
def refreshBinding (scope : ID) (binding : SourceBinding) :
    Result Wire.AuthoritativeSourceBindingRecord :=
  match store.lookup (binding.key scope) with
  | none => .ok binding.record
  | some value => do
      let data ← rawBytes value
      Wire.unmarshalAuthoritativeSourceBindingRecord data

/-- The prior record of an observed identity, if there is a binding for it. -/
def priorBinding (scope : ID) (bindings : List SourceBinding) (identity : SnapshotIdentity) :
    Result (Option Wire.AuthoritativeSourceBindingRecord) :=
  match currentSourceBinding bindings identity.fsid identity.inode with
  | none => .ok none
  | some binding => (refreshBinding store scope binding).map some

/-- `observedIdentityGeneration` -/
def observedIdentityGeneration (identity : SnapshotIdentity) :
    Option Wire.AuthoritativeSourceBindingRecord →
      UInt64 × Wire.AnalyticsIdentityContinuity × Bool
  | some prior =>
    if prior.state = Wire.authoritativeSourceLive then
      (prior.generation, prior.continuity, false)
    else if prior.state = Wire.authoritativeSourceDeleted then
      (identity.revision, Wire.analyticsContinuityProven, true)
    else (identity.revision, Wire.analyticsContinuityUnknown, true)
  | none => (identity.revision, Wire.analyticsContinuityUnknown, true)

/-- `observedIdentityDelta` -/
def observedIdentityDelta (now : Int64) (identity : SnapshotIdentity) (generation : UInt64)
    (continuity : Wire.AnalyticsIdentityContinuity) (epoch : UInt64) (newGeneration : Bool) :
    Wire.AnalyticsDeltaRecord :=
  if newGeneration then
    { plainDelta Wire.analyticsDeltaCreation identity.fsid identity.inode generation
        identity.revision Wire.analyticsLive epoch with
      createdAt := now, creationBasis := Wire.analyticsFirstSeen
      identityContinuity := continuity }
  else
    { plainDelta Wire.analyticsDeltaSourceState identity.fsid identity.inode generation
        identity.revision Wire.analyticsLive epoch with
      identityContinuity := continuity }

/-- `planObservedAuthoritativeIdentity` -/
def planObservedAuthoritativeIdentity (claim : AuthoritativeCrawlClaim)
    (bindings : List SourceBinding) (commit : Nat) (epoch : UInt64) (plan : CrawlPlan)
    (identity : SnapshotIdentity) : Result CrawlPlan := do
  let prior ← priorBinding store claim.scopeID bindings identity
  let (generation, continuity, newGeneration) := observedIdentityGeneration identity prior
  let stateChanged :=
    (prior.map fun record => decide (record.state ≠ Wire.authoritativeSourceLive)).getD true
  let key := bindingKey claim.scopeID identity.fsid identity.inode generation
  let encoded ← Wire.AuthoritativeSourceBindingRecord.marshalBinary
    { generation, revision := identity.revision, state := Wire.authoritativeSourceLive
      continuity, lastObservedCommit := UInt64.ofNat commit }
  let deltas :=
    if epoch = 0 ∨ stateChanged = false then []
    else [.delta (observedIdentityDelta env.now identity generation continuity epoch newGeneration)]
  .ok { plan with
    observed := key :: plan.observed
    mutations := plan.mutations ++ .record key encoded :: deltas }

/-- `hasUnknownGeneration` -/
def hasUnknownGeneration (bindings : List SourceBinding) (current : SourceBinding) : Bool :=
  bindings.any fun binding =>
    decide (binding ≠ current ∧ binding.record.state = Wire.authoritativeSourceUnknown ∧
      binding.fsid = current.fsid ∧ binding.inode = current.inode)

/-- `planMissingAuthoritativeIdentities` for one binding. -/
def planMissingAuthoritativeIdentity (claim : AuthoritativeCrawlClaim)
    (bindings : List SourceBinding) (commit : Nat) (epoch : UInt64) (plan : CrawlPlan)
    (binding : SourceBinding) : Result CrawlPlan :=
  if binding.key claim.scopeID ∈ plan.observed ∨
      binding.record.state = Wire.authoritativeSourceDeleted then
    .ok plan
  else do
    let prior ← refreshBinding store claim.scopeID binding
    let deleted :=
      claim.complete && plan.debtFree && decide (prior.lastObservedCommit ≤ claim.startFence)
    let continuity :=
      if deleted then
        if prior.state = Wire.authoritativeSourceLive ∧
            hasUnknownGeneration bindings binding = false then
          Wire.analyticsContinuityProven
        else prior.continuity
      else Wire.analyticsContinuityUnknown
    let encoded ← Wire.AuthoritativeSourceBindingRecord.marshalBinary
      { prior with
        state := if deleted then Wire.authoritativeSourceDeleted
          else Wire.authoritativeSourceUnknown
        continuity, lastObservedCommit := UInt64.ofNat commit }
    let deltas :=
      if epoch = 0 then []
      else [.delta
        { plainDelta Wire.analyticsDeltaSourceState binding.fsid binding.inode prior.generation
            prior.revision
            (if deleted then Wire.analyticsDeleted else Wire.analyticsUnknown) epoch with
          identityContinuity := continuity }]
    .ok { plan with
      mutations := plan.mutations ++ .record (binding.key claim.scopeID) encoded :: deltas }

/-- `authoritativeCrawlMutations` -/
def authoritativeCrawlMutations (claim : AuthoritativeCrawlClaim) (reads : SnapshotReads)
    (commit : Nat) (epoch : UInt64) : Result (List CrawlMutation) := do
  let plan ← planAuthoritativeCrawlProof env store claim commit
  let plan ← reads.crawlIdentities.foldlM
    (planObservedAuthoritativeIdentity env store claim reads.bindings commit epoch) plan
  let plan ← reads.bindings.foldlM
    (planMissingAuthoritativeIdentity store claim reads.bindings commit epoch) plan
  .ok plan.mutations

/-- Append the mutations of a crawl; its deltas take the next ordinals of the plan. -/
def appendCrawl (plan : SnapshotPlan) : List CrawlMutation → Result SnapshotPlan
  | [] => .ok plan
  | .record key data :: rest =>
    appendCrawl { plan with puts := plan.puts ++ [(key, .raw data)] } rest
  | .delta delta :: rest => do
      let encoded ← delta.marshalBinary
      appendCrawl
        { plan with
          puts := plan.puts ++ [(deltaKey plan.next plan.deltaOrdinal, .raw encoded)]
          deltaOrdinal := plan.deltaOrdinal + 1 } rest

/-- `completeSnapshotPlan` -/
def completeSnapshotPlan (scope : SnapshotScope) (reads : SnapshotReads) (plan : SnapshotPlan) :
    Result SnapshotPlan := do
  let generation := if scope.crawl.isSome then crawlGeneration reads else fun _ => 0
  let plan ← planSnapshotAnalytics store reads.identities generation plan
  match scope.crawl with
  | none => .ok plan
  | some claim => do
      let epoch := ((enabledAnalytics store).map (·.generation)).getD 0
      let mutations ← authoritativeCrawlMutations env store claim reads plan.next epoch
      appendCrawl plan mutations

/-! ## The transactions -/

/-- `publishSnapshotScopeOnce` after the checks of `publishSnapshotScope`: the number taken
and the store after, or none where the snapshot is published. -/
def publishSnapshotScope (limits : Limits) (env : SnapshotEnv) (scope : SnapshotScope)
    (reads : SnapshotReads) (store : SchemaStore) : Result (Option (Nat × SchemaStore)) :=
  match scope.rootKey with
  | .directoryRevision fsid inode revision =>
    if revision = 0 ∨ scope.snapshotID = 0 then .error "invalid snapshot scope"
    else if scope.crawl.any (fun claim => decide (claim.rootFSID ≠ UInt32.ofNat fsid ∨
        claim.rootInode ≠ UInt64.ofNat inode)) then
      .error "authoritative crawl root does not match snapshot root"
    else if scope.crawl.any (fun claim => decide (claim.scopeID = 0 ∨ claim.rootFSID = 0 ∨
        claim.rootInode = 0 ∨ claim.startFence = 0)) then
      .error "invalid authoritative crawl claim"
    else do
      let base ← planSnapshotBase env scope fsid inode revision store
      match base with
      | none => .ok none
      | some plan => do
          let plan ← completeSnapshotPlan env store scope reads plan
          let written ← writeTransactionBatches limits store plan.puts []
          .ok (some (plan.next, written))
  | _ => .error "invalid snapshot scope"

/-- The deltas of a forgotten snapshot, where analytics is enabled. -/
def forgetDeltas (identities : List SnapshotIdentity) (next : Nat) : Result (List Mutation) :=
  match enabledAnalytics store with
  | none => .ok []
  | some metadata =>
    numberDeltas next 0 (identities.map fun identity =>
      referenceDelta identity identity.revision next metadata.generation 0
        Wire.analyticsReferencesDecrement)

end

/-- `forgetSnapshotOnce`: `record` is the snapshot as it was read before the transaction. -/
def forgetSnapshot (limits : Limits) (snapshotID : ID) (record : Wire.SnapshotRecord)
    (identities : List SnapshotIdentity) (store : SchemaStore) :
    Result (Option (Nat × SchemaStore)) :=
  if (store.lookup (.snapshot snapshotID)).isNone then .ok none
  else do
    let next ← loadNextRevision store
    if next = maxUint64 then .error "repository revision sequence exhausted"
    else
      let counter ← nextRevisionPut (next + 1)
      let deltas ← forgetDeltas store identities next
      let deletes : List Key :=
        if record.legacyTree ≠ 0 then
          [.snapshot snapshotID, .other (Wire.snapshotImportCheckpointKey snapshotID)]
        else
          [.snapshot snapshotID, .other (Wire.snapshotCommitKey record.commitSequence snapshotID)]
      let written ← writeTransactionBatches limits store (counter :: deltas) deletes
      .ok (some (next, written))

end Vaultic.Daemon
