/-
  Maintenance/Scheduler.lean  —  planning and executing placement requests.

  Source: internal/index/maintenance/scheduler.go.

  `PlanPlacement` writes at most one request for each pack; `ExecutePlacement` handles the
  requests in the order of their keys.  Handling a request marks the placement on its
  target pending before the action, and failed when the request is refused or the action
  fails, whatever the placement was.  A refused or failed eviction therefore takes a live
  copy out of the count.

  The store of this file holds the records the scheduler reads.  The reverse index and the
  history of a pack, which it also writes, are left out.
-/
import Vaultic.Lib.Run
import Vaultic.Maintenance.Placement

set_option autoImplicit false

namespace Vaultic.Maintenance

open Vaultic.Lib Vaultic.Schema

/-! ## Records -/

inductive PlacementRequestOperation where
  | place
  | promote
  | evict
  deriving DecidableEq, Repr

structure PlacementRequestRecord where
  classes : List String
  operation : PlacementRequestOperation
  targetBackend : Nat
  attempts : Nat := 0
  (lastAttempt notBefore : Int := 0)
  lastError : String := ""
  deriving DecidableEq, Repr

structure PromotionEligibilityRecord where
  (survivalUntil evaluatedAt : Int := 0)
  indefinite : Bool := false

/-- The key of a request: its deadline in seconds and its pack. -/
abbrev RequestKey := Nat × ID

structure PlacementStore where
  packs : Table ID PackRecord := ∅
  placements : Table ID PlacementSet := ∅
  requests : Table RequestKey PlacementRequestRecord := ∅
  /-- The successors of promotions in the lineage. -/
  promoted : List ID := []
  eligibility : Table ID PromotionEligibilityRecord := ∅

section

variable (model : PlacementModel) (store : PlacementStore)

/-- `loadPlacements`, for one pack. -/
def placementsOf (pack : ID) : PlacementSet :=
  (store.placements.lookup pack).getD ∅

def second : Int := 1000000000

def minute : Int := 60 * second

/-! ## Planning -/

inductive PlacementClass where
  | metadata
  | recentData
  | archivalData
  | cache
  deriving DecidableEq, Repr

def PlacementClass.name : PlacementClass → String
  | .metadata => "metadata"
  | .recentData => "recent-data"
  | .archivalData => "archival-data"
  | .cache => "cache"

def defaultPromotionCrossover : Int := 8 * 24 * 60 * minute

/-- The longest retention of an archival backend, if there is one. -/
def archivalRetention : Option Int :=
  model.backends.foldl
    (fun longest backend =>
      if backend.role = .archival then
        some (max (longest.getD 0) (toInt64 (backend.minRetentionSeconds * second)))
      else longest)
    none

def archivalPromotionDue (pack : PackRecord) (eligibility : PromotionEligibilityRecord)
    (model : PlacementModel) (now : Int) : Bool :=
  if pack.creationTimeKnown = false ∨ pack.usageKnown = false ∨ pack.usedPayloadBytes = 0 then
    false
  else if eligibility.evaluatedAt < pack.creationTime ∨
      (eligibility.indefinite = false ∧ eligibility.survivalUntil ≤ 0) then false
  else
    match archivalRetention model with
    | none => false
    | some retention =>
      let configured := toInt64 (model.policy.promotionCrossoverSeconds * second)
      let crossover := if configured ≤ 0 then defaultPromotionCrossover else configured
      if now < toInt64 (pack.creationTime + crossover) then false
      else eligibility.indefinite || decide (eligibility.survivalUntil ≥ toInt64 (now + retention))

def placementClass (pack : PackRecord) (eligibility : PromotionEligibilityRecord)
    (model : PlacementModel) (now : Int) (wasPromoted : Bool) : PlacementClass :=
  match pack.type with
  | .tree => .metadata
  | .data =>
    if wasPromoted || archivalPromotionDue pack eligibility model now then .archivalData
    else .recentData
  | _ => .cache

def placementTargets (kind : PlacementClass) (model : PlacementModel) : List PlacementBackend :=
  model.backends.filter fun backend =>
    backend.ingestEnabled && backend.role ≠ .readCache &&
      match kind with
      | .metadata => decide (backend.role ≠ .archival ∧ backend.role ≠ .cache)
      | .recentData =>
        decide (backend.role = .primary ∨ (backend.offsite = true ∧ backend.role ≠ .archival))
      | .archivalData => decide (backend.role = .archival)
      | .cache => decide (backend.role = .cache ∨ backend.role = .primary)

/-- A number with sixteen hexadecimal digits. -/
def hex16 (n : Nat) : String :=
  let digits := (Nat.toDigits 16 n).map Char.toLower
  String.ofList (List.replicate (16 - digits.length) '0' ++ digits)

def backendName (hash : Nat) (model : PlacementModel) : String :=
  match model.backends.find? fun backend => backend.hash = hash with
  | some backend => backend.id
  | none => hex16 hash

/-- The live copies outside the targets that the pack can do without. -/
def excessBackends (placements : PlacementSet) (targets : List Nat) (model : PlacementModel)
    (now : Int) : List String :=
  (placements.scan fun hash placement =>
    if placement.state ≠ .live ∨ placement.minRetentionUntil > now ∨ hash ∈ targets then none
    else if durable (placements.erase hash) model.byHash model.policy then
      some (backendName hash model)
    else none).insertionSort (· ≤ ·)

structure PlacementStatus where
  packID : ID
  packType : PackType
  kind : PlacementClass
  (targetBackends liveBackends missingBackends excessBackends : List String)
  (durable overdue : Bool)
  deadline : Int
  pendingPromotion : Bool

def placementStatus (packID : ID) (pack : PackRecord) (placements : PlacementSet)
    (eligibility : PromotionEligibilityRecord) (model : PlacementModel) (now : Int)
    (wasPromoted : Bool) : PlacementStatus :=
  let kind := placementClass pack eligibility model now wasPromoted
  let targets := placementTargets kind model
  let live := placements.scan fun hash placement =>
    if placement.state = .live then some hash else none
  let missing := (targets.filter fun backend => backend.hash ∉ live).map (·.id)
  let isDurable := durable placements model.byHash model.policy
  let offsiteDeadline := toInt64 (model.policy.offsiteDeadline * second)
  let hasDeadline := isDurable = false ∧ model.policy.minOffsite ≠ 0 ∧
    pack.creationTimeKnown = true ∧ offsiteDeadline ≠ 0
  let deadline := if hasDeadline then toInt64 (pack.creationTime + offsiteDeadline) else 0
  { packID, packType := pack.type, kind
    targetBackends := targets.map (·.id)
    liveBackends := live.map (backendName · model)
    missingBackends := missing
    excessBackends := excessBackends placements (targets.map (·.hash)) model now
    durable := isDurable
    overdue := decide (hasDeadline ∧ now > deadline)
    deadline
    pendingPromotion := decide (kind = .archivalData ∧ missing ≠ []) }

def nextPlacementAction (status : PlacementStatus) (model : PlacementModel) :
    Option (PlacementBackend × PlacementRequestOperation) :=
  match (placementTargets status.kind model).find? fun backend =>
      backend.id ∈ status.missingBackends with
  | some backend =>
    some (backend, if status.kind = .archivalData then .promote else .place)
  | none =>
    status.excessBackends.findSome? fun excess =>
      (model.backends.find? fun backend => backend.id = excess).map (·, .evict)

structure PlacementSchedulerOptions where
  model : PlacementModel
  now : Int
  dryRun : Bool := false

/-- The request the planner finds for a pack: of several the last in the order of keys. -/
def existingRequest (pack : ID) : Option (RequestKey × PlacementRequestRecord) :=
  (store.requests.scan fun key request => if key.2 = pack then some (key, request) else none).foldl
    (fun last entry =>
      match last with
      | some other => if other.1.1 < entry.1.1 then some entry else last
      | none => some entry)
    none

/-- The deadline in the key of a request, in seconds. -/
def requestDeadline (operation : PlacementRequestOperation) (deadline now : Int) : Nat :=
  match operation with
  | .promote => maxUint64 - 1
  | .evict => maxUint64
  | .place =>
    let seconds := (deadline.tdiv second % 2 ^ 64).toNat
    if seconds = 0 then (now.fdiv second % 2 ^ 64).toNat else seconds

/-- The new request of a pack, with the history of an equal one. -/
def plannedRequest (status : PlacementStatus) (target : PlacementBackend)
    (operation : PlacementRequestOperation)
    (existing : Option (RequestKey × PlacementRequestRecord)) : PlacementRequestRecord :=
  let fresh : PlacementRequestRecord :=
    { classes := [status.kind.name], operation, targetBackend := target.hash }
  match existing with
  | none => fresh
  | some (_, old) =>
    if old.operation = operation ∧ old.targetBackend = target.hash then
      { fresh with
        attempts := old.attempts, lastAttempt := old.lastAttempt, notBefore := old.notBefore
        lastError := old.lastError }
    else fresh

structure Plan where
  puts : List (RequestKey × PlacementRequestRecord) := []
  deletes : List RequestKey := []
  statuses : List PlacementStatus := []

/-- Does the planner look at the pack? -/
def plannable (pack : PackRecord) : Bool :=
  pack.lifecycle ≠ .deleted && pack.lifecycle ≠ .deletePending && pack.tier ≠ .unknown

/-- The body of the loop over the packs. -/
def planPack (options : PlacementSchedulerOptions) (store : PlacementStore) (plan : Plan)
    (packID : ID) (pack : PackRecord) : Plan :=
  let status := placementStatus packID pack (placementsOf store packID)
    ((store.eligibility.lookup packID).getD {}) options.model options.now
    (packID ∈ store.promoted)
  let existing := existingRequest store packID
  -- a request that is not renewed is deleted
  let dropped := plan.deletes ++ (existing.map (·.1)).toList
  if status.durable ∧ status.missingBackends = [] ∧ status.pendingPromotion = false ∧
      status.excessBackends = [] then
    { plan with deletes := dropped, statuses := plan.statuses ++ [status] }
  else
    match nextPlacementAction status options.model with
    | none => { plan with deletes := dropped }
    | some (target, operation) =>
      let key : RequestKey := (requestDeadline operation status.deadline options.now, packID)
      let request := plannedRequest status target operation existing
      { puts := if existing = some (key, request) then plan.puts else plan.puts ++ [(key, request)]
        deletes :=
          plan.deletes ++ ((existing.map (·.1)).filter fun old => old ≠ key).toList
        statuses := plan.statuses ++ [status] }

/-- The requests of packs the planner does not look at are deleted too. -/
def staleRequests : List RequestKey :=
  store.requests.scan fun key _ =>
    if (store.packs.lookup key.2).any plannable then none
    else if (existingRequest store key.2).any fun entry => entry.1 = key then some key else none

def planRequests (options : PlacementSchedulerOptions) (store : PlacementStore) : Plan :=
  let packs := store.packs.scan fun packID pack =>
    if plannable pack then some (packID, pack) else none
  packs.foldl (fun plan entry => planPack options store plan entry.1 entry.2) {}

/-- `PlanPlacement`: what it found, and the store it leaves. -/
def planPlacement (options : PlacementSchedulerOptions) (store : PlacementStore) :
    Plan × PlacementStore :=
  let plan := planRequests options store
  if options.dryRun then (plan, store)
  else
    (plan, { store with
      requests := Table.deleteAll (Table.putAll store.requests plan.puts)
        (plan.deletes ++ staleRequests store) })

/-! ## Executing -/

/-- How an action ends. -/
inductive ActionResult where
  | done
  | obsolete
  | failed (text : String)
  deriving DecidableEq, Repr

structure PlacementWorkerOptions where
  model : PlacementModel
  now : Int
  retryBase : Int := 0
  /-- What a number per second allows in the window, a floating-point computation. -/
  perWindow : Nat → Nat
  (maxRequests maxBytes : Nat := 0)
  /-- The end of the action of each request. -/
  action : RequestKey → ActionResult
  /-- Is the event of the request recorded? -/
  recorded : RequestKey → Bool := fun _ => true

structure PlacementWorkerResult where
  (requestsScanned attempted placed promoted evicted failed deferred bytesMoved : Nat := 0)

/-- The state of a worker.  `completed` are the packs whose promotion it completed. -/
structure Worker where
  store : PlacementStore
  result : PlacementWorkerResult := {}
  (requestsUsed bytesUsed : Nat → Nat := fun _ => 0)
  stopped : Option (Result Unit) := none
  completed : List ID := []

end

section

variable (options : PlacementWorkerOptions) (worker : Worker) (model : PlacementModel)
  (store : PlacementStore)

/-- A request with its pack and its backend. -/
structure Job where
  key : RequestKey
  request : PlacementRequestRecord
  pack : PackRecord
  backend : PlacementBackend

def Job.packID (job : Job) : ID := job.key.2

def placementLimitReached (job : Job) : Bool :=
  let backend := job.backend
  let requests := worker.requestsUsed backend.hash
  let bytes := worker.bytesUsed backend.hash
  let requestLimit := options.perWindow backend.maxRequestsPerSecond
  let byteLimit := options.perWindow backend.maxBandwidthBytes
  (backend.maxRequestsPerSecond ≠ 0 && (requestLimit = 0 || requests ≥ requestLimit)) ||
    (backend.maxBandwidthBytes ≠ 0 && bytes ≠ 0 &&
      (bytes > maxUint64 - job.pack.physicalSize || bytes + job.pack.physicalSize > byteLimit))

def evictionPreservesDurability (pack : ID) (backend : Nat) : Bool :=
  durable ((placementsOf store pack).erase backend) model.byHash model.policy

/-- The stored placement; the state of a new one is set by every caller. -/
def currentPlacement (pack : ID) (backend : Nat) : PlacementRecord :=
  ((placementsOf store pack).lookup backend).getD { state := .pending }

/-- The write of one placement. -/
def putPlacement (pack : ID) (backend : Nat) (placement : PlacementRecord) :
    Result PlacementStore :=
  match checkPlacementRecord placement with
  | some reason => .error (malformed reason)
  | none =>
    .ok { store with
      placements :=
        store.placements.insert pack ((placementsOf store pack).insert backend placement) }

def persistPlacementAttempt (job : Job) : Result PlacementStore := do
  let placement := currentPlacement store job.packID job.backend.hash
  let store ← putPlacement store job.packID job.backend.hash
    { placement with state := .pending, bytes := job.pack.physicalSize, deleteAfter := 0 }
  pure { store with requests := store.requests.insert job.key job.request }

def stop (result : Result Unit) : Worker :=
  { worker with stopped := some result }

/-- The end of a write: the event is recorded, or the worker stops. -/
def record (options : PlacementWorkerOptions) (job : Job) (worker : Worker) : Worker :=
  if options.recorded job.key then worker else stop worker (.error "record pack event")

def dropRequest (key : RequestKey) : Worker :=
  { worker with store := { worker.store with requests := worker.store.requests.erase key } }

/-- The time of the next attempt. -/
def retryAt (attempts : Nat) : Int :=
  let base := if options.retryBase ≤ 0 then minute else options.retryBase
  let shift := min (max attempts 1 - 1) 16
  toInt64 (options.now + toInt64 (base * 2 ^ shift))

def failPlacementRequest (job : Job) (text : String) : Worker :=
  let request :=
    { job.request with lastError := text, notBefore := retryAt options job.request.attempts }
  let placement := currentPlacement worker.store job.packID job.backend.hash
  match putPlacement worker.store job.packID job.backend.hash
      { placement with state := .failed, bytes := job.pack.physicalSize, deleteAfter := 0 } with
  | .error e => stop worker (.error e)
  | .ok store =>
    record options job
      { worker with
        store := { store with requests := store.requests.insert job.key request }
        result := { worker.result with failed := worker.result.failed + 1 } }

/-- The placement on the target after the action. -/
def completedPlacement (job : Job) (placement : PlacementRecord) : PlacementRecord :=
  let placement :=
    { placement with bytes := job.pack.physicalSize, storageClass := job.backend.retrievalClass }
  match job.request.operation with
  | .place =>
    let placement :=
      { placement with
        state := .live, placedAt := options.now, placementTimeKnown := true, deleteAfter := 0 }
    if job.backend.minRetentionSeconds ≠ 0 then
      { placement with
        minRetentionUntil :=
          toInt64 (options.now + toInt64 (job.backend.minRetentionSeconds * second))
        retentionSource := .backend }
    else placement
  | _ => { placement with state := .evicted, deleteAfter := options.now }

def completePlacementRequest (job : Job) : Worker :=
  let placement := currentPlacement worker.store job.packID job.backend.hash
  match putPlacement worker.store job.packID job.backend.hash
      (completedPlacement options job placement) with
  | .error e => stop worker (.error e)
  | .ok store =>
    record options job
      { worker with
        store := { store with requests := store.requests.erase job.key }
        completed :=
          if job.request.operation = .promote then job.packID :: worker.completed
          else worker.completed }

/-- The counters after a completed action, and the limits of the call. -/
def countCompleted (job : Job) : Worker :=
  if worker.stopped.isSome then worker
  else
    let result :=
      { worker.result with bytesMoved := worker.result.bytesMoved + job.pack.physicalSize }
    let result :=
      match job.request.operation with
      | .place => { result with placed := result.placed + 1 }
      | .promote => { result with promoted := result.promoted + 1 }
      | .evict => { result with evicted := result.evicted + 1 }
    let limited :=
      (options.maxRequests ≠ 0 && result.attempted ≥ options.maxRequests) ||
        (options.maxBytes ≠ 0 && result.bytesMoved ≥ options.maxBytes)
    { worker with result, stopped := if limited then some (.ok ()) else none }

/-- What follows from the end of the action. -/
def finishAttempt (job : Job) : Worker :=
  match options.action job.key with
  | .obsolete => dropRequest worker job.key
  | .failed text => failPlacementRequest options worker job text
  | .done => countCompleted options (completePlacementRequest options worker job) job

/-- The request of an attempt. -/
def Job.started (job : Job) : Job :=
  { job with
    request :=
      { job.request with
        attempts := (job.request.attempts + 1) % 2 ^ 32, lastAttempt := options.now
        lastError := "", notBefore := 0 } }

/-- The counters of an attempt that has been written. -/
def countAttempt (job : Job) : Worker :=
  let hash := job.backend.hash
  { worker with
    store
    result := { worker.result with attempted := worker.result.attempted + 1 }
    requestsUsed := Function.update worker.requestsUsed hash (worker.requestsUsed hash + 1)
    bytesUsed := Function.update worker.bytesUsed hash
      (worker.bytesUsed hash + job.pack.physicalSize) }

def attemptRequest (job : Job) : Worker :=
  match persistPlacementAttempt worker.store (job.started options) with
  | .error e => stop worker (.error e)
  | .ok store => finishAttempt options (countAttempt worker store job) (job.started options)

/-- A request of a pack that exists, for a backend of the registry. -/
def handleJob (job : Job) : Worker :=
  if job.pack.lifecycle = .deleted then dropRequest worker job.key
  else if job.pack.lifecycle = .deletePending then
    if job.request.operation = .promote then completePlacementRequest options worker job
    else dropRequest worker job.key
  else if job.backend.ingestEnabled = false ∧ job.request.operation ≠ .evict then
    failPlacementRequest options worker job "placement backend is not enabled for ingest"
  else if placementLimitReached options worker job then
    { worker with result := { worker.result with deferred := worker.result.deferred + 1 } }
  else if job.request.operation = .evict ∧ evictionPreservesDurability options.model worker.store
      job.packID job.backend.hash = false then
    failPlacementRequest options worker job "eviction would breach durability"
  else attemptRequest options worker job

/-- The body of the scan. -/
def handleRequest (entry : RequestKey × PlacementRequestRecord) : Worker :=
  if worker.stopped.isSome then worker
  else
    let worker := { worker with
      result := { worker.result with requestsScanned := worker.result.requestsScanned + 1 } }
    if entry.2.notBefore > options.now then
      { worker with result := { worker.result with deferred := worker.result.deferred + 1 } }
    else
      match options.model.byHash.lookup entry.2.targetBackend with
      | none =>
        let backend := hex16 entry.2.targetBackend
        stop worker (.error s!"placement request targets unknown backend {backend}")
      | some backend =>
        match worker.store.packs.lookup entry.1.2 with
        | none => dropRequest worker entry.1
        | some pack =>
          handleJob options worker { key := entry.1, request := entry.2, pack, backend }

/-- The requests in the order of their keys. -/
def pendingRequests : List (RequestKey × PlacementRequestRecord) :=
  (store.requests.scan fun key request => some (key, request)).insertionSort
    fun a b => a.1.1 < b.1.1 ∨ (a.1.1 = b.1.1 ∧ a.1.2 ≤ b.1.2)

def executePlacement : Worker :=
  (pendingRequests store).foldl (handleRequest options) { store }

/-! ## Runs -/

/-- A call, with the ends of its actions among its options. -/
inductive Call where
  | plan (options : PlacementSchedulerOptions)
  | execute (options : PlacementWorkerOptions)

def step : Call → PlacementStore
  | .plan options => (planPlacement options store).2
  | .execute options => (executePlacement options store).store

/-- The backends whose copies of the pack count. -/
def copiesIn (pack : ID) : Finset Nat :=
  copiesOf (placementsOf store pack) model.byHash

def durableIn (pack : ID) : Bool :=
  durable (placementsOf store pack) model.byHash model.policy

/-- The request cannot be carried out, or its action does not succeed. -/
def unsuccessful (entry : RequestKey × PlacementRequestRecord) : Bool :=
  options.action entry.1 ≠ .done ||
    if entry.2.operation = .evict then
      !evictionPreservesDurability options.model store entry.1.2 entry.2.targetBackend
    else
      (options.model.byHash.lookup entry.2.targetBackend).any fun backend => !backend.ingestEnabled

/-- The condition on one request of a call: if it is unsuccessful it does not concern a
copy that counts or, for a placement or a promotion, that a durable pack needs. -/
def spares (entry : RequestKey × PlacementRequestRecord) : Bool :=
  worker.stopped.isSome || entry.2.notBefore > options.now ||
    !unsuccessful options worker.store entry ||
    if entry.2.operation = .evict then
      entry.2.targetBackend ∉ copiesIn options.model worker.store entry.1.2
    else
      !durableIn options.model worker.store entry.1.2 ||
        evictionPreservesDurability options.model worker.store entry.1.2 entry.2.targetBackend

/-- An eviction that is refused or fails does not lower the number of copies. -/
def KeepsCopies (entry : RequestKey × PlacementRequestRecord) : Prop :=
  entry.2.operation = .evict → unsuccessful options worker.store entry = true →
    (copiesIn options.model worker.store entry.1.2).card ≤
      (copiesIn options.model (handleRequest options worker entry).store entry.1.2).card

/-- Every request of a call meets the condition in the state in which it is handled. -/
def Call.Meets : Call → Prop
  | .plan _ => True
  | .execute options =>
    Along (handleRequest options) (fun worker entry => spares options worker entry = true)
      { store } (pendingRequests store)

/-- A durable pack that the call does not promote stays durable, and no refused or failed
eviction lowers the number of its copies. -/
def Call.Keeps : Call → Prop
  | .plan options => ∀ model pack, durableIn model store pack = true →
      durableIn model (planPlacement options store).2 pack = true
  | .execute options =>
    (∀ pack, durableIn options.model store pack = true →
      pack ∉ (executePlacement options store).completed →
        durableIn options.model (executePlacement options store).store pack = true) ∧
    Along (handleRequest options) (KeepsCopies options) { store } (pendingRequests store)

end

/-! ## What handling a request does -/

/-- `after` differs from `before` by one placement. -/
def Puts (before after : PlacementStore) (pack : ID) (hash : Nat) (placement : PlacementRecord) :
    Prop :=
  placementsOf after pack = (placementsOf before pack).insert hash placement ∧
    ∀ other, other ≠ pack → placementsOf after other = placementsOf before other

variable {pack : ID} {hash : Nat} {store before after : PlacementStore} {model : PlacementModel}
  {placement : PlacementRecord} {options : PlacementWorkerOptions} {worker : Worker} {job : Job}
  {entry : RequestKey × PlacementRequestRecord}

theorem putPlacement_puts (h : putPlacement store pack hash placement = .ok after) :
    checkPlacementRecord placement = none ∧ Puts store after pack hash placement := by
  unfold putPlacement at h
  split at h
  · cases h
  rename_i hcheck
  cases h
  refine ⟨hcheck, ?_, fun other hne => ?_⟩
  · simp [placementsOf]
  · simp [placementsOf, AList.lookup_insert_ne hne]

theorem Puts.trans {first second third : PlacementStore} {a b : PlacementRecord}
    (h : Puts first second pack hash a) (h' : Puts second third pack hash b) :
    Puts first third pack hash b := by
  refine ⟨?_, fun other hne => (h'.2 other hne).trans (h.2 other hne)⟩
  rw [h'.1, h.1, AList.insert_insert]

/-- How the placements can change. -/
inductive Effect (options : PlacementWorkerOptions) (before after : Worker)
    (entry : RequestKey × PlacementRequestRecord) : Prop where
  | untouched (same : ∀ pack, placementsOf after.store pack = placementsOf before.store pack)
  | placed (placement : PlacementRecord) (live : placement.state = .live)
      (puts : Puts before.store after.store entry.1.2 entry.2.targetBackend placement)
  | evicted (placement : PlacementRecord) (state : placement.state ≠ .live)
      (allowed : evictionPreservesDurability options.model before.store entry.1.2
        entry.2.targetBackend = true)
      (success : unsuccessful options before.store entry = false)
      (puts : Puts before.store after.store entry.1.2 entry.2.targetBackend placement)
  | promoted (placement : PlacementRecord) (completed : entry.1.2 ∈ after.completed)
      (operation : entry.2.operation = .promote)
      (puts : Puts before.store after.store entry.1.2 entry.2.targetBackend placement)
  | failed (placement : PlacementRecord) (state : placement.state ≠ .live)
      (failure : unsuccessful options before.store entry = true)
      (handled : before.stopped = none ∧ entry.2.notBefore ≤ options.now)
      (puts : Puts before.store after.store entry.1.2 entry.2.targetBackend placement)

theorem Effect.other {before after : Worker} (h : Effect options before after entry)
    (hne : pack ≠ entry.1.2) : placementsOf after.store pack = placementsOf before.store pack := by
  cases h with
  | untouched same => exact same pack
  | placed _ _ puts | evicted _ _ _ _ puts | promoted _ _ _ puts | failed _ _ _ _ puts =>
    exact puts.2 pack hne

/-- The counters do not matter. -/
theorem Effect.of_result {result : PlacementWorkerResult} {after : Worker}
    (h : Effect options { worker with result } after entry) :
    Effect options worker after entry := by
  cases h with
  | untouched same => exact .untouched same
  | placed placement live puts => exact .placed placement live puts
  | evicted placement state allowed success puts =>
    exact .evicted placement state allowed success puts
  | promoted placement completed operation puts =>
    exact .promoted placement completed operation puts
  | failed placement state failure handled puts =>
    exact .failed placement state failure handled puts

@[simp] theorem record_store : (record options job worker).store = worker.store := by
  rw [record]
  split_ifs <;> rfl

@[simp] theorem record_completed : (record options job worker).completed = worker.completed := by
  rw [record]
  split_ifs <;> rfl

@[simp] theorem countCompleted_store :
    (countCompleted options worker job).store = worker.store := by
  rw [countCompleted]
  split_ifs <;> rfl

@[simp] theorem countCompleted_completed :
    (countCompleted options worker job).completed = worker.completed := by
  rw [countCompleted]
  split_ifs <;> rfl

section

variable (options worker job)

theorem failPlacementRequest_effect (text : String) :
    let after := failPlacementRequest options worker job text
    after.completed = worker.completed ∧
      (after.store = worker.store ∨
        ∃ placement, Puts worker.store after.store job.packID job.backend.hash placement ∧
          placement.state = .failed) := by
  unfold failPlacementRequest
  dsimp only
  split
  · exact ⟨rfl, .inl rfl⟩
  · rename_i store hput
    simp only [record_store, record_completed]
    exact ⟨trivial, .inr ⟨_, (putPlacement_puts hput).2, rfl⟩⟩

/-- A completion is not written, because its placement does not pass the check, or it is. -/
theorem completePlacementRequest_cases :
    let placement := completedPlacement options job
      (currentPlacement worker.store job.packID job.backend.hash)
    let after := completePlacementRequest options worker job
    (checkPlacementRecord placement ≠ none ∧ after.store = worker.store ∧
        after.completed = worker.completed) ∨
      Puts worker.store after.store job.packID job.backend.hash placement ∧
        after.completed = if job.request.operation = .promote then job.packID :: worker.completed
          else worker.completed := by
  unfold completePlacementRequest
  dsimp only
  split
  · rename_i e hput
    refine .inl ⟨fun hcheck => ?_, rfl, rfl⟩
    simp only [putPlacement, hcheck] at hput
    cases hput
  · rename_i store hput
    simp only [record_store, record_completed]
    exact .inr ⟨(putPlacement_puts hput).2, trivial⟩

theorem completedPlacement_state (placement : PlacementRecord) :
    (completedPlacement options job placement).state =
      if job.request.operation = .place then .live else .evicted := by
  cases hop : job.request.operation with
  | place =>
    simp only [completedPlacement, hop, if_true]
    split_ifs <;> rfl
  | _ => simp [completedPlacement, hop]

end

/-- A completed placement passes its check if the attempt did. -/
theorem check_completedPlacement (h : checkPlacementRecord placement = none) :
    checkPlacementRecord (completedPlacement options job placement) = none := by
  unfold checkPlacementRecord at h
  split_ifs at h with htime hretention hdelete
  cases hop : job.request.operation with
  | place =>
    simp only [completedPlacement, hop]
    split_ifs
    · simp [checkPlacementRecord]
    · simp [checkPlacementRecord, hretention]
  | _ => simp [completedPlacement, hop, checkPlacementRecord, htime, hretention]

theorem Puts.currentPlacement (h : Puts before after pack hash placement) :
    currentPlacement after pack hash = placement := by
  rw [Maintenance.currentPlacement, h.1, AList.lookup_insert, Option.getD_some]

/-- An action fails and leaves a placement that is not live, or succeeds. -/
def Attempted (options : PlacementWorkerOptions) (job : Job) (before : PlacementStore)
    (completed : List ID) (after : Worker) : Prop :=
  (options.action job.key ≠ .done ∧ after.completed = completed ∧
      ∃ placement, Puts before after.store job.packID job.backend.hash placement ∧
        placement.state ≠ .live) ∨
    options.action job.key = .done ∧
      (after.completed = if job.request.operation = .promote then job.packID :: completed
        else completed) ∧
      ∃ placement, Puts before after.store job.packID job.backend.hash placement ∧
        placement.state = if job.request.operation = .place then .live else .evicted

section

variable (options worker job)

theorem finishAttempt_cases {pending : PlacementRecord}
    (hputs : Puts before worker.store job.packID job.backend.hash pending)
    (hstate : pending.state = .pending) (hcheck : checkPlacementRecord pending = none) :
    Attempted options job before worker.completed (finishAttempt options worker job) := by
  unfold finishAttempt Attempted
  cases haction : options.action job.key with
  | obsolete => exact .inl ⟨by simp, rfl, pending, hputs, by simp [hstate]⟩
  | failed text =>
    refine .inl ⟨by simp, ?_⟩
    obtain ⟨hcompleted, hsame | ⟨failed, hfail, hfailState⟩⟩ :=
      failPlacementRequest_effect options worker job text
    · exact ⟨hcompleted, pending, by rwa [hsame], by simp [hstate]⟩
    · exact ⟨hcompleted, failed, hputs.trans hfail, by simp [hfailState]⟩
  | done =>
    refine .inr ⟨rfl, ?_⟩
    have hcurrent := hputs.currentPlacement
    have hcompletes : checkPlacementRecord (completedPlacement options job
        (currentPlacement worker.store job.packID job.backend.hash)) = none := by
      rw [hcurrent]
      exact check_completedPlacement hcheck
    obtain ⟨hcomplete, hcompleted⟩ :=
      (completePlacementRequest_cases options worker job).resolve_left fun h => h.1 hcompletes
    simp only [countCompleted_store, countCompleted_completed]
    exact ⟨hcompleted, _, hputs.trans hcomplete, completedPlacement_state _ _ _⟩

/-- An attempt is not written, or fails, or succeeds. -/
theorem attemptRequest_cases :
    let after := attemptRequest options worker job
    (after.store = worker.store ∧ after.completed = worker.completed) ∨
      Attempted options job worker.store worker.completed after := by
  unfold attemptRequest
  split
  · exact .inl ⟨rfl, rfl⟩
  rename_i store hpersist
  obtain ⟨middle, hput, hpersist⟩ := of_bind hpersist
  cases hpersist
  obtain ⟨hcheck, hputs⟩ := putPlacement_puts hput
  exact .inr (finishAttempt_cases options (countAttempt worker _ job) (job.started options)
    hputs rfl hcheck)

end

theorem hash_of_lookup_byHash {backend : PlacementBackend}
    (h : model.byHash.lookup hash = some backend) : backend.hash = hash := by
  rcases Table.lookup_putAll_cases h with hput | hold
  · obtain ⟨other, -, heq⟩ := List.mem_map.mp hput
    cases heq
    rfl
  · simp at hold

theorem handleJob_effect (job : Job) (hkey : job.key = entry.1) (hrequest : job.request = entry.2)
    (hbackend : options.model.byHash.lookup entry.2.targetBackend = some job.backend)
    (hrunning : worker.stopped = none) (hdue : entry.2.notBefore ≤ options.now) :
    Effect options worker (handleJob options worker job) entry := by
  have hhash := hash_of_lookup_byHash hbackend
  have hpack : job.packID = entry.1.2 := congrArg Prod.snd hkey
  have hfail : ∀ text, unsuccessful options worker.store entry = true →
      Effect options worker (failPlacementRequest options worker job text) entry := by
    intro text hunsuccessful
    obtain ⟨-, hsame | ⟨placement, hputs, hstate⟩⟩ :=
      failPlacementRequest_effect options worker job text
    · exact .untouched fun pack => by rw [hsame]
    · rw [hpack, hhash] at hputs
      exact .failed placement (by simp [hstate]) hunsuccessful ⟨hrunning, hdue⟩ hputs
  rw [handleJob]
  split_ifs with hdeleted hpending hpromote hingest hlimit hrefused
  · exact .untouched fun pack => rfl
  · rcases completePlacementRequest_cases options worker job with
      ⟨-, hsame, -⟩ | ⟨hputs, hcompleted⟩
    · exact .untouched fun pack => by rw [hsame]
    · rw [hpack, hhash] at hputs
      rw [if_pos hpromote, hpack] at hcompleted
      exact .promoted _ (by simp [hcompleted]) (hrequest ▸ hpromote) hputs
  · exact .untouched fun pack => rfl
  · rw [hrequest] at hingest
    exact hfail _ (by simp [unsuccessful, hbackend, hingest])
  · exact .untouched fun pack => rfl
  · rw [hrequest, hpack, hhash] at hrefused
    exact hfail _ (by simp [unsuccessful, hrefused])
  · rw [hrequest, hpack, hhash] at hrefused
    rcases attemptRequest_cases options worker job with
      ⟨hsame, -⟩ | ⟨haction, -, placement, hputs, hstate⟩ |
        ⟨hdone, hcompleted, placement, hputs, hstate⟩
    · exact .untouched fun pack => by rw [hsame]
    · rw [hpack, hhash] at hputs
      rw [hkey] at haction
      exact .failed placement hstate (by simp [unsuccessful, haction]) ⟨hrunning, hdue⟩ hputs
    · rw [hpack, hhash] at hputs
      rw [hrequest] at hstate hcompleted
      rw [hkey] at hdone
      cases hop : entry.2.operation with
      | place => exact .placed placement (by simpa [hop] using hstate) hputs
      | promote =>
        refine .promoted placement ?_ hop hputs
        simp [hcompleted, hop, hpack]
      | evict =>
        have hallowed : evictionPreservesDurability options.model worker.store entry.1.2
            entry.2.targetBackend = true := by simpa [hop] using hrefused
        refine .evicted placement (by simp [hstate, hop]) hallowed ?_ hputs
        simp [unsuccessful, hdone, hop, hallowed]

section

variable (options worker)

theorem handleRequest_effect (entry : RequestKey × PlacementRequestRecord) :
    Effect options worker (handleRequest options worker entry) entry := by
  rw [handleRequest]
  split_ifs with hstopped hdue
  · exact .untouched fun pack => rfl
  · exact .untouched fun pack => rfl
  have hrunning : worker.stopped = none := Option.not_isSome_iff_eq_none.mp hstopped
  dsimp only
  split
  · exact .untouched fun pack => rfl
  rename_i backend hbackend
  split
  · exact .untouched fun pack => rfl
  · rename_i pack hpack
    refine Effect.of_result (handleJob_effect _ rfl rfl hbackend ?_ (not_lt.mp hdue))
    exact hrunning

/-- The completed promotions, with one more or not. -/
theorem subset_completed {operation : PlacementRequestOperation} {before after : List ID}
    (h : after = if operation = .promote then pack :: before else before) : before ⊆ after := by
  rw [h]
  split_ifs
  · exact List.subset_cons_self _ _
  · exact List.Subset.refl _

theorem handleJob_completed (job : Job) :
    worker.completed ⊆ (handleJob options worker job).completed := by
  rw [handleJob]
  split_ifs <;> try exact List.Subset.refl _
  · rcases completePlacementRequest_cases options worker job with ⟨-, -, hsame⟩ | ⟨-, hcompleted⟩
    · exact hsame ▸ List.Subset.refl _
    · exact subset_completed hcompleted
  · exact (failPlacementRequest_effect options worker job _).1 ▸ List.Subset.refl _
  · exact (failPlacementRequest_effect options worker job _).1 ▸ List.Subset.refl _
  · rcases attemptRequest_cases options worker job with
      ⟨-, hsame⟩ | ⟨-, hsame, -⟩ | ⟨-, hcompleted, -⟩
    · exact hsame ▸ List.Subset.refl _
    · exact hsame ▸ List.Subset.refl _
    · exact subset_completed hcompleted

theorem handleRequest_completed (entry : RequestKey × PlacementRequestRecord) :
    worker.completed ⊆ (handleRequest options worker entry).completed := by
  rw [handleRequest]
  split_ifs
  · exact List.Subset.refl _
  · exact List.Subset.refl _
  dsimp only
  split
  · exact List.Subset.refl _
  split
  · exact List.Subset.refl _
  · intro pack hpack
    exact handleJob_completed _ _ _ hpack

end

/-! ## Durability -/

theorem durableIn_iff : durableIn model before pack = true ↔
    Satisfies model.policy model.byHash (copiesIn model before pack) :=
  decide_eq_true_iff

theorem evictionPreservesDurability_iff :
    evictionPreservesDurability model before pack hash = true ↔
      Satisfies model.policy model.byHash ((copiesIn model before pack).erase hash) := by
  rw [evictionPreservesDurability, durable, decide_eq_true_iff, copiesOf_erase]
  rfl

section

variable (h : Puts before after pack hash placement)
include h

theorem Puts.subset_copies
    (hlive : placement.state = .live) : copiesIn model before pack ⊆ copiesIn model after pack := by
  rw [copiesIn, copiesIn, h.1]
  exact copiesOf_subset_insert hlive

theorem Puts.erase_copies (hstate : placement.state ≠ .live) :
    copiesIn model after pack = (copiesIn model before pack).erase hash := by
  rw [copiesIn, copiesIn, h.1]
  exact copiesOf_insert hstate

end

section

variable (h : spares options worker entry = true)
include h

/-- What the condition says about a request that is handled and fails. -/
theorem spares_failed (hhandled : worker.stopped = none ∧ entry.2.notBefore ≤ options.now)
    (hfailure : unsuccessful options worker.store entry = true) :
    if entry.2.operation = .evict then
      entry.2.targetBackend ∉ copiesIn options.model worker.store entry.1.2
    else durableIn options.model worker.store entry.1.2 = true →
      evictionPreservesDurability options.model worker.store entry.1.2
        entry.2.targetBackend = true := by
  have hdue : ¬ entry.2.notBefore > options.now := not_lt.mpr hhandled.2
  rw [spares, hhandled.1, hfailure, decide_eq_false hdue] at h
  split_ifs at h ⊢ with hop
  · simpa using h
  · intro hdurable
    simpa [hdurable] using h

theorem handleRequest_durable (hdurable : durableIn options.model worker.store pack = true) :
    pack ∈ (handleRequest options worker entry).completed ∨
      durableIn options.model (handleRequest options worker entry).store pack = true := by
  by_cases hpack : pack = entry.1.2
  · subst hpack
    rw [durableIn_iff] at hdurable ⊢
    cases handleRequest_effect options worker entry with
    | untouched same =>
      rw [copiesIn, same]
      exact .inr hdurable
    | placed placement live puts => exact .inr (hdurable.mono (puts.subset_copies live))
    | evicted placement state allowed success puts =>
      rw [puts.erase_copies state]
      exact .inr (evictionPreservesDurability_iff.mp allowed)
    | promoted placement completed operation puts => exact .inl completed
    | failed placement state failure handled puts =>
      have hspared := spares_failed h handled failure
      rw [puts.erase_copies state]
      split_ifs at hspared
      · rw [Finset.erase_eq_of_notMem hspared]
        exact .inr hdurable
      · exact .inr (evictionPreservesDurability_iff.mp (hspared (durableIn_iff.mpr hdurable)))
  · rw [durableIn, (handleRequest_effect options worker entry).other hpack]
    exact .inr hdurable

theorem handleRequest_keepsCopies : KeepsCopies options worker entry := by
  intro hevict hunsuccessful
  cases handleRequest_effect options worker entry with
  | untouched same => rw [copiesIn, copiesIn, same]
  | placed placement live puts => exact Finset.card_le_card (puts.subset_copies live)
  | evicted placement state allowed success puts =>
    rw [hunsuccessful] at success
    cases success
  | promoted placement completed operation puts =>
    rw [hevict] at operation
    cases operation
  | failed placement state failure handled puts =>
    have hspared := spares_failed h handled failure
    rw [if_pos hevict] at hspared
    rw [puts.erase_copies state, Finset.erase_eq_of_notMem hspared]

end

/-- The requests of a call, one after another. -/
theorem executePlacement_durable
    (h : Along (handleRequest options) (fun worker entry => spares options worker entry = true)
      { store } (pendingRequests store)) (hdurable : durableIn options.model store pack = true) :
    pack ∈ (executePlacement options store).completed ∨
      durableIn options.model (executePlacement options store).store pack = true := by
  let holds : Worker → Prop := fun worker =>
    pack ∈ worker.completed ∨ durableIn options.model worker.store pack = true
  have hstep : ∀ worker entry, spares options worker entry = true → holds worker →
      holds (handleRequest options worker entry) := by
    rintro worker entry hspares (hmem | hholds)
    · exact .inl (handleRequest_completed options worker entry hmem)
    · exact handleRequest_durable hspares hholds
  have hstart : holds { store } := .inr hdurable
  exact h.invariant holds hstep hstart

/-- A call whose requests all meet the condition keeps what it should. -/
theorem Call.keeps_of_meets {call : Call} (h : call.Meets store) : call.Keeps store := by
  cases call with
  | plan options =>
    intro model pack hdurable
    rw [durableIn, placementsOf, planPlacement]
    split_ifs <;> exact hdurable
  | execute options =>
    have halong : Along (handleRequest options)
        (fun worker entry => spares options worker entry = true) { store }
        (pendingRequests store) := h
    refine ⟨fun pack hdurable hpromoted => ?_, ?_⟩
    · exact (executePlacement_durable halong hdurable).resolve_left hpromoted
    · exact halong.imp fun _ _ hspares => handleRequest_keepsCopies hspares

/-- In every run whose calls meet the condition, a durable pack that a call does not
promote is durable after the call, and a refused or failed eviction takes no copy away. -/
theorem run_keeps_durable (store : PlacementStore) (calls : List Call)
    (h : Along step (fun store call => call.Meets store) store calls) :
    Along step (fun store call => call.Keeps store) store calls :=
  h.imp fun _ _ => Call.keeps_of_meets

/-! ## A pack with two copies -/

def sampleModel (minCopies : Nat) : PlacementModel where
  backends :=
    [{ id := "a", hash := 1, role := .primary, failureDomain := "here" },
     { id := "b", hash := 2, role := .other "mirror", failureDomain := "there" }]
  policy := { minCopies }

/-- Pack 7 is live on both backends; one copy is enough for the first policy. -/
def sampleStore : PlacementStore :=
  { packs := AList.insert 7
      { type := .data, lifecycle := .published, tier := .mirrored, physicalSize := 10 } ∅
    placements := AList.insert 7
      (AList.insert 1 { state := .live } (AList.insert 2 { state := .live } ∅)) ∅ }

def samplePlan : Call := .plan { model := sampleModel 1, now := 0 }

def sampleExecute (minCopies : Nat) (result : ActionResult) : PlacementWorkerOptions :=
  { model := sampleModel minCopies, now := 0, perWindow := id, action := fun _ => result }

theorem run_keeps_durable_sample :
    (executePlacement (sampleExecute 1 .done) (step sampleStore samplePlan)).result.evicted = 1 ∧
      Along step (fun store call => call.Keeps store) sampleStore
        [samplePlan, .execute (sampleExecute 1 .done)] := by
  have hspares : Along (handleRequest (sampleExecute 1 .done))
      (fun worker entry => spares (sampleExecute 1 .done) worker entry = true)
      { store := step sampleStore samplePlan }
      (pendingRequests (step sampleStore samplePlan)) := by
    decide +kernel
  exact ⟨by decide +kernel, run_keeps_durable sampleStore _ ⟨trivial, hspares, trivial⟩⟩

/-- The planned eviction is refused under a policy that needs both copies, or fails: either
way the copy it leaves in place no longer counts. -/
theorem execute_unsuccessful_eviction_loses_copy :
    let planned := step sampleStore samplePlan
    let refused := executePlacement (sampleExecute 2 .done) planned
    let failed := executePlacement (sampleExecute 1 (.failed "timeout")) planned
    (durableIn (sampleModel 2) planned 7 = true ∧ refused.completed = [] ∧
        durableIn (sampleModel 2) refused.store 7 = false) ∧
      copiesIn (sampleModel 1) planned 7 = {1, 2} ∧
      copiesIn (sampleModel 1) failed.store 7 = {1} := by
  decide +kernel

end Vaultic.Maintenance
