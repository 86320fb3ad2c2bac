/-
  Maintenance/History.lean  —  rolling up and truncating the pack history.

  Source: internal/index/maintenance/history.go, and the part of
  internal/index/daemon/history.go that appends events.

  A rollup recomputes every bucket that has a retained event, from the retained events
  alone, and overwrites what is stored.  A prune rolls up, then deletes the events before
  the raw floor.  The floor is an instant, not the start of a bucket.

  The store of this file has the history keys, with the encoded records under them.  A scan
  visits the entries in the order of the table; nothing that is computed from it depends on
  the order.  A pass whose reads fail has written what a shorter pass writes, so only the
  outcome of a write is a parameter.
-/
import Vaultic.Lib.Calendar
import Vaultic.Lib.TableFold
import Vaultic.Wire.Metadata

set_option autoImplicit false

namespace Vaultic.Maintenance

open Vaultic.Lib Vaultic.Wire
open Vaultic.Schema (ID)

/-! ## Buckets of time -/

/-- `HistoryGranularities` -/
def historyGranularities : List HistoryGranularity :=
  [granularityHourly, granularityDaily, granularityMonthly]

/-- A number of Unix seconds, which the source keeps as an `int64`, as a `uint64`. -/
def unsignedSeconds (seconds : Int) : UInt64 := (Int64.ofInt seconds).toUInt64

/-- `BucketStart`; the buckets are those of UTC. -/
def bucketStart (granularity : HistoryGranularity) (unixSeconds : UInt64) : UInt64 :=
  let moment := unixSeconds.toInt64.toInt
  if granularity = granularityHourly then unsignedSeconds (3600 * (moment / 3600))
  else if granularity = granularityDaily then unsignedSeconds (86400 * (moment / 86400))
  else if granularity = granularityMonthly then
    unsignedSeconds (86400 * monthStart (moment / 86400))
  else unixSeconds

/-- `bucketKeyOf`, and the arguments of `PackHistoryBucketKey`. -/
structure BucketKey where
  granularity : HistoryGranularity
  (start backend : UInt64)
  packType : PackType
  deriving DecidableEq, Repr

/-- The arguments of `PackHistoryKey`. -/
structure EventKey where
  (unixSeconds sequence : UInt64)
  packID : ID
  deriving DecidableEq, Repr

/-- `HistoryEvent` -/
structure HistoryEvent extends EventKey where
  record : PackHistoryEvent
  deriving DecidableEq, Repr

/-- The bucket of an event. -/
def bucketKeyOf (granularity : HistoryGranularity) (event : HistoryEvent) : BucketKey :=
  { granularity
    start := bucketStart granularity event.unixSeconds
    backend := event.record.backend
    packType := event.record.packType }

/-! ## The store -/

structure HistoryStore where
  events : Table EventKey Bytes
  buckets : Table BucketKey Bytes
  (rawFloor enabledAt nextEventSequence : Option Bytes)

/-- `readHistoryMarker`: a corrupt marker is treated as absent. -/
def readHistoryMarker : Option Bytes → UInt64
  | none => 0
  | some value =>
    match unmarshalHistoryMarker value with
    | .ok marker => marker.unixSeconds
    | .error _ => 0

/-! ## Appending events -/

/-- `PackEvent`: a transition of a pack to record. -/
structure PackEvent where
  packID : ID
  record : PackHistoryEvent
  deriving DecidableEq, Repr

/-- The loop of `appendPackHistoryFromSequence`: the events with their encoding, numbered from
`allocated`, and the next number.  An event that cannot be encoded is dropped. -/
def numberEvents (seconds : UInt64) : List PackEvent → UInt64 → List (HistoryEvent × Bytes) × UInt64
  | [], allocated => ([], allocated)
  | event :: rest, allocated =>
    match event.record.marshalBinary with
    | .error _ => numberEvents seconds rest allocated
    | .ok value =>
      (({ unixSeconds := seconds, sequence := allocated, packID := event.packID
          record := event.record.normalized }, value) ::
        (numberEvents seconds rest (allocated + 1)).1,
        (numberEvents seconds rest (allocated + 1)).2)

section

variable (store : HistoryStore)

/-- The number of the next event; a corrupt counter restarts at one. -/
def nextSequence : UInt64 :=
  match store.nextEventSequence with
  | none => 1
  | some encoded =>
    match unmarshalNextRevision encoded with
    | .ok next => next
    | .error _ => 1

/-- The history clock in seconds; a clock before 1970 counts as zero. -/
def historySeconds (clock : Int64) : UInt64 := if clock < 0 then 0 else clock.toUInt64

/-- The marker of when history began, put on first use. -/
def enabledMarker (seconds : UInt64) : Result Bytes :=
  match store.enabledAt with
  | some marker => .ok marker
  | none => { unixSeconds := seconds : HistoryMarker }.marshalBinary

/-- `packHistoryMutations`, with the store its puts give and the events it stores. -/
def appendPackHistory (clock : Int64) (events : List PackEvent) :
    Result (HistoryStore × List HistoryEvent) :=
  if events = [] then .ok (store, [])
  else do
    let seconds := historySeconds clock
    let marker ← enabledMarker store seconds
    let next := nextSequence store
    if 2 ^ 64 - 1 - next.toNat < events.length then .error "pack history sequence exhausted"
    else
      let numbered := numberEvents seconds events next
      if numbered.1 = [] then .ok (store, [])
      else do
        let encodedNext ← marshalNextRevision numbered.2
        .ok
          ({ store with
              events := store.events.putAll (numbered.1.map fun e => (e.1.toEventKey, e.2))
              enabledAt := some marker
              nextEventSequence := some encodedNext },
            numbered.1.map Prod.fst)

/-! ## Scanning -/

structure HistoryScanResult where
  events : List HistoryEvent
  malformed : Nat

/-- The range of a scan; `until` is exclusive, and zero stands for no bound. -/
def inRange (since til time : UInt64) : Bool :=
  !(time < since || (til != 0 && til ≤ time))

def decodeEvent (key : EventKey) (value : Bytes) : Option HistoryEvent :=
  match unmarshalPackHistoryEvent value with
  | .ok record => some { key with record }
  | .error _ => none

def visitEvent (since til : UInt64) (key : EventKey) (value : Bytes) : Option HistoryEvent :=
  if inRange since til key.unixSeconds then decodeEvent key value else none

/-- `ScanHistory` -/
def scanHistory (since til : UInt64) : HistoryScanResult :=
  { events := store.events.scan (visitEvent since til)
    malformed := store.events.entries.countP fun entry =>
      inRange since til entry.1.unixSeconds && (decodeEvent entry.1 entry.2).isNone }

/-! ## Accumulating buckets -/

def addSaturating (left right : UInt64) : UInt64 :=
  if 2 ^ 64 - 1 - left.toNat < right.toNat then 0xFFFFFFFFFFFFFFFF else left + right

def applyEventToBucket (bucket : PackHistoryBucket) (event : PackHistoryEvent) :
    PackHistoryBucket :=
  if event.type = eventCreated ∨ event.type = eventImported then
    { bucket with
      packsCreated := bucket.packsCreated + 1
      bytesAdded := addSaturating bucket.bytesAdded event.physicalSize }
  else if event.type = eventRepackedInto then
    { bucket with
      packsRepacked := bucket.packsRepacked + 1
      bytesRepacked := addSaturating bucket.bytesRepacked event.physicalSize }
  else if event.type = eventPromoted then
    { bucket with
      packsPromoted := bucket.packsPromoted + 1
      bytesPromoted := addSaturating bucket.bytesPromoted event.physicalSize }
  else if event.type = eventDeleted then
    { bucket with
      packsDeleted := bucket.packsDeleted + 1
      bytesDeleted := addSaturating bucket.bytesDeleted event.physicalSize }
  else bucket

/-- The zero value of a bucket. -/
def emptyBucket : PackHistoryBucket :=
  { packsCreated := 0, packsDeleted := 0, packsRepacked := 0, packsPromoted := 0, bytesAdded := 0
    bytesDeleted := 0, bytesRepacked := 0, bytesPromoted := 0, endPackCount := 0
    endPhysicalSize := 0, endPayloadSize := 0, coverage := 0, eventsObserved := 0 }

/-- What the inner loop of `AccumulateBuckets` makes of a bucket. -/
def observeEvent (bucket : PackHistoryBucket) (event : HistoryEvent) : PackHistoryBucket :=
  let bucket := applyEventToBucket bucket event.record
  { bucket with eventsObserved := bucket.eventsObserved + 1 }

/-- `coverageFor` -/
def coverageFor (key : BucketKey) (rawFloor enabledAt : UInt64) : HistoryCoverage :=
  if enabledAt ≠ 0 ∧ key.start < enabledAt then coverageReconstructed
  else if rawFloor ≠ 0 ∧ key.start < rawFloor then coveragePartial
  else coverageComplete

/-- The rounds of the two loops. -/
def rounds (events : List HistoryEvent) (granularities : List HistoryGranularity) :
    List (HistoryEvent × HistoryGranularity) :=
  events.flatMap fun event => granularities.map fun granularity => (event, granularity)

/-- `imported[key]` -/
def isImported (events : List HistoryEvent) (granularities : List HistoryGranularity)
    (key : BucketKey) : Bool :=
  (rounds events granularities).any fun round =>
    round.1.record.type == eventImported && bucketKeyOf round.2 round.1 == key

/-- `AccumulateBuckets` -/
def accumulateBuckets (events : List HistoryEvent) (granularities : List HistoryGranularity)
    (rawFloor enabledAt : UInt64) : Table BucketKey PackHistoryBucket :=
  let buckets := Table.accumulate (fun round => bucketKeyOf round.2 round.1)
    (fun bucket round => observeEvent bucket round.1) emptyBucket ∅ (rounds events granularities)
  buckets.mapValues fun key bucket =>
    let coverage := coverageFor key rawFloor enabledAt
    { bucket with
      coverage :=
        if isImported events granularities key ∧ coverage = coverageComplete then
          coverageReconstructed
        else coverage }

/-! ## Rolling up -/

/-- What became of a batch that was sent to the store. -/
inductive WriteOutcome where
  | acknowledged
  | unacknowledged
  | refused (reason : String)
  deriving DecidableEq, Repr

/-- `WriteMutableBatch`: the batch is written as a whole or not at all. -/
def writeMutableBatch (outcome : WriteOutcome) (store written : HistoryStore) :
    HistoryStore × Result Unit :=
  match outcome with
  | .acknowledged => (written, .ok ())
  | .unacknowledged => (written, .error "vaulticdb did not acknowledge durable schema write")
  | .refused reason => (store, .error reason)

/-- The buckets of the retained events. -/
def currentBuckets : Table BucketKey PackHistoryBucket :=
  accumulateBuckets (scanHistory store 0 0).events historyGranularities
    (readHistoryMarker store.rawFloor) (readHistoryMarker store.enabledAt)

/-- The stored bucket is the recomputed one. -/
def isUnchanged (key : BucketKey) (bucket : PackHistoryBucket) : Bool :=
  match store.buckets.lookup key with
  | none => false
  | some current => okAnd (unmarshalPackHistoryBucket current) (· == bucket)

/-- One round of the loop of `RollupHistory`; a stored bucket that does not decode is
overwritten. -/
def bucketPut (entry : Sigma fun _ : BucketKey => PackHistoryBucket) :
    Result (Option (BucketKey × Bytes)) :=
  if !validHistoryGranularity entry.1.granularity || isUnchanged store entry.1 entry.2 then
    .ok none
  else do
    let encoded ← entry.2.marshalBinary
    .ok (some (entry.1, encoded))

/-- The puts of a rollup. -/
def rollupPuts : Result (List (BucketKey × Bytes)) := do
  let puts ← ((currentBuckets store).entries.map (bucketPut store)).mapM id
  .ok puts.reduceOption

structure RollupResult where
  (eventsScanned malformedEvents bucketsWritten bucketsUnchanged partialBuckets : Nat)
  reconstructedBuckets : Nat
  deriving DecidableEq, Repr

def rollupResult (puts : List (BucketKey × Bytes)) : RollupResult :=
  let scanned := scanHistory store 0 0
  let buckets := (currentBuckets store).entries
  { eventsScanned := scanned.events.length
    malformedEvents := scanned.malformed
    bucketsWritten := puts.length
    bucketsUnchanged := buckets.countP fun entry =>
      validHistoryGranularity entry.1.granularity && isUnchanged store entry.1 entry.2
    partialBuckets := buckets.countP fun entry => entry.2.coverage == coveragePartial
    reconstructedBuckets := buckets.countP fun entry => entry.2.coverage == coverageReconstructed }

def HistoryStore.putBuckets (puts : List (BucketKey × Bytes)) : HistoryStore :=
  { store with buckets := store.buckets.putAll puts }

/-- `RollupHistory` -/
def rollupHistory (dryRun : Bool) (outcome : WriteOutcome) : HistoryStore × Result RollupResult :=
  match rollupPuts store with
  | .error err => (store, .error err)
  | .ok puts =>
    if puts = [] ∨ dryRun = true then (store, .ok (rollupResult store puts))
    else
      match writeMutableBatch outcome store (store.putBuckets puts) with
      | (written, .error err) => (written, .error s!"write history buckets: {err}")
      | (written, .ok ()) => (written, .ok (rollupResult store puts))

/-! ## Truncating -/

/-- The durations and the time are in nanoseconds. -/
structure HistoryRetentionOptions where
  (keepRaw keepHourly keepDaily keepMonthly : Int)
  dryRun : Bool
  now : Int
  deriving DecidableEq, Repr

variable (options : HistoryRetentionOptions)

structure HistoryRetentionResult where
  (rawEventsRemoved bucketsRemoved : Nat)
  newRawFloor : UInt64
  rollup : RollupResult

/-- The second that lies `keep` before now.  A duration that reaches back before 1970 gives a
number that is not negative but huge. -/
def HistoryRetentionOptions.cutoff (keep : Int) : UInt64 :=
  unsignedSeconds ((options.now - keep) / 1000000000)

/-- `bucketRetention[granularity]` -/
def HistoryRetentionOptions.keep (granularity : HistoryGranularity) : Int :=
  if granularity = granularityHourly then options.keepHourly
  else if granularity = granularityDaily then options.keepDaily
  else if granularity = granularityMonthly then options.keepMonthly
  else 0

/-- The raw events that a prune deletes. -/
def truncatedEvents : List HistoryEvent :=
  if options.keepRaw > 0 then (scanHistory store 0 (options.cutoff options.keepRaw)).events else []

/-- The buckets that a prune deletes. -/
def expiredBuckets : List BucketKey :=
  historyGranularities.flatMap fun granularity =>
    if options.keep granularity ≤ 0 then []
    else store.buckets.keys.filter fun key =>
      key.granularity = granularity ∧ validPackType key.packType = true ∧
        key.start < options.cutoff (options.keep granularity)

/-- The raw floor after a prune, and its marker if it is advanced. -/
def rawFloorPut : Result (UInt64 × Option Bytes) :=
  let floor := if options.keepRaw > 0 then options.cutoff options.keepRaw else 0
  let existing := readHistoryMarker store.rawFloor
  if floor = 0 then .ok (0, none)
  else if floor > existing then do
    let value ← { unixSeconds := floor : HistoryMarker }.marshalBinary
    .ok (floor, some value)
  else .ok (existing, none)

def HistoryStore.truncate (marker : Option Bytes) : HistoryStore :=
  { store with
    events := store.events.deleteAll ((truncatedEvents store options).map (·.toEventKey))
    buckets := store.buckets.deleteAll (expiredBuckets store options)
    rawFloor := marker.or store.rawFloor }

/-- The part of `PruneHistory` after the rollup. -/
def truncateHistory (rollup : RollupResult) (outcome : WriteOutcome) :
    HistoryStore × Result HistoryRetentionResult :=
  let removed : HistoryRetentionResult :=
    { rawEventsRemoved := (truncatedEvents store options).length
      bucketsRemoved := (expiredBuckets store options).length
      newRawFloor := if options.keepRaw > 0 then options.cutoff options.keepRaw else 0
      rollup }
  if options.dryRun then (store, .ok removed)
  else
    match rawFloorPut store options with
    | .error err => (store, .error err)
    | .ok (newRawFloor, marker) =>
      if truncatedEvents store options = [] ∧ expiredBuckets store options = [] ∧
          marker = none then
        (store, .ok { removed with newRawFloor })
      else
        match writeMutableBatch outcome store (store.truncate options marker) with
        | (written, .error err) => (written, .error s!"truncate pack history: {err}")
        | (written, .ok ()) => (written, .ok { removed with newRawFloor })

/-- `PruneHistory` -/
def pruneHistory (rollupWrite truncateWrite : WriteOutcome) :
    HistoryStore × Result HistoryRetentionResult :=
  match rollupHistory store options.dryRun rollupWrite with
  | (rolled, .error err) => (rolled, .error err)
  | (rolled, .ok rollup) => truncateHistory rolled options rollup truncateWrite

end

end Vaultic.Maintenance
