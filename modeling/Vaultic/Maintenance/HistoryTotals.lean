/-
  Maintenance/HistoryTotals.lean  —  what the buckets of a rollup count.

  Buckets are intervals of time (`bucketStart_mono`), and each bucket of
  `accumulateBuckets` counts exactly the given events that lie in it
  (`counts_accumulateBuckets`).  The byte counters stop at the largest `uint64`.
-/
import Vaultic.Maintenance.History

set_option autoImplicit false

namespace Vaultic.Maintenance

open Vaultic.Lib Vaultic.Wire

/-! ## Buckets are intervals -/

theorem toInt_toInt64 {unixSeconds : UInt64} (h : unixSeconds.toNat < 2 ^ 63) :
    unixSeconds.toInt64.toInt = unixSeconds.toNat := by
  rw [← Int64.toInt_toBitVec]
  exact BitVec.toInt_eq_toNat_of_lt (by
    change 2 * unixSeconds.toNat < 2 ^ 64
    omega)

theorem toNat_unsignedSeconds (seconds : Int) (hfrom : 0 ≤ seconds) (hto : seconds < 2 ^ 63) :
    ((unsignedSeconds seconds).toNat : Int) = seconds := by
  change ((Int64.ofInt seconds).toBitVec.toNat : Int) = seconds
  rw [Int64.toBitVec_ofInt, BitVec.toNat_ofInt]
  omega

/-- A later time is not in an earlier bucket. -/
theorem bucketStart_mono (granularity : HistoryGranularity) {time time' : UInt64}
    (h : time ≤ time') (hclock : time'.toNat < 2 ^ 63) :
    bucketStart granularity time ≤ bucketStart granularity time' := by
  rw [UInt64.le_iff_toNat_le] at h
  -- Both starts are truncations of times that are not negative.
  have hmono : ∀ start : Int → Int, (∀ a b, a ≤ b → start a ≤ start b) → (∀ a, start a ≤ a) →
      0 ≤ start 0 → unsignedSeconds (start time.toInt64.toInt) ≤
        unsignedSeconds (start time'.toInt64.toInt) := by
    intro start hstart hle hzero
    rw [toInt_toInt64 (by omega), toInt_toInt64 hclock, UInt64.le_iff_toNat_le]
    have hbelow := hle (time.toNat : Int)
    have hbelow' := hle (time'.toNat : Int)
    have hfrom := hstart 0 (time.toNat : Int) (by omega)
    have hfrom' := hstart (time.toNat : Int) (time'.toNat : Int) (by omega)
    have hseconds := toNat_unsignedSeconds (start time.toNat) (by omega) (by omega)
    have hseconds' := toNat_unsignedSeconds (start time'.toNat) (by omega) (by omega)
    omega
  unfold bucketStart
  split_ifs
  · exact hmono (fun moment => 3600 * (moment / 3600)) (by intro a b hab; omega)
      (by intro a; omega) (by decide)
  · exact hmono (fun moment => 86400 * (moment / 86400)) (by intro a b hab; omega)
      (by intro a; omega) (by decide)
  · refine hmono (fun moment => 86400 * monthStart (moment / 86400)) ?_ ?_ (by decide)
    · intro a b hab
      have hmonth := monthStart_mono (show a / 86400 ≤ b / 86400 by omega)
      omega
    · intro a
      have hmonth := monthStart_le (a / 86400)
      omega
  · rwa [UInt64.le_iff_toNat_le]

/-! ## Counters -/

/-- The kinds of events that a bucket has counters for. -/
inductive Activity where
  | created
  | deleted
  | repacked
  | promoted
  deriving DecidableEq, Repr

/-- What an event counts as; an imported pack counts as created. -/
def activity (type : PackEventType) : Option Activity :=
  if type = eventCreated ∨ type = eventImported then some .created
  else if type = eventRepackedInto then some .repacked
  else if type = eventPromoted then some .promoted
  else if type = eventDeleted then some .deleted
  else none

/-- The number of packs that a bucket has for a kind of event. -/
def packsOf (bucket : PackHistoryBucket) : Activity → UInt64
  | .created => bucket.packsCreated
  | .deleted => bucket.packsDeleted
  | .repacked => bucket.packsRepacked
  | .promoted => bucket.packsPromoted

/-- The number of bytes that a bucket has for a kind of event. -/
def bytesOf (bucket : PackHistoryBucket) : Activity → UInt64
  | .created => bucket.bytesAdded
  | .deleted => bucket.bytesDeleted
  | .repacked => bucket.bytesRepacked
  | .promoted => bucket.bytesPromoted

def hasActivity (kind : Activity) (event : HistoryEvent) : Bool :=
  activity event.record.type = some kind

/-- The bytes of the events of one kind. -/
def totalBytes (kind : Activity) (events : List HistoryEvent) : Nat :=
  ((events.filter (hasActivity kind)).map fun event => event.record.physicalSize.toNat).sum

/-- Every counter of the bucket has the total over the events. -/
structure Counts (events : List HistoryEvent) (bucket : PackHistoryBucket) : Prop where
  packs : ∀ kind, (packsOf bucket kind).toNat = events.countP (hasActivity kind)
  bytes : ∀ kind, (bytesOf bucket kind).toNat = min (2 ^ 64 - 1) (totalBytes kind events)
  observed : bucket.eventsObserved.toNat = events.length

theorem toNat_addSaturating (left right : UInt64) :
    (addSaturating left right).toNat = min (2 ^ 64 - 1) (left.toNat + right.toNat) := by
  have hleft := left.toNat_lt
  have hright := right.toNat_lt
  unfold addSaturating
  split_ifs with hover
  · change 2 ^ 64 - 1 = _
    omega
  · rw [UInt64.toNat_add, Nat.mod_eq_of_lt (by omega)]
    omega

theorem toNat_succ {value : UInt64} (h : value.toNat + 1 < 2 ^ 64) :
    (value + 1).toNat = value.toNat + 1 := by
  rw [UInt64.toNat_add]
  exact Nat.mod_eq_of_lt h

theorem packsOf_observeEvent (bucket : PackHistoryBucket) (event : HistoryEvent) (kind : Activity) :
    packsOf (observeEvent bucket event) kind =
      if hasActivity kind event then packsOf bucket kind + 1 else packsOf bucket kind := by
  simp only [observeEvent, applyEventToBucket, hasActivity, activity]
  split_ifs <;> cases kind <;> simp_all [packsOf]

theorem bytesOf_observeEvent (bucket : PackHistoryBucket) (event : HistoryEvent) (kind : Activity) :
    bytesOf (observeEvent bucket event) kind =
      if hasActivity kind event then addSaturating (bytesOf bucket kind) event.record.physicalSize
      else bytesOf bucket kind := by
  simp only [observeEvent, applyEventToBucket, hasActivity, activity]
  split_ifs <;> cases kind <;> simp_all [bytesOf]

theorem eventsObserved_observeEvent (bucket : PackHistoryBucket) (event : HistoryEvent) :
    (observeEvent bucket event).eventsObserved = bucket.eventsObserved + 1 := by
  simp only [observeEvent, applyEventToBucket]
  split_ifs <;> rfl

theorem totalBytes_append_singleton (kind : Activity) (events : List HistoryEvent)
    (event : HistoryEvent) :
    totalBytes kind (events ++ [event]) =
      totalBytes kind events +
        if hasActivity kind event then event.record.physicalSize.toNat else 0 := by
  unfold totalBytes
  rw [List.filter_append, List.map_append, List.sum_append]
  cases h : hasActivity kind event <;> simp [h]

theorem counts_emptyBucket : Counts [] emptyBucket :=
  ⟨by intro kind; cases kind <;> rfl, by intro kind; cases kind <;> rfl, rfl⟩

variable {events : List HistoryEvent} {bucket : PackHistoryBucket}

theorem Counts.observeEvent (h : Counts events bucket) (event : HistoryEvent)
    (hroom : events.length + 1 < 2 ^ 64) :
    Counts (events ++ [event]) (observeEvent bucket event) where
  packs kind := by
    have hle : events.countP (hasActivity kind) ≤ events.length := List.countP_le_length
    have hpacks := h.packs kind
    rw [packsOf_observeEvent, List.countP_append, List.countP_singleton]
    split_ifs
    · rw [toNat_succ (by omega)]
      omega
    · omega
  bytes kind := by
    rw [bytesOf_observeEvent, totalBytes_append_singleton]
    split_ifs
    · rw [toNat_addSaturating, h.bytes kind]
      omega
    · exact h.bytes kind
  observed := by
    have hobserved := h.observed
    rw [eventsObserved_observeEvent, List.length_append, List.length_singleton,
      toNat_succ (by omega), hobserved]

theorem counts_foldl (hroom : events.length < 2 ^ 64) :
    Counts events (events.foldl Maintenance.observeEvent emptyBucket) := by
  induction events using List.reverseRecOn with
  | nil => exact counts_emptyBucket
  | append_singleton events event ih =>
    rw [List.length_append, List.length_singleton] at hroom
    rw [List.foldl_append]
    exact (ih (by omega)).observeEvent event (by omega)

/-- The totals do not depend on the order of the events. -/
theorem Counts.perm {events events' : List HistoryEvent} (h : Counts events bucket)
    (hperm : events.Perm events') : Counts events' bucket where
  packs kind := (h.packs kind).trans (hperm.countP_eq _)
  bytes kind := by
    rw [h.bytes kind, totalBytes, totalBytes, ((hperm.filter _).map _).sum_eq]
  observed := h.observed.trans hperm.length_eq

/-! ## The events of a bucket -/

/-- The event is of the period, the backend and the pack type of the bucket. -/
def inBucket (key : BucketKey) (event : HistoryEvent) : Bool :=
  bucketKeyOf key.granularity event = key

variable {key : BucketKey}

theorem bucketKeyOf_eq_iff {granularity : HistoryGranularity} {event : HistoryEvent} :
    bucketKeyOf granularity event = key ↔ granularity = key.granularity ∧ inBucket key event := by
  unfold inBucket
  rw [decide_eq_true_eq]
  constructor
  · intro h
    have hgranularity : granularity = key.granularity := congrArg BucketKey.granularity h
    exact ⟨hgranularity, hgranularity ▸ h⟩
  · intro h
    exact h.1 ▸ h.2

variable {granularities : List HistoryGranularity}

/-- In the loops, an event visits a bucket once. -/
theorem rounds_filter (events : List HistoryEvent) (hnodup : granularities.Nodup)
    (hmem : key.granularity ∈ granularities) :
    ((rounds events granularities).filter fun round => bucketKeyOf round.2 round.1 = key).map
      Prod.fst = events.filter (inBucket key) := by
  have hgranularity : granularities.filter (· = key.granularity) = [key.granularity] := by
    rw [List.filter_eq, List.count_eq_one_of_mem hnodup hmem]
    rfl
  induction events with
  | nil => rfl
  | cons event rest ih =>
    unfold rounds at ih ⊢
    rw [List.flatMap_cons, List.filter_append, List.map_append, ih, List.filter_map]
    cases hin : inBucket key event with
    | true =>
      have hvisit : ((fun round : HistoryEvent × HistoryGranularity =>
          decide (bucketKeyOf round.2 round.1 = key)) ∘ fun granularity =>
            (event, granularity)) =
          fun granularity => decide (granularity = key.granularity) := by
        funext granularity
        simp [bucketKeyOf_eq_iff, hin]
      rw [hvisit, hgranularity, List.filter_cons_of_pos hin]
      rfl
    | false =>
      have hvisit : ((fun round : HistoryEvent × HistoryGranularity =>
          decide (bucketKeyOf round.2 round.1 = key)) ∘ fun granularity =>
            (event, granularity)) = fun _ => false := by
        funext granularity
        simp [bucketKeyOf_eq_iff, hin]
      rw [hvisit, List.filter_cons_of_neg (by simp [hin])]
      simp

theorem rounds_granularity {round : HistoryEvent × HistoryGranularity}
    (h : round ∈ rounds events granularities) : round.2 ∈ granularities := by
  obtain ⟨event, -, hround⟩ := List.mem_flatMap.mp h
  obtain ⟨granularity, hmem, rfl⟩ := List.mem_map.mp hround
  exact hmem

/-- A bucket of `accumulateBuckets` counts the events that lie in it, and there is one. -/
theorem counts_accumulateBuckets {rawFloor enabledAt : UInt64} (hnodup : granularities.Nodup)
    (hroom : events.length < 2 ^ 64)
    (h : (accumulateBuckets events granularities rawFloor enabledAt).lookup key = some bucket) :
    key.granularity ∈ granularities ∧ (∃ event ∈ events, inBucket key event = true) ∧
      Counts (events.filter (inBucket key)) bucket := by
  simp only [accumulateBuckets, Table.lookup_mapValues] at h
  obtain ⟨observed, hlookup, hbucket⟩ := Option.map_eq_some_iff.mp h
  rw [Table.lookup_accumulate] at hlookup
  split_ifs at hlookup with hnone
  · cases hlookup
  obtain ⟨round, hround⟩ := List.exists_mem_of_ne_nil _ hnone
  obtain ⟨hmem, hkey⟩ := List.mem_filter.mp hround
  have hgranularity : key.granularity ∈ granularities := by
    rw [← (bucketKeyOf_eq_iff.mp (of_decide_eq_true hkey)).1]
    exact rounds_granularity hmem
  have hrounds := rounds_filter events hnodup hgranularity
  have hobserved : (events.filter (inBucket key)).foldl observeEvent emptyBucket = observed := by
    rw [← hrounds, List.foldl_map]
    exact Option.some.inj hlookup
  have hfold : Counts (events.filter (inBucket key)) observed := by
    rw [← hobserved]
    exact counts_foldl (lt_of_le_of_lt (List.length_filter_le _ _) hroom)
  refine ⟨hgranularity, ?_, ?_⟩
  · have hfirst : round.1 ∈ events.filter (inBucket key) := by
      rw [← hrounds]
      exact List.mem_map_of_mem hround
    obtain ⟨hevent, hin⟩ := List.mem_filter.mp hfirst
    exact ⟨round.1, hevent, hin⟩
  · -- The coverage is not a counter.
    rw [← hbucket]
    exact ⟨fun kind => (by cases kind <;> rfl : _ = _).trans (hfold.packs kind),
      fun kind => (by cases kind <;> rfl : _ = _).trans (hfold.bytes kind), hfold.observed⟩

end Vaultic.Maintenance
