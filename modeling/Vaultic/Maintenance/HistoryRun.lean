/-
  Maintenance/HistoryRun.lean  —  runs of appends, rollups and truncations.

  A stored bucket should have the totals of all events of its period that had been appended
  when it was written last, truncated or not.  A rollup sees the retained events only, so
  this needs that truncation never takes a part of a bucket: no raw event before the floor
  lies in the bucket of the floor, in any granularity, and no event is appended behind the
  floor.  Along such runs it holds (`buckets_total_of_uncut`).  A floor in the middle of an
  hour with an event before it breaks it: the next rollup replaces the total by what is left
  of the hour (`bucket_loses_truncated`).
-/
import Vaultic.Lib.Run
import Vaultic.Maintenance.HistoryTotals

set_option autoImplicit false

namespace Vaultic.Maintenance

open Vaultic.Lib Vaultic.Wire

/-! ## Steps -/

inductive HistoryStep where
  | append (clock : Int64) (events : List PackEvent)
  | rollup (dryRun : Bool) (outcome : WriteOutcome)
  | prune (options : HistoryRetentionOptions) (rollupWrite truncateWrite : WriteOutcome)

/-- The store, all events appended so far, and for each bucket those that had been appended
when it was last written. -/
structure HistoryRun where
  store : HistoryStore
  appended : List HistoryEvent
  written : BucketKey → List HistoryEvent

def HistoryRun.start : HistoryRun :=
  { store := { events := ∅, buckets := ∅, rawFloor := none, enabledAt := none
               nextEventSequence := none }
    appended := []
    written := fun _ => [] }

/-- The batch reaches the store, acknowledged or not. -/
def WriteOutcome.applied : WriteOutcome → Bool
  | .refused _ => false
  | _ => true

/-- What a rollup makes of the record of the last writes. -/
def HistoryRun.writtenBy (run : HistoryRun) (dryRun : Bool) (outcome : WriteOutcome)
    (key : BucketKey) : List HistoryEvent :=
  match rollupPuts run.store with
  | .error _ => run.written key
  | .ok puts =>
    if !dryRun && outcome.applied && puts.any (·.1 == key) then run.appended
    else run.written key

def HistoryRun.rollup (run : HistoryRun) (dryRun : Bool) (outcome : WriteOutcome) : HistoryRun :=
  { run with
    store := (rollupHistory run.store dryRun outcome).1
    written := run.writtenBy dryRun outcome }

def historyStep (run : HistoryRun) : HistoryStep → HistoryRun
  | .append clock events =>
    match appendPackHistory run.store clock events with
    | .error _ => run
    | .ok (store, new) => { run with store, appended := run.appended ++ new }
  | .rollup dryRun outcome => run.rollup dryRun outcome
  | .prune options rollupWrite truncateWrite =>
    { run.rollup options.dryRun rollupWrite with
      store := (pruneHistory run.store options rollupWrite truncateWrite).1 }

/-- Every stored bucket has, in each counter, the total over the events of its period, backend
and pack type that had been appended when it was last written. -/
def TotalsKept (run : HistoryRun) : Prop :=
  ∀ key data, run.store.buckets.lookup key = some data →
    ∃ bucket, unmarshalPackHistoryBucket data = .ok bucket ∧
      Counts ((run.written key).filter (inBucket key)) bucket

/-- No event before the floor shares a bucket with it. -/
def cutsNoBucket (store : HistoryStore) (floor : UInt64) : Prop :=
  ∀ event ∈ (scanHistory store 0 0).events, inRange 0 floor event.unixSeconds = true →
    ∀ granularity ∈ historyGranularities,
      bucketStart granularity event.unixSeconds < bucketStart granularity floor

/-- Truncation leaves buckets whole, and events are appended at or after the floor. -/
def keepsBuckets (run : HistoryRun) : HistoryStep → Prop
  | .append clock _ => readHistoryMarker run.store.rawFloor ≤ historySeconds clock
  | .rollup _ _ => True
  | .prune options _ _ =>
    options.dryRun = true ∨ options.keepRaw ≤ 0 ∨
      cutsNoBucket run.store (options.cutoff options.keepRaw)

instance (store : HistoryStore) (floor : UInt64) : Decidable (cutsNoBucket store floor) :=
  inferInstanceAs (Decidable (∀ event ∈ (scanHistory store 0 0).events, _ → _))

instance (run : HistoryRun) : (step : HistoryStep) → Decidable (keepsBuckets run step)
  | .append clock _ =>
    inferInstanceAs (Decidable (readHistoryMarker run.store.rawFloor ≤ historySeconds clock))
  | .rollup _ _ => inferInstanceAs (Decidable True)
  | .prune options _ _ =>
    inferInstanceAs (Decidable (options.dryRun = true ∨ options.keepRaw ≤ 0 ∨
      cutsNoBucket run.store (options.cutoff options.keepRaw)))

/-! ## What the steps do to the store -/

variable {store : HistoryStore} {options : HistoryRetentionOptions} {events : List PackEvent}
  {clock : Int64} {run : HistoryRun} {key : BucketKey} {event : HistoryEvent}
  {seconds first next til : UInt64} {marker : Option Bytes} {value : Bytes}

/-- A rollup puts the buckets it recomputed, or does nothing. -/
theorem rollupHistory_store (store : HistoryStore) (dryRun : Bool) (outcome : WriteOutcome) :
    (rollupHistory store dryRun outcome).1 =
      match rollupPuts store with
      | .error _ => store
      | .ok puts => if !dryRun && outcome.applied then store.putBuckets puts else store := by
  unfold rollupHistory
  cases hputs : rollupPuts store with
  | error err => rfl
  | ok puts =>
    dsimp only
    split_ifs with hidle hwrite hwrite
    · rcases hidle with rfl | hdry
      · rfl
      · rw [hdry] at hwrite
        cases hwrite
    · rfl
    all_goals
      have hdry : dryRun = false := by simpa using fun h => hidle (.inr h)
      rw [hdry] at hwrite
      cases outcome <;> first | rfl | simp [WriteOutcome.applied] at hwrite

theorem rollupHistory_buckets (store : HistoryStore) (dryRun : Bool) (outcome : WriteOutcome) :
    ∃ buckets, (rollupHistory store dryRun outcome).1 = { store with buckets } := by
  rw [rollupHistory_store]
  cases rollupPuts store with
  | error err => exact ⟨store.buckets, rfl⟩
  | ok puts =>
    split_ifs
    · exact ⟨store.buckets.putAll puts, rfl⟩
    · exact ⟨store.buckets, rfl⟩

theorem truncateHistory_store (store : HistoryStore) (options : HistoryRetentionOptions)
    (rollup : RollupResult) (outcome : WriteOutcome) :
    (truncateHistory store options rollup outcome).1 = store ∨
      options.dryRun = false ∧ ∃ floor marker, rawFloorPut store options = .ok (floor, marker) ∧
        (truncateHistory store options rollup outcome).1 = store.truncate options marker := by
  cases hdry : options.dryRun with
  | true =>
    left
    simp only [truncateHistory, hdry, if_true]
  | false =>
    simp only [truncateHistory, hdry, Bool.false_eq_true, if_false]
    cases hput : rawFloorPut store options with
    | error err => exact .inl rfl
    | ok put =>
      obtain ⟨floor, marker⟩ := put
      dsimp only
      split_ifs with hidle
      · exact .inl rfl
      cases outcome with
      | refused reason => exact .inl rfl
      | acknowledged => exact .inr ⟨trivial, floor, marker, rfl, rfl⟩
      | unacknowledged => exact .inr ⟨trivial, floor, marker, rfl, rfl⟩

/-- A prune truncates what its rollup left, or does no more than the rollup. -/
theorem pruneHistory_store {rolled : HistoryStore} {rollupWrite : WriteOutcome}
    (truncateWrite : WriteOutcome)
    (hrolled : (rollupHistory store options.dryRun rollupWrite).1 = rolled) :
    (pruneHistory store options rollupWrite truncateWrite).1 = rolled ∨
      options.dryRun = false ∧ ∃ floor marker, rawFloorPut rolled options = .ok (floor, marker) ∧
        (pruneHistory store options rollupWrite truncateWrite).1 =
          rolled.truncate options marker := by
  unfold pruneHistory
  rcases hrollup : rollupHistory store options.dryRun rollupWrite with ⟨written, err | rollup⟩
  · rw [hrollup] at hrolled
    exact .inl hrolled
  · rw [hrollup] at hrolled
    obtain rfl : written = rolled := hrolled
    exact truncateHistory_store written options rollup truncateWrite

/-- What `numberEvents` returns for the events it is given a number for. -/
structure Numbered (seconds first next : UInt64) (numbered : List (HistoryEvent × Bytes)) :
    Prop where
  next_eq : next.toNat = first.toNat + numbered.length
  seconds_eq : ∀ entry ∈ numbered, entry.1.unixSeconds = seconds
  decodes : ∀ entry ∈ numbered, decodeEvent entry.1.toEventKey entry.2 = some entry.1
  first_le : ∀ entry ∈ numbered, first.toNat ≤ entry.1.sequence.toNat
  lt_next : ∀ entry ∈ numbered, entry.1.sequence.toNat < next.toNat
  distinct : (numbered.map fun entry => entry.1.toEventKey).Nodup

theorem numbered_numberEvents (hroom : first.toNat + events.length < 2 ^ 64) :
    Numbered seconds first (numberEvents seconds events first).2
      (numberEvents seconds events first).1 := by
  induction events generalizing first with
  | nil => exact ⟨rfl, nofun, nofun, nofun, nofun, List.nodup_nil⟩
  | cons event rest ih =>
    rw [List.length_cons] at hroom
    unfold numberEvents
    cases hvalue : event.record.marshalBinary with
    | error err => exact ih (by omega)
    | ok value =>
      have hfirst : (first + 1).toNat = first.toNat + 1 := toNat_succ (by omega)
      have hrest : Numbered seconds (first + 1) _ _ := ih (by omega)
      have hnext := hrest.next_eq
      dsimp only
      generalize numberEvents seconds rest (first + 1) = later at hrest hnext ⊢
      refine ⟨?_, ?_, ?_, ?_, ?_, ?_⟩
      · rw [hnext, List.length_cons]
        omega
      · exact List.forall_mem_cons.mpr ⟨rfl, hrest.seconds_eq⟩
      · refine List.forall_mem_cons.mpr ⟨?_, hrest.decodes⟩
        unfold decodeEvent
        rw [PackHistoryEvent.unmarshal_marshalBinary hvalue]
      · refine List.forall_mem_cons.mpr ⟨le_rfl, fun entry hentry => ?_⟩
        have hle := hrest.first_le entry hentry
        omega
      · refine List.forall_mem_cons.mpr ⟨?_, hrest.lt_next⟩
        change first.toNat < _
        omega
      · rw [List.map_cons, List.nodup_cons]
        refine ⟨fun hmem => ?_, hrest.distinct⟩
        obtain ⟨entry, hentry, heq⟩ := List.mem_map.mp hmem
        have hle := hrest.first_le entry hentry
        rw [heq] at hle
        change _ ≤ first.toNat at hle
        omega

/-- An append puts numbered events under new keys, or nothing. -/
theorem appendPackHistory_cases {store' : HistoryStore} {new : List HistoryEvent}
    (h : appendPackHistory store clock events = .ok (store', new)) :
    store' = store ∧ new = [] ∨
      ∃ numbered next encoded marker,
        Numbered (historySeconds clock) (nextSequence store) next numbered ∧
        unmarshalNextRevision encoded = .ok next ∧ new = numbered.map Prod.fst ∧
        store' =
          { store with
            events := store.events.putAll (numbered.map fun e => (e.1.toEventKey, e.2))
            enabledAt := marker
            nextEventSequence := some encoded } := by
  unfold appendPackHistory at h
  split_ifs at h with hempty
  · cases h
    exact .inl ⟨rfl, rfl⟩
  obtain ⟨marker, hmarker, h⟩ := of_bind h
  dsimp only at h
  split_ifs at h with hfull hnone
  · cases h
    exact .inl ⟨rfl, rfl⟩
  obtain ⟨encoded, hencoded, h⟩ := of_bind h
  cases h
  have hlimit := (nextSequence store).toNat_lt
  exact .inr ⟨_, _, encoded, some marker, numbered_numberEvents (by omega),
    unmarshal_marshalNextRevision hencoded, rfl, rfl⟩

theorem historySeconds_lt (clock : Int64) : (historySeconds clock).toNat < 2 ^ 63 := by
  unfold historySeconds
  split_ifs with hnegative
  · decide
  have hclock : (0 : Int64) ≤ clock := by
    rw [Int64.le_iff_toInt_le]
    rw [Int64.lt_iff_toInt_lt] at hnegative
    omega
  have hlt := clock.toInt_lt
  rw [Int64.toNat_toUInt64_of_le hclock]
  change clock.toInt.toNat < _
  omega

/-! ## The invariant -/

def HistoryStore.floor (store : HistoryStore) : UInt64 := readHistoryMarker store.rawFloor

/-- The raw events are those at or after the floor, and no bucket has events on both sides. -/
structure Uncut (run : HistoryRun) : Prop where
  retained : (scanHistory run.store 0 0).events.Perm
    (run.appended.filter fun event => run.store.floor ≤ event.unixSeconds)
  clock : ∀ event ∈ run.appended, event.unixSeconds.toNat < 2 ^ 63
  uncut : run.store.floor.toNat < 2 ^ 63 → ∀ event ∈ run.appended,
    event.unixSeconds < run.store.floor → ∀ granularity ∈ historyGranularities,
      bucketStart granularity event.unixSeconds < bucketStart granularity run.store.floor
  numbered : run.appended.length < (nextSequence run.store).toNat
  sequences : ∀ key value, run.store.events.lookup key = some value →
    key.sequence.toNat < (nextSequence run.store).toNat

theorem uncut_start : Uncut .start :=
  ⟨.refl _, nofun, nofun, by decide, nofun⟩

/-- Nothing but the buckets differs. -/
theorem Uncut.of_buckets (h : Uncut run) (buckets : Table BucketKey Bytes)
    (written : BucketKey → List HistoryEvent) :
    Uncut { run with store := { run.store with buckets }, written } :=
  ⟨h.retained, h.clock, h.uncut, h.numbered, h.sequences⟩

/-- An event in the bucket of a retained event is retained. -/
theorem Uncut.floor_le (h : Uncut run)
    (hgranularity : key.granularity ∈ historyGranularities) {other : HistoryEvent}
    (hevent : event ∈ run.appended) (hin : inBucket key event = true)
    (hother : other ∈ (scanHistory run.store 0 0).events) (hother_in : inBucket key other = true) :
    run.store.floor ≤ event.unixSeconds := by
  obtain ⟨hmem, hfloor⟩ := List.mem_filter.mp (h.retained.mem_iff.mp hother)
  have hfloor : run.store.floor ≤ other.unixSeconds := of_decide_eq_true hfloor
  by_contra hbefore
  have hclock := h.clock other hmem
  have hlimit : run.store.floor.toNat < 2 ^ 63 :=
    lt_of_le_of_lt (UInt64.le_iff_toNat_le.mp hfloor) hclock
  have hcut := h.uncut hlimit event hevent (UInt64.not_le.mp hbefore) _ hgranularity
  have hmono := bucketStart_mono key.granularity hfloor hclock
  have hstart : bucketStart key.granularity event.unixSeconds =
      bucketStart key.granularity other.unixSeconds := by
    have hleft := congrArg BucketKey.start (of_decide_eq_true hin)
    have hright := congrArg BucketKey.start (of_decide_eq_true hother_in)
    exact hleft.trans hright.symm
  rw [hstart] at hcut
  exact absurd hmono (UInt64.not_le.mpr hcut)

theorem rollupPuts_spec {puts : List (BucketKey × Bytes)}
    (h : rollupPuts store = .ok puts) {data : Bytes} (hmem : (key, data) ∈ puts) :
    ∃ bucket, (currentBuckets store).lookup key = some bucket ∧
      bucket.marshalBinary = .ok data := by
  obtain ⟨all, hall, h⟩ := of_bind h
  obtain rfl : all.reduceOption = puts := Except.ok.inj h
  obtain ⟨⟨key', bucket⟩, hentry, hput⟩ :=
    (mem_of_mapM_map hall).mp (List.reduceOption_mem_iff.mp hmem)
  unfold bucketPut at hput
  split_ifs at hput
  · cases hput
  · obtain ⟨encoded, hencoded, hput⟩ := of_bind hput
    cases hput
    exact ⟨bucket, Table.mem_entries_iff.mp hentry, hencoded⟩

/-- The buckets that a rollup recomputes have the totals of all events appended. -/
theorem Uncut.counts_currentBuckets (h : Uncut run)
    {bucket : PackHistoryBucket} (hbucket : (currentBuckets run.store).lookup key = some bucket) :
    Counts (run.appended.filter (inBucket key)) bucket := by
  have hlength : (scanHistory run.store 0 0).events.length < 2 ^ 64 := by
    have hle := List.length_filter_le
      (fun event : HistoryEvent => decide (run.store.floor ≤ event.unixSeconds)) run.appended
    have hnext := (nextSequence run.store).toNat_lt
    have hnumbered := h.numbered
    rw [h.retained.length_eq]
    omega
  obtain ⟨hgranularity, ⟨other, hother, hother_in⟩, hcounts⟩ :=
    counts_accumulateBuckets (by decide) hlength hbucket
  refine hcounts.perm ((h.retained.filter _).trans ?_)
  rw [List.filter_filter]
  refine List.Perm.of_eq (List.filter_congr ?_)
  intro event hevent
  cases hin : inBucket key event with
  | false => rfl
  | true =>
    have hfloor := h.floor_le hgranularity hevent hin hother hother_in
    simp [hfloor]

/-! ## Steps keep the invariant -/

/-- Numbered events under new keys are added to the scan. -/
theorem scan_putAll_numbered {events : Table EventKey Bytes}
    {numbered : List (HistoryEvent × Bytes)} (hnumbered : Numbered seconds first next numbered)
    (hfresh : ∀ put ∈ numbered.map fun e => (e.1.toEventKey, e.2),
      events.lookup put.1 = none) :
    ((events.putAll (numbered.map fun e => (e.1.toEventKey, e.2))).scan (visitEvent 0 0)).Perm
      (events.scan (visitEvent 0 0) ++ numbered.map Prod.fst) := by
  have hdecoded : (numbered.map fun e => (e.1.toEventKey, e.2)).filterMap
      (fun put => visitEvent 0 0 put.1 put.2) = numbered.map Prod.fst := by
    rw [List.filterMap_map, ← List.filterMap_eq_map]
    refine List.filterMap_congr ?_
    intro entry hentry
    exact hnumbered.decodes entry hentry
  have hkeys : ((numbered.map fun e => (e.1.toEventKey, e.2)).map Prod.fst).Nodup := by
    rw [List.map_map]
    exact hnumbered.distinct
  have hscan := Table.scan_putAll_perm (visitEvent 0 0) hkeys hfresh
  rwa [hdecoded] at hscan

theorem Uncut.append (h : Uncut run) (hclock : run.store.floor ≤ historySeconds clock) :
    Uncut (historyStep run (.append clock events)) := by
  unfold historyStep
  dsimp only
  split
  · exact h
  rename_i store new happend
  obtain ⟨rfl, rfl⟩ | ⟨numbered, next, encoded, marker, hnumbered, hnext, rfl, rfl⟩ :=
    appendPackHistory_cases happend
  · simpa using h
  have hfresh : ∀ put ∈ numbered.map fun e => (e.1.toEventKey, e.2),
      run.store.events.lookup put.1 = none := by
    intro put hput
    obtain ⟨entry, hentry, rfl⟩ := List.mem_map.mp hput
    by_contra hsome
    obtain ⟨value, hvalue⟩ := Option.ne_none_iff_exists'.mp hsome
    have hold : entry.1.sequence.toNat < _ := h.sequences _ _ hvalue
    have hnew := hnumbered.first_le entry hentry
    omega
  have hsequence : nextSequence
      { run.store with
        events := run.store.events.putAll (numbered.map fun e => (e.1.toEventKey, e.2))
        enabledAt := marker
        nextEventSequence := some encoded } = next := by
    unfold nextSequence
    dsimp only
    rw [hnext]
  have hseconds : ∀ event ∈ numbered.map Prod.fst,
      event.unixSeconds = historySeconds clock := by
    intro event hevent
    obtain ⟨entry, hentry, rfl⟩ := List.mem_map.mp hevent
    exact hnumbered.seconds_eq entry hentry
  refine ⟨?_, ?_, ?_, ?_, ?_⟩
  · have hall : (numbered.map Prod.fst).filter
        (fun event => decide (run.store.floor ≤ event.unixSeconds)) =
          numbered.map Prod.fst := by
      refine List.filter_eq_self.mpr ?_
      intro event hevent
      rw [hseconds event hevent]
      exact decide_eq_true hclock
    have hfilter : (run.appended ++ numbered.map Prod.fst).filter
        (fun event => decide (run.store.floor ≤ event.unixSeconds)) =
          run.appended.filter (fun event => decide (run.store.floor ≤ event.unixSeconds)) ++
            numbered.map Prod.fst := by
      rw [List.filter_append, hall]
    have hscan := scan_putAll_numbered hnumbered hfresh
    exact hscan.trans ((h.retained.append_right _).trans (.of_eq hfilter.symm))
  · intro event hevent
    rcases List.mem_append.mp hevent with hold | hnew
    · exact h.clock event hold
    · rw [hseconds event hnew]
      exact historySeconds_lt clock
  · intro hlimit event hevent hbefore
    rcases List.mem_append.mp hevent with hold | hnew
    · exact h.uncut hlimit event hold hbefore
    · rw [hseconds event hnew] at hbefore
      exact absurd hclock (UInt64.not_le.mpr hbefore)
  · have hlength := h.numbered
    have hnext_eq := hnumbered.next_eq
    rw [hsequence, List.length_append, List.length_map]
    omega
  · intro key value hvalue
    rw [hsequence]
    rcases Table.lookup_putAll_cases hvalue with hput | ⟨-, hold⟩
    · obtain ⟨entry, hentry, heq⟩ := List.mem_map.mp hput
      obtain rfl : entry.1.toEventKey = key := congrArg Prod.fst heq
      exact hnumbered.lt_next entry hentry
    · have hlt := h.sequences key value hold
      have hnext_eq := hnumbered.next_eq
      omega

theorem Uncut.rollup (h : Uncut run) (dryRun : Bool)
    (outcome : WriteOutcome) : Uncut (run.rollup dryRun outcome) := by
  obtain ⟨buckets, hstore⟩ := rollupHistory_buckets run.store dryRun outcome
  unfold HistoryRun.rollup
  rw [hstore]
  exact h.of_buckets buckets _

theorem Uncut.totals_rollup (h : Uncut run) (htotals : TotalsKept run)
    (dryRun : Bool) (outcome : WriteOutcome) : TotalsKept (run.rollup dryRun outcome) := by
  intro key data hlookup
  simp only [HistoryRun.rollup, rollupHistory_store, HistoryRun.writtenBy] at hlookup ⊢
  cases hputs : rollupPuts run.store with
  | error err =>
    rw [hputs] at hlookup
    exact htotals key data hlookup
  | ok puts =>
    rw [hputs] at hlookup
    dsimp only at hlookup ⊢
    cases hwrites : !dryRun && outcome.applied with
    | false =>
      rw [hwrites] at hlookup
      exact htotals key data hlookup
    | true =>
      rw [hwrites, if_pos rfl] at hlookup
      rcases Table.lookup_putAll_cases hlookup with hput | ⟨hnone, hold⟩
      · obtain ⟨bucket, hbucket, hdata⟩ := rollupPuts_spec hputs hput
        have hwritten : puts.any (·.1 == key) = true :=
          List.any_eq_true.mpr ⟨_, hput, beq_self_eq_true key⟩
        rw [hwritten]
        have hcounts := h.counts_currentBuckets hbucket
        refine ⟨bucket.normalized, PackHistoryBucket.unmarshal_marshalBinary hdata, ?_⟩
        exact ⟨fun kind => (by cases kind <;> rfl : _ = _).trans (hcounts.packs kind),
          fun kind => (by cases kind <;> rfl : _ = _).trans (hcounts.bytes kind),
          hcounts.observed⟩
      · have hunwritten : puts.any (·.1 == key) = false := by
          refine List.any_eq_false.mpr fun put hput => ?_
          simpa using hnone put hput
        rw [hunwritten]
        exact htotals key data hold

/-! ## Truncation -/

theorem toEventKey_of_decodeEvent {key : EventKey} (h : decodeEvent key value = some event) :
    event.toEventKey = key := by
  unfold decodeEvent at h
  split at h
  · cases h
    rfl
  · cases h

theorem mem_truncatedEvents_keys {key : EventKey}
    (hstored : store.events.lookup key = some value)
    (hdecode : decodeEvent key value = some event) :
    key ∈ (scanHistory store 0 til).events.map (·.toEventKey) ↔
      inRange 0 til key.unixSeconds = true := by
  simp only [scanHistory, List.mem_map, Table.mem_scan]
  constructor
  · intro h
    obtain ⟨other, ⟨key', value', -, hvisit⟩, rfl⟩ := h
    unfold visitEvent at hvisit
    split_ifs at hvisit with hrange
    rwa [toEventKey_of_decodeEvent hvisit]
  · intro hrange
    refine ⟨event, ⟨key, value, hstored, ?_⟩, toEventKey_of_decodeEvent hdecode⟩
    rw [visitEvent, if_pos hrange, hdecode]

/-- The events that a truncation leaves. -/
theorem scanHistory_truncate (store : HistoryStore) (options : HistoryRetentionOptions)
    (marker : Option Bytes) (hkeep : options.keepRaw > 0) :
    (scanHistory (store.truncate options marker) 0 0).events =
      (scanHistory store 0 0).events.filter fun event =>
        !inRange 0 (options.cutoff options.keepRaw) event.unixSeconds := by
  have hkeys : ∀ {key value event}, store.events.lookup key = some value →
      decodeEvent key value = some event →
      (key ∈ (scanHistory store 0 (options.cutoff options.keepRaw)).events.map (·.toEventKey) ↔
        inRange 0 (options.cutoff options.keepRaw) key.unixSeconds = true) :=
    mem_truncatedEvents_keys
  generalize hremoved : (scanHistory store 0 (options.cutoff options.keepRaw)).events.map
    (·.toEventKey) = removed at hkeys
  have hscan : (scanHistory (store.truncate options marker) 0 0).events =
      store.events.scan fun key value =>
        if key ∈ removed then none else visitEvent 0 0 key value := by
    rw [← Table.scan_deleteAll, ← hremoved]
    simp only [scanHistory, HistoryStore.truncate, truncatedEvents, if_pos hkeep]
  rw [hscan]
  simp only [scanHistory, Table.scan, List.filter_filterMap]
  refine List.filterMap_congr ?_
  intro entry hentry
  have hvisit : visitEvent 0 0 entry.1 entry.2 = decodeEvent entry.1 entry.2 := rfl
  rw [hvisit]
  cases hdecode : decodeEvent entry.1 entry.2 with
  | none => simp
  | some event =>
    have hkey : event.unixSeconds = entry.1.unixSeconds :=
      congrArg EventKey.unixSeconds (toEventKey_of_decodeEvent hdecode)
    simp only [hkeys (Table.mem_entries_iff.mp hentry) hdecode, Option.filter_some, hkey]
    cases inRange 0 (options.cutoff options.keepRaw) entry.1.unixSeconds <;> rfl

/-- The floor moves forward, and the events before it go. -/
theorem Uncut.advance (h : Uncut run) (hfloor : run.store.floor ≤ store.floor)
    (hevents : (scanHistory store 0 0).events =
      (scanHistory run.store 0 0).events.filter fun event => store.floor ≤ event.unixSeconds)
    (hcut : ∀ event ∈ (scanHistory run.store 0 0).events, event.unixSeconds < store.floor →
      ∀ granularity ∈ historyGranularities,
        bucketStart granularity event.unixSeconds < bucketStart granularity store.floor)
    (hnext : nextSequence store = nextSequence run.store)
    (hlookup : ∀ key value, store.events.lookup key = some value →
      run.store.events.lookup key = some value) : Uncut { run with store } where
  retained := by
    rw [hevents]
    refine (h.retained.filter _).trans (.of_eq ?_)
    rw [List.filter_filter]
    refine List.filter_congr ?_
    intro event _
    by_cases hle : store.floor ≤ event.unixSeconds
    · simp [hle, UInt64.le_trans hfloor hle]
    · simp [hle]
  clock := h.clock
  uncut := by
    intro hlimit event hevent hbefore granularity hgranularity
    change event.unixSeconds < store.floor at hbefore
    by_cases hold : run.store.floor ≤ event.unixSeconds
    · refine hcut event ?_ hbefore granularity hgranularity
      exact h.retained.mem_iff.mpr (List.mem_filter.mpr ⟨hevent, decide_eq_true hold⟩)
    have hlimit' : run.store.floor.toNat < 2 ^ 63 :=
      lt_of_le_of_lt (UInt64.le_iff_toNat_le.mp hfloor) hlimit
    have hlt := h.uncut hlimit' event hevent (UInt64.not_le.mp hold) granularity hgranularity
    exact UInt64.lt_of_lt_of_le hlt (bucketStart_mono granularity hfloor hlimit)
  numbered := by
    change _ < (nextSequence store).toNat
    rw [hnext]
    exact h.numbered
  sequences := by
    intro key value hvalue
    change _ < (nextSequence store).toNat
    rw [hnext]
    exact h.sequences key value (hlookup key value hvalue)

theorem inRange_eq_false (htil : til ≠ 0) (time : UInt64) :
    (!inRange 0 til time) = decide (til ≤ time) := by
  simp [inRange, htil]

/-- The floor after a truncation, and what it says of the cutoff. -/
theorem floor_truncate {floor : UInt64} (hkeep : options.keepRaw > 0)
    (hput : rawFloorPut store options = .ok (floor, marker)) :
    let cutoff := options.cutoff options.keepRaw
    let after := (store.truncate options marker).floor
    store.floor < cutoff ∧ cutoff ≠ 0 ∧ after = cutoff ∨
      cutoff ≤ store.floor ∧ after = store.floor := by
  intro cutoff after
  simp only [rawFloorPut, if_pos hkeep] at hput
  split_ifs at hput with hzero hadvance
  · cases hput
    refine .inr ⟨?_, rfl⟩
    change options.cutoff options.keepRaw ≤ _
    rw [hzero]
    exact UInt64.zero_le
  · obtain ⟨value, hvalue, hput⟩ := of_bind hput
    cases hput
    refine .inl ⟨hadvance, hzero, ?_⟩
    change readHistoryMarker (some value) = _
    rw [readHistoryMarker, HistoryMarker.unmarshal_marshalBinary hvalue]
  · cases hput
    exact .inr ⟨UInt64.not_lt.mp hadvance, rfl⟩

theorem Uncut.truncate (h : Uncut run) {floor : UInt64}
    (hput : rawFloorPut run.store options = .ok (floor, marker))
    (hcut : options.keepRaw ≤ 0 ∨ cutsNoBucket run.store (options.cutoff options.keepRaw)) :
    Uncut { run with store := run.store.truncate options marker } := by
  by_cases hkeep : options.keepRaw > 0
  · have hcut : cutsNoBucket run.store (options.cutoff options.keepRaw) :=
      hcut.resolve_left (by omega)
    have hscan := scanHistory_truncate run.store options marker hkeep
    have hfloor_le : ∀ event ∈ (scanHistory run.store 0 0).events,
        run.store.floor ≤ event.unixSeconds := by
      intro event hevent
      exact of_decide_eq_true (List.mem_filter.mp (h.retained.mem_iff.mp hevent)).2
    have hlookup : ∀ key value,
        (run.store.truncate options marker).events.lookup key = some value →
          run.store.events.lookup key = some value := by
      intro key value hvalue
      simp only [HistoryStore.truncate, Table.lookup_deleteAll] at hvalue
      split_ifs at hvalue
      exact hvalue
    rcases floor_truncate hkeep hput with ⟨hadvance, hzero, hafter⟩ | ⟨hle, hafter⟩
    · refine h.advance ?_ ?_ ?_ rfl hlookup
      · rw [hafter]
        exact UInt64.le_of_lt hadvance
      · rw [hscan, hafter]
        simp only [inRange_eq_false hzero]
      intro event hevent hbefore
      rw [hafter] at hbefore ⊢
      refine hcut event hevent ?_
      have hout := inRange_eq_false hzero event.unixSeconds
      rw [decide_eq_false (UInt64.not_le.mpr hbefore)] at hout
      simpa using hout
    · refine h.advance ?_ ?_ ?_ rfl hlookup
      · rw [hafter]
        exact UInt64.le_refl _
      · rw [hscan, hafter]
        refine List.filter_congr ?_
        intro event hevent
        rw [decide_eq_true (hfloor_le event hevent)]
        by_cases hzero : options.cutoff options.keepRaw = 0
        · -- A cutoff of zero is no bound: the scan takes every event.
          have hlt := hcut event hevent (by simp [hzero, inRange]) granularityHourly (by decide)
          have hstart : bucketStart granularityHourly 0 = 0 := by decide
          rw [hzero, hstart] at hlt
          exact absurd hlt UInt64.not_lt_zero
        · rw [inRange_eq_false hzero]
          exact decide_eq_true (UInt64.le_trans hle (hfloor_le event hevent))
      · intro event hevent hbefore
        rw [hafter] at hbefore
        exact absurd (hfloor_le event hevent) (UInt64.not_le.mpr hbefore)
  · simp only [rawFloorPut, if_neg hkeep, if_true] at hput
    cases hput
    have hstore : run.store.truncate options none =
        { run.store with
          buckets := run.store.buckets.deleteAll (expiredBuckets run.store options) } := by
      simp [HistoryStore.truncate, truncatedEvents, if_neg hkeep]
    rw [hstore]
    exact h.of_buckets _ _

theorem TotalsKept.truncate (h : TotalsKept run)
    (options : HistoryRetentionOptions) (marker : Option Bytes) :
    TotalsKept { run with store := run.store.truncate options marker } := by
  intro key data hlookup
  simp only [HistoryStore.truncate, Table.lookup_deleteAll] at hlookup
  split_ifs at hlookup
  exact h key data hlookup

/-! ## Runs -/

/-- What holds along runs that leave buckets whole. -/
structure HistoryInvariant (run : HistoryRun) : Prop where
  uncut : Uncut run
  totals : TotalsKept run

theorem historyInvariant_start : HistoryInvariant .start := ⟨uncut_start, nofun⟩

theorem HistoryInvariant.append (h : HistoryInvariant run)
    (hclock : run.store.floor ≤ historySeconds clock) :
    HistoryInvariant (historyStep run (.append clock events)) := by
  refine ⟨h.uncut.append hclock, ?_⟩
  -- An append leaves the buckets, and what they were written from, as they are.
  unfold historyStep
  dsimp only
  split
  · exact h.totals
  rename_i store new happend
  obtain ⟨rfl, rfl⟩ | ⟨numbered, next, encoded, marker, -, -, -, rfl⟩ :=
    appendPackHistory_cases happend
  · exact h.totals
  · exact h.totals

theorem HistoryInvariant.rollup (h : HistoryInvariant run) (dryRun : Bool)
    (outcome : WriteOutcome) : HistoryInvariant (run.rollup dryRun outcome) :=
  ⟨h.uncut.rollup dryRun outcome, h.uncut.totals_rollup h.totals dryRun outcome⟩

theorem HistoryInvariant.prune (h : HistoryInvariant run) {rollupWrite truncateWrite : WriteOutcome}
    (hkeeps : keepsBuckets run (.prune options rollupWrite truncateWrite)) :
    HistoryInvariant (historyStep run (.prune options rollupWrite truncateWrite)) := by
  have hrolled := h.rollup options.dryRun rollupWrite
  unfold historyStep
  dsimp only
  have hrolled_store : (rollupHistory run.store options.dryRun rollupWrite).1 =
      (run.rollup options.dryRun rollupWrite).store := rfl
  rcases pruneHistory_store truncateWrite hrolled_store with hstore |
    ⟨hdry, floor, marker, hput, hstore⟩
  · rw [hstore]
    exact hrolled
  have hcut : options.keepRaw ≤ 0 ∨ cutsNoBucket (run.rollup options.dryRun rollupWrite).store
      (options.cutoff options.keepRaw) := by
    obtain ⟨buckets, hbuckets⟩ := rollupHistory_buckets run.store options.dryRun rollupWrite
    have hkept := hkeeps.resolve_left (by simp [hdry])
    unfold HistoryRun.rollup
    rw [hbuckets]
    exact hkept
  rw [hstore]
  exact ⟨hrolled.uncut.truncate hput hcut, hrolled.totals.truncate options marker⟩

theorem historyInvariant_step (run : HistoryRun) (step : HistoryStep)
    (hkeeps : keepsBuckets run step) (h : HistoryInvariant run) :
    HistoryInvariant (historyStep run step) := by
  cases step with
  | append clock events => exact h.append hkeeps
  | rollup dryRun outcome => exact h.rollup dryRun outcome
  | prune options rollupWrite truncateWrite => exact h.prune hkeeps

/-- Along a run whose truncations leave buckets whole, every stored bucket has the totals of
all events that had been appended when it was last written, truncated ones included. -/
theorem buckets_total_of_uncut (steps : List HistoryStep)
    (hkeeps : Along historyStep keepsBuckets .start steps) :
    TotalsKept (steps.foldl historyStep .start) :=
  (hkeeps.invariant HistoryInvariant historyInvariant_step historyInvariant_start).totals

/-- A pack created with the given size. -/
def creation (size : UInt64) : PackEvent :=
  { packID := 1
    record :=
      { type := eventCreated, packType := packData, backend := 0, physicalSize := size
        payloadSize := 0, usedDelta := 0, unusedDelta := 0, predecessorPackIDs := [], runID := 0
        reasonCode := [] } }

/-- Raw events kept for a number of seconds, and buckets without a limit. -/
def keepingRaw (now seconds : Int) : HistoryRetentionOptions :=
  { keepRaw := seconds * 1000000000, keepHourly := 0, keepDaily := 0, keepMonthly := 0
    dryRun := false, now := now * 1000000000 }

/-- A pack of January, truncated in February, and a pack created after that. -/
def februaryRun : List HistoryStep :=
  [.append 2592000 [creation 10], .prune (keepingRaw 3456000 432000) .acknowledged .acknowledged,
    .append 3542400 [creation 20], .rollup false .acknowledged]

theorem buckets_total_of_uncut_february :
    Along historyStep keepsBuckets .start februaryRun ∧
      TotalsKept (februaryRun.foldl historyStep .start) := by
  have hkeeps : Along historyStep keepsBuckets .start februaryRun := by decide +kernel
  exact ⟨hkeeps, buckets_total_of_uncut februaryRun hkeeps⟩

/-- The same within one hour: the floor is between the two packs. -/
def oneHourRun : List HistoryStep :=
  [.append 1000 [creation 10], .prune (keepingRaw 2000 500) .acknowledged .acknowledged,
    .append 2500 [creation 20], .rollup false .acknowledged]

def firstHour : BucketKey :=
  { granularity := granularityHourly, start := 0, backend := 0, packType := packData }

/-- After it, the bucket of the hour has one of the two packs that it was written from. -/
theorem bucket_loses_truncated : ¬TotalsKept (oneHourRun.foldl historyStep .start) := by
  have hevaluated : ((oneHourRun.foldl historyStep .start).store.buckets.lookup firstHour).any
      (fun data => okAnd (unmarshalPackHistoryBucket data) (·.packsCreated == 1)) = true ∧
      (((oneHourRun.foldl historyStep .start).written firstHour).filter
        (inBucket firstHour)).countP (hasActivity .created) = 2 := by
    decide +kernel
  generalize oneHourRun.foldl historyStep .start = run at hevaluated
  intro htotals
  cases hlookup : run.store.buckets.lookup firstHour with
  | none =>
    rw [hlookup] at hevaluated
    cases hevaluated.1
  | some data =>
    rw [hlookup] at hevaluated
    obtain ⟨stored, hstored, hone⟩ := okAnd_eq_true.mp hevaluated.1
    obtain ⟨bucket, hbucket, hcounts⟩ := htotals firstHour data hlookup
    obtain rfl : stored = bucket := Except.ok.inj (hstored.symm.trans hbucket)
    have hpacks : stored.packsCreated.toNat = 2 :=
      (hcounts.packs .created).trans hevaluated.2
    rw [beq_iff_eq.mp hone] at hpacks
    cases hpacks

end Vaultic.Maintenance
