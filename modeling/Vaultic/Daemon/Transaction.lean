/-
  Daemon/Transaction.lean  —  the metadata store and its transactions.

  Source: internal/index/daemon/schema_store_publish.go
  (`writeTransactionBatchesMeasured`), internal/index/daemon/history.go.

  The store maps keys to values.  A transaction reads the store, plans puts and
  deletes, and commits all of them or none: a function of the daemon is a
  partial function from stores to stores, and a failure leaves the store as it
  was.  Conflicts with other writers only make the source retry; the retried
  attempt is the one modelled.
-/
import Vaultic.Schema.Codec

set_option autoImplicit false

namespace Vaultic.Daemon

open Vaultic.Lib Vaultic.Schema

/-- The authoritative metadata store. -/
abbrev SchemaStore := Table Key Value

/-- `Mutation`: one put of a batch. -/
abbrev Mutation := Key × Value

/-- The limits the daemon advertises to its clients. -/
structure Limits where
  (maxBatchItems maxMessageBytes : Nat)

/-! ## Batched writes -/

/-- `mutationRPCCalls`. -/
structure MutationRPCCalls where
  (attempted succeeded : Nat)

/-- What one put or one delete adds to the estimated size of a call. -/
def mutationSize : Mutation ⊕ Key → Nat
  | .inl (key, value) => key.encodedSize + value.encodedSize + 32
  | .inr key => key.encodedSize + 16

/-- The inner loops of `writeTransactionBatchesMeasured`: how many of the items go into a batch
that has room for `room` more and `used` bytes so far. -/
def fillBatch (maxBytes : Nat) (tooLarge : String) :
    List (Mutation ⊕ Key) → Nat → Nat → Result Nat
  | item :: rest, room + 1, used =>
    if mutationSize item > maxBytes then .error tooLarge
    else if used + mutationSize item > maxBytes then .ok 0
    else (fillBatch maxBytes tooLarge rest room (used + mutationSize item)).map (· + 1)
  | _, _, _ => .ok 0

section Calls

/- `write` is the outcome of the call that comes after that many attempted ones. -/
variable (limits : Limits) (write : Nat → Option String)

/-- The outer loops: the batches handed to `WriteBatch`, the calls counted, and the error. -/
def sendBatches (kind : String) (items : List (Mutation ⊕ Key)) (calls : MutationRPCCalls) :
    List (List (Mutation ⊕ Key)) × MutationRPCCalls × Option String :=
  if _hne : items = [] then ([], calls, none)
  else
    match fillBatch (limits.maxMessageBytes - 512)
      ("schema " ++ kind ++ " exceeds daemon message limit") items limits.maxBatchItems 128 with
    | .error e => ([], calls, some e)
    | .ok 0 => ([], calls, some ("schema " ++ kind ++ " batch made no progress"))
    | .ok (more + 1) =>
      match write calls.attempted with
      | some e => ([items.take (more + 1)], { calls with attempted := calls.attempted + 1 }, some e)
      | none =>
        let later := sendBatches kind (items.drop (more + 1))
          ⟨calls.attempted + 1, calls.succeeded + 1⟩
        (items.take (more + 1) :: later.1, later.2)
termination_by items.length
decreasing_by
  have := List.length_pos_of_ne_nil _hne
  simp only [List.length_drop]
  omega

def writeTransactionBatchesMeasured (puts : List Mutation) (deletes : List Key) :
    List (List (Mutation ⊕ Key)) × MutationRPCCalls × Option String :=
  if limits.maxBatchItems = 0 ∨ limits.maxMessageBytes < 1024 then
    ([], ⟨0, 0⟩, some "vaulticdb advertised insufficient transaction batch limits")
  else
    match sendBatches limits write "mutation" (puts.map .inl) ⟨0, 0⟩ with
    | (written, calls, some e) => (written, calls, some e)
    | (written, calls, none) =>
      let erased := sendBatches limits write "delete" (deletes.map .inr) calls
      (written ++ erased.1, erased.2)

variable {limits write} {maxBytes count : Nat} {items : List (Mutation ⊕ Key)}

section

variable {tooLarge : String} {room used : Nat}

theorem fillBatch_fits (h : fillBatch maxBytes tooLarge items room used = .ok count)
    (hused : used ≤ maxBytes) : (items.take count).length ≤ room ∧
      used + ((items.take count).map mutationSize).sum ≤ maxBytes := by
  fun_induction fillBatch maxBytes tooLarge items room used generalizing count with
  | case1 => cases h
  | case2 | case4 =>
    cases h
    simpa using hused
  | case3 item rest room used _ hroom ih =>
    obtain ⟨taken, htaken, rfl⟩ := map_eq_ok.mp h
    have htake := ih htaken (by omega)
    simp only [List.take_succ_cons, List.length_cons, List.map_cons, List.sum_cons]
    omega

variable (tooLarge room used)

theorem fillBatch_eq_ok (hitems : ∀ item ∈ items, mutationSize item ≤ maxBytes) :
    ∃ count, fillBatch maxBytes tooLarge items room used = .ok count := by
  fun_induction fillBatch maxBytes tooLarge items room used with
  | case1 item _ _ _ hsize =>
    have := hitems item (.head _)
    omega
  | case2 | case4 => exact ⟨0, rfl⟩
  | case3 _ _ _ _ _ _ ih =>
    obtain ⟨count, hcount⟩ := ih (List.forall_mem_cons.mp hitems).2
    exact ⟨count + 1, map_eq_ok.mpr ⟨count, hcount, rfl⟩⟩

/-- A batch that can hold each item on its own takes at least one. -/
theorem fillBatch_progress (hitems : items ≠ []) (hroom : 1 ≤ room)
    (hfits : ∀ item ∈ items, used + mutationSize item ≤ maxBytes) :
    ∃ more, fillBatch maxBytes tooLarge items room used = .ok (more + 1) := by
  obtain ⟨item, rest, rfl⟩ := List.exists_cons_of_ne_nil hitems
  obtain ⟨left, rfl⟩ := Nat.exists_eq_add_of_le' hroom
  obtain ⟨hitem, hrest⟩ := List.forall_mem_cons.mp hfits
  obtain ⟨more, hmore⟩ := fillBatch_eq_ok tooLarge left (used + mutationSize item)
    fun item hmem => (Nat.le_add_left ..).trans (hrest item hmem)
  refine ⟨more, ?_⟩
  rw [fillBatch, if_neg (by omega), if_neg (by omega), hmore]
  rfl

end

/-- The batches keep the limits and the order of the items, and if no call fails, only an item
too large for a batch of its own stops them. -/
structure Sends (limits : Limits) (write : Nat → Option String) (items : List (Mutation ⊕ Key))
    (sent : List (List (Mutation ⊕ Key))) (failure : Option String) : Prop where
  within : ∀ batch ∈ sent, batch.length ≤ limits.maxBatchItems ∧
    128 + (batch.map mutationSize).sum ≤ limits.maxMessageBytes - 512
  start : sent.flatten <+: items
  all : failure = none → sent.flatten = items
  complete : (∀ call, write call = none) →
    (∀ item ∈ items, 128 + mutationSize item ≤ limits.maxMessageBytes - 512) → failure = none

theorem sendBatches_sends (hitems : 1 ≤ limits.maxBatchItems)
    (hbytes : 1024 ≤ limits.maxMessageBytes) (kind : String) (items : List (Mutation ⊕ Key))
    (calls : MutationRPCCalls) : Sends limits write items
      (sendBatches limits write kind items calls).1
      (sendBatches limits write kind items calls).2.2 := by
  fun_induction sendBatches limits write kind items calls with
  | case1 => exact ⟨List.forall_mem_nil _, List.nil_prefix, fun _ => rfl, fun _ _ => rfl⟩
  | case2 items calls hne e hfill | case3 items calls hne hfill =>
    refine ⟨List.forall_mem_nil _, List.nil_prefix, nofun, fun _ hfits => ?_⟩
    obtain ⟨more, hmore⟩ := fillBatch_progress _ _ _ hne hitems hfits
    cases hfill.symm.trans hmore
  | case4 items calls hne more hfill e hwrite =>
    refine ⟨List.forall_mem_singleton.mpr (fillBatch_fits hfill (by omega)), ?_, nofun,
      fun hwrites => ?_⟩
    · simpa using List.take_prefix ..
    · cases (hwrites _).symm.trans hwrite
  | case5 items calls hne more hfill hwrite later ih =>
    refine ⟨List.forall_mem_cons.mpr ⟨fillBatch_fits hfill (by omega), ih.within⟩, ?_,
      fun hnone => ?_, fun hwrites hfits =>
        ih.complete hwrites fun item hmem => hfits item (List.mem_of_mem_drop hmem)⟩
    · obtain ⟨rest, hrest⟩ := ih.start
      exact ⟨rest, by rw [List.flatten_cons, List.append_assoc, hrest, List.take_append_drop]⟩
    · rw [List.flatten_cons, ih.all hnone, List.take_append_drop]

theorem measured_sends (write : Nat → Option String) (puts : List Mutation) (deletes : List Key)
    (hitems : 1 ≤ limits.maxBatchItems) (hbytes : 1024 ≤ limits.maxMessageBytes) :
    Sends limits write (puts.map .inl ++ deletes.map .inr)
      (writeTransactionBatchesMeasured limits write puts deletes).1
      (writeTransactionBatchesMeasured limits write puts deletes).2.2 := by
  rw [writeTransactionBatchesMeasured, if_neg (by omega)]
  have hwritten := @sendBatches_sends _ write hitems hbytes "mutation" (puts.map .inl) ⟨0, 0⟩
  split
  next written calls e hsend =>
    rw [hsend] at hwritten
    exact ⟨hwritten.within, hwritten.start.trans (List.prefix_append ..), nofun,
      fun hwrites hfits => hwritten.complete hwrites fun item hmem =>
        hfits item (List.mem_append_left _ hmem)⟩
  next written calls hsend =>
    rw [hsend] at hwritten
    have herased := @sendBatches_sends _ write hitems hbytes "delete" (deletes.map .inr) calls
    refine ⟨List.forall_mem_append.mpr ⟨hwritten.within, herased.within⟩, ?_, fun hnone => ?_,
      fun hwrites hfits => herased.complete hwrites fun item hmem =>
        hfits item (List.mem_append_right _ hmem)⟩
    · rw [List.flatten_append, hwritten.all rfl]
      exact (List.prefix_append_right_inj _).mpr herased.start
    · rw [List.flatten_append, hwritten.all rfl, herased.all hnone]

/-- Every transaction ends.  Its batches keep the limits and hold the first of the puts and
then of the deletes, all of them if no call fails and each fits a batch of its own. -/
theorem writeTransactionBatchesMeasured_sends (limits : Limits) (write : Nat → Option String)
    (puts : List Mutation) (deletes : List Key) (hitems : 1 ≤ limits.maxBatchItems)
    (hbytes : 1024 ≤ limits.maxMessageBytes) :
    Sends limits write (puts.map .inl ++ deletes.map .inr)
      (writeTransactionBatchesMeasured limits write puts deletes).1
      (writeTransactionBatchesMeasured limits write puts deletes).2.2 :=
  measured_sends write puts deletes hitems hbytes

/-- With the smallest limits a delete is sent in a batch of its own. -/
theorem writeTransactionBatchesMeasured_smallest :
    (writeTransactionBatchesMeasured ⟨1, 1024⟩ (fun _ => none) [] [.pack 1, .pack 2]).2.2 = none :=
  (writeTransactionBatchesMeasured_sends ⟨1, 1024⟩ (fun _ => none) [] [.pack 1, .pack 2]
    (by decide) (by decide)).complete (fun _ => rfl) (by decide)

/-- One put or one delete. -/
def applyMutation (store : SchemaStore) : Mutation ⊕ Key → SchemaStore
  | .inl put => store.insert put.1 put.2
  | .inr key => store.erase key

/-- `writeTransactionBatches` followed by the commit, where no call fails. -/
def writeTransactionBatches (limits : Limits) (store : SchemaStore) (puts : List Mutation)
    (deletes : List Key) : Result SchemaStore :=
  match writeTransactionBatchesMeasured limits (fun _ => none) puts deletes with
  | (_, _, some e) => .error e
  | (sent, _, none) => .ok (sent.flatten.foldl applyMutation store)

/-- What a transaction that committed has done: all its puts, then all its
deletes, however it was cut into batches. -/
theorem writeTransactionBatches_eq {store store' : SchemaStore} {puts : List Mutation}
    {deletes : List Key} (h : writeTransactionBatches limits store puts deletes = .ok store') :
    store' = (store.putAll puts).deleteAll deletes := by
  have hsends := @measured_sends limits (fun _ => none) puts deletes
  unfold writeTransactionBatches at h
  split at h
  · cases h
  rename_i sent calls hsent
  rw [hsent] at hsends
  by_cases hlimits : limits.maxBatchItems = 0 ∨ limits.maxMessageBytes < 1024
  · rw [writeTransactionBatchesMeasured, if_pos hlimits] at hsent
    cases hsent
  · rw [← Except.ok.inj h, (hsends (by omega) (by omega)).all rfl, List.foldl_append,
      List.foldl_map, List.foldl_map]
    rfl

end Calls

/-! ## Pack history -/

/-- `PackEvent`: a pack lifecycle transition to record in the history log. -/
structure PackEvent where
  packID : ID
  record : PackHistoryEvent
  deriving DecidableEq, Repr

/-- A corrupt counter does not block the transition: it restarts at one. -/
def unmarshalNextEventSequence : Option Value → Nat
  | some (.nextEventSequence next) => if next = 0 then 1 else next
  | _ => 1

/-- The history keys of the events that can be encoded, numbered from
`allocated`; an event that cannot be encoded is dropped. -/
def numberEvents (seconds : Nat) : List PackEvent → Nat → List Mutation × Nat
  | [], allocated => ([], allocated)
  | event :: rest, allocated =>
    match marshalPackHistoryEvent event.record with
    | .error _ => numberEvents seconds rest allocated
    | .ok value =>
      let (mutations, next) := numberEvents seconds rest (allocated + 1)
      ((.packHistory seconds allocated event.packID, value) :: mutations, next)

/-- `packHistoryMutations`: the events of a transition, the advanced counter, and
on first use the marker of when history began.  `seconds` is the history clock. -/
def packHistoryMutations (seconds : Nat) (store : SchemaStore) (events : List PackEvent) :
    Result (List Mutation) :=
  if events = [] then .ok []
  else
    let next := unmarshalNextEventSequence (store.lookup .nextEventSequence)
    if maxUint64 - next < events.length then .error "pack history sequence exhausted"
    else
      let (mutations, allocated) := numberEvents seconds events next
      if mutations = [] then .ok []
      else
        let marker : List Mutation :=
          if (store.lookup .historyEnabledAt).isSome then []
          else [(.historyEnabledAt, .historyMarker seconds)]
        .ok (marker ++ mutations ++ [(.nextEventSequence, .nextEventSequence allocated)])

/-- The keys that only the history log uses. -/
def isHistoryKey : Key → Bool
  | .packHistory _ _ _ | .nextEventSequence | .historyEnabledAt => true
  | _ => false

theorem numberEvents_keys {seconds : Nat} {events : List PackEvent} {allocated : Nat}
    {m : Mutation} (hm : m ∈ (numberEvents seconds events allocated).1) :
    isHistoryKey m.1 = true := by
  induction events generalizing allocated with
  | nil => simp [numberEvents] at hm
  | cons event rest ih =>
    unfold numberEvents at hm
    split at hm
    · exact ih hm
    simp only [List.mem_cons] at hm
    rcases hm with rfl | hm
    · rfl
    · exact ih hm

/-- History mutations touch the history log only. -/
theorem packHistoryMutations_keys {seconds : Nat} {store : SchemaStore}
    {events : List PackEvent} {mutations : List Mutation}
    (h : packHistoryMutations seconds store events = .ok mutations) {m : Mutation}
    (hm : m ∈ mutations) : isHistoryKey m.1 = true := by
  unfold packHistoryMutations at h
  split at h
  · cases h
    simp at hm
  simp only at h
  split at h
  · cases h
  split at h
  · cases h
    simp at hm
  simp only [Except.ok.injEq] at h
  subst h
  simp only [List.mem_append, List.mem_singleton] at hm
  rcases hm with (hm | hm) | rfl
  · split at hm
    · simp at hm
    · simp only [List.mem_singleton] at hm
      subst hm
      rfl
  · exact numberEvents_keys hm
  · rfl

end Vaultic.Daemon
