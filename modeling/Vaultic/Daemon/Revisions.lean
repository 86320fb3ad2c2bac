/-
  Daemon/Revisions.lean  —  the revision counter under concurrent transactions.

  Source: internal/index/daemon/schema_store_publish.go (`AllocateRevisionBlock`) and the
  publications of Publication.lean and SnapshotScope.lean.

  Five kinds of calls take numbers from one counter, each with its own bound check.  The
  system has any number of clients.  A transaction reads the store as it was when it began
  and keeps its writes to itself until it commits.  The store is serializable: it aborts a
  transaction when a key that was read has been written since.  Every one of the calls reads
  the counter, and this is the only key for which the abort is required here, so the system
  has every interleaving that a serializable store has.  A call that is retried begins
  again.
-/
import Vaultic.Lib.Run
import Vaultic.Daemon.PublicationPlan
import Vaultic.Daemon.SnapshotScope

set_option autoImplicit false

namespace Vaultic.Daemon

open Vaultic.Lib Vaultic.Schema

/-! ## Calls -/

/-- `AllocateRevisionBlockWithRetryCount`, one attempt: the first number and the store
after. -/
def allocateRevisionBlock (count : UInt64) (store : SchemaStore) : Result (Nat × SchemaStore) :=
  if count = 0 then .error "revision block size must be positive"
  else do
    let next ← loadNextRevision store
    if next > maxUint64 - count.toNat then .error "repository revision sequence exhausted"
    else
      let counter ← nextRevisionPut (next + count.toNat)
      .ok (next, store.putAll [counter])

/-- The calls that take numbers, with all that they do not read inside the transaction. -/
inductive RevisionCall where
  | allocate (count : UInt64)
  | publish (now : Int) (build : Nat → Result ReconciledRevision)
  | publishGroup (now : Int) (count : Nat)
      (build : Nat → Result (List ReconciledRevision))
  | publishSnapshot (env : SnapshotEnv) (scope : SnapshotScope) (reads : SnapshotReads)
  | forgetSnapshot (snapshotID : ID) (record : Wire.SnapshotRecord)
      (identities : List SnapshotIdentity)

/-- The numbers that a call takes. -/
structure RevisionRange where
  (first count : Nat)

/-- The numbers of a range, in the arithmetic of the source. -/
def RevisionRange.numbers (range : RevisionRange) : List Nat :=
  (List.range range.count).map fun i => (range.first + i) % 2 ^ 64

/-- One attempt of a call in a transaction that reads `store`: the numbers it takes and the
store with its writes, or none where it takes no number. -/
def RevisionCall.attempt (limits : Limits) (manifestHash : List ID → ID) (store : SchemaStore) :
    RevisionCall → Result (Option (RevisionRange × SchemaStore))
  | .allocate count => do
      let (first, written) ← allocateRevisionBlock count store
      .ok (some (⟨first, count.toNat⟩, written))
  | .publish now build => do
      let (revision, written) ←
        publishAllocatedReconciledRevision limits manifestHash now build store
      .ok (some (⟨revision, 1⟩, written))
  | .publishGroup now count build => do
      let (first, written) ←
        publishAllocatedReconciledRevisionGroup limits manifestHash now count build store
      .ok (some (⟨first, count⟩, written))
  | .publishSnapshot env scope reads => do
      let published ← publishSnapshotScope limits env scope reads store
      .ok (published.map fun result => (⟨result.1, 1⟩, result.2))
  | .forgetSnapshot snapshotID record identities => do
      let forgotten ← Daemon.forgetSnapshot limits snapshotID record identities store
      .ok (forgotten.map fun result => (⟨result.1, 1⟩, result.2))

/-! ## The system -/

section System

variable {Client : Type} [DecidableEq Client]

/-- An open transaction: the store as it was when it began, and the call. -/
structure OpenTransaction where
  snapshot : SchemaStore
  call : RevisionCall

structure RevisionSystem (Client : Type) where
  store : SchemaStore
  transactions : Client → Option OpenTransaction
  /-- The numbers that committed calls have taken, in commit order. -/
  committed : List RevisionRange

inductive RevisionEvent (Client : Type) where
  | begin (client : Client) (call : RevisionCall)
  | commit (client : Client)
  | abort (client : Client)

/-- The writes of a transaction, as far as they change what it read. -/
def changedPuts (snapshot written : SchemaStore) : List Mutation :=
  (reconciledMutations written).filter fun put => decide (snapshot.lookup put.1 ≠ some put.2)

def deletedKeys (snapshot written : SchemaStore) : List Key :=
  snapshot.keys.filter fun key => (written.lookup key).isNone

/-- The writes of a transaction, applied to the store it commits to. -/
def applyWrites (store snapshot written : SchemaStore) : SchemaStore :=
  (store.putAll (changedPuts snapshot written)).deleteAll (deletedKeys snapshot written)

/-- The rule of a serializable store, for the one key that every call reads. -/
def counterUnchanged (store snapshot : SchemaStore) : Bool :=
  decide (store.lookup nextRevisionKey = snapshot.lookup nextRevisionKey)

/-- Commit an open transaction.  One that failed, that takes no number, or that conflicts is
rolled back. -/
def commitTransaction (limits : Limits) (manifestHash : List ID → ID)
    (system : RevisionSystem Client) (transaction : OpenTransaction) : RevisionSystem Client :=
  match transaction.call.attempt limits manifestHash transaction.snapshot with
  | .ok (some (range, written)) =>
    if counterUnchanged system.store transaction.snapshot then
      { system with
        store := applyWrites system.store transaction.snapshot written
        committed := system.committed ++ [range] }
    else system
  | _ => system

def RevisionSystem.close (system : RevisionSystem Client) (client : Client) :
    RevisionSystem Client :=
  { system with transactions := Function.update system.transactions client none }

def revisionStep (limits : Limits) (manifestHash : List ID → ID)
    (system : RevisionSystem Client) : RevisionEvent Client → RevisionSystem Client
  | .begin client call =>
    { system with
      transactions := Function.update system.transactions client
        (some ⟨system.store, call⟩) }
  | .commit client =>
    match system.transactions client with
    | none => system
    | some transaction =>
      (commitTransaction limits manifestHash system transaction).close client
  | .abort client => system.close client

end System

/-! ## The counter -/

section Counter

variable {store written : SchemaStore}

theorem loadNextRevision_pos {next : Nat} (h : loadNextRevision store = .ok next) : 0 < next := by
  unfold loadNextRevision at h
  split at h
  · cases h
    exact Nat.one_pos
  · obtain ⟨value, hvalue, rfl⟩ := map_eq_ok.mp h
    have hne := Wire.unmarshalNextRevision_ne_zero hvalue
    refine Nat.pos_of_ne_zero fun hzero => hne ?_
    exact UInt64.toNat_inj.mp hzero
  · cases h

theorem loadNextRevision_le {next : Nat} (h : loadNextRevision store = .ok next) :
    next ≤ maxUint64 := by
  unfold loadNextRevision at h
  split at h
  · cases h
    decide
  · obtain ⟨value, -, rfl⟩ := map_eq_ok.mp h
    exact Nat.le_pred_of_lt value.toNat_lt
  · cases h

section

variable {counter : Mutation} {next : Nat} (h : nextRevisionPut next = .ok counter)
include h

/-- The counter that was put is the one that is read. -/
theorem loadNextRevision_of_put (hnext : next ≤ maxUint64)
    (hlook : store.lookup nextRevisionKey = some counter.2) :
    loadNextRevision store = .ok next := by
  obtain ⟨encoded, hencoded, h⟩ := of_bind h
  cases h
  unfold loadNextRevision
  rw [hlook]
  dsimp only
  rw [Wire.unmarshal_marshalNextRevision hencoded]
  refine congrArg Except.ok ?_
  rw [UInt64.toNat_ofNat']
  refine Nat.mod_eq_of_lt ?_
  unfold maxUint64 at hnext
  omega

theorem nextRevisionPut_key : counter.1 = nextRevisionKey := by
  obtain ⟨encoded, -, h⟩ := of_bind h
  cases h
  rfl

theorem lookup_put_counter (table : Table Key Value) :
    (table.putAll [counter]).lookup nextRevisionKey = some counter.2 := by
  rw [← nextRevisionPut_key h]
  exact AList.lookup_insert table

end

/-- What a committed call did to the counter: it took the numbers from the one it found. -/
structure TakesRange (store : SchemaStore) (range : RevisionRange) (written : SchemaStore) :
    Prop where
  loaded : loadNextRevision store = .ok range.first
  positive : 0 < range.count
  bounded : range.first + range.count ≤ maxUint64
  advanced : loadNextRevision written = .ok (range.first + range.count)

/-- A transaction that puts the advanced counter, and nothing else under its key. -/
theorem takesRange_of_put {range : RevisionRange} {counter : Mutation} (puts : List Mutation)
    (hloaded : loadNextRevision store = .ok range.first) (hpositive : 0 < range.count)
    (hbounded : range.first + range.count ≤ maxUint64)
    (hcounter : nextRevisionPut (range.first + range.count) = .ok counter)
    (hmem : counter ∈ puts) (honly : ∀ put ∈ puts, put.1 = nextRevisionKey → put = counter)
    (hwritten : written.lookup nextRevisionKey = (store.putAll puts).lookup nextRevisionKey) :
    TakesRange store range written := by
  refine ⟨hloaded, hpositive, hbounded, loadNextRevision_of_put hcounter hbounded ?_⟩
  rw [hwritten]
  have hkey := nextRevisionPut_key hcounter
  refine Table.lookup_putAll_of_mem (by rw [← hkey]; exact hmem) fun value hvalue => ?_
  rw [← honly _ hvalue rfl]

theorem allocateRevisionBlock_takesRange {count : UInt64} {first : Nat}
    (h : allocateRevisionBlock count store = .ok (first, written)) :
    TakesRange store ⟨first, count.toNat⟩ written := by
  obtain ⟨hcount, h⟩ := of_guard h
  obtain ⟨next, hnext, h⟩ := of_bind h
  obtain ⟨hroom, h⟩ := of_guard h
  obtain ⟨counter, hcounter, h⟩ := of_bind h
  cases h
  have hpositive : 0 < count.toNat := by
    refine Nat.pos_of_ne_zero fun hzero => hcount ?_
    exact UInt64.toNat_inj.mp hzero
  have hcountMax : count.toNat ≤ maxUint64 := Nat.le_pred_of_lt count.toNat_lt
  refine takesRange_of_put [counter] hnext hpositive (by dsimp only; omega) hcounter
    (List.mem_singleton_self counter) (fun put hput _ => List.mem_singleton.mp hput) rfl

variable {limits : Limits} {manifestHash : List ID → ID} {now : Int}

theorem publishAllocated_takesRange {build : Nat → Result ReconciledRevision}
    {revision : Nat} (h : publishAllocatedReconciledRevision limits manifestHash now build store =
      .ok (revision, written)) : TakesRange store ⟨revision, 1⟩ written := by
  obtain ⟨next, hnext, h⟩ := of_bind h
  obtain ⟨hroom, h⟩ := of_guard h
  obtain ⟨request, -, h⟩ := of_bind h
  replace h := (of_guard h).2
  obtain ⟨input, -, h⟩ := of_bind h
  obtain ⟨plan, -, h⟩ := of_bind h
  cases plan with
  | none => cases h
  | some puts =>
    obtain ⟨counter, hcounter, h⟩ := of_bind h
    replace h := (of_guard h).2
    obtain ⟨after, hafter, h⟩ := of_bind h
    cases h
    have hmax := loadNextRevision_le hnext
    have hbounded : revision + 1 ≤ maxUint64 := Nat.lt_of_le_of_ne hmax hroom
    refine ⟨hnext, Nat.one_pos, hbounded, loadNextRevision_of_put hcounter hbounded ?_⟩
    rw [writeTransactionBatches_eq hafter]
    refine (lookup_putAll_reconciledMutations store _ nextRevisionKey).trans ?_
    exact seen_of_lookup (lookup_put_counter hcounter puts)

theorem publishGroup_takesRange {count first : Nat}
    {build : Nat → Result (List ReconciledRevision)}
    (h : publishAllocatedReconciledRevisionGroup limits manifestHash now count build store =
      .ok (first, written)) : TakesRange store ⟨first, count⟩ written := by
  obtain ⟨hcount, h⟩ := of_guard h
  obtain ⟨next, hnext, h⟩ := of_bind h
  obtain ⟨hroom, h⟩ := of_guard h
  obtain ⟨requests, -, h⟩ := of_bind h
  replace h := (of_guard h).2
  obtain ⟨⟨⟩, -, h⟩ := of_bind h
  obtain ⟨after, -, h⟩ := of_bind h
  obtain ⟨counter, hcounter, h⟩ := of_bind h
  cases h
  have hbounded : first + count ≤ maxUint64 := by
    simp only [maxAllocatedPublicationGroupSize, maxUint64] at hcount hroom ⊢
    omega
  exact ⟨hnext, by dsimp only; omega, hbounded,
    loadNextRevision_of_put hcounter hbounded (lookup_put_counter hcounter after)⟩

end Counter

/-! ## Snapshots -/

section Snapshots

variable {store written : SchemaStore} {limits : Limits} {env : SnapshotEnv}

/-- The mutations leave the counter alone. -/
def AvoidsCounter (puts : List Mutation) : Prop :=
  ∀ put ∈ puts, put.1 ≠ nextRevisionKey

theorem other_ne_nextRevisionKey {text : String} {body : Bytes}
    (h : (Wire.ascii text).isPrefixOf Wire.nextRevisionKey = false) :
    Key.other (Wire.ascii text ++ body) ≠ nextRevisionKey := by
  intro heq
  have hbytes : Wire.ascii text ++ body = Wire.nextRevisionKey := Key.other.inj heq
  rw [← hbytes, List.isPrefixOf_iff_prefix.mpr (List.prefix_append _ _)] at h
  cases h

theorem deltaKey_ne (commit : Nat) (ordinal : UInt32) :
    deltaKey commit ordinal ≠ nextRevisionKey := by
  unfold deltaKey Wire.analyticsDeltaKey
  split
  · decide
  · exact other_ne_nextRevisionKey (by decide)

theorem bindingKey_ne (scope : ID) (fsid : UInt32) (inode generation : UInt64) :
    bindingKey scope fsid inode generation ≠ nextRevisionKey := by
  unfold bindingKey Wire.authoritativeSourceBindingKey
  split
  · decide
  · exact other_ne_nextRevisionKey (by decide)

theorem crawlProofKey_ne (scope : ID) (commit : UInt64) :
    Key.other ((Wire.authoritativeCrawlProofKey scope commit).getD []) ≠ nextRevisionKey := by
  unfold Wire.authoritativeCrawlProofKey
  split
  · decide
  · exact other_ne_nextRevisionKey (by decide)

variable {next : Nat}

theorem numberDeltas_avoids {ordinal : UInt32} {deltas : List Wire.AnalyticsDeltaRecord}
    {puts : List Mutation} (h : numberDeltas next ordinal deltas = .ok puts) :
    AvoidsCounter puts := by
  induction deltas generalizing ordinal puts with
  | nil =>
    cases h
    exact List.forall_mem_nil _
  | cons delta rest ih =>
    obtain ⟨encoded, -, h⟩ := of_bind h
    obtain ⟨later, hlater, h⟩ := of_bind h
    cases h
    exact List.forall_mem_cons.mpr ⟨deltaKey_ne next ordinal, ih hlater⟩

/-- A plan that was extended, away from the counter. -/
def Extends (plan plan' : SnapshotPlan) : Prop :=
  plan'.next = plan.next ∧ ∃ extra, plan'.puts = plan.puts ++ extra ∧ AvoidsCounter extra

theorem Extends.refl (plan : SnapshotPlan) : Extends plan plan :=
  ⟨rfl, [], (List.append_nil _).symm, List.forall_mem_nil _⟩

theorem Extends.trans {first second third : SnapshotPlan} (h : Extends first second)
    (h' : Extends second third) : Extends first third := by
  obtain ⟨hnext, extra, hputs, havoid⟩ := h
  obtain ⟨hnext', extra', hputs', havoid'⟩ := h'
  refine ⟨hnext'.trans hnext, extra ++ extra', ?_, List.forall_mem_append.mpr ⟨havoid, havoid'⟩⟩
  rw [hputs', hputs, List.append_assoc]

theorem extends_of_put {plan plan' : SnapshotPlan} {put : Mutation} (hnext : plan'.next = plan.next)
    (hputs : plan'.puts = plan.puts ++ [put]) (hkey : put.1 ≠ nextRevisionKey) :
    Extends plan plan' :=
  ⟨hnext, [put], hputs, List.forall_mem_singleton.mpr hkey⟩

variable {identities : List SnapshotIdentity} {plan plan' : SnapshotPlan}

theorem planSnapshotAnalytics_extends {generation : SnapshotIdentity → UInt64}
    (h : planSnapshotAnalytics store identities generation plan = .ok plan') :
    Extends plan plan' := by
  unfold planSnapshotAnalytics at h
  split at h
  · cases h
    exact Extends.refl plan
  · obtain ⟨puts, hputs, h⟩ := of_bind h
    cases h
    exact ⟨rfl, puts, rfl, numberDeltas_avoids hputs⟩

/-- The records of a crawl are not under the counter key. -/
def CrawlMutation.Avoids : CrawlMutation → Prop
  | .record key _ => key ≠ nextRevisionKey
  | .delta _ => True

variable {mutations : List CrawlMutation}

theorem appendCrawl_extends (havoid : ∀ mutation ∈ mutations, mutation.Avoids)
    (h : appendCrawl plan mutations = .ok plan') : Extends plan plan' := by
  induction mutations generalizing plan with
  | nil =>
    cases h
    exact Extends.refl _
  | cons mutation rest ih =>
    obtain ⟨hmutation, hrest⟩ := List.forall_mem_cons.mp havoid
    cases mutation with
    | record key data =>
      rw [appendCrawl] at h
      refine Extends.trans ?_ (ih hrest h)
      exact extends_of_put rfl rfl hmutation
    | delta delta =>
      obtain ⟨encoded, -, h⟩ := of_bind h
      refine Extends.trans ?_ (ih hrest h)
      exact extends_of_put rfl rfl (deltaKey_ne _ _)

variable {claim : AuthoritativeCrawlClaim} {epoch : UInt64}

variable {commit : Nat}

/-- A crawl adds the record of a binding, and the delta of a change. -/
theorem avoids_append {changed : Prop} [Decidable changed] {delta : Wire.AnalyticsDeltaRecord}
    {fsid : UInt32} {inode generation : UInt64} {scope : ID} {data : Bytes}
    (havoid : ∀ mutation ∈ mutations, mutation.Avoids) :
    ∀ mutation ∈ mutations ++ .record (bindingKey scope fsid inode generation) data ::
      (if changed then [] else [.delta delta]), mutation.Avoids := by
  refine List.forall_mem_append.mpr ⟨havoid, List.forall_mem_cons.mpr ⟨bindingKey_ne _ _ _ _, ?_⟩⟩
  split
  · exact List.forall_mem_nil _
  · exact List.forall_mem_singleton.mpr trivial

variable {reads : SnapshotReads}

theorem authoritativeCrawlMutations_avoids
    (h : authoritativeCrawlMutations env store claim reads commit epoch = .ok mutations) :
    ∀ mutation ∈ mutations, mutation.Avoids := by
  obtain ⟨plan, hplan, h⟩ := of_bind h
  obtain ⟨observed, hobserved, h⟩ := of_bind h
  obtain ⟨missing, hmissing, h⟩ := of_bind h
  cases h
  let avoids : CrawlPlan → Prop := fun plan => ∀ mutation ∈ plan.mutations, mutation.Avoids
  refine foldlM_invariant avoids (fun hrun havoid => ?missing) hmissing
    (foldlM_invariant avoids (fun hrun havoid => ?observed) hobserved ?_)
  case missing =>
    rcases ite_eq_iff.mp hrun with ⟨-, hrun⟩ | ⟨-, hrun⟩
    · cases hrun
      exact havoid
    obtain ⟨prior, -, hrun⟩ := of_bind hrun
    obtain ⟨encoded, -, hrun⟩ := of_bind hrun
    cases hrun
    exact avoids_append havoid
  case observed =>
    obtain ⟨prior, -, hrun⟩ := of_bind hrun
    obtain ⟨encoded, -, hrun⟩ := of_bind hrun
    cases hrun
    exact avoids_append havoid
  obtain ⟨settled, -, hplan⟩ := of_bind hplan
  obtain ⟨proof, -, hplan⟩ := of_bind hplan
  cases hplan
  exact List.forall_mem_singleton.mpr (crawlProofKey_ne _ _)

variable {scope : SnapshotScope}

theorem completeSnapshotPlan_extends
    (h : completeSnapshotPlan env store scope reads plan = .ok plan') : Extends plan plan' := by
  obtain ⟨counted, hcounted, h⟩ := of_bind h
  have hanalytics := planSnapshotAnalytics_extends hcounted
  split at h
  · cases h
    exact hanalytics
  · obtain ⟨mutations, hmutations, h⟩ := of_bind h
    exact hanalytics.trans
      (appendCrawl_extends (authoritativeCrawlMutations_avoids hmutations) h)

/-- The base of a plan advances the counter by one. -/
theorem planSnapshotBase_inv {fsid inode revision : Nat} {plan : SnapshotPlan}
    (h : planSnapshotBase env scope fsid inode revision store = .ok (some plan)) :
    loadNextRevision store = .ok plan.next ∧ plan.next ≠ maxUint64 ∧
      ∃ counter others, nextRevisionPut (plan.next + 1) = .ok counter ∧
        plan.puts = others ++ [counter] ∧ AvoidsCounter others := by
  replace h := (of_guard h).2
  split at h
  · cases h
  obtain ⟨data, -, h⟩ := of_bind h
  obtain ⟨checkpoint, -, h⟩ := of_bind h
  rcases ite_eq_iff.mp h with ⟨-, h⟩ | ⟨-, h⟩
  · cases h
  obtain ⟨next, hnext, h⟩ := of_bind h
  obtain ⟨puts, hputs, h⟩ := of_bind h
  cases h
  obtain ⟨loaded, hloaded, hnext⟩ := of_bind hnext
  obtain ⟨hroom, hnext⟩ := of_guard hnext
  cases hnext
  obtain ⟨snapshot, -, hputs⟩ := of_bind hputs
  obtain ⟨commit, -, hputs⟩ := of_bind hputs
  obtain ⟨checkpoint, -, hputs⟩ := of_bind hputs
  obtain ⟨counter, hcounter, hputs⟩ := of_bind hputs
  cases hputs
  refine ⟨hloaded, hroom, counter,
    [(.snapshot scope.snapshotID, .raw snapshot),
      (.other (Wire.snapshotCommitKey (UInt64.ofNat next) scope.snapshotID), .raw commit),
      (.other (Wire.exportCheckpointKey scope.snapshotID), .raw checkpoint)],
    hcounter, rfl, ?_⟩
  refine List.forall_mem_cons.mpr ⟨nofun, List.forall_mem_cons.mpr
    ⟨?_, List.forall_mem_singleton.mpr ?_⟩⟩ <;> exact other_ne_nextRevisionKey (by decide)

theorem publishSnapshotScope_takesRange
    (h : publishSnapshotScope limits env scope reads store = .ok (some (next, written))) :
    TakesRange store ⟨next, 1⟩ written := by
  unfold publishSnapshotScope at h
  split at h
  · replace h := (of_guard h).2
    replace h := (of_guard h).2
    replace h := (of_guard h).2
    obtain ⟨base, hbase, h⟩ := of_bind h
    cases base with
    | none => cases h
    | some plan =>
      obtain ⟨complete, hcomplete, h⟩ := of_bind h
      obtain ⟨after, hafter, h⟩ := of_bind h
      cases h
      obtain ⟨hloaded, hroom, counter, others, hcounter, hputs, havoid⟩ :=
        planSnapshotBase_inv hbase
      obtain ⟨hnext, extra, hextra, havoid'⟩ := completeSnapshotPlan_extends hcomplete
      have hbounded : plan.next + 1 ≤ maxUint64 :=
        Nat.lt_of_le_of_ne (loadNextRevision_le hloaded) hroom
      rw [hnext]
      refine takesRange_of_put complete.puts hloaded Nat.one_pos hbounded hcounter ?_ ?_ ?_
      · rw [hextra, hputs]
        simp
      · intro put hput hkey
        rw [hextra, hputs] at hput
        simp only [List.mem_append, List.mem_singleton] at hput
        rcases hput with (hput | hput) | hput
        · exact absurd hkey (havoid put hput)
        · exact hput
        · exact absurd hkey (havoid' put hput)
      · rw [writeTransactionBatches_eq hafter]
        rfl
  · cases h

theorem forgetSnapshot_takesRange {snapshotID : ID} {record : Wire.SnapshotRecord}
    (h : forgetSnapshot limits snapshotID record identities store = .ok (some (next, written))) :
    TakesRange store ⟨next, 1⟩ written := by
  rcases ite_eq_iff.mp h with ⟨-, h⟩ | ⟨-, h⟩
  · cases h
  obtain ⟨loaded, hloaded, h⟩ := of_bind h
  obtain ⟨hroom, h⟩ := of_guard h
  obtain ⟨counter, hcounter, h⟩ := of_bind h
  obtain ⟨deltas, hdeltas, h⟩ := of_bind h
  obtain ⟨after, hafter, h⟩ := of_bind h
  cases h
  have hbounded : next + 1 ≤ maxUint64 :=
    Nat.lt_of_le_of_ne (loadNextRevision_le hloaded) hroom
  have havoid : AvoidsCounter deltas := by
    unfold forgetDeltas at hdeltas
    split at hdeltas
    · cases hdeltas
      exact List.forall_mem_nil _
    · exact numberDeltas_avoids hdeltas
  refine takesRange_of_put (counter :: deltas) hloaded Nat.one_pos hbounded hcounter
    List.mem_cons_self ?_ ?_
  · intro put hput hkey
    rcases List.mem_cons.mp hput with heq | hput
    · exact heq
    · exact absurd hkey (havoid put hput)
  · rw [writeTransactionBatches_eq hafter, Table.lookup_deleteAll, if_neg]
    intro hdeleted
    split at hdeleted <;> rcases List.mem_pair.mp hdeleted with hkey | hkey
    all_goals first | exact Key.noConfusion hkey
                    | exact other_ne_nextRevisionKey (by decide) hkey.symm

end Snapshots

/-! ## Runs -/

section Runs

variable {limits : Limits} {manifestHash : List ID → ID}

variable {range : RevisionRange}

/-- Every call takes its numbers from the counter it found. -/
theorem attempt_takesRange {store written : SchemaStore} {call : RevisionCall}
    (h : call.attempt limits manifestHash store = .ok (some (range, written))) :
    TakesRange store range written := by
  cases call with
  | allocate count =>
    obtain ⟨⟨first, after⟩, hafter, h⟩ := of_bind h
    cases h
    exact allocateRevisionBlock_takesRange hafter
  | publish now build =>
    obtain ⟨⟨revision, after⟩, hafter, h⟩ := of_bind h
    cases h
    exact publishAllocated_takesRange hafter
  | publishGroup now count build =>
    obtain ⟨⟨first, after⟩, hafter, h⟩ := of_bind h
    cases h
    exact publishGroup_takesRange hafter
  | publishSnapshot env scope reads =>
    obtain ⟨published, hpublished, h⟩ := of_bind h
    cases published with
    | none => cases h
    | some result =>
      cases h
      exact publishSnapshotScope_takesRange hpublished
  | forgetSnapshot snapshotID record identities =>
    obtain ⟨forgotten, hforgotten, h⟩ := of_bind h
    cases forgotten with
    | none => cases h
    | some result =>
      cases h
      exact forgetSnapshot_takesRange hforgotten

/-- The counter is read the same where the stores agree on its key. -/
theorem loadNextRevision_congr {store store' : SchemaStore}
    (h : store'.lookup nextRevisionKey = store.lookup nextRevisionKey) :
    loadNextRevision store' = loadNextRevision store := by
  unfold loadNextRevision
  rw [h]

variable {store snapshot written : SchemaStore}

/-- A counter that a transaction changed is what it commits. -/
theorem lookup_applyWrites {key : Key} {value : Value}
    (hwritten : written.lookup key = some value) (hchanged : snapshot.lookup key ≠ some value) :
    (applyWrites store snapshot written).lookup key = some value := by
  rw [applyWrites, Table.lookup_deleteAll, if_neg]
  · refine Table.lookup_putAll_of_mem ?_ fun other hother => ?_
    · refine List.mem_filter.mpr ⟨?_, decide_eq_true hchanged⟩
      exact List.mem_map.mpr ⟨⟨key, value⟩, Table.mem_entries_iff.mpr hwritten, rfl⟩
    obtain ⟨entry, hentry, heq⟩ := List.mem_map.mp (List.mem_filter.mp hother).1
    cases heq
    have hsame := Table.mem_entries_iff.mp hentry
    rw [hwritten] at hsame
    exact (Option.some.inj hsame).symm
  · intro hdeleted
    have hnone := (List.mem_filter.mp hdeleted).2
    rw [hwritten] at hnone
    cases hnone

theorem loadNextRevision_applyWrites (h : TakesRange snapshot range written) :
    loadNextRevision (applyWrites store snapshot written) =
      .ok (range.first + range.count) := by
  have hadvanced := h.advanced
  have hpositive := h.positive
  cases hlook : written.lookup nextRevisionKey with
  | none =>
    -- An absent counter reads as one, and the advanced counter is at least two.
    have hone : loadNextRevision written = .ok 1 := by
      unfold loadNextRevision
      rw [hlook]
    rw [hone] at hadvanced
    have hfirst := loadNextRevision_pos h.loaded
    have hsum := Except.ok.inj hadvanced
    omega
  | some value =>
    have hchanged : snapshot.lookup nextRevisionKey ≠ some value := by
      intro hsame
      have hloaded := h.loaded
      rw [loadNextRevision_congr (hsame.trans hlook.symm), hadvanced] at hloaded
      have hsum := Except.ok.inj hloaded
      omega
    rw [← hadvanced]
    exact loadNextRevision_congr ((lookup_applyWrites hlook hchanged).trans hlook.symm)

/-- The committed ranges are in order and below the counter. -/
structure RangesInOrder {Client : Type} (system : RevisionSystem Client) : Prop where
  ordered : system.committed.Pairwise fun earlier later =>
    earlier.first + earlier.count ≤ later.first
  valid : ∀ range ∈ system.committed,
    0 < range.first ∧ 0 < range.count ∧ range.first + range.count ≤ maxUint64
  below : ∀ range ∈ system.committed, ∀ next, loadNextRevision system.store = .ok next →
    range.first + range.count ≤ next

variable {Client : Type}

theorem RangesInOrder.commit {system : RevisionSystem Client}
    {transaction : OpenTransaction} (h : RangesInOrder system) :
    RangesInOrder (commitTransaction limits manifestHash system transaction) := by
  unfold commitTransaction
  split
  · rename_i range written hattempt
    split
    · rename_i hunchanged
      have htakes := attempt_takesRange hattempt
      have hloaded : loadNextRevision system.store = .ok range.first := by
        rw [loadNextRevision_congr (of_decide_eq_true hunchanged)]
        exact htakes.loaded
      have hnext : loadNextRevision
          (applyWrites system.store transaction.snapshot written) =
            .ok (range.first + range.count) :=
        loadNextRevision_applyWrites htakes
      refine ⟨?_, ?_, ?_⟩
      · refine List.pairwise_append.mpr ⟨h.ordered, List.pairwise_singleton _ _, ?_⟩
        intro earlier hearlier later hlater
        rw [List.mem_singleton.mp hlater]
        exact h.below earlier hearlier range.first hloaded
      · exact List.forall_mem_append.mpr ⟨h.valid, List.forall_mem_singleton.mpr
          ⟨loadNextRevision_pos hloaded, htakes.positive, htakes.bounded⟩⟩
      · intro other hother next hload
        rw [hnext] at hload
        cases hload
        rcases List.mem_append.mp hother with hother | hother
        · exact (h.below other hother range.first hloaded).trans (Nat.le_add_right _ _)
        · rw [List.mem_singleton.mp hother]
    · exact h
  · exact h

theorem RangesInOrder.step [DecidableEq Client] {system : RevisionSystem Client}
    (event : RevisionEvent Client) (h : RangesInOrder system) :
    RangesInOrder (revisionStep limits manifestHash system event) := by
  cases event with
  | begin client _ | abort client => exact ⟨h.ordered, h.valid, h.below⟩
  | commit client =>
    unfold revisionStep
    dsimp only
    split
    · exact h
    rename_i transaction _
    have hcommit : RangesInOrder (commitTransaction limits manifestHash system transaction) :=
      h.commit
    exact ⟨hcommit.ordered, hcommit.valid, hcommit.below⟩

/-- The numbers of a range that does not reach the end of the sequence. -/
theorem mem_numbers (h : range.first + range.count ≤ maxUint64) {number : Nat} :
    number ∈ range.numbers ↔ range.first ≤ number ∧ number < range.first + range.count := by
  have hlt : range.first + range.count < 2 ^ 64 := by
    unfold maxUint64 at h
    omega
  unfold RevisionRange.numbers
  rw [List.mem_map]
  constructor
  · rintro ⟨i, hi, rfl⟩
    have hi := List.mem_range.mp hi
    rw [Nat.mod_eq_of_lt (by omega)]
    omega
  · rintro ⟨hle, hbelow⟩
    refine ⟨number - range.first, List.mem_range.mpr (by omega), ?_⟩
    rw [Nat.mod_eq_of_lt (by omega)]
    omega

/-- Over every interleaving of transactions, from any store: the numbers of a later commit
are all greater than those of an earlier one, none is zero, and no range reaches the end of
the sequence, where it would wrap around. -/
theorem committed_revisions (limits : Limits) (manifestHash : List ID → ID) {Client : Type}
    [DecidableEq Client] (store : SchemaStore) (events : List (RevisionEvent Client)) :
    let committed := (events.foldl (revisionStep limits manifestHash)
      ⟨store, fun _ => none, []⟩).committed
    (committed.Pairwise fun earlier later =>
      ∀ m ∈ earlier.numbers, ∀ n ∈ later.numbers, m < n) ∧
    ∀ range ∈ committed, range.numbers ≠ [] ∧ 0 ∉ range.numbers ∧
      range.first + range.count < 2 ^ 64 := by
  intro committed
  have hstart : RangesInOrder (⟨store, fun _ => none, []⟩ : RevisionSystem Client) :=
    ⟨.nil, List.forall_mem_nil _, List.forall_mem_nil _⟩
  have hrun : RangesInOrder (events.foldl (revisionStep limits manifestHash)
      (⟨store, fun _ => none, []⟩ : RevisionSystem Client)) :=
    run_invariant RangesInOrder (fun _ event h => h.step event) events hstart
  constructor
  · refine hrun.ordered.imp_of_mem fun {earlier later} hearlier hlater hle m hm n hn => ?_
    have hm := (mem_numbers (hrun.valid earlier hearlier).2.2).mp hm
    have hn := (mem_numbers (hrun.valid later hlater).2.2).mp hn
    omega
  · intro range hrange
    obtain ⟨hfirst, hcount, hbound⟩ := hrun.valid range hrange
    refine ⟨?_, ?_, ?_⟩
    · apply List.ne_nil_of_mem (a := range.first)
      exact (mem_numbers hbound).mpr ⟨Nat.le_refl _, by omega⟩
    · intro hzero
      have := (mem_numbers hbound).mp hzero
      omega
    · unfold maxUint64 at hbound
      omega

end Runs

end Vaultic.Daemon
