/-
  Daemon/PublicationRuns.lean  —  runs of publications.

  A call publishes one revision, one that is built on an allocated number, or a group of
  those.  The published revisions are kept beside the store, each with the content of the
  request that published it.

  An invariant of runs is one that every planned request keeps and that does not depend on
  the counter of the allocated numbers.  A condition on the requests is one on each request
  in the store that it is planned against, inside a group too.
-/
import Vaultic.Lib.Run
import Vaultic.Daemon.PublicationPlan

set_option autoImplicit false

namespace Vaultic.Daemon

open Vaultic.Lib Vaultic.Schema

/-! ## Calls -/

/-- A publication: of one revision, of one that is built on an allocated number, or of a
group of those.  Each reads the clock `now`. -/
inductive PublicationCall where
  | single (now : Int) (request : ReconciledRevision)
  | allocated (now : Int) (build : Nat → Result ReconciledRevision)
  | grouped (now : Int) (count : Nat) (build : Nat → Result (List ReconciledRevision))

/-- The requests that a call has published and the store after. -/
def PublicationCall.run (limits : Limits) (manifestHash : List ID → ID) (store : SchemaStore) :
    PublicationCall → Result (List ReconciledRevision × SchemaStore)
  | .single now request => do
      let written ← publishReconciledRevision limits manifestHash now request store
      .ok ([request], written)
  | .allocated now build => do
      let (revision, written) ←
        publishAllocatedReconciledRevision limits manifestHash now build store
      let request ← build revision
      .ok ([request], written)
  | .grouped now count build => do
      let (first, written) ←
        publishAllocatedReconciledRevisionGroup limits manifestHash now count build store
      let requests ← build first
      .ok (requests, written)

/-- The published revisions of inodes, each with its content. -/
abbrev Published := Table RevisionID (List ID)

/-- A revision is published once: repeating the request adds nothing. -/
def recordPublished (published : Published) (request : ReconciledRevision) : Published :=
  match request.revisionKey with
  | .inodeRevision fsid inode revision =>
    if (published.lookup (fsid, inode, revision)).isSome then published
    else published.insert (fsid, inode, revision) request.contentIDs
  | _ => published

structure PublicationState where
  store : SchemaStore := ∅
  published : Published := ∅

/-- A call that fails leaves the store as it was. -/
def publicationStep (limits : Limits) (manifestHash : List ID → ID) (state : PublicationState)
    (call : PublicationCall) : PublicationState :=
  match call.run limits manifestHash state.store with
  | .error _ => state
  | .ok (requests, store) => ⟨store, requests.foldl recordPublished state.published⟩

/-! ## Conditions on the requests -/

section Meets

variable (limits : Limits) (manifestHash : List ID → ID)
  (meets : SchemaStore → ReconciledRevision → Prop)

/-- Each request of a group meets the condition in the store that those before it leave. -/
def GroupMeets (now : Int) : SchemaStore → List ReconciledRevision → Prop
  | _, [] => True
  | store, request :: rest =>
    meets store request ∧
      ∀ after, publishGroupMember limits manifestHash now store request = .ok after →
        GroupMeets now after rest

/-- Every request that a call can come to publish meets the condition. -/
def PublicationCall.Meets (store : SchemaStore) : PublicationCall → Prop
  | .single _ request => meets store request
  | .allocated _ build => ∀ revision request, build revision = .ok request → meets store request
  | .grouped now _ build => ∀ first requests, build first = .ok requests →
      GroupMeets limits manifestHash meets now store requests

variable {limits manifestHash meets}

theorem groupMeets_of_forall {now : Int} {requests : List ReconciledRevision}
    (h : ∀ request ∈ requests, ∀ store, meets store request) (store : SchemaStore) :
    GroupMeets limits manifestHash meets now store requests := by
  induction requests generalizing store with
  | nil => trivial
  | cons request rest ih =>
    obtain ⟨hrequest, hrest⟩ := List.forall_mem_cons.mp h
    exact ⟨hrequest store, fun after _ => ih hrest after⟩

end Meets

/-! ## Invariants of runs -/

/-- What makes a property of the store and of a record of the published requests an invariant
of the runs whose requests meet a condition. -/
structure KeptByPublications {γ : Type} (manifestHash : List ID → ID)
    (record : γ → ReconciledRevision → γ) (meets : SchemaStore → ReconciledRevision → Prop)
    (holds : (Key → Option Value) → γ → Prop) : Prop where
  congr_keys : ∀ {look look' published}, holds look published →
    (∀ key, key ≠ nextRevisionKey → look' key = look key) → holds look' published
  /-- A repeated publication writes nothing. -/
  noop : ∀ {store : SchemaStore} {published request input state},
    holds (fun key => store.lookup key) published → Prepared request input →
      loadReconciledRevisionState manifestHash store input = .ok state → state.noop = true →
        holds (fun key => store.lookup key) (record published request)
  publish : ∀ {now store published request input puts},
    holds (fun key => store.lookup key) published → prepareReconciledRevision request = .ok input →
      meets store request → planReconciledRevision manifestHash now store input = .ok (some puts) →
        holds (seen store puts) (record published request)

theorem lookup_written {limits : Limits} {store written : SchemaStore} {puts : Pending}
    (h : writeTransactionBatches limits store (reconciledMutations puts) [] = .ok written) :
    (fun key => written.lookup key) = seen store puts := by
  funext key
  rw [writeTransactionBatches_eq h]
  exact lookup_putAll_reconciledMutations store puts key

theorem lookup_counter {counter : Mutation} {next : Nat}
    (hcounter : nextRevisionPut next = .ok counter) (table : Table Key Value) {key : Key}
    (hkey : key ≠ nextRevisionKey) : (table.putAll [counter]).lookup key = table.lookup key := by
  obtain ⟨encoded, -, h⟩ := of_bind hcounter
  cases h
  refine Table.lookup_putAll_of_forall_ne fun put hput heq => hkey ?_
  rw [← heq, List.mem_singleton.mp hput]

namespace KeptByPublications

variable {γ : Type} {manifestHash : List ID → ID} {record : γ → ReconciledRevision → γ}
  {meets : SchemaStore → ReconciledRevision → Prop} {holds : (Key → Option Value) → γ → Prop}
  {limits : Limits} {now : Int} {store written : SchemaStore} {published : γ}

variable {request : ReconciledRevision}

section

variable (hkept : KeptByPublications manifestHash record meets holds)
include hkept

section

variable (hinv : holds (fun key => store.lookup key) published)
include hinv

theorem publishReconciledRevision (hmeets : meets store request)
    (h : Daemon.publishReconciledRevision limits manifestHash now request store = .ok written) :
    holds (fun key => written.lookup key) (record published request) := by
  obtain ⟨input, hprepared, h⟩ := of_bind h
  obtain ⟨plan, hplan, h⟩ := of_bind h
  cases plan with
  | none =>
    cases h
    obtain ⟨state, hstate, hplan⟩ := of_bind hplan
    rcases ite_eq_iff.mp hplan with ⟨hnoop, -⟩ | ⟨-, hplan⟩
    · exact hkept.noop hinv (prepareReconciledRevision_inv hprepared) hstate hnoop
    · simp only [bind_eq_ok] at hplan
      obtain ⟨_, -, _, -, _, -, _, -, _, -, _, -, _, -, hplan⟩ := hplan
      cases hplan
  | some puts =>
    rw [lookup_written h]
    exact hkept.publish hinv hprepared hmeets hplan

theorem publishAllocated {build : Nat → Result ReconciledRevision} {revision : Nat}
    (h : publishAllocatedReconciledRevision limits manifestHash now build store =
      .ok (revision, written)) (hrequest : build revision = .ok request)
    (hmeets : meets store request) :
    holds (fun key => written.lookup key) (record published request) := by
  obtain ⟨next, -, h⟩ := of_bind h
  replace h := (of_guard h).2
  obtain ⟨built, hbuilt, h⟩ := of_bind h
  replace h := (of_guard h).2
  obtain ⟨input, hprepared, h⟩ := of_bind h
  obtain ⟨plan, hplan, h⟩ := of_bind h
  cases plan with
  | none => cases h
  | some puts =>
    obtain ⟨counter, hcounter, h⟩ := of_bind h
    replace h := (of_guard h).2
    obtain ⟨after, hafter, h⟩ := of_bind h
    cases h
    rw [hrequest] at hbuilt
    cases hbuilt
    rw [lookup_written hafter]
    refine hkept.congr_keys (hkept.publish hinv hprepared hmeets hplan) fun key hkey => ?_
    exact seen_congr (lookup_counter hcounter puts hkey)

theorem publishGroupMember (hmeets : meets store request)
    (h : Daemon.publishGroupMember limits manifestHash now store request = .ok written) :
    holds (fun key => written.lookup key) (record published request) := by
  obtain ⟨input, hprepared, h⟩ := of_bind h
  obtain ⟨plan, hplan, h⟩ := of_bind h
  cases plan with
  | none => cases h
  | some puts =>
    replace h := (of_guard h).2
    rw [lookup_written h]
    exact hkept.publish hinv hprepared hmeets hplan

end

end

variable {requests : List ReconciledRevision}

section

variable (hkept : KeptByPublications manifestHash record meets holds)
include hkept

/-- The requests of a group, one after the other in one transaction. -/
theorem publishGroupMembers (hmeets : GroupMeets limits manifestHash meets now store requests)
    (hinv : holds (fun key => store.lookup key) published)
    (h : requests.foldlM (Daemon.publishGroupMember limits manifestHash now) store = .ok written) :
    holds (fun key => written.lookup key) (requests.foldl record published) := by
  induction requests generalizing store published with
  | nil =>
    cases h
    exact hinv
  | cons request rest ih =>
    obtain ⟨after, hafter, h⟩ := of_bind h
    exact ih (hmeets.2 after hafter) (hkept.publishGroupMember hinv hmeets.1 hafter) h

theorem publishGroup (hinv : holds (fun key => store.lookup key) published) {count first : Nat}
    {build : Nat → Result (List ReconciledRevision)}
    (h : publishAllocatedReconciledRevisionGroup limits manifestHash now count build store =
      .ok (first, written)) (hrequests : build first = .ok requests)
    (hmeets : GroupMeets limits manifestHash meets now store requests) :
    holds (fun key => written.lookup key) (requests.foldl record published) := by
  replace h := (of_guard h).2
  obtain ⟨next, -, h⟩ := of_bind h
  replace h := (of_guard h).2
  obtain ⟨built, hbuilt, h⟩ := of_bind h
  replace h := (of_guard h).2
  obtain ⟨⟨⟩, -, h⟩ := of_bind h
  obtain ⟨after, hafter, h⟩ := of_bind h
  obtain ⟨counter, hcounter, h⟩ := of_bind h
  cases h
  rw [hrequests] at hbuilt
  cases hbuilt
  refine hkept.congr_keys (hkept.publishGroupMembers hmeets hinv hafter) fun key hkey => ?_
  exact lookup_counter hcounter after hkey

/-- A call that succeeds keeps the invariant. -/
theorem call {call : PublicationCall} (hmeets : call.Meets limits manifestHash meets store)
    (hinv : holds (fun key => store.lookup key) published)
    (hrun : call.run limits manifestHash store = .ok (requests, written)) :
    holds (fun key => written.lookup key) (requests.foldl record published) := by
  cases call with
  | single now request =>
    obtain ⟨after, hafter, h⟩ := of_bind hrun
    cases h
    exact hkept.publishReconciledRevision hinv hmeets hafter
  | allocated now build =>
    obtain ⟨⟨revision, after⟩, hafter, h⟩ := of_bind hrun
    obtain ⟨request, hrequest, h⟩ := of_bind h
    cases h
    exact hkept.publishAllocated hinv hafter hrequest (hmeets revision request hrequest)
  | grouped now count build =>
    obtain ⟨⟨first, after⟩, hafter, h⟩ := of_bind hrun
    obtain ⟨requests, hrequests, h⟩ := of_bind h
    cases h
    exact hkept.publishGroup hinv hafter hrequests (hmeets first requests hrequests)

end

variable {holds : (Key → Option Value) → Published → Prop}

theorem step (hkept : KeptByPublications manifestHash recordPublished meets holds)
    (state : PublicationState) (call : PublicationCall)
    (hmeets : call.Meets limits manifestHash meets state.store)
    (hinv : holds (fun key => state.store.lookup key) state.published) :
    holds (fun key => (publicationStep limits manifestHash state call).store.lookup key)
      (publicationStep limits manifestHash state call).published := by
  unfold publicationStep
  split
  · exact hinv
  · rename_i requests written hrun
    exact hkept.call hmeets hinv hrun

theorem run (hkept : KeptByPublications manifestHash recordPublished meets holds)
    {calls : List PublicationCall} {state : PublicationState}
    (halong : Along (publicationStep limits manifestHash)
      (fun state call => call.Meets limits manifestHash meets state.store) state calls)
    (hinv : holds (fun key => state.store.lookup key) state.published) :
    holds (fun key => (calls.foldl (publicationStep limits manifestHash) state).store.lookup key)
      (calls.foldl (publicationStep limits manifestHash) state).published :=
  halong.invariant (fun state => holds (fun key => state.store.lookup key) state.published)
    (fun state call hmeets hinv => hkept.step state call hmeets hinv) hinv

end KeptByPublications

end Vaultic.Daemon
