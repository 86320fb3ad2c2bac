/-
  Daemon/PublicationStates.lean  —  which references are current.

  Besides counting, a publication says of each reverse record whether it is current.  Seen
  from the inode that is published, the blobs of the new content are current and the blobs
  that only the old content has are historical.  That is right for the records of the inode.
  The records of a manifest belong to every inode with the same content: there the inode
  that moves on marks them historical for the others too.
-/
import Vaultic.Daemon.PublicationCounts

set_option autoImplicit false

namespace Vaultic.Daemon

open Vaultic.Lib Vaultic.Schema

/-! ## The states of the references of a blob -/

/-- The state of a reverse record. -/
def reverseState (look : Key → Option Value) (key : Key) : Option ReferenceState :=
  match look key with
  | some (.reverseInode record) => some record.state
  | some (.reverseManifest record) => some record.state
  | _ => none

/-- The states of the reverse records of one blob. -/
@[ext] structure StateView where
  inodes : Nat × Nat → Option ReferenceState
  manifests : ID → Option ReferenceState

def stateView (look : Key → Option Value) (blob : ID) : StateView :=
  { inodes := fun inode => reverseState look (.reverseInode blob inode.1 inode.2)
    manifests := fun manifest => reverseState look (.reverseManifest blob manifest) }

variable {manifestHash : List ID → ID} {look look' : Key → Option Value} {published : Published}
  {store : SchemaStore} {reconciled : ReconciledRevision} {input : PublicationInput}
  {puts puts' : Pending} {state : ReconciledState} {plan : PublicationPlan} {blob manifest : ID}
  {fsid inode : Nat} {ids ids' : List ID}

theorem stateView_congr
    (h : ∀ key, referenceOwner key = some blob → look key = look' key) :
    stateView look blob = stateView look' blob := by
  ext1
  · funext inode
    simp only [stateView, reverseState, h (.reverseInode blob inode.1 inode.2) rfl]
  · funext manifest
    simp only [stateView, reverseState, h (.reverseManifest blob manifest) rfl]

def StateView.setInode (view : StateView) (inode : Nat × Nat) (state : ReferenceState) :
    StateView :=
  { view with inodes := Function.update view.inodes inode (some state) }

def StateView.setManifest (view : StateView) (manifest : ID) (state : ReferenceState) : StateView :=
  { view with manifests := Function.update view.manifests manifest (some state) }

section

variable (view : StateView) (state : ReferenceState)

@[simp] theorem StateView.inodes_setInode (inode other : Nat × Nat) :
    (view.setInode inode state).inodes other =
      if other = inode then some state else view.inodes other :=
  Function.update_apply _ _ _ _

@[simp] theorem StateView.manifests_setInode (inode : Nat × Nat) :
    (view.setInode inode state).manifests = view.manifests := rfl

@[simp] theorem StateView.inodes_setManifest (manifest : ID) :
    (view.setManifest manifest state).inodes = view.inodes := rfl

@[simp] theorem StateView.manifests_setManifest (manifest other : ID) :
    (view.setManifest manifest state).manifests other =
      if other = manifest then some state else view.manifests other :=
  Function.update_apply _ _ _ _

end

section Phases

attribute [local simp] stateView reverseState StateView.setInode StateView.setManifest seen_insert

variable {mutations : List Mutation}

theorem stateView_inodePuts (inode : Nat × Nat) (record : ReverseInodeRecord)
    (count : ReferenceCountRecord) :
    stateView (seen store (puts.putAll
      [(.reverseInode blob inode.1 inode.2, .reverseInode record),
        (.referenceCount blob, .referenceCount count)])) blob =
      (stateView (seen store puts) blob).setInode inode record.state := by
  ext1
  · funext other
    by_cases heq : inode = other
    · simp [heq]
    · have hne : ¬(inode.1 = other.1 ∧ inode.2 = other.2) := fun h => heq (Prod.ext h.1 h.2)
      simp [hne, Ne.symm heq]
  · funext manifest
    simp

theorem stateView_manifestPut (manifest : ID) (record : ReverseManifestRecord) :
    stateView (seen store (puts.putAll
      [(.reverseManifest blob manifest, .reverseManifest record)])) blob =
      (stateView (seen store puts) blob).setManifest manifest record.state := by
  ext1
  · funext inode
    simp
  funext other
  by_cases heq : manifest = other
  · simp [heq]
  · simp [heq, Ne.symm heq]

theorem stateView_countPut (count : ReferenceCountRecord) :
    stateView (seen store (puts.putAll [(.referenceCount blob, .referenceCount count)])) blob =
      stateView (seen store puts) blob := by
  ext1
  · funext inode
    simp
  · funext manifest
    simp

theorem historicalInodePuts_states (h : historicalInodePuts store input puts blob = .ok mutations) :
    stateView (seen store (puts.putAll mutations)) blob =
      (stateView (seen store puts) blob).setInode input.identity .historical := by
  replace h := of_encode h
  obtain ⟨count, -, h⟩ := of_bind h
  replace h := of_encode h
  cases h
  exact stateView_inodePuts input.identity _ _

theorem currentInodePuts_states (h : currentInodePuts store input puts blob = .ok mutations) :
    stateView (seen store (puts.putAll mutations)) blob =
      (stateView (seen store puts) blob).setInode input.identity .current := by
  replace h := of_encode h
  obtain ⟨count, -, h⟩ := of_bind h
  replace h := (of_guard h).2
  replace h := of_encode h
  cases h
  exact stateView_inodePuts input.identity _ _

/-- Only a record that is stored becomes historical. -/
def historicalManifestStates (store : SchemaStore) (manifest blob : ID) (view : StateView) :
    StateView :=
  if (store.lookup (.reverseManifest blob manifest)).isSome then
    view.setManifest manifest .historical
  else view

theorem historicalManifestPuts_states
    (h : historicalManifestPuts store manifest puts blob = .ok mutations) :
    stateView (seen store (puts.putAll mutations)) blob =
      historicalManifestStates store manifest blob (stateView (seen store puts) blob) := by
  unfold historicalManifestPuts at h
  unfold historicalManifestStates
  split at h
  · rename_i hnone
    cases h
    rw [hnone]
    rfl
  · rename_i value hstored
    obtain ⟨reverse, -, h⟩ := of_bind h
    replace h := of_encode h
    cases h
    rw [hstored]
    exact stateView_manifestPut manifest _

theorem currentManifestPuts_states
    (h : currentManifestPuts store input manifest puts blob = .ok mutations) :
    stateView (seen store (puts.putAll mutations)) blob =
      (stateView (seen store puts) blob).setManifest manifest .current := by
  replace h := of_encode h
  split at h
  · cases h
    exact stateView_manifestPut manifest _
  obtain ⟨count, -, h⟩ := of_bind h
  split at h
  · cases h
  replace h := of_encode h
  cases h
  exact (stateView_countPut _).trans (stateView_manifestPut manifest ⟨_, .current⟩)

end Phases

/-! ## The states after a publication -/

/-- What a publication makes of the states of a blob, which changes its content from `old` and
its manifest from `oldManifestID`. -/
def publishedStates (store : SchemaStore) (input : PublicationInput) (old : List ID)
    (oldManifestID : ID) (manifest : Option ID) (blob : ID) : StateView :=
  { inodes := fun inode =>
      if inode = input.identity ∧ blob ∈ input.reconciled.contentIDs then some .current
      else if inode = input.identity ∧ blob ∈ old then some .historical
      else reverseState (fun key => store.lookup key) (.reverseInode blob inode.1 inode.2)
    manifests := fun other =>
      if manifest = some other ∧ blob ∈ input.reconciled.contentIDs then some .current
      else if oldManifestID = other ∧ other ≠ 0 ∧ manifest ≠ some other ∧ blob ∈ old ∧
          (store.lookup (.reverseManifest blob other)).isSome then some .historical
      else reverseState (fun key => store.lookup key) (.reverseManifest blob other) }

/-- A blob that left the content. -/
def leftStates (input : PublicationInput) (plan : PublicationPlan) (blob : ID) (view : StateView) :
    StateView :=
  if blob ∈ plan.oldUnique ∧ blob ∉ plan.newUnique then view.setInode input.identity .historical
  else view

theorem planHistoricalReferences_states
    (h : planHistoricalReferences store input state plan puts = .ok puts')
    (hnodup : plan.oldUnique.Nodup) (blob : ID) :
    stateView (seen store puts') blob =
      if blob ∈ plan.oldUnique ∧ state.oldManifestID ≠ 0 ∧
          state.oldManifestID ≠ plan.manifestID then
        historicalManifestStates store state.oldManifestID blob
          (leftStates input plan blob (stateView (seen store puts) blob))
      else leftStates input plan blob (stateView (seen store puts) blob) := by
  obtain ⟨middle, hmiddle, h⟩ := of_bind h
  have hinodes : stateView (seen store middle) blob =
      leftStates input plan blob (stateView (seen store puts) blob) := by
    have heach := planEach_view stateView_congr historicalInodePuts_local
      (fun _ view => view.setInode input.identity .historical)
      (fun _ _ _ hrun => historicalInodePuts_states hrun) (hnodup.filter _) hmiddle blob
    simp only [List.mem_filter, decide_eq_true_eq] at heach
    exact heach
  rw [← hinodes]
  rcases ite_eq_iff.mp h with ⟨hsame, h⟩ | ⟨hother, h⟩
  · cases h
    refine (if_neg ?_).symm
    rintro ⟨-, hzero, hnew⟩
    exact hsame.elim hzero hnew
  · rw [planEach_view stateView_congr historicalManifestPuts_local
      (historicalManifestStates store state.oldManifestID)
      (fun _ _ _ hrun => historicalManifestPuts_states hrun) hnodup h]
    simp only [and_iff_left (not_or.mp hother)]

theorem planCurrentManifestReferences_states
    (h : planCurrentManifestReferences store input plan puts = .ok puts')
    (hnodup : plan.newUnique.Nodup) (blob : ID) :
    stateView (seen store puts') blob =
      if plan.segments ≠ [] ∧ blob ∈ plan.newUnique then
        (stateView (seen store puts) blob).setManifest plan.manifestID .current
      else stateView (seen store puts) blob := by
  rcases ite_eq_iff.mp h with ⟨hnone, h⟩ | ⟨hsome, h⟩
  · cases h
    simp [hnone]
  rw [planEach_view stateView_congr currentManifestPuts_local
    (fun _ view => view.setManifest plan.manifestID .current)
    (fun _ _ _ hrun => currentManifestPuts_states hrun) hnodup h]
  simp [hsome]

/-- Up to the closing puts a plan changes the states of each blob as the phases do. -/
theorem Planned.states (hplanned : Planned manifestHash store input puts state plan)
    (hprepared : Prepared reconciled input) :
    ∃ filed, (∀ key, ClosingAvoids input.reconciled key → puts.lookup key = filed.lookup key) ∧
      ∀ blob, stateView (seen store filed) blob =
        publishedStates store input state.oldContent state.oldManifestID plan.manifest blob := by
  obtain ⟨historical, current, filed, hhistorical, hcurrent, hfiled, hclosing⟩ := hplanned.phases
  refine ⟨filed, hclosing, fun blob => ?_⟩
  have hstart : stateView (seen store plan.puts) blob =
      stateView (fun key => store.lookup key) blob :=
    stateView_congr fun key hkey => hplanned.seen_first hprepared hkey
  have hinodes := planEach_view stateView_congr currentInodePuts_local
    (fun _ view => view.setInode input.identity .current)
    (fun _ _ _ hrun => currentInodePuts_states hrun) hplanned.nodup_newUnique hcurrent blob
  rw [planCurrentManifestReferences_states hfiled hplanned.nodup_newUnique, hinodes,
    planHistoricalReferences_states hhistorical hplanned.nodup_oldUnique, hstart]
  have hold : blob ∈ plan.oldUnique ↔ blob ∈ state.oldContent := by
    rw [hplanned.first.oldUnique, mem_uniqueSchemaIDs]
  have hnew : blob ∈ plan.newUnique ↔ blob ∈ input.reconciled.contentIDs := by
    rw [hplanned.first.newUnique, mem_uniqueSchemaIDs]
  have hmanifest : ∀ other, plan.manifest = some other ↔
      plan.segments ≠ [] ∧ other = plan.manifestID := by
    intro other
    unfold PublicationPlan.manifest
    split_ifs with hnil <;> simp [hnil, eq_comm]
  have hzero : plan.segments = [] → plan.manifestID = 0 := fun hnil => (hplanned.first.short hnil).1
  ext1
  · funext inode
    simp only [leftStates, historicalManifestStates, apply_ite StateView.inodes, ite_apply,
      StateView.inodes_setManifest, ite_self, StateView.inodes_setInode, hold, hnew,
      publishedStates, stateView]
    grind
  · funext other
    simp only [leftStates, historicalManifestStates, apply_ite StateView.manifests, ite_apply,
      StateView.manifests_setInode, ite_self, StateView.manifests_setManifest, hold, hnew,
      publishedStates, stateView, hmanifest]
    grind

/-! ## Current content -/

/-- The current pointer of an inode names this revision. -/
def PointsTo (look : Key → Option Value) (fsid inode revision : Nat) : Prop :=
  look (.currentInode fsid inode) =
    some (.currentPointer ⟨revision, .inodeRevision fsid inode revision⟩)

/-- The content of the revision that the current pointer of an inode names. -/
def CurrentContent (look : Key → Option Value) (published : Published) (fsid inode : Nat)
    (ids : List ID) : Prop :=
  ∃ revision, PointsTo look fsid inode revision ∧
    published.lookup (fsid, inode, revision) = some ids

theorem CurrentContent.unique (h : CurrentContent look published fsid inode ids)
    (h' : CurrentContent look published fsid inode ids') : ids = ids' := by
  obtain ⟨revision, hpoints, hids⟩ := h
  obtain ⟨revision', hpoints', hids'⟩ := h'
  rw [PointsTo] at hpoints hpoints'
  rw [hpoints] at hpoints'
  cases hpoints'
  rw [hids] at hids'
  exact Option.some.inj hids'

/-- A publication makes its content current, and leaves that of the other inodes. -/
theorem ContentInvariant.PublishesInode.currentContent_iff
    (hpub : PublishesInode manifestHash store published input look) :
    CurrentContent look (input.extend published) fsid inode ids ↔
      if (fsid, inode) = input.identity then ids = input.reconciled.contentIDs
      else CurrentContent (fun key => store.lookup key) published fsid inode ids := by
  unfold CurrentContent PointsTo
  split
  · rename_i hidentity
    cases hidentity
    constructor
    · rintro ⟨revision, hpoints, hids⟩
      rw [hpub.current, if_pos rfl] at hpoints
      cases hpoints
      rw [Table.lookup_insert_eq, if_pos rfl] at hids
      exact (Option.some.inj hids).symm
    · rintro rfl
      refine ⟨_, (hpub.current _ _).trans (if_pos rfl), ?_⟩
      rw [Table.lookup_insert_eq, if_pos rfl]
  · rename_i hother
    refine exists_congr fun revision => ?_
    rw [hpub.current, if_neg hother, Table.lookup_insert_eq, if_neg]
    intro heq
    exact hother (Prod.ext (Prod.mk.inj heq).1.symm (Prod.mk.inj (Prod.mk.inj heq).2).1.symm)

section

variable (hfound : ContentInvariant.FoundContent manifestHash store published fsid inode state)
include hfound

theorem ContentInvariant.FoundContent.eq_oldContent
    (h : CurrentContent (fun key => store.lookup key) published fsid inode ids) :
    ids = state.oldContent ∧
      state.oldManifestID = (contentManifest manifestHash state.oldContent).getD 0 := by
  cases hfound with
  | first hnone hcontent hmanifest =>
    obtain ⟨revision, hpoints, -⟩ := h
    rw [PointsTo, hnone] at hpoints
    cases hpoints
  | later hcurrent hcontent hmanifest => exact ⟨h.unique ⟨_, hcurrent, hcontent⟩, hmanifest⟩

theorem ContentInvariant.FoundContent.currentContent (hblob : blob ∈ state.oldContent) :
    CurrentContent (fun key => store.lookup key) published fsid inode state.oldContent := by
  cases hfound with
  | first hnone hcontent hmanifest =>
    rw [hcontent] at hblob
    cases hblob
  | later hcurrent hcontent hmanifest => exact ⟨_, hcurrent, hcontent⟩

end

/-! ## The records of the inodes -/

/-- The records of an inode are those of the blobs its revisions hold, and are current for
the blobs of its current revision. -/
structure InodeStates (manifestHash : List ID → ID) (look : Key → Option Value)
    (published : Published) : Prop extends ContentInvariant manifestHash look published where
  held : ∀ {blob fsid inode}, (look (.reverseInode blob fsid inode)).isSome →
    ∃ revision ids, published.lookup (fsid, inode, revision) = some ids ∧ blob ∈ ids
  current : ∀ blob fsid inode, reverseState look (.reverseInode blob fsid inode) = some .current ↔
    ∃ ids, CurrentContent look published fsid inode ids ∧ blob ∈ ids

namespace InodeStates

theorem empty : InodeStates manifestHash (fun _ => none) ∅ where
  toContentInvariant := ContentInvariant.empty
  held := fun h => by cases h
  current := by
    intro blob fsid inode
    constructor
    · intro h
      cases h
    · rintro ⟨ids, ⟨revision, hpoints, -⟩, -⟩
      cases hpoints

theorem congr_keys (hinv : InodeStates manifestHash look published)
    (h : ∀ key, guardedKey inodeReference key = true → look' key = look key) :
    InodeStates manifestHash look' published where
  toContentInvariant := hinv.toContentInvariant.congr_keys h
  held := by
    intro blob fsid inode hsome
    rw [h _ rfl] at hsome
    exact hinv.held hsome
  current := by
    intro blob fsid inode
    have hcurrent := hinv.current blob fsid inode
    unfold reverseState CurrentContent PointsTo at hcurrent ⊢
    rw [h (.reverseInode blob fsid inode) rfl, h (.currentInode fsid inode) rfl]
    exact hcurrent

/-- Publishing a new revision of an inode. -/
theorem insert (hinv : InodeStates manifestHash (fun key => store.lookup key) published)
    (hafter : ContentInvariant manifestHash look (input.extend published))
    (hpub : ContentInvariant.PublishesInode manifestHash store published input look)
    (hfound :
      ContentInvariant.FoundContent manifestHash store published input.fsid input.inode state)
    (hstates : ∀ blob fsid inode, reverseState look (.reverseInode blob fsid inode) =
      if (fsid, inode) = input.identity ∧ blob ∈ input.reconciled.contentIDs then some .current
      else if (fsid, inode) = input.identity ∧ blob ∈ state.oldContent then some .historical
      else reverseState (fun key => store.lookup key) (.reverseInode blob fsid inode)) :
    InodeStates manifestHash look (input.extend published) where
  toContentInvariant := hafter
  held := by
    intro blob fsid inode h
    rcases (hpub.inodes blob fsid inode).mp h with ⟨hidentity, hblob⟩ | hbefore
    · cases hidentity
      refine ⟨input.reconciled.revision, _, ?_, hblob⟩
      rw [Table.lookup_insert_eq, if_pos rfl]
    · obtain ⟨revision, ids, hids, hblob⟩ := hinv.held hbefore
      exact ⟨revision, ids, ContentInvariant.lookup_insert_of_fresh hpub.fresh hids, hblob⟩
  current := by
    intro blob fsid inode
    simp only [hpub.currentContent_iff, hstates]
    by_cases hidentity : (fsid, inode) = input.identity
    · cases hidentity
      simp only [true_and, if_true]
      split_ifs with hnew hold
      · exact ⟨fun _ => ⟨_, rfl, hnew⟩, fun _ => rfl⟩
      · constructor
        · intro h
          cases h
        · rintro ⟨ids, rfl, hblob⟩
          exact absurd hblob hnew
      · -- A blob of neither content was not current before.
        rw [hinv.current]
        constructor
        · rintro ⟨ids, hcurrent, hblob⟩
          exact absurd ((hfound.eq_oldContent hcurrent).1 ▸ hblob) hold
        · rintro ⟨ids, rfl, hblob⟩
          exact absurd hblob hnew
    · simp only [hidentity, false_and, if_false]
      exact hinv.current blob fsid inode

theorem kept : KeptByPublications manifestHash recordPublished
    (fun _ request => request.Agrees manifestHash inodeReference)
    (InodeStates manifestHash) := by
  apply ContentInvariant.kept_of id toContentInvariant congr_keys id
  intro store published request input puts state plan hinv hprepared _ hagrees hplanned hpub
    hafter hfound
  obtain ⟨filed, hclosing, hstates⟩ := hplanned.states hprepared
  obtain rfl := hprepared.request
  refine hinv.insert hafter hpub hfound fun blob fsid inode => ?_
  refine Eq.trans ?_ (congrFun (congrArg StateView.inodes (hstates blob)) (fsid, inode))
  unfold reverseState
  rw [seen_congr (hclosing _ (hprepared.closingAvoids hagrees.related rfl))]
  rfl

end InodeStates

/-- Over every run of publications from an empty store, the reverse record of a blob and an
inode is there when a published revision of the inode holds the blob, and is current when
the revision that the current pointer names holds it. -/
theorem publication_inode_states (limits : Limits) (manifestHash : List ID → ID)
    (calls : List PublicationCall)
    (hagrees : ∀ call ∈ calls, call.Agrees manifestHash inodeReference) (blob : ID)
    (fsid inode : Nat) :
    let state := calls.foldl (publicationStep limits manifestHash) {}
    let look := fun key => state.store.lookup key
    ((look (.reverseInode blob fsid inode)).isSome ↔
      ∃ revision ids, state.published.lookup (fsid, inode, revision) = some ids ∧ blob ∈ ids) ∧
    (reverseState look (.reverseInode blob fsid inode) = some .current ↔
      ∃ revision ids, PointsTo look fsid inode revision ∧
        state.published.lookup (fsid, inode, revision) = some ids ∧ blob ∈ ids) := by
  intro state look
  have hinv : InodeStates manifestHash look state.published :=
    InodeStates.kept.run (along_agrees hagrees) InodeStates.empty
  constructor
  · constructor
    · intro h
      exact hinv.held h
    · rintro ⟨revision, ids, hids, hblob⟩
      exact hinv.filed hids blob hblob
  · rw [hinv.current]
    constructor
    · rintro ⟨ids, ⟨revision, hpoints, hids⟩, hblob⟩
      exact ⟨revision, ids, hpoints, hids, hblob⟩
    · rintro ⟨revision, ids, hpoints, hids, hblob⟩
      exact ⟨ids, ⟨revision, hpoints, hids⟩, hblob⟩

/-- Blob 8 stays in the content of inode 2, blob 7 leaves it. -/
theorem publication_inode_states_inline :
    let state := inlineCalls.foldl (publicationStep ⟨100, 65536⟩ fun _ => 1) {}
    let look := fun key => state.store.lookup key
    (((look (.reverseInode 8 1 2)).isSome ↔
      ∃ revision ids, state.published.lookup (1, 2, revision) = some ids ∧ 8 ∈ ids) ∧
    (reverseState look (.reverseInode 8 1 2) = some .current ↔
      ∃ revision ids, PointsTo look 1 2 revision ∧
        state.published.lookup (1, 2, revision) = some ids ∧ 8 ∈ ids)) ∧
    reverseState look (.reverseInode 8 1 2) = some .current ∧
    reverseState look (.reverseInode 7 1 2) = some .historical := by
  exact ⟨publication_inode_states ⟨100, 65536⟩ (fun _ => 1) inlineCalls
    (inlineCalls_agree _ _) 8 1 2, by decide +kernel⟩

/-- A request may bring a reverse record of another inode as a related put: the record is
current, though the inode has no revision.  And its content may be another than that of its
revision: the reverse record of a blob stays current when the blob has left. -/
theorem related_put_current :
    (let request := { inlineRequest 1 [7] with
      relatedPuts := [(.reverseInode 7 1 3, .reverseInode ⟨1, .current⟩)] }
    let state := publicationStep ⟨100, 65536⟩ (fun _ => 1) {} (.single 0 request)
    reverseState (fun key => state.store.lookup key) (.reverseInode 7 1 3) = some .current ∧
      state.store.lookup (.currentInode 1 3) = none) ∧
    let calls := [.single 0 { inlineRequest 1 [8] with contentIDs := [7] },
      .single 0 (inlineRequest 2 [9])]
    let state := calls.foldl (publicationStep ⟨100, 65536⟩ fun _ => 1) {}
    reverseState (fun key => state.store.lookup key) (.reverseInode 7 1 2) = some .current ∧
      state.store.lookup (.currentInode 1 2) =
        some (.currentPointer ⟨2, .inodeRevision 1 2 2⟩) := by
  decide +kernel

/-! ## The records of the manifests -/

/-- The current revision of an inode refers to a manifest. -/
def RefersTo (look : Key → Option Value) (fsid inode : Nat) (manifest : ID) : Prop :=
  ∃ revision record, PointsTo look fsid inode revision ∧
    look (.inodeRevision fsid inode revision) = some (.inodeRevision record) ∧
    record.contentMode = .manifestRef ∧ record.contentManifestID = manifest

/-- No other inode refers to a manifest that the request takes its inode away from. -/
def ReconciledRevision.LeavesUnshared (manifestHash : List ID → ID) (store : SchemaStore)
    (request : ReconciledRevision) : Prop :=
  ∀ fsid inode manifest, request.currentKey = .currentInode fsid inode →
    RefersTo (fun key => store.lookup key) fsid inode manifest →
    contentManifest manifestHash request.contentIDs ≠ some manifest →
    ∀ fsid' inode', RefersTo (fun key => store.lookup key) fsid' inode' manifest →
      (fsid', inode') = (fsid, inode)

/-- The records of a manifest are those of the blobs of its content, and are current as long
as an inode refers to it. -/
structure ManifestStates (manifestHash : List ID → ID) (look : Key → Option Value)
    (published : Published) : Prop extends ContentInvariant manifestHash look published where
  checked : ∀ {fsid inode revision record},
    look (.inodeRevision fsid inode revision) = some (.inodeRevision record) →
      checkInodeRevision record = none
  filedManifest : ∀ {id ids manifest blob}, published.lookup id = some ids →
    contentManifest manifestHash ids = some manifest → blob ∈ ids →
      (look (.reverseManifest blob manifest)).isSome
  held : ∀ {blob manifest}, (look (.reverseManifest blob manifest)).isSome →
    ∃ id ids, published.lookup id = some ids ∧
      contentManifest manifestHash ids = some manifest ∧ blob ∈ ids
  current : ∀ {blob manifest}, (look (.reverseManifest blob manifest)).isSome →
    (reverseState look (.reverseManifest blob manifest) = some .current ↔
      ∃ fsid inode ids, CurrentContent look published fsid inode ids ∧
        contentManifest manifestHash ids = some manifest)

/-- A long content is known by its segments. -/
theorem eq_of_segments
    (hlong : ¬ids.length ≤ maxInlineContentIDs) (h : ∀ segment ∈ defaultSegments ids,
      look (.contentManifest manifest segment.segment) = some (.contentManifest segment))
    (h' : ∀ segment ∈ defaultSegments ids',
      look (.contentManifest manifest segment.segment) = some (.contentManifest segment))
    (hlong' : ¬ids'.length ≤ maxInlineContentIDs) : ids = ids' := by
  have hstored : ∀ {l : List ID} {number : Nat},
      (∀ segment ∈ defaultSegments l,
        look (.contentManifest manifest segment.segment) = some (.contentManifest segment)) →
      number < (l.length + defaultContentSegmentIDs - 1) / defaultContentSegmentIDs →
        look (.contentManifest manifest number) = some (.contentManifest
          ⟨l.length, number, (l.length + defaultContentSegmentIDs - 1) / defaultContentSegmentIDs,
            (l.drop (number * defaultContentSegmentIDs)).take defaultContentSegmentIDs⟩) := by
    intro l number hl hnumber
    exact hl _ (List.mem_map_of_mem (List.mem_range.mpr hnumber))
  have hfirst : ∀ {l : List ID}, ¬l.length ≤ maxInlineContentIDs →
      0 < (l.length + defaultContentSegmentIDs - 1) / defaultContentSegmentIDs := by
    intro l hl
    simp only [maxInlineContentIDs, defaultContentSegmentIDs] at hl ⊢
    omega
  -- The first segment has the length of the content, and so the number of segments.
  have hlength : ids.length = ids'.length := by
    have hzero := hstored h (hfirst hlong)
    rw [hstored h' (hfirst hlong')] at hzero
    injection hzero with hzero
    injection hzero with hzero
    injection hzero with hlength
    exact hlength.symm
  rw [← defaultSegments_contentIDs ids, ← defaultSegments_contentIDs ids']
  congr 1
  unfold defaultSegments contentSegments
  dsimp only
  rw [hlength]
  refine List.map_congr_left fun number hnumber => ?_
  have hnumber := List.mem_range.mp hnumber
  have hsame := hstored h (hlength ▸ hnumber)
  rw [hstored h' hnumber] at hsame
  injection hsame with hsame
  injection hsame with hsame
  rw [hsame, hlength]

theorem manifestSegments_of_contentManifest
    (h : contentManifest manifestHash ids = some manifest) :
    ¬ids.length ≤ maxInlineContentIDs ∧ manifestHash ids = manifest ∧
      manifestSegments ids = defaultSegments ids := by
  unfold contentManifest at h
  split at h
  · cases h
  · rename_i hlong
    exact ⟨hlong, Option.some.inj h, if_neg hlong⟩

/-- Two published contents with one manifest are the same. -/
theorem ContentInvariant.eq_of_contentManifest {id id' : RevisionID}
    (hinv : ContentInvariant manifestHash look published)
    (hids : published.lookup id = some ids) (hids' : published.lookup id' = some ids')
    (hmanifest : contentManifest manifestHash ids = some manifest)
    (hmanifest' : contentManifest manifestHash ids' = some manifest) : ids = ids' := by
  obtain ⟨hlong, hhash, hsegments⟩ := manifestSegments_of_contentManifest hmanifest
  obtain ⟨hlong', hhash', hsegments'⟩ := manifestSegments_of_contentManifest hmanifest'
  have hstored := hinv.segments hids
  have hstored' := hinv.segments hids'
  rw [hsegments, hhash] at hstored
  rw [hsegments', hhash'] at hstored'
  exact eq_of_segments hlong hstored hstored' hlong'

namespace ManifestStates

theorem empty : ManifestStates manifestHash (fun _ => none) ∅ where
  toContentInvariant := ContentInvariant.empty
  checked := fun h => by cases h
  filedManifest := fun h => by cases h
  held := fun h => by cases h
  current := fun h => by cases h

section

variable (hinv : ManifestStates manifestHash look published)
include hinv

theorem congr_keys (h : ∀ key, guardedKey blobReference key = true → look' key = look key) :
    ManifestStates manifestHash look' published where
  toContentInvariant :=
    hinv.toContentInvariant.congr_keys fun key hkey => h key (guardedKey_mono hkey)
  checked := by
    intro fsid inode revision record hrecord
    rw [h _ rfl] at hrecord
    exact hinv.checked hrecord
  filedManifest := by
    intro id ids manifest blob hids hmanifest hblob
    rw [h _ rfl]
    exact hinv.filedManifest hids hmanifest hblob
  held := by
    intro blob manifest hsome
    rw [h _ rfl] at hsome
    exact hinv.held hsome
  current := by
    intro blob manifest hsome
    rw [h _ rfl] at hsome
    have hcurrent := hinv.current hsome
    have hpoints : ∀ fsid inode revision, PointsTo look' fsid inode revision ↔
        PointsTo look fsid inode revision := by
      intro fsid inode revision
      rw [PointsTo, PointsTo, h _ rfl]
    unfold reverseState CurrentContent at hcurrent ⊢
    simp only [hpoints]
    rw [h (.reverseManifest blob manifest) rfl]
    exact hcurrent

theorem contentManifest_ne_zero {revision : Nat}
    (hids : published.lookup (fsid, inode, revision) = some ids) :
    contentManifest manifestHash ids ≠ some 0 := by
  obtain ⟨record, hrecord, hagrees⟩ := hinv.stored hids
  exact (contentManifest_of_agrees hagrees (hinv.checked hrecord)).2

/-- An inode refers to the manifest of its current content. -/
theorem refersTo_iff :
    RefersTo look fsid inode manifest ↔ ∃ ids, CurrentContent look published fsid inode ids ∧
      contentManifest manifestHash ids = some manifest := by
  constructor
  · rintro ⟨revision, record, hpoints, hrecord, hmode, hmanifest⟩
    have hsome : (look (.inodeRevision fsid inode revision)).isSome := by
      rw [hrecord]
      rfl
    obtain ⟨ids, hids⟩ := Option.isSome_iff_exists.mp (hinv.known hsome)
    obtain ⟨stored, hstored, hagrees⟩ := hinv.stored hids
    rw [hrecord] at hstored
    cases hstored
    refine ⟨ids, ⟨revision, hpoints, hids⟩, ?_⟩
    rw [(contentManifest_of_agrees hagrees (hinv.checked hrecord)).1, if_pos hmode, hmanifest]
  · rintro ⟨ids, ⟨revision, hpoints, hids⟩, hmanifest⟩
    obtain ⟨record, hrecord, hagrees⟩ := hinv.stored hids
    rw [(contentManifest_of_agrees hagrees (hinv.checked hrecord)).1] at hmanifest
    split at hmanifest
    · rename_i hmode
      exact ⟨revision, record, hpoints, hrecord, hmode, Option.some.inj hmanifest⟩
    · cases hmanifest

end

section Insert

variable (hinv : ManifestStates manifestHash (fun key => store.lookup key) published)
  (hafter : ContentInvariant manifestHash look (input.extend published))
  (hpub : ContentInvariant.PublishesInode manifestHash store published input look)
  (hview : ∀ blob, blobView look blob = publishedView store input []
    (contentManifest manifestHash input.reconciled.contentIDs) blob)

include hinv hpub hview

theorem held_insert (h : (look (.reverseManifest blob manifest)).isSome) :
    ∃ id ids, (input.extend published).lookup id = some ids ∧
      contentManifest manifestHash ids = some manifest ∧ blob ∈ ids := by
  have hmem : manifest ∈ (blobView look blob).manifests := h
  rw [hview blob] at hmem
  rcases mem_manifests_publishedView.mp hmem with ⟨hmanifest, hblob⟩ | hbefore
  · refine ⟨(input.fsid, input.inode, input.reconciled.revision), _, ?_, hmanifest, hblob⟩
    rw [Table.lookup_insert_eq, if_pos rfl]
  · obtain ⟨id, ids, hids, hmanifest, hblob⟩ := hinv.held hbefore
    exact ⟨id, ids, ContentInvariant.lookup_insert_of_fresh hpub.fresh hids, hmanifest, hblob⟩

variable
  (hfound : ContentInvariant.FoundContent manifestHash store published input.fsid input.inode state)
  (hstates : ∀ blob other, reverseState look (.reverseManifest blob other) =
    (publishedStates store input state.oldContent state.oldManifestID
      (contentManifest manifestHash input.reconciled.contentIDs) blob).manifests other)
  (hunshared : ∀ manifest ids fsid inode ids',
    CurrentContent (fun key => store.lookup key) published input.fsid input.inode ids →
    contentManifest manifestHash ids = some manifest →
    contentManifest manifestHash input.reconciled.contentIDs ≠ some manifest →
    CurrentContent (fun key => store.lookup key) published fsid inode ids' →
    contentManifest manifestHash ids' = some manifest → (fsid, inode) = input.identity)

include hafter hfound hstates hunshared

/-- When a publication takes its inode away from a manifest that no other inode refers to, the
states stay right. -/
theorem current_insert (hsome : (look (.reverseManifest blob manifest)).isSome) :
    reverseState look (.reverseManifest blob manifest) = some .current ↔
      ∃ fsid inode ids, CurrentContent look (input.extend published) fsid inode ids ∧
        contentManifest manifestHash ids = some manifest := by
  simp only [hpub.currentContent_iff]
  rw [hstates, publishedStates]
  dsimp only
  by_cases hnew : contentManifest manifestHash input.reconciled.contentIDs = some manifest
  · -- The new content is the content of the manifest, and holds the blob.
    obtain ⟨id, ids, hids, hmanifest, hblob⟩ := hinv.held_insert hpub hview hsome
    have hpublished : (input.extend published).lookup
        (input.fsid, input.inode, input.reconciled.revision) =
          some input.reconciled.contentIDs := by
      rw [Table.lookup_insert_eq, if_pos rfl]
    rw [hafter.eq_of_contentManifest hids hpublished hmanifest hnew] at hblob
    rw [if_pos ⟨hnew, hblob⟩]
    refine ⟨fun _ => ⟨input.fsid, input.inode, input.reconciled.contentIDs, ?_, hnew⟩, fun _ => rfl⟩
    exact (if_pos rfl).mpr rfl
  have hbefore : (store.lookup (.reverseManifest blob manifest)).isSome := by
    have hmem : manifest ∈ (blobView look blob).manifests := hsome
    rw [hview blob] at hmem
    exact (mem_manifests_publishedView.mp hmem).resolve_left fun h => hnew h.1
  rw [if_neg fun h => hnew h.1]
  split
  · rename_i hleft
    obtain ⟨hmanifest, hzero, -, hblob, -⟩ := hleft
    refine ⟨fun h => (by cases h), ?_⟩
    rintro ⟨fsid, inode, ids, hcurrent, hids⟩
    split at hcurrent
    · rw [hcurrent] at hids
      exact absurd hids hnew
    rename_i hother
    have hold := hfound.currentContent hblob
    have holdManifest : contentManifest manifestHash state.oldContent = some manifest := by
      have hgetD := (hfound.eq_oldContent hold).2
      rw [hmanifest] at hgetD
      cases hcontent : contentManifest manifestHash state.oldContent with
      | none =>
        rw [hcontent] at hgetD
        exact absurd hgetD hzero
      | some other =>
        rw [hcontent] at hgetD
        rw [hgetD]
        rfl
    exact absurd (hunshared manifest _ fsid inode ids hold holdManifest hnew hcurrent hids) hother
  · rename_i hkept
    refine (hinv.current hbefore).trans ?_
    constructor
    · rintro ⟨fsid, inode, ids, hcurrent, hids⟩
      refine ⟨fsid, inode, ids, ?_, hids⟩
      rw [if_neg]
      · exact hcurrent
      intro hidentity
      -- The inode of the request refers to the manifest, so the record was set historical.
      cases hidentity
      obtain rfl := (hfound.eq_oldContent hcurrent).1
      obtain ⟨holder, held, hheld, hmanifest, hblob⟩ := hinv.held hbefore
      obtain ⟨revision, -, hpublished⟩ := id hcurrent
      have hzero : manifest ≠ 0 := fun h => hinv.contentManifest_ne_zero hpublished (h ▸ hids)
      rw [hinv.eq_of_contentManifest hheld hpublished hmanifest hids] at hblob
      refine hkept ⟨?_, hzero, hnew, hblob, hbefore⟩
      rw [(hfound.eq_oldContent hcurrent).2, hids]
      rfl
    · rintro ⟨fsid, inode, ids, hcurrent, hids⟩
      split at hcurrent
      · rw [hcurrent] at hids
        exact absurd hids hnew
      · exact ⟨fsid, inode, ids, hcurrent, hids⟩

theorem insert (hchecked : ∀ record, input.reconciled.revisionValue = .inodeRevision record →
      checkInodeRevision record = none) :
    ManifestStates manifestHash look (input.extend published) where
  toContentInvariant := hafter
  checked := by
    intro fsid inode revision record h
    rw [hpub.revision] at h
    split at h
    · exact hchecked record (Option.some.inj h)
    · exact hinv.checked h
  filedManifest := by
    intro id ids manifest blob hids hmanifest hblob
    change manifest ∈ (blobView look blob).manifests
    rw [hview blob, mem_manifests_publishedView]
    rcases Table.lookup_insert_cases hids with ⟨-, rfl⟩ | ⟨-, hids⟩
    · exact .inl ⟨hmanifest, hblob⟩
    · exact .inr (hinv.filedManifest hids hmanifest hblob)
  held := hinv.held_insert hpub hview
  current := hinv.current_insert hafter hpub hview hfound hstates hunshared

end Insert

theorem kept : KeptByPublications manifestHash recordPublished
    (fun store request => request.Agrees manifestHash blobReference ∧
      request.LeavesUnshared manifestHash store)
    (ManifestStates manifestHash) := by
  apply ContentInvariant.kept_of guardedKey_mono toContentInvariant congr_keys And.left
  intro store published request input puts state plan hinv hprepared hinode hmeets hplanned hpub
    hafter hfound
  obtain ⟨hagrees, hunshared⟩ := hmeets
  obtain ⟨record, hrecord, hcheck⟩ := hprepared.inodeRevision hinode
  have hview := hinv.toContentInvariant.view hprepared hagrees hplanned hfound
  obtain ⟨filed, hclosing, hstates⟩ := hplanned.states hprepared
  obtain rfl := hprepared.request
  refine hinv.insert hafter hpub hview hfound ?_ ?_ ?_
  · intro blob other
    rw [← hplanned.first.manifest_eq, ← hstates blob]
    unfold reverseState
    rw [seen_congr (hclosing _ (hprepared.closingAvoids hagrees.related rfl))]
    rfl
  · intro manifest ids fsid inode ids' hcurrent hmanifest hnew hcurrent' hmanifest'
    exact hunshared input.fsid input.inode manifest (hprepared.inodeKeys hinode).1
      (hinv.refersTo_iff.mpr ⟨ids, hcurrent, hmanifest⟩) hnew fsid inode
      (hinv.refersTo_iff.mpr ⟨ids', hcurrent', hmanifest'⟩)
  · intro other hother
    rw [hrecord] at hother
    cases hother
    exact hcheck

end ManifestStates

/-- Over every run of publications from an empty store in which an inode leaves a manifest
only when no other inode refers to it, the reverse record of a blob and a manifest is current
when the current revision of some inode refers to the manifest.  The blobs of the manifest
of a current revision have such a record. -/
theorem publication_manifest_states (limits : Limits) (manifestHash : List ID → ID)
    (calls : List PublicationCall) (hunshared : Along (publicationStep limits manifestHash)
      (fun state call => call.Meets limits manifestHash
        (fun store request => request.Agrees manifestHash blobReference ∧
          request.LeavesUnshared manifestHash store) state.store) {} calls) (blob manifest : ID) :
    let state := calls.foldl (publicationStep limits manifestHash) {}
    let look := fun key => state.store.lookup key
    ((look (.reverseManifest blob manifest)).isSome →
      (reverseState look (.reverseManifest blob manifest) = some .current ↔
        ∃ fsid inode, RefersTo look fsid inode manifest)) ∧
    ((look (.reverseManifest blob manifest)).isSome ↔
      ∃ id ids, state.published.lookup id = some ids ∧
        contentManifest manifestHash ids = some manifest ∧ blob ∈ ids) := by
  intro state look
  have hinv : ManifestStates manifestHash look state.published :=
    ManifestStates.kept.run hunshared ManifestStates.empty
  constructor
  · intro hsome
    simp only [hinv.refersTo_iff]
    exact hinv.current hsome
  · constructor
    · intro hsome
      exact hinv.held hsome
    · rintro ⟨id, ids, hids, hmanifest, hblob⟩
      exact hinv.filedManifest hids hmanifest hblob

/-- A revision of an inode with a content of 129 times blob 7, by manifest 1. -/
def manifestRequest (inode revision : Nat) : ReconciledRevision :=
  { currentKey := .currentInode 1 inode
    revisionKey := .inodeRevision 1 inode revision
    revisionValue := .inodeRevision
      { contentMode := .manifestRef, contentCount := 129, contentManifestID := 1 }
    revision
    contentIDs := List.replicate 129 7 }

theorem manifestRequest_agrees (inode revision : Nat) :
    (manifestRequest inode revision).Agrees (fun _ => 1) blobReference where
  content := by
    intro record hrecord
    cases hrecord
    exact ⟨rfl, List.length_replicate.symm⟩
  related := by
    intro put hput
    cases hput

/-- An inode without a current revision leaves no manifest. -/
theorem manifestRequest_leavesUnshared {revision : Nat}
    (h : store.lookup (.currentInode 1 inode) = none) :
    (manifestRequest inode revision).LeavesUnshared manifestHash store := by
  intro fsid inode' manifest hkey hrefers
  cases hkey
  obtain ⟨current, record, hpoints, -⟩ := hrefers
  rw [PointsTo, h] at hpoints
  cases hpoints

/-- Two inodes come to share a manifest. -/
theorem publication_manifest_states_shared : let calls : List PublicationCall :=
      [.single 0 (manifestRequest 2 1), .single 0 (manifestRequest 3 1)]
    let state := calls.foldl (publicationStep ⟨100, 65536⟩ fun _ => 1) {}
    let look := fun key => state.store.lookup key
    (((look (.reverseManifest 7 1)).isSome →
      (reverseState look (.reverseManifest 7 1) = some .current ↔
        ∃ fsid inode, RefersTo look fsid inode 1)) ∧
    ((look (.reverseManifest 7 1)).isSome ↔
      ∃ id ids, state.published.lookup id = some ids ∧
        contentManifest (fun _ => 1) ids = some 1 ∧ 7 ∈ ids)) ∧
    reverseState look (.reverseManifest 7 1) = some .current := by
  intro calls state look
  have hnone : (publicationStep ⟨100, 65536⟩ (fun _ => 1) {}
      (.single 0 (manifestRequest 2 1))).store.lookup (.currentInode 1 3) = none ∧
      reverseState look (.reverseManifest 7 1) = some .current := by
    decide +kernel
  refine ⟨publication_manifest_states ⟨100, 65536⟩ (fun _ => 1) calls ⟨?_, ?_, trivial⟩ 7 1,
    hnone.2⟩
  · exact ⟨manifestRequest_agrees 2 1, manifestRequest_leavesUnshared rfl⟩
  · exact ⟨manifestRequest_agrees 3 1, manifestRequest_leavesUnshared hnone.1⟩

/-- Two inodes share a manifest, and the first moves on: the record is historical, though
the second still refers to the manifest. -/
theorem shared_manifest_historical : let calls : List PublicationCall :=
      [.single 0 (manifestRequest 2 1), .single 0 (manifestRequest 3 1),
        .single 0 (inlineRequest 2 [8])]
    let state := calls.foldl (publicationStep ⟨100, 65536⟩ fun _ => 1) {}
    let look := fun key => state.store.lookup key
    reverseState look (.reverseManifest 7 1) = some .historical ∧ RefersTo look 1 3 1 := by
  intro calls state look
  have hlook : reverseState look (.reverseManifest 7 1) = some .historical ∧
      look (.currentInode 1 3) = some (.currentPointer ⟨1, .inodeRevision 1 3 1⟩) ∧
      look (.inodeRevision 1 3 1) = some (manifestRequest 3 1).revisionValue := by
    decide +kernel
  exact ⟨hlook.1, 1, _, hlook.2.1, hlook.2.2, rfl, rfl⟩

end Vaultic.Daemon
