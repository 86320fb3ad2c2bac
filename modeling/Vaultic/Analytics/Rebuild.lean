/-
  Analytics/Rebuild.lean  —  the facts that a rebuild reads from the authoritative records.

  Source: internal/index/analytics/engine_rebuild.go.

  A rebuild makes one fact for each source binding; a store without bindings has one for
  each inode.  The references of a fact are the snapshots that lead to a revision of its
  identity, but they are counted only for a binding of a deleted file: the fact of a live
  file has none (`sourceBindingFact_spec`).  `reflects_of_covered` says which deltas the
  facts of a rebuild agree with.

  The records do not change while they are read.
-/
import Vaultic.Analytics.Delta
import Vaultic.Wire.Metadata

set_option autoImplicit false

namespace Vaultic.Analytics

open Vaultic.Lib
open Vaultic.Wire

/-! ## The records -/

/-- The authoritative records in the order of their keys. -/
structure Records where
  entries : List (Bytes × Bytes) := []
  sorted : entries.Pairwise fun a b => a.1 < b.1 := by decide

section

variable (host : Host) (records : Records)

/-- `Get` -/
def Records.get (key : Bytes) : Option Bytes := records.entries.lookup key

/-- What the pages of `ScanPrefix` have after a key; every key is after the empty one. -/
def Records.scan (text : String) (after : Bytes) : List (Bytes × Bytes) :=
  records.entries.filter fun entry => startsWith entry.1 text && after < entry.1

/-- `MetadataHead` -/
def Records.metadataHead : Result UInt64 :=
  match records.get nextRevisionKey with
  | none => .ok 0
  | some value => do
    let next ← unmarshalNextRevision value
    if next = 0 then .error "invalid next metadata revision" else pure (next - 1)

/-- The format `%x`. -/
def hexText (bytes : Bytes) : String :=
  String.ofList ((hexEncode bytes).map fun byte => Char.ofNat byte.toNat)

/-- A key of one kind. -/
def parseKeyOf (kind : KeyKind) (name : String) (bytes : Bytes) : Result ParsedKey :=
  let text := hexText bytes
  let invalid := s!"invalid {name} key {text}"
  match parseKey bytes with
  | .ok key => if key.kind = kind then .ok key else .error invalid
  | .error _ => .error invalid

/-! ## Retained references -/

/-- `nextGeneration`: the first generation of the inode after the given one; 0 if there is
none. -/
def nextGeneration (fsid : UInt32) (inode generation : UInt64) : Result UInt64 :=
  (records.scan "asb:" []).foldlM (fun next entry => do
    let key ← parseKey entry.1
    if key.fsid ≠ fsid ∨ key.inode ≠ inode then pure next
    else
      let binding ← unmarshalAuthoritativeSourceBindingRecord entry.2
      if binding.generation > generation ∧ (next = 0 ∨ binding.generation < next) then
        pure binding.generation
      else pure next) 0

/-- How deep `visit` goes below the root of a snapshot. -/
def maxVisitDepth : Nat := 1024

/-- `visit`: does a directory lead to a key that is looked for?  The number is what is left
of the depth. -/
def visit (found : ParsedKey → Bool) : Nat → Bytes → Result Bool
  | 0, _ => .error "snapshot directory depth exceeds analytics limit"
  | depth + 1, key =>
    match records.get key with
    | none =>
      let text := hexText key
      .error s!"snapshot directory {text} is missing"
    | some value => do
      let directory ← unmarshalDirectoryRevision value
      -- the first child that is found ends the loop
      directory.children.foldlM (fun done child => do
        if done then pure true
        else
          let parsed ← parseKey child.metadataKey
          if parsed.kind = .directoryRevision then visit found depth child.metadataKey
          else pure (found parsed)) false

/-- How many snapshots lead to a revision of the identity. -/
def retainedReferencesForIdentity (fsid : UInt32) (inode generation : UInt64) :
    Result UInt64 := do
  let next ← nextGeneration records fsid inode generation
  let ofIdentity (key : ParsedKey) : Bool :=
    key.kind = .inodeRevision ∧ key.fsid = fsid ∧ key.inode = inode ∧
      key.revision ≥ generation ∧ (next = 0 ∨ key.revision < next)
  (records.scan "s:" []).foldlM (fun references entry => do
    let snapshot ← unmarshalSnapshotRecord host.snapshot entry.2
    if snapshot.legacyTree ≠ 0 then pure references
    else
      let found ← visit records ofIdentity (maxVisitDepth + 1)
        (directoryRevisionKey snapshot.rootFSID snapshot.rootInode snapshot.rootRevision)
      pure (if found then references + 1 else references)) 0

/-! ## The fact of a source binding -/

/-- `sourceBindingResidency`: the residency, the references and the last complete crawl. -/
def sourceBindingResidency (key : ParsedKey) (binding : AuthoritativeSourceBindingRecord) :
    Result (AnalyticsResidency × UInt64 × Int64) :=
  if binding.state = authoritativeSourceLive then .ok (analyticsLive, 0, 0)
  else if binding.state = authoritativeSourceDeleted then
    match (authoritativeCrawlProofKey key.id binding.lastObservedCommit).bind records.get with
    | none => .error "deleted source binding has no crawl proof"
    | some value =>
      match unmarshalAuthoritativeCrawlProofRecord value with
      | .error e => .error s!"{e}\ndeleted source binding has invalid crawl proof"
      | .ok proof => do
        if !proof.complete || !proof.debtFree then
          .error "deleted source binding has invalid crawl proof"
        else
          let retained ←
            retainedReferencesForIdentity host records key.fsid key.inode binding.generation
          pure (if retained ≠ 0 then analyticsArchiveOnly else analyticsExpired, retained,
            proof.completedAt)
  else .ok (analyticsUnknown, 0, 0)

/-- `sourceBindingFact`: the fact of a binding and the commit that observed it. -/
def sourceBindingFact (config : Config) (records : Records) (entry : Bytes × Bytes) :
    Result (BuildFact × UInt64) := do
  let key ← parseKeyOf .authoritativeSourceBinding "authoritative source binding" entry.1
  let binding ← unmarshalAuthoritativeSourceBindingRecord entry.2
  let fsid := key.fsid
  let inode := key.inode
  let last := binding.revision
  match records.get (inodeRevisionKey fsid inode last) with
  | none => .error s!"source binding points to missing revision {fsid}:{inode}:{last}"
  | some value =>
    let revision ← unmarshalInodeRevision value
    let (residency, retainedRefs, lastComplete) ←
      sourceBindingResidency host records key binding
    let fact :=
      { makeFact host last revision config with
        identityGeneration := binding.generation, identityContinuity := binding.continuity
        residency }
    pure
      ({ identity :=
          { fsid, inode, generation := binding.generation, revision := last, known := fact.known }
         fact, retainedRefs, lastComplete },
        binding.lastObservedCommit)

/-! ## The streams -/

/-- What a stream hands over: the batches, each with the last source key of the batch, and
the highest commit it has seen or the error that stopped it. -/
abbrev Stream := List (List BuildFact × Bytes) × Result Nat

/-- The end of a stream: the last batch, and the head of the metadata. -/
def endStream (batch : List BuildFact) (lastKey : Bytes) (applied : Nat) : Stream :=
  (if batch = [] then [] else [(batch, lastKey)],
    records.metadataHead.map fun head => max applied head.toNat)

end

section
variable (host : Host) (config : Config) (records : Records) (batchSize : Nat)

/-- The loop of `streamSourceBindings`. -/
def streamSourceBindings (batch : List BuildFact) (lastKey : Bytes) (applied : Nat) :
    List (Bytes × Bytes) → Stream
  | [] => endStream records batch lastKey applied
  | entry :: rest =>
    match sourceBindingFact host config records entry with
    | .error e => ([], .error e)
    | .ok (build, observedCommit) =>
      let batch := batch ++ [build]
      let applied := max applied observedCommit.toNat
      if batch.length = batchSize then
        let (batches, result) := streamSourceBindings [] entry.1 applied rest
        ((batch, entry.1) :: batches, result)
      else streamSourceBindings batch entry.1 applied rest

/-- The fact of the first revision of an inode. -/
def legacyRevisionFact (key : ParsedKey) (value : Bytes) : Result BuildFact := do
  let revision ← unmarshalInodeRevision value
  let current := records.get (currentInodeKey key.fsid key.inode)
  let fact :=
    { makeFact host key.revision revision config with
      identityGeneration := key.revision, identityContinuity := analyticsContinuityUnknown
      residency := if current.isSome then analyticsLive else analyticsUnknown }
  pure
    { identity :=
        { fsid := key.fsid, inode := key.inode, generation := key.revision
          revision := key.revision, known := fact.known }
      fact }

/-- The loop of `streamLegacyRevisions`. -/
def streamLegacyRevisions (previous : UInt32 × UInt64) (batch : List BuildFact)
    (lastKey : Bytes) (applied : Nat) : List (Bytes × Bytes) → Stream
  | [] => endStream records batch lastKey applied
  | entry :: rest =>
    match parseKeyOf .inodeRevision "inode revision" entry.1 with
    | .error e => ([], .error e)
    | .ok key =>
      let applied := max applied key.revision.toNat
      if (key.fsid, key.inode) = previous then
        streamLegacyRevisions previous batch entry.1 applied rest
      else
        -- a full batch waits for the next inode, so that its cursor is past all revisions
        let full := batch.length = batchSize
        let saved := if full then [(batch, lastKey)] else []
        match legacyRevisionFact host config records key entry.2 with
        | .error e => (saved, .error e)
        | .ok build =>
          let (batches, result) := streamLegacyRevisions (key.fsid, key.inode)
            ((if full then [] else batch) ++ [build]) entry.1 applied rest
          (saved ++ batches, result)

/-- `streamAuthoritativeFacts`, in batches of `config.segmentRows`. -/
def streamAuthoritativeFacts (after : Bytes) : Stream :=
  let batchSize := config.segmentRows.toNat
  if records.scan "asb:" [] ≠ [] then
    streamSourceBindings host config records batchSize [] [] 0 (records.scan "asb:" after)
  else
    let previous := match parseKey after with
      | .ok key => (key.fsid, key.inode)
      | .error _ => (0, 0)
    streamLegacyRevisions host config records batchSize previous [] [] 0
      (records.scan "iv:" after)

end

/-! ## The facts of a rebuild -/

/-- `analyticsIdentityKey` of a fact. -/
def factKey (item : BuildFact) : IdentityKey :=
  { fsid := item.identity.fsid, inode := item.identity.inode
    generation := item.identity.generation }

/-- The facts after one batch of a rebuild. -/
def addBatch (facts : Facts) (batch : List BuildFact) : Facts :=
  batch.foldl (fun facts item => facts.set (factKey item) item) facts

/-- The binding of an identity, if the entry is one. -/
def bindingOf (key : IdentityKey) (entry : Bytes × Bytes) :
    Option AuthoritativeSourceBindingRecord := do
  let parsed ← (parseKey entry.1).toOption
  let binding ← (unmarshalAuthoritativeSourceBindingRecord entry.2).toOption
  if key = ⟨parsed.fsid, parsed.inode, binding.generation⟩ then some binding else none

/-- How many snapshots retain an identity. -/
def referencesOf (host : Host) (records : Records) (key : IdentityKey) : Result UInt64 :=
  retainedReferencesForIdentity host records key.fsid key.inode key.generation

/-- A rebuild from the records covers a delta if the identity has a binding, and for a
delta of the references if its bindings are of deleted files or no snapshot retains it. -/
def Covered (host : Host) (records : Records) (delta : AnalyticsDeltaRecord) : Prop :=
  (∃ entry ∈ records.scan "asb:" [], (bindingOf (identityKey delta) entry).isSome) ∧
    (delta.kind = analyticsDeltaRetainedReferences →
      referencesOf host records (identityKey delta) = .ok 0 ∨
      ∀ entry ∈ records.scan "asb:" [], ∀ binding ∈ bindingOf (identityKey delta) entry,
        binding.state = authoritativeSourceDeleted)

/-- The facts say of the identity of a delta what the records say: its fact is that of a
binding, with the references of the records if the delta is about them. -/
def Reflects (host : Host) (config : Config) (records : Records) (facts : Facts)
    (delta : AnalyticsDeltaRecord) : Prop :=
  ∃ item ∈ facts (identityKey delta),
    (∃ entry ∈ records.scan "asb:" [],
      (sourceBindingFact host config records entry).map Prod.fst = .ok item) ∧
    (delta.kind = analyticsDeltaRetainedReferences →
      referencesOf host records (identityKey delta) = .ok item.retainedRefs)

instance (host : Host) (records : Records) (delta : AnalyticsDeltaRecord) :
    Decidable (Covered host records delta) :=
  inferInstanceAs (Decidable (_ ∧ _))

instance (host : Host) (config : Config) (records : Records) (facts : Facts)
    (delta : AnalyticsDeltaRecord) : Decidable (Reflects host config records facts delta) :=
  inferInstanceAs (Decidable (∃ item ∈ _, _))

theorem parseKeyOf_ok {kind : KeyKind} {name : String} {bytes : Bytes} {key : ParsedKey}
    (h : parseKeyOf kind name bytes = .ok key) : parseKey bytes = .ok key := by
  unfold parseKeyOf at h
  cases hparsed : parseKey bytes with
  | error e =>
    rw [hparsed] at h
    cases h
  | ok parsed =>
    rw [hparsed] at h
    obtain ⟨-, h⟩ | ⟨-, h⟩ := ite_eq_iff.mp h
    · exact h
    · cases h

theorem bindingOf_identity {key key' : IdentityKey} {entry : Bytes × Bytes}
    {binding binding' : AuthoritativeSourceBindingRecord} (h : binding ∈ bindingOf key entry)
    (h' : binding' ∈ bindingOf key' entry) : key = key' := by
  simp only [bindingOf, Option.mem_def, Option.bind_eq_bind, Option.bind_eq_some_iff,
    Option.ite_none_right_eq_some] at h h'
  obtain ⟨parsed, hparsed, bound, hbound, rfl, -⟩ := h
  obtain ⟨parsed', hparsed', bound', hbound', rfl, -⟩ := h'
  rw [Option.some.inj (hparsed.symm.trans hparsed'), Option.some.inj (hbound.symm.trans hbound')]

variable {host : Host} {config : Config} {records : Records}

/-- The references of a binding are those of the records if its file is deleted, else 0. -/
theorem sourceBindingResidency_refs {key : ParsedKey}
    {binding : AuthoritativeSourceBindingRecord} {residency : AnalyticsResidency}
    {retained : UInt64} {lastComplete : Int64}
    (h : sourceBindingResidency host records key binding =
      .ok (residency, retained, lastComplete)) :
    if binding.state = authoritativeSourceDeleted then
      retainedReferencesForIdentity host records key.fsid key.inode binding.generation =
        .ok retained
    else retained = 0 := by
  unfold sourceBindingResidency at h
  split_ifs at h with hlive hdeleted
  · cases h
    simp [hlive, authoritativeSourceLive, authoritativeSourceDeleted]
  · rw [if_pos hdeleted]
    split at h
    · cases h
    split at h
    · cases h
    · split_ifs at h
      obtain ⟨refs, hrefs, h⟩ := of_bind h
      cases h
      exact hrefs
  · cases h
    rw [if_neg hdeleted]

/-- The fact of a binding has its identity, and the references of its residency. -/
theorem sourceBindingFact_spec {entry : Bytes × Bytes} {item : BuildFact} {commit : UInt64}
    (h : sourceBindingFact host config records entry = .ok (item, commit)) :
    ∃ binding ∈ bindingOf (factKey item) entry,
      if binding.state = authoritativeSourceDeleted then
        referencesOf host records (factKey item) = .ok item.retainedRefs
      else item.retainedRefs = 0 := by
  obtain ⟨key, hkey, h⟩ := of_bind h
  obtain ⟨binding, hbinding, h⟩ := of_bind h
  replace hkey := parseKeyOf_ok hkey
  dsimp only at h
  split at h
  · cases h
  obtain ⟨revision, -, h⟩ := of_bind h
  obtain ⟨⟨residency, retained, lastComplete⟩, hresidency, h⟩ := of_bind h
  cases h
  refine ⟨binding, ?_, sourceBindingResidency_refs hresidency⟩
  simp [bindingOf, hkey, hbinding, Except.toOption, factKey]

/-- A stream of bindings that ends without an error hands over the fact of each. -/
theorem streamSourceBindings_ok {batchSize : Nat} {entries : List (Bytes × Bytes)}
    {batch : List BuildFact} {lastKey : Bytes} {applied result : Nat}
    {batches : List (List BuildFact × Bytes)}
    (h : streamSourceBindings host config records batchSize batch lastKey applied entries =
      (batches, .ok result)) :
    ∃ items : List (BuildFact × UInt64),
      entries.map (sourceBindingFact host config records) = items.map .ok ∧
      batches.flatMap (·.1) = batch ++ items.map (·.1) := by
  induction entries generalizing batch lastKey applied batches with
  | nil =>
    refine ⟨[], rfl, ?_⟩
    obtain ⟨rfl, -⟩ := Prod.mk.inj h
    split_ifs with hempty
    · simp [hempty]
    · simp
  | cons entry rest ih =>
    rw [streamSourceBindings] at h
    cases hfact : sourceBindingFact host config records entry with
    | error e =>
      rw [hfact] at h
      cases h
    | ok pair =>
      rw [hfact] at h
      dsimp only at h
      split_ifs at h with hfull
      · obtain ⟨rfl, hresult⟩ := Prod.mk.inj h
        obtain ⟨more, hmore, hbatches⟩ := ih (Prod.ext rfl hresult)
        refine ⟨pair :: more, ?_, ?_⟩
        · rw [List.map_cons, hfact, hmore, List.map_cons]
        · simp [hbatches]
      · obtain ⟨more, hmore, hbatches⟩ := ih h
        refine ⟨pair :: more, ?_, ?_⟩
        · rw [List.map_cons, hfact, hmore, List.map_cons]
        · simp [hbatches]

/-- An identity that a batch has a fact for gets one of these facts. -/
theorem addBatch_of_mem (facts : Facts) {batch : List BuildFact} {key : IdentityKey}
    (h : ∃ item ∈ batch, factKey item = key) :
    ∃ item ∈ batch, factKey item = key ∧ addBatch facts batch key = some item := by
  induction batch using List.reverseRecOn with
  | nil => simp at h
  | append_singleton batch last ih =>
    have hlast : addBatch facts (batch ++ [last]) =
        (addBatch facts batch).set (factKey last) last := List.foldl_append
    rw [hlast]
    by_cases heq : key = factKey last
    · exact ⟨last, by simp, heq.symm, if_pos heq⟩
    · have hbefore : ∃ item ∈ batch, factKey item = key := by
        obtain ⟨item, hitem, hkey⟩ := h
        rcases List.mem_append.mp hitem with hmem | hmem
        · exact ⟨item, hmem, hkey⟩
        · rw [List.mem_singleton.mp hmem] at hkey
          exact absurd hkey.symm heq
      obtain ⟨item, hitem, hkey, hfact⟩ := ih hbefore
      exact ⟨item, List.mem_append_left _ hitem, hkey, (if_neg heq).trans hfact⟩

/-- A rebuild that starts at the first record reflects every delta that the records cover. -/
theorem reflects_of_covered {delta : AnalyticsDeltaRecord}
    {batches : List (List BuildFact × Bytes)} {applied : Nat}
    (h : streamAuthoritativeFacts host config records [] = (batches, .ok applied))
    (hcovered : Covered host records delta) :
    Reflects host config records (addBatch (fun _ => none) (batches.flatMap (·.1))) delta := by
  obtain ⟨⟨bound, hbound, hsome⟩, hreferences⟩ := hcovered
  have hbindings : records.scan "asb:" [] ≠ [] := List.ne_nil_of_mem hbound
  rw [streamAuthoritativeFacts, if_pos hbindings] at h
  obtain ⟨items, hitems, hbatches⟩ := streamSourceBindings_ok h
  rw [hbatches, List.nil_append]
  -- the binding that covers the delta has a fact
  obtain ⟨pair, hpair, hfact⟩ := List.mem_map.mp (hitems ▸ List.mem_map_of_mem hbound)
  obtain ⟨binding, hbinding, -⟩ := sourceBindingFact_spec hfact.symm
  have hidentity : factKey pair.1 = identityKey delta :=
    bindingOf_identity hbinding (Option.get_mem hsome)
  obtain ⟨item, hitem, hkey, hadded⟩ :=
    addBatch_of_mem (fun _ => none) ⟨pair.1, List.mem_map_of_mem hpair, hidentity⟩
  -- the fact that is left is that of a binding as well
  obtain ⟨built, hbuilt, rfl⟩ := List.mem_map.mp hitem
  obtain ⟨entry, hentry, hmade⟩ := List.mem_map.mp (hitems.symm ▸ List.mem_map_of_mem hbuilt)
  refine ⟨built.1, hadded, ⟨entry, hentry, ?_⟩, fun hkind => ?_⟩
  · rw [hmade]
    rfl
  obtain ⟨source, hsource, hrefs⟩ := sourceBindingFact_spec hmade
  rw [hkey] at hsource hrefs
  rcases hreferences hkind with hzero | hdeleted
  · split_ifs at hrefs
    · exact hrefs
    · rw [hrefs]
      exact hzero
  · rwa [if_pos (hdeleted entry hentry source hsource)] at hrefs

end Vaultic.Analytics
