/-
  Analytics/CatchUp.lean  —  the analytics outbox and its consumer.

  Source: internal/index/analytics/engine.go, engine_rebuild.go,
  internal/index/daemon/schema_store_generation.go.

  A transaction that changes authoritative records appends deltas to the outbox, stamped
  with the generation of the published facts.  `catchUp` takes a page of the outbox,
  publishes a generation that covers it, by the deltas or by a rebuild from the
  records, and deletes the deltas up to the commit of the new watermark.

  A generation carries what its facts come from: the records that the last rebuild read,
  the deltas whose commits were in them, and the deltas applied since.  No function of the
  source reads these.  A generation contains a delta that was applied, and one that came
  before the rebuild if the rebuilt facts reflect it.

  The watermark is a commit, but a page may end inside a commit.  The rest of the
  commit is then at or below the watermark and is deleted without having been applied.
  A rebuild covers every commit of the records, but it drops the references of live files.
-/
import Vaultic.Analytics.Rebuild
import Vaultic.Lib.Run

set_option autoImplicit false

namespace Vaultic.Analytics

open Vaultic.Lib
open Vaultic.Wire

/-! ## The store -/

/-- A delta in the outbox. -/
structure Entry where
  (commit ordinal : Nat)
  delta : AnalyticsDeltaRecord
  deriving DecidableEq, Repr

def Entry.key (entry : Entry) : Nat × Nat := (entry.commit, entry.ordinal)

/-- A delta that was applied, with what it was applied with. -/
structure Applied where
  entry : Entry
  config : Config
  value : Option Bytes

/-- A published generation: its watermark, its manifest and its facts. -/
structure Generation where
  (epoch appliedCommit layerDepth : Nat)
  facts : Facts
  /-- The facts of the last rebuild. -/
  base : Facts
  /-- The configuration of the last rebuild and the records it read. -/
  source : Option (Config × Records) := none
  /-- The deltas in the records of the last rebuild. -/
  rebuilt : List Entry := []
  /-- The deltas applied since. -/
  applied : List Applied := []

/-- `AnalyticsBuildCheckpointRecord`, with the facts of the candidate segments. -/
structure Checkpoint where
  generation : Nat
  (configJSON sourceKeyCursor : Bytes)
  facts : Facts
  /-- The deltas in the records when the build began. -/
  begun : List Entry

/-- The fields of the metadata record that are read. -/
structure Metadata where
  enabled : Bool
  generation : Nat
  configJSON : Bytes

structure Store where
  metadata : Metadata
  outbox : List Entry := []
  published : Option Generation := none
  checkpoint : Option Checkpoint := none
  records : Records
  /-- Every delta appended so far. -/
  history : List Entry := []

/-! ## Appending -/

/-- The deltas of a commit, stamped as `planSnapshotAnalytics` does. -/
def stamped (generation commit : Nat) (deltas : List AnalyticsDeltaRecord) : List Entry :=
  deltas.zipIdx.map fun pair =>
    { commit, ordinal := pair.2
      delta := { pair.1 with classificationEpoch := UInt64.ofNat generation } }

/-- Where a call stops: while the generation is built, after some batches of a rebuild
have been saved, or after the generation has been published. -/
inductive Fault where
  | none
  | building (batches : Nat)
  | reclaiming
  deriving DecidableEq, Repr

section

variable (host : Host) (config : Config) (fault : Fault) (store : Store)

/-- A transaction at a commit above all earlier ones. -/
def append (commit : Nat) (deltas : List AnalyticsDeltaRecord) (records : Records) : Store :=
  if store.history.any fun entry => entry.commit ≥ commit then store
  else
    let entries :=
      if store.metadata.enabled then stamped store.metadata.generation commit deltas else []
    { store with
      outbox := store.outbox ++ entries, records, history := store.history ++ entries }

/-! ## Publishing -/

def maxManifestLayerDepth : Nat := 8

def inodeValue (records : Records) (delta : AnalyticsDeltaRecord) : Option Bytes :=
  records.get (inodeRevisionKey delta.fsid delta.inode delta.revision)

def publishDeltaGeneration (parent : Generation) (items : List Entry) (lastCommit : Nat) :
    Result Unit × Store :=
  match collectDeltaFacts host config (inodeValue store.records) store.metadata.generation
      parent.facts (items.map (·.delta)) with
  | .error e => (.error e, store)
  | .ok collected =>
    match fault with
    | .building _ => (.error "interrupted", store)
    | _ =>
      let generation := store.metadata.generation + 1
      (.ok (),
        { store with
          metadata := { store.metadata with generation }
          published := some
            { epoch := generation, appliedCommit := lastCommit
              layerDepth := parent.layerDepth + 1
              facts := parent.facts.override collected.affected
              base := parent.base, source := parent.source, rebuilt := parent.rebuilt
              applied := parent.applied ++ items.map fun entry =>
                { entry, config, value := inodeValue store.records entry.delta } } })

/-- The checkpoint a rebuild starts from: a compatible one is resumed. -/
def startBuild (generation : Nat) (configJSON : Bytes) : Checkpoint :=
  let fresh : Checkpoint :=
    { generation, configJSON, sourceKeyCursor := [], facts := fun _ => none
      begun := store.history }
  match store.checkpoint with
  | some checkpoint =>
    if checkpoint.generation = generation ∧ checkpoint.configJSON = configJSON then checkpoint
    else fresh
  | none => fresh

def saveBatch (checkpoint : Checkpoint) (batch : List BuildFact × Bytes) : Checkpoint :=
  { checkpoint with
    facts := addBatch checkpoint.facts batch.1, sourceKeyCursor := batch.2 }

def rebuild : Result Unit × Store :=
  let generation := store.metadata.generation + 1
  let configJSON := host.encodeConfig config
  let checkpoint := startBuild store generation configJSON
  let (batches, result) :=
    streamAuthoritativeFacts host config store.records checkpoint.sourceKeyCursor
  match fault, result with
  | .building saved, _ =>
    (.error "interrupted",
      { store with checkpoint := some ((batches.take saved).foldl saveBatch checkpoint) })
  | _, .error e =>
    (.error e, { store with checkpoint := some (batches.foldl saveBatch checkpoint) })
  | _, .ok appliedCommit =>
    let built := batches.foldl saveBatch checkpoint
    (.ok (),
      { store with
        metadata := { enabled := true, generation, configJSON }
        checkpoint := none
        published := some
          { epoch := generation, appliedCommit, layerDepth := 0
            facts := built.facts, base := built.facts, source := some (config, store.records)
            rebuilt := checkpoint.begun } })

/-- Publish a generation that covers the page, if there is none. -/
def advance (items : List Entry) (lastCommit : Nat) : Result Unit × Store :=
  match store.published with
  | none => rebuild host config fault store
  | some pinned =>
    if lastCommit ≤ pinned.appliedCommit then (.ok (), store)
    else if pinned.layerDepth < maxManifestLayerDepth then
      publishDeltaGeneration host config fault store pinned items lastCommit
    else rebuild host config fault store

/-! ## Catching up -/

/-- Delete the deltas of the page up to the watermark. -/
def reclaim (fault : Fault) (store : Store) (items : List Entry) : Result Nat × Store :=
  match store.published with
  | none => (.error "analytics catch-up published no durable watermark", store)
  | some pinned =>
    let deletes := (items.takeWhile fun item => item.commit ≤ pinned.appliedCommit).map (·.key)
    if fault = .reclaiming then (.error "reclaim applied analytics outbox", store)
    else
      (.ok deletes.length,
        { store with outbox := store.outbox.filter fun entry => entry.key ∉ deletes })

structure CatchUpOptions where
  maxDeltas : Nat
  /-- What fits into a page of the scan. -/
  page : Nat

def batchLimit (options : CatchUpOptions) : Nat :=
  let segmentRows := (config.segmentRows % 2 ^ 32).toNat
  if options.maxDeltas = 0 ∨ options.maxDeltas > segmentRows then segmentRows
  else options.maxDeltas

/-- The page of the outbox that a call reads. -/
def scanned (options : CatchUpOptions) (store : Store) : List Entry :=
  store.outbox.take (min (batchLimit config options) options.page)

def loadConfig (metadata : Metadata) : Result Config :=
  if metadata.configJSON ≠ [] then (host.decodeConfig metadata.configJSON).map Config.normalized
  else .ok (Config.normalized {})

/-- `catchUp`: how many deltas it reclaimed, and the store it leaves. -/
def catchUp (options : CatchUpOptions) (fault : Fault) (store : Store) : Result Nat × Store :=
  if !store.metadata.enabled then (.ok 0, store)
  else
    match loadConfig host store.metadata with
    | .error e => (.error e, store)
    | .ok config =>
      let items := scanned config options store
      match items.getLast? with
      | none => (.ok 0, store)
      | some last =>
        if items.Pairwise fun a b => a.commit ≤ b.commit then
          match advance host config fault store items last.commit with
          | (.error e, store) => (.error s!"catch up analytics: {e}", store)
          | (.ok _, store) => reclaim fault store items
        else (.error "analytics outbox is not in commit order", store)

/-! ## Runs -/

inductive Action where
  | append (commit : Nat) (deltas : List AnalyticsDeltaRecord) (records : Records)
  | catchUp (options : CatchUpOptions) (fault : Fault)

def step : Action → Store
  | .append commit deltas records => append store commit deltas records
  | .catchUp options fault => (catchUp host options fault store).2

def run (actions : List Action) : Store :=
  actions.foldl (step host) store

/-- A store before the first delta is appended, with the facts it publishes. -/
def Store.start (metadata : Metadata) (records : Records)
    (published : Option (Nat × Nat × Nat × Facts)) : Store :=
  { metadata, records
    published := published.map fun ⟨epoch, appliedCommit, layerDepth, facts⟩ =>
      { epoch, appliedCommit, layerDepth, facts, base := facts } }

/-- A rebuild begins at the first record, and the records cover every delta. -/
def rebuildWhole : Bool :=
  store.checkpoint.isNone ∧ ∀ entry ∈ store.history, Covered host store.records entry.delta

/-- A page that ends with `last` is published by its deltas and ends with its commit, or
by a rebuild that covers every delta, or not at all. -/
def pageWhole (items : List Entry) (last : Entry) : Bool :=
  match store.published with
  | none => rebuildWhole host store
  | some pinned =>
    if last.commit ≤ pinned.appliedCommit then true
    else if pinned.layerDepth < maxManifestLayerDepth then
      store.outbox.all fun entry => entry.commit ≠ last.commit ∨ entry ∈ items
    else rebuildWhole host store

/-- The condition on one step: an appended commit is above the watermark, and the page that
a call reads is whole. -/
def Action.meets : Action → Bool
  | .append commit _ _ => store.published.all fun pinned => pinned.appliedCommit < commit
  | .catchUp options _ =>
    match loadConfig host store.metadata with
    | .error _ => true
    | .ok config =>
      let items := scanned config options store
      items.getLast?.all (pageWhole host store items)

/-! ## What a generation holds -/

/-- The delta is older than the generation: it was committed before the last rebuild, or
has been applied since. -/
def Generation.Spans (generation : Generation) (entry : Entry) : Prop :=
  entry ∈ generation.rebuilt ∨ entry ∈ generation.applied.map (·.entry)

/-- The facts of the last rebuild say of the identity of a delta what the records say. -/
def Generation.RebuiltWith (generation : Generation) (delta : AnalyticsDeltaRecord) : Prop :=
  ∃ source ∈ generation.source, Reflects host source.1 source.2 generation.base delta

/-- The effect of the delta is in the facts. -/
def Generation.Contains (generation : Generation) (entry : Entry) : Prop :=
  entry ∈ generation.rebuilt ∧ generation.RebuiltWith host entry.delta ∨
    entry ∈ generation.applied.map (·.entry)

end

instance (host : Host) (generation : Generation) (delta : AnalyticsDeltaRecord) :
    Decidable (generation.RebuiltWith host delta) :=
  inferInstanceAs (Decidable (∃ source ∈ _, _))

instance (host : Host) (generation : Generation) (entry : Entry) :
    Decidable (generation.Contains host entry) :=
  inferInstanceAs (Decidable (_ ∨ _))

/-- The applied deltas, one after another. -/
def replay (host : Host) (facts : Facts) (applied : List Applied) : Result Facts :=
  applied.foldlM (fun facts item => effect host item.config item.value facts item.entry.delta)
    facts

/-- The facts are those of the rebuild and one application of each delta since. -/
structure Generation.Sound (host : Host) (generation : Generation) : Prop where
  facts : replay host generation.base generation.applied = .ok generation.facts
  nodup : (generation.applied.map (·.entry)).Nodup
  once : ∀ item ∈ generation.applied, item.entry ∉ generation.rebuilt

/-- The epoch a delta was stamped with. -/
def Entry.epoch (entry : Entry) : Nat := entry.delta.classificationEpoch.toNat

/-- What every run keeps.  Deltas that a generation spans were stamped before it. -/
structure Store.Sound (host : Host) (store : Store) : Prop where
  sublist : store.outbox.Sublist store.history
  ordered : store.history.Pairwise fun a b => a.commit ≤ b.commit ∧ a.key ≠ b.key
  stamped : ∀ entry ∈ store.history, entry.epoch ≤ store.metadata.generation
  begun : ∀ checkpoint ∈ store.checkpoint, ∀ entry ∈ checkpoint.begun, entry ∈ store.history
  published : ∀ pinned ∈ store.published, pinned.Sound host ∧
    ∀ entry, pinned.Spans entry → entry.epoch < store.metadata.generation

/-- Every delta that left the outbox, or that is at or below the watermark, is contained
in the published generation. -/
structure Store.Complete (host : Host) (store : Store) : Prop where
  contained : ∀ entry ∈ store.history, entry ∉ store.outbox →
    ∃ pinned, store.published = some pinned ∧ pinned.Contains host entry
  watermark : ∀ entry ∈ store.outbox, ∀ pinned, store.published = some pinned →
    entry.commit ≤ pinned.appliedCommit → pinned.Contains host entry

section

variable (host : Host) (metadata : Metadata) (records : Records)
  (published : Option (Nat × Nat × Nat × Facts))

theorem Store.sound_start : (Store.start metadata records published).Sound host where
  sublist := .slnil
  ordered := .nil
  stamped := by simp [Store.start]
  begun := by simp [Store.start]
  published := by
    intro pinned hpinned
    obtain ⟨seed, -, rfl⟩ := Option.map_eq_some_iff.mp hpinned
    exact ⟨⟨rfl, List.nodup_nil, by simp⟩, by simp [Generation.Spans]⟩

end

/-! ## What the operations do -/

theorem stamped_ordered (generation commit : Nat) (deltas : List AnalyticsDeltaRecord) :
    (stamped generation commit deltas).Pairwise fun a b => a.commit ≤ b.commit ∧ a.key ≠ b.key := by
  have hordinals : (deltas.zipIdx.map Prod.snd).Nodup := by
    rw [List.zipIdx_map_snd]
    exact List.nodup_range'
  refine List.pairwise_map.mpr ((List.pairwise_map.mp hordinals).imp fun hne => ?_)
  exact ⟨le_rfl, fun hkey => hne (Prod.mk.inj hkey).2⟩

theorem foldl_saveBatch (batches : List (List BuildFact × Bytes)) (checkpoint : Checkpoint) :
    (batches.foldl saveBatch checkpoint).begun = checkpoint.begun ∧
      (batches.foldl saveBatch checkpoint).facts =
        addBatch checkpoint.facts (batches.flatMap (·.1)) := by
  induction batches generalizing checkpoint with
  | nil => exact ⟨rfl, rfl⟩
  | cons batch batches ih =>
    refine ⟨(ih _).1, (ih _).2.trans ?_⟩
    rw [List.flatMap_cons]
    exact List.foldl_append.symm

section

variable (host : Host) (config : Config) (fault : Fault) (store : Store)

/-- What an append adds comes after everything before it. -/
theorem append_cases (commit : Nat) (deltas : List AnalyticsDeltaRecord) (records : Records) :
    append store commit deltas records = store ∨
      ∃ entries, (∀ entry ∈ store.history, entry.commit < commit) ∧
        (∀ entry ∈ entries, entry.commit = commit ∧ entry.epoch ≤ store.metadata.generation) ∧
        (entries.Pairwise fun a b => a.commit ≤ b.commit ∧ a.key ≠ b.key) ∧
        append store commit deltas records =
          { store with
            outbox := store.outbox ++ entries, records, history := store.history ++ entries } := by
  by_cases hlate : (store.history.any fun entry => entry.commit ≥ commit) = true
  · exact .inl (if_pos hlate)
  have hbefore : ∀ entry ∈ store.history, entry.commit < commit := by
    intro entry hentry
    by_contra hge
    exact hlate (List.any_eq_true.mpr ⟨entry, hentry, by simpa using hge⟩)
  refine .inr ⟨if store.metadata.enabled then
    stamped store.metadata.generation commit deltas else [], hbefore, ?_, ?_, if_neg hlate⟩
  · intro entry hentry
    split_ifs at hentry
    · obtain ⟨pair, -, rfl⟩ := List.mem_map.mp hentry
      refine ⟨rfl, ?_⟩
      simp only [Entry.epoch, UInt64.toNat_ofNat']
      exact Nat.mod_le _ _
    · cases hentry
  · split_ifs
    · exact stamped_ordered _ _ _
    · exact .nil

/-- A rebuild leaves a checkpoint, or publishes the facts of the checkpoint and of all records
after it. -/
theorem rebuild_cases :
    let start := startBuild store (store.metadata.generation + 1) (host.encodeConfig config)
    (∃ e checkpoint, checkpoint.begun = start.begun ∧
        rebuild host config fault store =
          (.error e, { store with checkpoint := some checkpoint })) ∨
      ∃ pinned, rebuild host config fault store =
          (.ok (), { store with
            metadata :=
              { enabled := true, generation := store.metadata.generation + 1
                configJSON := host.encodeConfig config }
            checkpoint := none, published := some pinned }) ∧
        pinned.facts = pinned.base ∧ pinned.rebuilt = start.begun ∧ pinned.applied = [] ∧
        pinned.source = some (config, store.records) ∧
        ∃ batches applied,
          streamAuthoritativeFacts host config store.records start.sourceKeyCursor =
            (batches, .ok applied) ∧
          pinned.base = addBatch start.facts (batches.flatMap (·.1)) := by
  intro start
  rw [rebuild]
  cases hstream : streamAuthoritativeFacts host config store.records start.sourceKeyCursor with
  | mk batches result =>
    obtain ⟨hbegun, hfacts⟩ := foldl_saveBatch batches start
    cases fault with
    | building saved => exact .inl ⟨_, _, (foldl_saveBatch (batches.take saved) start).1, rfl⟩
    | none =>
      cases result with
      | error e => exact .inl ⟨_, _, hbegun, rfl⟩
      | ok applied => exact .inr ⟨_, rfl, rfl, rfl, rfl, rfl, batches, applied, rfl, hfacts⟩
    | reclaiming =>
      cases result with
      | error e => exact .inl ⟨_, _, hbegun, rfl⟩
      | ok applied => exact .inr ⟨_, rfl, rfl, rfl, rfl, rfl, batches, applied, rfl, hfacts⟩

/-- A delta generation is refused, or it applies the whole page in the current epoch. -/
theorem publishDeltaGeneration_cases (parent : Generation) (items : List Entry)
    (lastCommit : Nat) :
    (∃ e, publishDeltaGeneration host config fault store parent items lastCommit =
        (.error e, store)) ∨
      ∃ pinned,
        publishDeltaGeneration host config fault store parent items lastCommit =
          (.ok (), { store with
            metadata := { store.metadata with generation := store.metadata.generation + 1 }
            published := some pinned }) ∧
        (∀ item ∈ items, item.epoch = store.metadata.generation) ∧
        pinned.appliedCommit = lastCommit ∧ pinned.base = parent.base ∧
        pinned.source = parent.source ∧ pinned.rebuilt = parent.rebuilt ∧
        ∃ applied, pinned.applied = parent.applied ++ applied ∧ applied.map (·.entry) = items ∧
          replay host parent.facts applied = .ok pinned.facts := by
  rw [publishDeltaGeneration]
  cases hcollect : collectDeltaFacts host config (inodeValue store.records)
      store.metadata.generation parent.facts (items.map (·.delta)) with
  | error e => exact .inl ⟨e, rfl⟩
  | ok collected =>
    obtain ⟨hepochs, hfacts⟩ := collectDeltaFacts_spec hcollect
    have hitems : ∀ item ∈ items, item.epoch = store.metadata.generation :=
      fun item hitem => hepochs _ (List.mem_map_of_mem hitem)
    have hreplay : replay host parent.facts (items.map fun entry =>
        { entry, config, value := inodeValue store.records entry.delta }) =
          .ok (parent.facts.override collected.affected) := by
      rw [← hfacts, replay, List.foldlM_map, List.foldlM_map]
    have hentries : (items.map fun entry : Entry =>
        ({ entry, config, value := inodeValue store.records entry.delta } : Applied)).map
          (·.entry) = items :=
      List.map_map.trans (List.map_id items)
    cases fault with
    | building saved => exact .inl ⟨_, rfl⟩
    | none => exact .inr ⟨_, rfl, hitems, rfl, rfl, rfl, rfl, _, rfl, hentries, hreplay⟩
    | reclaiming => exact .inr ⟨_, rfl, hitems, rfl, rfl, rfl, rfl, _, rfl, hentries, hreplay⟩

/-- A call deletes nothing, or the deltas of the page up to the watermark. -/
theorem reclaim_cases (items : List Entry) :
    (reclaim fault store items).2 = store ∨
      ∃ pinned, store.published = some pinned ∧
        (reclaim fault store items).2 = { store with
          outbox := store.outbox.filter fun entry => entry.key ∉
            (items.takeWhile fun item => item.commit ≤ pinned.appliedCommit).map (·.key) } := by
  rw [reclaim]
  cases store.published with
  | none => exact .inl rfl
  | some pinned =>
    split_ifs
    · exact .inl rfl
    · exact .inr ⟨pinned, rfl, rfl⟩

/-- A call changes nothing, or it advances the generation for a page and may then reclaim
the page. -/
theorem catchUp_cases (options : CatchUpOptions) :
    (catchUp host options fault store).2 = store ∨
      ∃ config, loadConfig host store.metadata = .ok config ∧
        ∃ last ∈ (scanned config options store).getLast?,
          let items := scanned config options store
          let advanced := (advance host config fault store items last.commit).2
          (catchUp host options fault store).2 = advanced ∨
            (catchUp host options fault store).2 = (reclaim fault advanced items).2 := by
  rw [catchUp]
  split_ifs
  · exact .inl rfl
  cases hconfig : loadConfig host store.metadata with
  | error e => exact .inl rfl
  | ok config =>
    dsimp only
    cases hlast : (scanned config options store).getLast? with
    | none => exact .inl rfl
    | some last =>
      dsimp only
      split_ifs
      · refine .inr ⟨config, rfl, last, hlast, ?_⟩
        cases hadvance : Analytics.advance host config fault store
            (scanned config options store) last.commit with
        | mk result advanced =>
          cases result with
          | error e => exact .inl rfl
          | ok _ => exact .inr rfl
      · exact .inl rfl

theorem history_rebuild : (rebuild host config fault store).2.history = store.history := by
  rcases rebuild_cases host config fault store with ⟨e, checkpoint, -, heq⟩ | ⟨pinned, heq, -⟩
  · rw [heq]
  · rw [heq]

theorem history_advance (items : List Entry) (lastCommit : Nat) :
    (advance host config fault store items lastCommit).2.history = store.history := by
  rw [advance]
  cases store.published with
  | none => exact history_rebuild _ _ _ _
  | some pinned =>
    dsimp only
    split_ifs
    · rfl
    · rcases publishDeltaGeneration_cases host config fault store pinned items lastCommit with
        ⟨e, heq⟩ | ⟨next, heq, -⟩
      · rw [heq]
      · rw [heq]
    · exact history_rebuild _ _ _ _

end

variable {host : Host} {config : Config} {fault : Fault} {store : Store} {parent : Generation}
  {items : List Entry} {options : CatchUpOptions}

/-! ## Nothing is applied twice -/

section

variable (h : store.Sound host)
include h

theorem Store.Sound.append (commit : Nat) (deltas : List AnalyticsDeltaRecord)
    (records : Records) : (append store commit deltas records).Sound host := by
  rcases append_cases store commit deltas records with heq | ⟨entries, hbefore, hnew, hpair, heq⟩
  · rw [heq]
    exact h
  rw [heq]
  refine ⟨h.sublist.append (.refl _), List.pairwise_append.mpr ⟨h.ordered, hpair, ?_⟩,
    List.forall_mem_append.mpr ⟨h.stamped, fun entry hadded => (hnew entry hadded).2⟩, ?_,
    h.published⟩
  · intro a ha b hb
    have hlt : a.commit < b.commit := (hnew b hb).1 ▸ hbefore a ha
    exact ⟨hlt.le, fun hkey => hlt.ne (congrArg Prod.fst hkey)⟩
  · exact fun checkpoint hcheckpoint entry hentry =>
      List.mem_append_left _ (h.begun checkpoint hcheckpoint entry hentry)

theorem mem_begun_startBuild {generation : Nat} {configJSON : Bytes} {entry : Entry}
    (hentry : entry ∈ (startBuild store generation configJSON).begun) : entry ∈ store.history := by
  unfold startBuild at hentry
  cases hcheckpoint : store.checkpoint with
  | none =>
    rw [hcheckpoint] at hentry
    exact hentry
  | some checkpoint =>
    rw [hcheckpoint] at hentry
    dsimp only at hentry
    split_ifs at hentry
    · exact h.begun checkpoint hcheckpoint entry hentry
    · exact hentry

theorem Store.Sound.rebuild : (rebuild host config fault store).2.Sound host := by
  rcases rebuild_cases host config fault store with
    ⟨e, checkpoint, hbegun, heq⟩ | ⟨pinned, heq, hfacts, hrebuilt, happlied, -⟩
  · rw [heq]
    refine ⟨h.sublist, h.ordered, h.stamped, ?_, h.published⟩
    rintro _ ⟨⟩ entry hentry
    exact mem_begun_startBuild h (hbegun ▸ hentry)
  · rw [heq]
    refine
      ⟨h.sublist, h.ordered, fun entry hentry => (h.stamped entry hentry).trans (Nat.le_succ _),
      by simp, ?_⟩
    rintro _ ⟨⟩
    refine ⟨⟨?_, ?_, ?_⟩, fun entry hentry => ?_⟩
    · rw [happlied, hfacts]
      rfl
    · rw [happlied]
      exact List.nodup_nil
    · rw [happlied]
      simp
    · rw [Generation.Spans, happlied, hrebuilt] at hentry
      have hmem : entry ∈ store.history := mem_begun_startBuild h (by simpa using hentry)
      exact Nat.lt_succ_of_le (h.stamped entry hmem)

theorem Store.Sound.publishDeltaGeneration
    (hparent : store.published = some parent) (hnodup : items.Nodup)
    (hitems : ∀ item ∈ items, item ∈ store.history) (lastCommit : Nat) :
    (publishDeltaGeneration host config fault store parent items lastCommit).2.Sound host := by
  rcases publishDeltaGeneration_cases host config fault store parent items lastCommit with
    ⟨e, heq⟩ | ⟨pinned, heq, hepochs, -, hbase, -, hrebuilt, applied, happlied, hentries, hreplay⟩
  · rw [heq]
    exact h
  obtain ⟨hsound, hold⟩ := h.published parent hparent
  -- a delta of the current epoch is in no generation
  have hnew : ∀ item ∈ items, ¬ parent.Spans item :=
    fun item hitem hspans => (hold item hspans).ne (hepochs item hitem)
  rw [heq]
  refine ⟨h.sublist, h.ordered, fun entry hentry => (h.stamped entry hentry).trans (Nat.le_succ _),
    h.begun, ?_⟩
  rintro _ ⟨⟩
  refine ⟨⟨?_, ?_, ?_⟩, fun entry hentry => ?_⟩
  · rw [hbase, happlied, replay, List.foldlM_append]
    exact bind_eq_ok.mpr ⟨_, hsound.facts, hreplay⟩
  · rw [happlied, List.map_append, hentries]
    refine List.nodup_append.mpr ⟨hsound.nodup, hnodup, ?_⟩
    rintro a ha b hb rfl
    exact hnew a hb (.inr ha)
  · intro item hitem
    rw [hrebuilt]
    rw [happlied] at hitem
    rcases List.mem_append.mp hitem with hbefore | hadded
    · exact hsound.once item hbefore
    · exact fun hmem => hnew item.entry (hentries ▸ List.mem_map_of_mem hadded) (.inl hmem)
  · rw [Generation.Spans, hrebuilt, happlied, List.map_append, hentries, List.mem_append,
      ← or_assoc] at hentry
    rcases hentry with hbefore | hadded
    · exact (hold entry hbefore).trans (Nat.lt_succ_self _)
    · exact Nat.lt_succ_of_le (h.stamped entry (hitems entry hadded))

theorem Store.Sound.advance (hnodup : items.Nodup)
    (hitems : ∀ item ∈ items, item ∈ store.history) (lastCommit : Nat) :
    (advance host config fault store items lastCommit).2.Sound host := by
  rw [Analytics.advance]
  cases hpublished : store.published with
  | none => exact h.rebuild
  | some pinned =>
    dsimp only
    split_ifs
    · exact h
    · exact h.publishDeltaGeneration hpublished hnodup hitems lastCommit
    · exact h.rebuild

theorem Store.Sound.reclaim (items : List Entry) : (reclaim fault store items).2.Sound host := by
  rcases reclaim_cases fault store items with heq | ⟨pinned, -, heq⟩
  · rw [heq]
    exact h
  · rw [heq]
    exact ⟨List.filter_sublist.trans h.sublist, h.ordered, h.stamped, h.begun, h.published⟩

theorem Store.Sound.mem_history_scanned (config : Config)
    (options : CatchUpOptions) : ∀ item ∈ scanned config options store, item ∈ store.history :=
  fun _ hitem => h.sublist.subset (List.mem_of_mem_take hitem)

theorem Store.Sound.nodup_scanned (config : Config)
    (options : CatchUpOptions) : (scanned config options store).Nodup := by
  have hhistory : store.history.Nodup :=
    h.ordered.imp fun hpair heq => hpair.2 (congrArg Entry.key heq)
  exact (hhistory.sublist h.sublist).sublist (List.take_sublist _ _)

theorem Store.Sound.catchUp (options : CatchUpOptions) (fault : Fault) :
    (catchUp host options fault store).2.Sound host := by
  rcases catchUp_cases host fault store options with heq | ⟨config, -, last, -, heq⟩
  · rw [heq]
    exact h
  have hadvance : (Analytics.advance host config fault store (scanned config options store)
      last.commit).2.Sound host :=
    h.advance (h.nodup_scanned config options) (h.mem_history_scanned config options) last.commit
  rcases heq with heq | heq
  · rw [heq]
    exact hadvance
  · rw [heq]
    exact hadvance.reclaim _

theorem Store.Sound.step (action : Action) : (step host store action).Sound host := by
  cases action with
  | append commit deltas records => exact h.append commit deltas records
  | catchUp options fault => exact h.catchUp options fault

/-- What is left behind a page is not before its end. -/
theorem Store.Sound.commit_le {item entry : Entry}
    (hitem : item ∈ scanned config options store) (hentry : entry ∈ store.outbox)
    (hrest : entry ∉ scanned config options store) : item.commit ≤ entry.commit := by
  have hsplit : store.outbox = scanned config options store ++
      store.outbox.drop (min (batchLimit config options) options.page) :=
    (List.take_append_drop _ _).symm
  have hordered := h.ordered.sublist h.sublist
  rw [hsplit] at hentry hordered
  exact ((List.pairwise_append.mp hordered).2.2 item hitem entry
    ((List.mem_append.mp hentry).resolve_left hrest)).1

theorem Store.Sound.eq_of_key {a b : Entry} (ha : a ∈ store.history) (hb : b ∈ store.history)
    (hkey : a.key = b.key) : a = b := by
  have hnodup : (store.history.map (·.key)).Nodup :=
    List.pairwise_map.mpr (h.ordered.imp And.right)
  exact List.inj_on_of_nodup_map hnodup ha hb hkey

end

/-! ## Nothing is lost -/

section

variable (h : store.Complete host)
include h

theorem Store.Complete.append {commit : Nat}
    (hcommit : ∀ pinned ∈ store.published, pinned.appliedCommit < commit)
    (deltas : List AnalyticsDeltaRecord) (records : Records) :
    (append store commit deltas records).Complete host := by
  rcases append_cases store commit deltas records with heq | ⟨entries, -, hnew, -, heq⟩
  · rw [heq]
    exact h
  rw [heq]
  refine ⟨fun entry hentry hout => ?_, fun entry hentry pinned hpinned hle => ?_⟩
  · obtain ⟨hout, hadded⟩ := List.mem_append.not.mp hout |> not_or.mp
    exact h.contained entry ((List.mem_append.mp hentry).resolve_right hadded) hout
  rcases List.mem_append.mp hentry with hold | hadded
  · exact h.watermark entry hold pinned hpinned hle
  · have hlt := hcommit pinned hpinned
    rw [(hnew entry hadded).1] at hle
    omega

variable (hsound : store.Sound host)
include hsound

theorem Store.Complete.rebuild (hwhole : rebuildWhole host store = true) :
    (rebuild host config fault store).2.Complete host := by
  obtain ⟨hcheckpoint, hcovered⟩ := of_decide_eq_true hwhole
  have hstart (configJSON : Bytes) :
      startBuild store (store.metadata.generation + 1) configJSON =
        { generation := store.metadata.generation + 1, configJSON, sourceKeyCursor := []
          facts := fun _ => none, begun := store.history } := by
    rw [startBuild, Option.isNone_iff_eq_none.mp hcheckpoint]
  rcases rebuild_cases host config fault store with
    ⟨e, checkpoint, -, heq⟩ |
    ⟨pinned, heq, -, hrebuilt, -, hsource, batches, applied, hstream, hbase⟩
  · rw [heq]
    exact ⟨h.contained, h.watermark⟩
  rw [hstart] at hrebuilt hstream hbase
  have hall : ∀ entry ∈ store.history, pinned.Contains host entry := by
    intro entry hentry
    refine .inl ⟨hrebuilt ▸ hentry, (config, store.records), hsource, ?_⟩
    rw [hbase]
    exact reflects_of_covered hstream (hcovered entry hentry)
  rw [heq]
  refine ⟨fun entry hentry _ => ⟨pinned, rfl, hall entry hentry⟩, ?_⟩
  rintro entry hentry _ ⟨⟩ -
  exact hall entry (hsound.sublist.subset hentry)

theorem Store.Complete.publishDeltaGeneration
    (hparent : store.published = some parent) {last : Entry}
    (hlast : last ∈ (scanned config options store).getLast?)
    (hwhole : ∀ entry ∈ store.outbox, entry.commit = last.commit →
      entry ∈ scanned config options store) :
    (publishDeltaGeneration host config fault store parent (scanned config options store)
      last.commit).2.Complete host := by
  rcases publishDeltaGeneration_cases host config fault store parent
      (scanned config options store) last.commit with
    ⟨e, heq⟩ |
      ⟨pinned, heq, -, hcommit, hbase, hsource, hrebuilt, applied, happlied, hentries, -⟩
  · rw [heq]
    exact h
  have hcontains : ∀ entry, pinned.Contains host entry ↔
      parent.Contains host entry ∨ entry ∈ scanned config options store := by
    intro entry
    rw [Generation.Contains, Generation.Contains, Generation.RebuiltWith, Generation.RebuiltWith,
      hbase, hsource, hrebuilt, happlied, List.map_append, hentries, List.mem_append, or_assoc]
  rw [heq]
  refine ⟨fun entry hentry hout => ?_, ?_⟩
  · obtain ⟨old, hold, hmem⟩ := h.contained entry hentry hout
    rw [hparent] at hold
    cases hold
    exact ⟨pinned, rfl, (hcontains entry).mpr (.inl hmem)⟩
  · rintro entry hentry _ ⟨⟩ hle
    rw [hcommit] at hle
    refine (hcontains entry).mpr (.inr ?_)
    -- an entry behind the page has the commit of its end only if the page splits it
    by_contra hrest
    have hge := hsound.commit_le (List.mem_of_getLast? hlast) hentry hrest
    exact hrest (hwhole entry hentry (le_antisymm hle hge))

theorem Store.Complete.advance {last : Entry}
    (hlast : last ∈ (scanned config options store).getLast?)
    (hwhole : pageWhole host store (scanned config options store) last = true) :
    (advance host config fault store (scanned config options store) last.commit).2.Complete
      host := by
  rw [pageWhole] at hwhole
  rw [Analytics.advance]
  cases hpublished : store.published with
  | none =>
    rw [hpublished] at hwhole
    exact h.rebuild hsound hwhole
  | some pinned =>
    rw [hpublished] at hwhole
    dsimp only at hwhole ⊢
    split_ifs at hwhole ⊢
    · exact h
    · refine h.publishDeltaGeneration hsound hpublished hlast fun entry hentry hcommit => ?_
      have hcase := of_decide_eq_true (List.all_eq_true.mp hwhole entry hentry)
      exact hcase.resolve_left fun hne => hne hcommit
    · exact h.rebuild hsound hwhole

theorem Store.Complete.reclaim (hitems : ∀ item ∈ items, item ∈ store.history) :
    (reclaim fault store items).2.Complete host := by
  rcases reclaim_cases fault store items with heq | ⟨pinned, hpinned, heq⟩
  · rw [heq]
    exact h
  rw [heq]
  refine ⟨fun entry hentry hout => ?_, fun entry hentry => ?_⟩
  · by_cases hmem : entry ∈ store.outbox
    · simp only [List.mem_filter, hmem, true_and, decide_eq_true_eq, not_not] at hout
      obtain ⟨item, hitem, hkey⟩ := List.mem_map.mp hout
      have hitem' := (List.takeWhile_sublist _).subset hitem
      have hsame := hsound.eq_of_key (hitems item hitem') hentry hkey
      have hle : item.commit ≤ pinned.appliedCommit := by
        simpa using List.mem_takeWhile_imp hitem
      exact ⟨pinned, hpinned, h.watermark entry hmem pinned hpinned (hsame ▸ hle)⟩
    · exact h.contained entry hentry hmem
  · exact h.watermark entry (List.mem_of_mem_filter hentry)

theorem Store.Complete.catchUp
    (hmeets : (Action.catchUp options fault).meets host store = true) :
    (catchUp host options fault store).2.Complete host := by
  rcases catchUp_cases host fault store options with heq | ⟨config, hconfig, last, hlast, heq⟩
  · rw [heq]
    exact h
  have hitems := hsound.mem_history_scanned config options
  have hwhole : pageWhole host store (scanned config options store) last = true := by
    rw [Action.meets, hconfig] at hmeets
    exact (Option.all_eq_true _ _).mp hmeets last hlast
  have hadvance : (Analytics.advance host config fault store (scanned config options store)
      last.commit).2.Complete host :=
    h.advance hsound hlast hwhole
  rcases heq with heq | heq
  · rw [heq]
    exact hadvance
  rw [heq]
  refine hadvance.reclaim (hsound.advance (hsound.nodup_scanned config options) hitems _) ?_
  rw [history_advance]
  exact hitems

theorem Store.Complete.step {action : Action} (hmeets : action.meets host store = true) :
    (step host store action).Complete host := by
  cases action with
  | append commit deltas records =>
    refine h.append (fun pinned hpinned => ?_) deltas records
    exact of_decide_eq_true ((Option.all_eq_true _ _).mp hmeets pinned hpinned)
  | catchUp options fault => exact h.catchUp hsound hmeets

end

/-- Whatever fails, a run keeps the outbox in order and publishes each delta at most once. -/
theorem run_sound (host : Host) (metadata : Metadata) (records : Records)
    (published : Option (Nat × Nat × Nat × Facts)) (actions : List Action) :
    (run host (Store.start metadata records published) actions).Sound host :=
  run_invariant (Store.Sound host) (fun _ action h => h.step action) actions
    (Store.sound_start host metadata records published)

end Vaultic.Analytics
