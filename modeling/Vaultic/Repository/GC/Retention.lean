/-
  Repository/GC/Retention.lean  —  what a planned collection retains.

  The classification is characterised pack by pack, by what the catalog said
  before planning.  From it follows exactly when the plan keeps every blob handle
  that a retained snapshot reaches: the scan must have kept the handle's own type,
  or the pack must not be up for sweeping or repacking at all.
-/
import Vaultic.Repository.GC.Plan

set_option autoImplicit false

namespace Vaultic.Repository

open Vaultic.Lib Vaultic.Schema Vaultic.Daemon

/-! ## The classification of one pack -/

section Classification

variable {input : ClassificationInput}

section

variable (input : ClassificationInput)

/-- The candidate has been observed for at least the minimum age. -/
def Aged (pack : ID) : Prop :=
  input.minAge ≤ timeSub input.now (packDiscoveredAt pack (input.catalog.members pack) input)

/-- A published pack with a member that is no longer reachable, old enough. -/
def Due (pack : ID) (record : PackRecord) : Prop :=
  record.lifecycle = .published ∧ Aged input pack ∧
    ∃ blob ∈ input.catalog.members pack, blob ∈ input.unreachable

/-- The pack is swept: it is due and has no live member. -/
def Sweeps (pack : ID) (record : PackRecord) : Prop :=
  Due input pack record ∧ ∀ blob ∈ input.catalog.members pack, blob ∈ input.unreachable

/-- The pack is repacked: it is due, has a live member, and its placements allow it. -/
def Repacks (pack : ID) (record : PackRecord) : Prop :=
  Due input pack record ∧ (∃ blob ∈ input.catalog.members pack, blob ∉ input.unreachable) ∧
    mixedPackRepackAllowed input pack record = true

end

variable {members : List ID}

theorem mem_livePackMembers {handle : BlobHandle} :
    handle ∈ (livePackMembers members input).1 ↔
      handle.id ∈ members ∧ handle.id ∉ input.unreachable ∧
        (input.catalog.blobTypes.lookup handle.id).getD .data = handle.type := by
  simp only [livePackMembers, List.mem_toFinset, List.mem_map, List.mem_filter, decide_eq_true_eq]
  constructor
  · rintro ⟨blob, ⟨hmem, hlive⟩, rfl⟩
    exact ⟨hmem, hlive, rfl⟩
  · rintro ⟨hmem, hlive, htype⟩
    exact ⟨handle.id, ⟨hmem, hlive⟩, by rw [htype]⟩

theorem livePackMembers_all :
    (livePackMembers members input).2 = true ↔ ∀ blob ∈ members, blob ∈ input.unreachable := by
  simp [livePackMembers, List.filter_eq_nil_iff]

/-- Distinct members give distinct handles, so the keep set is as large as the pack
exactly when every member is live. -/
theorem card_livePackMembers (hnodup : members.Nodup) :
    (livePackMembers members input).1.card = members.length ↔
      ∀ blob ∈ members, blob ∉ input.unreachable := by
  have hinj : Function.Injective fun blob : ID =>
      (⟨blob, (input.catalog.blobTypes.lookup blob).getD .data⟩ : BlobHandle) :=
    fun _ _ h => (BlobHandle.mk.inj h).1
  have hcard : (livePackMembers members input).1.card =
      (members.filter (· ∉ input.unreachable)).length := by
    unfold livePackMembers
    rw [List.toFinset_card_of_nodup ((hnodup.filter _).map hinj), List.length_map]
  rw [hcard, List.length_filter_eq_length_iff]
  simp

variable {result result' : Classification}

/-- One step of the classification loop, for the tables of swept and of repacked packs. -/
theorem classifyPackEntry_spec {entry : ID × PackRecord}
    (hnodup : (input.catalog.members entry.1).Nodup)
    (h : classifyPackEntry input result entry = .ok result') :
    (Sweeps input entry.1 entry.2 ∧
        result'.wholePacks = result.wholePacks.insert entry.1 (input.catalog.members entry.1) ∨
      ¬Sweeps input entry.1 entry.2 ∧ result'.wholePacks = result.wholePacks) ∧
    (Repacks input entry.1 entry.2 ∧
        result'.mixedPacks = result.mixedPacks.insert entry.1
          (livePackMembers (input.catalog.members entry.1) input).1 ∨
      ¬Repacks input entry.1 entry.2 ∧ result'.mixedPacks = result.mixedPacks) := by
  unfold classifyPackEntry at h
  dsimp only at h
  split_ifs at h with hskip hlive
  · cases h
    -- Not published, or without members: neither table changes.
    have hdue : ¬Due input entry.1 entry.2 := by
      rintro ⟨hpublished, -, blob, hmem, -⟩
      rcases hskip with hne | hnil
      · exact hne hpublished
      · rw [hnil] at hmem
        cases hmem
    exact ⟨.inr ⟨fun hs => hdue hs.1, rfl⟩, .inr ⟨fun hr => hdue hr.1, rfl⟩⟩
  · cases h
    have hdue : ¬Due input entry.1 entry.2 := by
      rintro ⟨-, -, blob, hmem, hgone⟩
      exact (card_livePackMembers hnodup).mp hlive.2 blob hmem hgone
    exact ⟨.inr ⟨fun hs => hdue hs.1, rfl⟩, .inr ⟨fun hr => hdue hr.1, rfl⟩⟩
  push Not at hskip
  obtain ⟨hpublished, hmembers⟩ := hskip
  obtain ⟨value, -, h⟩ := of_bind h
  cases h
  have hgone : ∃ blob ∈ input.catalog.members entry.1, blob ∈ input.unreachable := by
    by_contra hnone
    push Not at hnone
    refine hlive ⟨?_, (card_livePackMembers hnodup).mpr hnone⟩
    obtain ⟨blob, hmem⟩ := List.exists_mem_of_ne_nil _ hmembers
    rw [← Bool.not_eq_true, livePackMembers_all]
    exact fun hall => hnone blob hmem (hall blob hmem)
  have hdue : Due input entry.1 entry.2 ↔ Aged input entry.1 :=
    ⟨fun hd => hd.2.1, fun hage => ⟨hpublished, hage, hgone⟩⟩
  unfold classifyPackCandidate
  cases hall : (livePackMembers (input.catalog.members entry.1) input).2 with
  | true =>
    have hswept := livePackMembers_all.mp hall
    have hnoLive : ¬Repacks input entry.1 entry.2 := by
      rintro ⟨-, ⟨blob, hmem, hlive⟩, -⟩
      exact hlive (hswept blob hmem)
    by_cases hage : Aged input entry.1
    · refine ⟨.inl ⟨⟨hdue.mpr hage, hswept⟩, ?_⟩, .inr ⟨hnoLive, ?_⟩⟩ <;>
        simp [show timeSub input.now _ ≥ input.minAge from hage]
    · refine ⟨.inr ⟨fun hs => hage (hdue.mp hs.1), ?_⟩, .inr ⟨hnoLive, ?_⟩⟩ <;>
        simp [show ¬timeSub input.now _ ≥ input.minAge from hage]
  | false =>
    have hlive : ∃ blob ∈ input.catalog.members entry.1, blob ∉ input.unreachable := by
      rw [← Bool.not_eq_true, livePackMembers_all] at hall
      push Not at hall
      exact hall
    have hnoSweep : ¬Sweeps input entry.1 entry.2 := by
      rintro ⟨-, hswept⟩
      obtain ⟨blob, hmem, hlive⟩ := hlive
      exact hlive (hswept blob hmem)
    by_cases hready : Aged input entry.1 ∧ mixedPackRepackAllowed input entry.1 entry.2 = true
    · have hage : timeSub input.now _ ≥ input.minAge := hready.1
      refine ⟨.inr ⟨hnoSweep, ?_⟩, .inl ⟨⟨hdue.mpr hready.1, hlive, hready.2⟩, ?_⟩⟩ <;>
        simp [hage, hready.2]
    · have hno : ¬(timeSub input.now
          (packDiscoveredAt entry.1 (input.catalog.members entry.1) input) ≥ input.minAge ∧
          mixedPackRepackAllowed input entry.1 entry.2 = true) := hready
      refine ⟨.inr ⟨hnoSweep, ?_⟩,
        .inr ⟨fun hr => hready ⟨hdue.mp hr.1, hr.2.2⟩, ?_⟩⟩ <;>
        simp [hno]

/-- A table that takes up the packs of a list one by one. -/
theorem mem_scheduled_cons {α : Type} {before after : Table ID α} {value : α} {pack : ID}
    {P : ID → PackRecord → Prop} {entry : ID × PackRecord} {rest : List (ID × PackRecord)}
    (h : P entry.1 entry.2 ∧ after = before.insert entry.1 value ∨
      ¬P entry.1 entry.2 ∧ after = before) :
    (pack ∈ after ∨ ∃ record, (pack, record) ∈ rest ∧ P pack record) ↔
      pack ∈ before ∨ ∃ record, (pack, record) ∈ entry :: rest ∧ P pack record := by
  obtain ⟨first, record⟩ := entry
  simp only [List.mem_cons, Prod.mk.injEq, or_and_right, exists_or, and_assoc, exists_and_left,
    exists_eq_left]
  rcases h with ⟨hp, rfl⟩ | ⟨hp, rfl⟩
  · have hfirst : pack = first ∧ P pack record ↔ pack = first :=
      and_iff_left_of_imp fun heq => heq ▸ hp
    rw [AList.mem_insert, hfirst, or_assoc, or_left_comm]
  · have hfirst : ¬(pack = first ∧ P pack record) := fun ⟨heq, hpack⟩ => hp (heq ▸ hpack)
    simp only [hfirst, false_or]

/-- The whole loop: which packs are scheduled, and what is recorded for them. -/
theorem foldlM_classifyPackEntry_spec {packs : List (ID × PackRecord)}
    (hnodup : ∀ pack, (input.catalog.members pack).Nodup)
    (h : packs.foldlM (classifyPackEntry input) result = .ok result') (pack : ID) :
    (pack ∈ result'.wholePacks ↔
      pack ∈ result.wholePacks ∨ ∃ record, (pack, record) ∈ packs ∧ Sweeps input pack record) ∧
    (pack ∈ result'.mixedPacks ↔
      pack ∈ result.mixedPacks ∨ ∃ record, (pack, record) ∈ packs ∧ Repacks input pack record) ∧
    ∀ keep, result'.mixedPacks.lookup pack = some keep →
      result.mixedPacks.lookup pack = some keep ∨
        keep = (livePackMembers (input.catalog.members pack) input).1 := by
  induction packs generalizing result with
  | nil =>
    cases h
    exact ⟨by simp, by simp, fun _ hlook => .inl hlook⟩
  | cons entry rest ih =>
    obtain ⟨next, hnext, h⟩ := of_bind h
    obtain ⟨hwhole, hmixed, hkeep⟩ := ih h
    obtain ⟨hsweep, hrepack⟩ := classifyPackEntry_spec (hnodup entry.1) hnext
    refine ⟨hwhole.trans (mem_scheduled_cons hsweep), hmixed.trans (mem_scheduled_cons hrepack), ?_⟩
    · intro keep hlook
      rcases hkeep keep hlook with hold | hlive
      · rcases hrepack with ⟨-, heq⟩ | ⟨-, heq⟩ <;> rw [heq] at hold
        · by_cases hpack : pack = entry.1
          · subst hpack
            rw [AList.lookup_insert] at hold
            exact .inr (Option.some.inj hold).symm
          · rw [AList.lookup_insert_ne hpack] at hold
            exact .inl hold
        · exact .inl hold
      · exact .inr hlive

end Classification

/-! ## The plan -/

/-- The packs that staged journals protect at planning. -/
def stagedPacks (env : GCEnv) : Finset ID :=
  match env.stagedRoots with
  | some (.ok staged) => staged
  | _ => ∅

/-- The catalog puts the pack up for sweeping or repacking in this pass. -/
def UpForCollection (env : GCEnv) (opts : GCOptions) (store : SchemaStore) (pack : ID) : Prop :=
  opts.discoverOnly = false ∧ pack ∉ stagedPacks env ∧
    ∃ input record, classificationInput env opts store = .ok input ∧
      store.lookup (.pack pack) = some (.pack record) ∧
      (Sweeps input pack record ∨ Repacks input pack record)

variable {reached : Finset BlobHandle}

theorem mem_unreachableBlobs {blobTypes : Table ID BlobType} {referenced : List ID} {blob : ID} :
    blob ∈ unreachableBlobs blobTypes reached referenced ↔
      ∃ type, blobTypes.lookup blob = some type ∧
        isUnreachable reached referenced blob type = true := by
  unfold unreachableBlobs
  rw [List.mem_toFinset, Table.mem_scan]
  constructor
  · rintro ⟨found, type, hlook, hselect⟩
    split at hselect
    · rename_i hunreachable
      cases hselect
      exact ⟨type, hlook, hunreachable⟩
    · cases hselect
  · rintro ⟨type, hlook, hunreachable⟩
    exact ⟨blob, type, hlook, if_pos hunreachable⟩

variable {env : GCEnv} {opts : GCOptions}

variable {input : ClassificationInput} {store : SchemaStore}

/-- What the classification is given, in terms of the store and the walk. -/
theorem classificationInput_spec (h : classificationInput env opts store = .ok input) :
    scanPacks store = .ok input.packs ∧ scanBlobCatalog store = .ok input.catalog ∧
      ∃ reached, env.walk = .ok reached ∧
        input.unreachable = unreachableBlobs input.catalog.blobTypes reached
          (scanReferencedDataBlobs store) ∧
        loadExistingGCTimestamps store = .ok input.existing ∧ input.now = env.now ∧
        input.minAge = opts.minCandidateAge := by
  obtain ⟨packs, hpacks, h⟩ := of_bind h
  obtain ⟨catalog, hcatalog, h⟩ := of_bind h
  obtain ⟨reached, hreached, h⟩ := of_bind h
  obtain ⟨existing, hexisting, h⟩ := of_bind h
  obtain ⟨placements, -, h⟩ := of_bind h
  obtain ⟨model, -, h⟩ := of_bind h
  cases h
  exact ⟨hpacks, hcatalog, reached, hreached, rfl, hexisting, rfl, rfl⟩

variable {handle : BlobHandle}

/-- A reached handle whose type the scan kept is not unreachable. -/
theorem not_unreachable_of_reached (hinput : classificationInput env opts store = .ok input)
    (hwalk : ∀ walked, env.walk = .ok walked → walked = reached) (hreached : handle ∈ reached)
    (htype : scannedType store handle.id = some handle.type) : handle.id ∉ input.unreachable := by
  obtain ⟨-, hcatalog, reached', hwalk', hunreachable, -⟩ := classificationInput_spec hinput
  obtain rfl : reached' = reached := hwalk reached' hwalk'
  rw [hunreachable, mem_unreachableBlobs]
  rintro ⟨type, hlook, hgone⟩
  rw [(scanBlobCatalog_spec hcatalog).2.2, htype] at hlook
  cases hlook
  simp [isUnreachable, hreached] at hgone

theorem lookup_unstaged {ν : Type} (staged : Finset ID) (table : Table ID ν) (pack : ID) :
    (unstaged staged table).lookup pack =
      if pack ∈ staged then none else table.lookup pack := by
  unfold unstaged
  rw [Table.lookup_deleteAll]
  by_cases hstaged : pack ∈ staged
  · by_cases hkey : pack ∈ table.keys
    · simp [hstaged, hkey]
    · have hnone : table.lookup pack = none := AList.lookup_eq_none.mpr hkey
      simp [hstaged, hnone]
  · simp [hstaged]

/-- Staged packs leave every table of the plan; the others stay as they were. -/
theorem excludeStagedRoots_spec {plan plan' : GCPlan}
    (h : plan.excludeStagedRoots env.stagedRoots = .ok plan') (pack : ID) :
    plan'.wholePacks.lookup pack =
        (if pack ∈ stagedPacks env then none else plan.wholePacks.lookup pack) ∧
      plan'.mixedPacks.lookup pack =
        (if pack ∈ stagedPacks env then none else plan.mixedPacks.lookup pack) ∧
      plan'.retryPacks.lookup pack =
        (if pack ∈ stagedPacks env then none else plan.retryPacks.lookup pack) := by
  unfold GCPlan.excludeStagedRoots at h
  unfold stagedPacks
  split at h
  · rename_i hnone
    cases h
    simp [hnone]
  · cases h
  · rename_i staged hstaged
    cases h
    rw [hstaged]
    exact ⟨lookup_unstaged _ _ _, lookup_unstaged _ _ _, lookup_unstaged _ _ _⟩

variable {plan : GCPlan}

/-- The plan `PlanGC` returns is the one it decided on, up to a statistic. -/
theorem decideGC_of_planGC (h : (planGC env opts store).1 = .ok plan) :
    ∃ decision, decideGC env opts store = .ok decision ∧
      plan = { decision.plan with stats := plan.stats } := by
  unfold planGC at h
  split at h
  · cases h
  rename_i decision hdecision
  refine ⟨decision, hdecision, ?_⟩
  split at h
  · cases h
    rfl
  split at h
  · cases h
  split at h
  · cases h
  · cases h
    rfl

/-- The store after planning: the one before, or with the bookkeeping and the usage of a
decision. -/
theorem store_planGC (env : GCEnv) (opts : GCOptions) (store : SchemaStore) :
    (planGC env opts store).2 = store ∨ ∃ decision, decideGC env opts store = .ok decision ∧
      (planGC env opts store).2 = (updatePackUsage env.limits env.now 0
        (store.putAll decision.puts) decision.usage).2 := by
  unfold planGC
  split
  · exact .inl rfl
  rename_i decision hdecision
  split
  · exact .inl rfl
  split
  · exact .inl rfl
  refine .inr ⟨decision, hdecision, ?_⟩
  split <;> rename_i hrun <;> rw [hrun]

/-- A discovering pass schedules nothing. -/
theorem planGC_discoverOnly
    (hopts : opts.discoverOnly = true) (h : (planGC env opts store).1 = .ok plan) :
    plan.wholePacks = ∅ ∧ plan.mixedPacks = ∅ := by
  obtain ⟨decision, hdecision, hplan⟩ := decideGC_of_planGC h
  obtain ⟨-, -, hdecision⟩ := of_bind hdecision
  rw [if_pos hopts] at hdecision
  obtain ⟨packs, -, hdecision⟩ := of_bind hdecision
  obtain ⟨catalog, -, hdecision⟩ := of_bind hdecision
  obtain ⟨existing, -, hdecision⟩ := of_bind hdecision
  obtain ⟨puts, -, hdecision⟩ := of_bind hdecision
  cases hdecision
  rw [hplan]
  exact ⟨rfl, rfl⟩

/-- What a sweeping pass schedules, by what the catalog said before it. -/
theorem planGC_schedule (hopts : opts.discoverOnly = false)
    (h : (planGC env opts store).1 = .ok plan) :
    ∃ input, classificationInput env opts store = .ok input ∧ ∀ pack,
      (pack ∈ plan.wholePacks ↔ pack ∉ stagedPacks env ∧
        ∃ record, store.lookup (.pack pack) = some (.pack record) ∧ Sweeps input pack record) ∧
      (pack ∈ plan.mixedPacks ↔ pack ∉ stagedPacks env ∧
        ∃ record, store.lookup (.pack pack) = some (.pack record) ∧ Repacks input pack record) ∧
      ∀ keep, plan.mixedPacks.lookup pack = some keep →
        keep = (livePackMembers (input.catalog.members pack) input).1 := by
  obtain ⟨decision, hdecision, hplan⟩ := decideGC_of_planGC h
  obtain ⟨-, -, hdecision⟩ := of_bind hdecision
  rw [if_neg (by simp [hopts])] at hdecision
  obtain ⟨input, hinput, hdecision⟩ := of_bind hdecision
  obtain ⟨result, hresult, hdecision⟩ := of_bind hdecision
  obtain ⟨unstagedPlan, hexclude, hdecision⟩ := of_bind hdecision
  cases hdecision
  refine ⟨input, hinput, fun pack => ?_⟩
  obtain ⟨hpacks, hcatalog, -⟩ := classificationInput_spec hinput
  obtain ⟨hwhole, hmixed, hkeep⟩ :=
    foldlM_classifyPackEntry_spec (scanBlobCatalog_spec hcatalog).1 hresult pack
  obtain ⟨hwhole', hmixed', -⟩ := excludeStagedRoots_spec hexclude pack
  simp only [mem_scanPacks hpacks] at hwhole hmixed
  rw [hplan]
  simp only [← AList.lookup_isSome] at hwhole hmixed ⊢
  by_cases hstaged : pack ∈ stagedPacks env
  · simp [hwhole', hmixed', hstaged]
  simp only [hstaged, if_false] at hwhole' hmixed'
  refine ⟨?_, ?_, ?_⟩
  · rw [hwhole', hwhole]
    simp [hstaged]
  · rw [hmixed', hmixed]
    simp [hstaged]
  intro keep hlook
  rw [hmixed'] at hlook
  rcases hkeep keep hlook with hnone | hlive
  · simp at hnone
  · exact hlive

/-- The plan retains every reached handle in every published pack that holds it. -/
def RetainsReached (store : SchemaStore) (reached : Finset BlobHandle) (plan : GCPlan) : Prop :=
  ∀ handle ∈ reached, ∀ pack, Located store handle pack →
    lifecycleOf store pack = some .published →
      pack ∉ plan.wholePacks ∧ ∀ keep, plan.mixedPacks.lookup pack = some keep → handle ∈ keep

/-- For every reached handle in a published pack, the scan kept the handle's own
type or the pack is not up for collection. -/
def ReachedTypesScanned (env : GCEnv) (opts : GCOptions) (store : SchemaStore)
    (reached : Finset BlobHandle) : Prop :=
  ∀ handle ∈ reached, ∀ pack, Located store handle pack →
    lifecycleOf store pack = some .published →
      scannedType store handle.id = some handle.type ∨ ¬UpForCollection env opts store pack

/-- One reached handle in one pack: the plan retains it exactly when the scan kept
its type or the pack is not up for collection. -/
theorem planGC_retains_handle_iff (hwalk : ∀ walked, env.walk = .ok walked → walked = reached)
    (hplan : (planGC env opts store).1 = .ok plan) (hreached : handle ∈ reached) {pack : ID}
    (hlocated : Located store handle pack) :
    (pack ∉ plan.wholePacks ∧
        ∀ keep, plan.mixedPacks.lookup pack = some keep → handle ∈ keep) ↔
      (scannedType store handle.id = some handle.type ∨
        ¬UpForCollection env opts store pack) := by
  cases hopts : opts.discoverOnly with
  | true =>
    obtain ⟨hwhole, hmixed⟩ := planGC_discoverOnly hopts hplan
    simp [hwhole, hmixed, UpForCollection, hopts]
  | false =>
    obtain ⟨input, hinput, hschedule⟩ := planGC_schedule hopts hplan
    obtain ⟨hwhole, hmixed, hkeep⟩ := hschedule pack
    obtain ⟨-, hmembers, htypes⟩ := scanBlobCatalog_spec (classificationInput_spec hinput).2.1
    have hmember : handle.id ∈ input.catalog.members pack :=
      (hmembers _ _).mpr ⟨handle.type, hlocated⟩
    have hup : UpForCollection env opts store pack ↔
        pack ∈ plan.wholePacks ∨ pack ∈ plan.mixedPacks := by
      rw [hwhole, hmixed]
      constructor
      · rintro ⟨-, hstaged, input', record, hinput', hrecord, hs | hr⟩ <;>
          obtain rfl : input' = input := Except.ok.inj (hinput'.symm.trans hinput)
        · exact .inl ⟨hstaged, record, hrecord, hs⟩
        · exact .inr ⟨hstaged, record, hrecord, hr⟩
      · rintro (⟨hstaged, record, hrecord, hs⟩ | ⟨hstaged, record, hrecord, hr⟩)
        · exact ⟨hopts, hstaged, input, record, hinput, hrecord, .inl hs⟩
        · exact ⟨hopts, hstaged, input, record, hinput, hrecord, .inr hr⟩
    rw [hup]
    by_cases htype : scannedType store handle.id = some handle.type
    · have hlive := not_unreachable_of_reached hinput hwalk hreached htype
      simp only [htype, true_or, iff_true]
      constructor
      · rw [hwhole]
        rintro ⟨-, record, -, -, hall⟩
        exact hlive (hall _ hmember)
      · intro keep hlook
        rw [hkeep keep hlook, mem_livePackMembers, htypes, htype]
        exact ⟨hmember, hlive, rfl⟩
    · simp only [htype, false_or, not_or]
      refine and_congr_right fun _ => ?_
      constructor
      · intro hall hmem
        obtain ⟨keep, hlook⟩ := Table.mem_iff_lookup.mp hmem
        have hin := hall keep hlook
        rw [hkeep keep hlook, mem_livePackMembers, htypes] at hin
        -- The scan kept the other type, so the keep set names the other handle.
        obtain ⟨type, hscanned⟩ := exists_scannedType_of_located hlocated
        rw [hscanned, Option.getD_some] at hin
        exact htype (by rw [hscanned, hin.2.2])
      · intro hnot keep hlook
        exact absurd (Table.mem_iff_lookup.mpr ⟨_, hlook⟩) hnot

/-- Planning keeps what the retained snapshots reach exactly when the one type kept
for each blob is the reached one, wherever a pack is up for collection. -/
theorem planGC_retains_reached_iff (env : GCEnv) (opts : GCOptions) (store : SchemaStore)
    (reached : Finset BlobHandle) (plan : GCPlan) (hwalk : env.walk = .ok reached)
    (hplan : (planGC env opts store).1 = .ok plan) :
    RetainsReached store reached plan ↔ ReachedTypesScanned env opts store reached := by
  have hwalked : ∀ walked, env.walk = .ok walked → walked = reached :=
    fun walked h => Except.ok.inj (h.symm.trans hwalk)
  refine forall₂_congr fun handle hreached => forall₃_congr fun pack hlocated _ => ?_
  exact planGC_retains_handle_iff hwalked hplan hreached hlocated

/-- One identifier stored as data in pack 10 and, scanned later, as a tree in
pack 20. -/
def sharedIDStore : SchemaStore :=
  (∅ : SchemaStore).putAll
    [(.blob 1, .blob
        ⟨[{ packID := 10, offset := 0, length := 5, uncompressedSize := 0, type := .data },
          { packID := 20, offset := 0, length := 7, uncompressedSize := 0, type := .tree }]⟩),
      (.pack 10, .pack { type := .data, lifecycle := .published }),
      (.pack 20, .pack { type := .tree, lifecycle := .published })]

/-- A pass in which the snapshots reach the data blob. -/
def sharedIDEnv : GCEnv :=
  { limits := ⟨1000, 1048576⟩, now := 0, runID := 0, walk := .ok {⟨1, .data⟩} }

theorem planGC_retains_reached_iff_sharedID :
    ∃ plan, (planGC sharedIDEnv {} sharedIDStore).1 = .ok plan ∧
      (RetainsReached sharedIDStore {⟨1, .data⟩} plan ↔
        ReachedTypesScanned sharedIDEnv {} sharedIDStore {⟨1, .data⟩}) := by
  have hrun : okAnd (planGC sharedIDEnv {} sharedIDStore).1 (fun _ => true) = true := by
    decide +kernel
  obtain ⟨plan, hplan, -⟩ := okAnd_eq_true.mp hrun
  exact ⟨plan, hplan, planGC_retains_reached_iff _ _ _ _ plan rfl hplan⟩

/-- Pack 10 is swept although the snapshots reach the data blob it holds. -/
theorem planGC_sweeps_reached_sharedID :
    ∃ plan, (planGC sharedIDEnv {} sharedIDStore).1 = .ok plan ∧
      ¬RetainsReached sharedIDStore {⟨1, .data⟩} plan := by
  have hrun : okAnd (planGC sharedIDEnv {} sharedIDStore).1
      (fun plan => decide (10 ∈ plan.wholePacks)) = true := by
    decide +kernel
  obtain ⟨plan, hplan, hswept⟩ := okAnd_eq_true.mp hrun
  refine ⟨plan, hplan, fun hretains => ?_⟩
  have hlocated : Located sharedIDStore ⟨1, .data⟩ 10 := ⟨_, rfl, by decide⟩
  exact (hretains ⟨1, .data⟩ (Finset.mem_singleton_self _) 10 hlocated rfl).1
    (of_decide_eq_true hswept)

end Vaultic.Repository
