/-
  Repository/GC/CandidateAge.lean  —  how long a scheduled blob has been a candidate.

  Source: internal/repository/gc.go (`PlanGC`, `classifyPacksWithPlacement`,
  `packDiscoveredAt`, `discoverOnly`).

  A pass schedules a pack once its oldest timestamp is old enough: that of the pack or
  that of one of its unreachable members.  Planning never removes a timestamp, neither
  when the blobs are reachable again nor when other members become unreachable.  So the
  timestamp speaks for all unreachable members only while the set of them does not grow
  (`schedulesAged_of_settled`); otherwise a pack is swept right after a member was last
  in use (`scheduled_in_use_before`).
-/
import Vaultic.Repository.GC.Run

set_option autoImplicit false

namespace Vaultic.Repository

open Vaultic.Lib Vaultic.Schema Vaultic.Daemon

/-! ## What a pass observes -/

/-- What a pass finds: its time, the members of the packs, and the blobs it classes as
unreachable. -/
structure Observation where
  time : Int
  catalog : BlobCatalog
  unreachable : Finset ID

/-- The blob is a member of the pack that the pass classes as unreachable. -/
def Observation.Dead (observed : Observation) (pack blob : ID) : Prop :=
  blob ∈ observed.catalog.members pack ∧ blob ∈ observed.unreachable

instance (observed : Observation) (pack blob : ID) : Decidable (observed.Dead pack blob) :=
  inferInstanceAs (Decidable (_ ∧ _))

/-- What `PlanGC` classes as unreachable, if it comes that far.  A discovering pass
classes data blobs only, by their reverse references. -/
def classify (env : GCEnv) (opts : GCOptions) (store : SchemaStore) :
    Result Observation := do
  validateGCRepository env
  let _ ← scanPacks store
  let catalog ← scanBlobCatalog store
  if opts.discoverOnly then
    let _ ← loadExistingGCTimestamps store
    .ok ⟨env.now, catalog,
      (discoverCandidates catalog.blobTypes (scanReferencedDataBlobs store)).toFinset⟩
  else
    let reached ← env.walk
    .ok ⟨env.now, catalog,
      unreachableBlobs catalog.blobTypes reached (scanReferencedDataBlobs store)⟩

def observe (env : GCEnv) (opts : GCOptions) (store : SchemaStore) : Option Observation :=
  (classify env opts store).toOption

/-- Every pass since some pass not after the limit classed the blob as unreachable.  The
latest pass comes first. -/
def UnreachableSince (blob : ID) (limit : Int) : List Observation → Prop
  | [] => False
  | latest :: earlier =>
    blob ∈ latest.unreachable ∧ (latest.time ≤ limit ∨ UnreachableSince blob limit earlier)

instance decidableUnreachableSince (blob : ID) (limit : Int) :
    (history : List Observation) → Decidable (UnreachableSince blob limit history)
  | [] => .isFalse id
  | latest :: earlier =>
    have := decidableUnreachableSince blob limit earlier
    inferInstanceAs (Decidable (blob ∈ latest.unreachable ∧ (latest.time ≤ limit ∨ _)))

/-! ## Timestamps -/

/-- The timestamp stored for a pack or a blob. -/
def recordedAt (store : SchemaStore) (target : GCTarget) (id : ID) : Option Int :=
  match store.lookup (.garbageCollection target id) with
  | some (.garbageCollection record) => some record.discoveredUnixNano
  | _ => none

/-- A timestamp that the pass takes into account for the pack: its own, or that of an
unreachable member. -/
def StampedAt (store : SchemaStore) (observed : Observation) (pack : ID) (time : Int) : Prop :=
  recordedAt store .pack pack = some time ∨
    ∃ blob, observed.Dead pack blob ∧ recordedAt store .blob blob = some time

/-- The pack or one of its unreachable members has a timestamp. -/
def Stamped (store : SchemaStore) (observed : Observation) (pack : ID) : Prop :=
  (recordedAt store .pack pack).isSome = true ∨
    ∃ blob ∈ observed.catalog.members pack,
      blob ∈ observed.unreachable ∧ (recordedAt store .blob blob).isSome = true

instance (store : SchemaStore) (observed : Observation) (pack : ID) :
    Decidable (Stamped store observed pack) :=
  have := List.decidableBEx (fun blob => blob ∈ observed.unreachable ∧
    (recordedAt store .blob blob).isSome = true) (observed.catalog.members pack)
  inferInstanceAs (Decidable (_ ∨ _))

variable {observed : Observation} {store : SchemaStore}

theorem StampedAt.stamped {pack : ID} {time : Int}
    (h : StampedAt store observed pack time) : Stamped store observed pack := by
  rcases h with hpack | ⟨blob, ⟨hmem, hdead⟩, hblob⟩
  · exact .inl (Option.isSome_of_eq_some hpack)
  · exact .inr ⟨blob, hmem, hdead, Option.isSome_of_eq_some hblob⟩

/-! ## Runs of passes -/

/-- A change of the store between two passes.  It records no garbage collection candidate;
it may drop the records of some, as the completed deletion of a pack does. -/
structure CatalogEdit where
  puts : List Mutation
  deletes : List Key
  notRecorded : ∀ put ∈ puts, ∀ target id, put.1 ≠ .garbageCollection target id

inductive CandidateStep where
  | pass (env : GCEnv) (opts : GCOptions)
  | change (edit : CatalogEdit)

/-- The store, and what the passes so far have observed, the latest first. -/
structure Observed where
  store : SchemaStore
  history : List Observation := []

def candidateStep (state : Observed) : CandidateStep → Observed
  | .pass env opts =>
    { store := (planGC env opts state.store).2
      history := (observe env opts state.store).toList ++ state.history }
  | .change edit =>
    { state with store := (state.store.putAll edit.puts).deleteAll edit.deletes }

/-- All unreachable members of the pack have a property. -/
def Observation.AllDead (observed : Observation) (pack : ID) (holds : ID → Prop) : Prop :=
  ∀ blob ∈ observed.catalog.members pack, blob ∈ observed.unreachable → holds blob

-- The quantifiers below range over lists; IDs are too many to be enumerated.
instance (observed : Observation) (pack : ID) (holds : ID → Prop) [DecidablePred holds] :
    Decidable (observed.AllDead pack holds) :=
  List.decidableBAll (fun blob => blob ∈ observed.unreachable → holds blob) _

/-- The pass schedules packs whose unreachable members were all classed as unreachable by
every pass since one at least the minimum age ago. -/
def schedulesAged (state : Observed) : CandidateStep → Prop
  | .pass env opts =>
    ∀ plan ∈ (planGC env opts state.store).1.toOption,
      ∃ observed ∈ observe env opts state.store,
        ∀ pack ∈ plan.wholePacks.keys ++ plan.mixedPacks.keys,
          observed.AllDead pack fun blob =>
            UnreachableSince blob (env.now - opts.minCandidateAge) (observed :: state.history)
  | .change _ => True

instance (state : Observed) : (action : CandidateStep) → Decidable (schedulesAged state action)
  | .pass env opts =>
    have (plan : GCPlan) (observed : Observation) :=
      List.decidableBAll (fun pack => observed.AllDead pack fun blob =>
          UnreachableSince blob (env.now - opts.minCandidateAge) (observed :: state.history))
        (plan.wholePacks.keys ++ plan.mixedPacks.keys)
    inferInstanceAs (Decidable (∀ plan ∈ (planGC env opts state.store).1.toOption, _))
  | .change _ => .isTrue trivial

/-- The latest pass classed the blob as unreachable and found it in the pack. -/
def DeadBefore (pack blob : ID) : List Observation → Prop
  | [] => False
  | latest :: _ => latest.Dead pack blob

instance (pack blob : ID) :
    (history : List Observation) → Decidable (DeadBefore pack blob history)
  | [] => .isFalse id
  | latest :: _ => inferInstanceAs (Decidable (latest.Dead pack blob))

/-- Where the pack or one of its unreachable members has a timestamp, all of its unreachable
members were unreachable members at the pass before. -/
def settled (state : Observed) : CandidateStep → Prop
  | .pass env opts =>
    ∀ observed ∈ observe env opts state.store,
      ∀ pack ∈ observed.catalog.packMembers.keys, Stamped state.store observed pack →
        observed.AllDead pack fun blob => DeadBefore pack blob state.history
  | .change _ => True

instance (state : Observed) : (action : CandidateStep) → Decidable (settled state action)
  | .pass env opts =>
    have (observed : Observation) :=
      List.decidableBAll (fun pack => Stamped state.store observed pack →
          observed.AllDead pack fun blob => DeadBefore pack blob state.history)
        observed.catalog.packMembers.keys
    inferInstanceAs (Decidable (∀ observed ∈ observe env opts state.store, _))
  | .change _ => .isTrue trivial

/-! ## What the timestamps are read and written as -/

theorem UnreachableSince.mono {blob : ID} {limit limit' : Int} (hle : limit ≤ limit')
    {history : List Observation} (h : UnreachableSince blob limit history) :
    UnreachableSince blob limit' history := by
  induction history with
  | nil => exact h
  | cons latest earlier ih =>
    obtain ⟨hdead, htime | hearlier⟩ := h
    · exact ⟨hdead, .inl (htime.trans hle)⟩
    · exact ⟨hdead, .inr (ih hearlier)⟩

variable {target : GCTarget} {record : GarbageCollectionRecord} {id : ID}

theorem recordedAt_of_lookup
    (h : store.lookup (.garbageCollection target id) = some (.garbageCollection record)) :
    recordedAt store target id = some record.discoveredUnixNano := by
  unfold recordedAt
  rw [h]

theorem recordedAt_congr {store store' : SchemaStore}
    (h : store'.lookup (.garbageCollection target id) =
      store.lookup (.garbageCollection target id)) :
    recordedAt store' target id = recordedAt store target id := by
  unfold recordedAt
  rw [h]

/-- The timestamps that `PlanGC` loads are those stored. -/
theorem recordedAt_of_existing {existing : List ((GCTarget × ID) × GarbageCollectionRecord)}
    (hload : loadExistingGCTimestamps store = .ok existing)
    (h : existing.lookup (target, id) = some record) :
    recordedAt store target id = some record.discoveredUnixNano := by
  have hmem : ((target, id), record) ∈ existing := by
    obtain ⟨before, after, rfl, -⟩ := List.lookup_eq_some_iff.mp h
    simp
  obtain ⟨key, value, hlookup, hselect, hdecoded⟩ := (Table.mem_of_collectBy hload).mp hmem
  obtain ⟨-, hview, -⟩ := decode_eq_ok.mp hdecoded
  cases key <;> cases hselect
  cases value <;> cases hview
  exact recordedAt_of_lookup hlookup

variable {input : ClassificationInput}

/-- A classified pack is discovered now, or at a timestamp stored for it or for one of its
unreachable members. -/
theorem packDiscoveredAt_cases
    (hload : loadExistingGCTimestamps store = .ok input.existing) (time : Int) (pack : ID) :
    packDiscoveredAt pack (input.catalog.members pack) input = input.now ∨
      StampedAt store ⟨time, input.catalog, input.unreachable⟩ pack
        (packDiscoveredAt pack (input.catalog.members pack) input) := by
  -- The fold over the unreachable members keeps one of the timestamps it has seen.
  apply List.foldlRecOn (motive := fun discovered => discovered = input.now ∨
    StampedAt store ⟨time, input.catalog, input.unreachable⟩ pack discovered)
  · cases hfound : input.existing.lookup (.pack, pack) with
    | none =>
      unfold discoveredBefore
      rw [hfound]
      exact .inl rfl
    | some record =>
      unfold discoveredBefore
      rw [hfound]
      exact .inr (.inl (recordedAt_of_existing hload hfound))
  · intro discovered hseen blob hblob
    obtain ⟨hmem, hdead⟩ := List.mem_filter.mp hblob
    split
    · rename_i candidate hcandidate
      split
      · obtain ⟨record, hfound, rfl⟩ := Option.map_eq_some_iff.mp hcandidate
        exact .inr (.inr ⟨blob, ⟨hmem, of_decide_eq_true hdead⟩,
          recordedAt_of_existing hload hfound⟩)
      · exact hseen
    · exact hseen

/-! ## One pass -/

section Pass

variable {env : GCEnv} {opts : GCOptions} {store : SchemaStore}

/-- A pass that classifies packs observes what the classification is given. -/
theorem observe_of_classificationInput
    (hvalid : validateGCRepository env = .ok ()) (hopts : opts.discoverOnly = false)
    (h : classificationInput env opts store = .ok input) :
    observe env opts store = some ⟨env.now, input.catalog, input.unreachable⟩ ∧
      loadExistingGCTimestamps store = .ok input.existing ∧ input.now = env.now ∧
      input.minAge = opts.minCandidateAge := by
  obtain ⟨hpacks, hcatalog, reached, hreached, hunreachable, hrest⟩ := classificationInput_spec h
  have hclassify : classify env opts store = .ok ⟨env.now, input.catalog, input.unreachable⟩ := by
    unfold classify
    rw [hvalid, hpacks, hcatalog, hreached, hopts, hunreachable]
    rfl
  unfold observe
  rw [hclassify]
  exact ⟨rfl, hrest⟩

/-- A discovering pass that comes to a decision has observed the blobs. -/
theorem observe_of_discoverOnly {decision : GCDecision} (hopts : opts.discoverOnly = true)
    (h : decideGC env opts store = .ok decision) :
    ∃ observed, observe env opts store = some observed ∧ observed.time = env.now := by
  obtain ⟨_, hvalid, h⟩ := of_bind h
  rw [if_pos hopts] at h
  obtain ⟨packs, hpacks, h⟩ := of_bind h
  obtain ⟨catalog, hcatalog, h⟩ := of_bind h
  obtain ⟨existing, hexisting, -⟩ := of_bind h
  have hclassify : classify env opts store = .ok ⟨env.now, catalog,
      (discoverCandidates catalog.blobTypes (scanReferencedDataBlobs store)).toFinset⟩ := by
    unfold classify
    rw [hvalid, hpacks, hcatalog, hexisting, hopts]
    rfl
  unfold observe
  rw [hclassify]
  exact ⟨_, rfl, rfl⟩

/-- After a pass, the bookkeeping is as before or with the puts of its decision. -/
theorem lookup_bookkeeping_planGC (env : GCEnv) (opts : GCOptions) (store : SchemaStore)
    (target : GCTarget) (id : ID) :
    (planGC env opts store).2.lookup (.garbageCollection target id) =
        store.lookup (.garbageCollection target id) ∨
      ∃ decision, decideGC env opts store = .ok decision ∧
        (planGC env opts store).2.lookup (.garbageCollection target id) =
          (store.putAll decision.puts).lookup (.garbageCollection target id) := by
  obtain hsame | ⟨decision, hdecision, hafter⟩ := store_planGC env opts store
  · exact .inl (by rw [hsame])
  · rw [hafter]
    exact .inr ⟨decision, hdecision, lookup_updatePackUsage rfl _ _⟩

variable {time : Int} {target : GCTarget}

/-- A timestamp after a pass was there before, or is the time of the pass, or was taken over
for the pack from the timestamps that the pass takes into account. -/
theorem recordedAt_planGC (h : recordedAt (planGC env opts store).2 target id = some time) :
    recordedAt store target id = some time ∨
      ∃ observed, observe env opts store = some observed ∧
        (time = observed.time ∨ target = .pack ∧ StampedAt store observed id time) := by
  obtain hold | ⟨decision, hdecision, hnew⟩ := lookup_bookkeeping_planGC env opts store target id
  · rw [recordedAt_congr hold] at h
    exact .inl h
  rw [recordedAt_congr hnew] at h
  obtain ⟨_, hvalid, -⟩ := of_bind hdecision
  cases hlookup : (store.putAll decision.puts).lookup (.garbageCollection target id) with
  | none =>
    unfold recordedAt at h
    rw [hlookup] at h
    cases h
  | some value =>
    obtain hput | ⟨-, hkept⟩ := Table.lookup_putAll_cases hlookup
    · rcases puts_decideGC hdecision with
        ⟨hopts, existing, hexisting, hputs⟩ | ⟨hopts, input, hinput, hputs⟩
      · obtain ⟨blob, record, heq, hdiscovered⟩ := hputs _ hput
        cases heq
        rw [recordedAt_of_lookup hlookup, hdiscovered] at h
        cases hfound : existing.lookup (.blob, id) with
        | none =>
          rw [hfound] at h
          obtain ⟨observed, hobserve, htime⟩ := observe_of_discoverOnly hopts hdecision
          exact .inr ⟨observed, hobserve, .inl (htime ▸ (Option.some.inj h).symm)⟩
        | some previous =>
          rw [hfound] at h
          exact .inl ((recordedAt_of_existing hexisting hfound).trans h)
      · obtain ⟨pack, record, heq, hdiscovered⟩ := hputs _ hput
        cases heq
        rw [recordedAt_of_lookup hlookup, hdiscovered] at h
        obtain rfl := Option.some.inj h
        obtain ⟨hobserve, hload, hnow, -⟩ := observe_of_classificationInput hvalid hopts hinput
        obtain hfresh | hstamped := packDiscoveredAt_cases hload env.now id
        · exact .inr ⟨_, hobserve, .inl (hfresh.trans hnow)⟩
        · exact .inr ⟨_, hobserve, .inr ⟨rfl, hstamped⟩⟩
    · rw [recordedAt_congr (hlookup.trans hkept.symm)] at h
      exact .inl h

/-- The timestamps that speak for a pack after a pass did so before, or are the time of the
pass. -/
theorem stampedAt_planGC {observed : Observation}
    (hobserve : observe env opts store = some observed) {pack : ID}
    (h : StampedAt (planGC env opts store).2 observed pack time) :
    StampedAt store observed pack time ∨ time = observed.time := by
  have hsame : ∀ {found}, observe env opts store = some found → found = observed := by
    intro found hfound
    exact Option.some.inj (hfound.symm.trans hobserve)
  rcases h with hpack | ⟨blob, hdead, hblob⟩
  · obtain hold | ⟨found, hfound, hnow | ⟨-, hstamped⟩⟩ := recordedAt_planGC hpack
    · exact .inl (.inl hold)
    · exact .inr (hsame hfound ▸ hnow)
    · exact .inl (hsame hfound ▸ hstamped)
  · obtain hold | ⟨found, hfound, hnow | ⟨hpack, -⟩⟩ := recordedAt_planGC hblob
    · exact .inl (.inr ⟨blob, hdead, hold⟩)
    · exact .inr (hsame hfound ▸ hnow)
    · cases hpack

/-- Without an observation nothing is decided, and nothing recorded. -/
theorem recordedAt_planGC_of_none (hobserve : observe env opts store = none)
    (h : recordedAt (planGC env opts store).2 target id = some time) :
    recordedAt store target id = some time := by
  obtain hold | ⟨found, hfound, -⟩ := recordedAt_planGC h
  · exact hold
  · rw [hobserve] at hfound
    cases hfound

/-- A pack is scheduled for an age that its timestamps, or the time of the pass, account for. -/
theorem discovered_of_scheduled {plan : GCPlan} (h : (planGC env opts store).1 = .ok plan) :
    ∃ observed, observe env opts store = some observed ∧ observed.time = env.now ∧
      ∀ pack, pack ∈ plan.wholePacks ∨ pack ∈ plan.mixedPacks →
        ∃ discovered, (discovered = observed.time ∨ StampedAt store observed pack discovered) ∧
          opts.minCandidateAge ≤ timeSub env.now discovered := by
  obtain ⟨decision, hdecision, -⟩ := decideGC_of_planGC h
  obtain ⟨_, hvalid, -⟩ := of_bind hdecision
  cases hopts : opts.discoverOnly with
  | true =>
    obtain ⟨observed, hobserve, htime⟩ := observe_of_discoverOnly hopts hdecision
    refine ⟨observed, hobserve, htime, ?_⟩
    intro pack hpack
    obtain ⟨hwhole, hmixed⟩ := planGC_discoverOnly hopts h
    rw [hwhole, hmixed] at hpack
    rcases hpack with hin | hin <;> exact absurd hin (AList.notMem_empty _)
  | false =>
    obtain ⟨input, hinput, hschedule⟩ := planGC_schedule hopts h
    obtain ⟨hobserve, hload, hnow, hage⟩ := observe_of_classificationInput hvalid hopts hinput
    refine ⟨_, hobserve, rfl, ?_⟩
    intro pack hpack
    have haged : Aged input pack := by
      obtain ⟨hwhole, hmixed, -⟩ := hschedule pack
      rw [hwhole, hmixed] at hpack
      rcases hpack with ⟨-, record, -, hdue, -⟩ | ⟨-, record, -, hdue, -⟩ <;> exact hdue.2.1
    have hold : opts.minCandidateAge ≤ timeSub env.now
        (packDiscoveredAt pack (input.catalog.members pack) input) := by
      rw [← hage, ← hnow]
      exact haged
    refine ⟨_, ?_, hold⟩
    obtain hfresh | hstamped := packDiscoveredAt_cases hload env.now pack
    · exact .inl (hfresh.trans hnow)
    · exact .inr hstamped

end Pass

/-! ## Runs -/

/-- Each timestamp that speaks for a pack is borne out by the passes: every member that the
latest pass classed as unreachable has been so since a pass not after the timestamp. -/
def BorneOut (state : Observed) : Prop :=
  ∀ latest ∈ state.history.head?, ∀ pack blob time, latest.Dead pack blob →
    StampedAt state.store latest pack time → UnreachableSince blob time state.history

theorem mem_packMembers_of_dead {pack blob : ID} (h : observed.Dead pack blob) :
    pack ∈ observed.catalog.packMembers.keys := by
  by_contra hnone
  have hlookup : observed.catalog.packMembers.lookup pack = none :=
    AList.lookup_eq_none.mpr hnone
  have hmem := h.1
  unfold BlobCatalog.members at hmem
  rw [hlookup] at hmem
  exact absurd hmem List.not_mem_nil

variable {state : Observed}

section

variable (h : BorneOut state)
include h

/-- A settled pass takes over only timestamps that the passes before have borne out. -/
theorem BorneOut.unreachableSince {env : GCEnv} {opts : GCOptions}
    (hsettled : settled state (.pass env opts))
    (hobserve : observe env opts state.store = some observed) {pack blob : ID} {time : Int}
    (hdead : observed.Dead pack blob)
    (hstamp : time = observed.time ∨ StampedAt state.store observed pack time) :
    UnreachableSince blob time (observed :: state.history) := by
  rcases hstamp with rfl | hstamped
  · exact ⟨hdead.2, .inl le_rfl⟩
  have hbefore : ∀ other, observed.Dead pack other → DeadBefore pack other state.history := by
    intro other hother
    exact hsettled observed hobserve pack (mem_packMembers_of_dead hdead) hstamped.stamped other
      hother.1 hother.2
  refine ⟨hdead.2, .inr ?_⟩
  cases hhistory : state.history with
  | nil =>
    have hnone := hbefore blob hdead
    rw [hhistory] at hnone
    exact hnone.elim
  | cons latest earlier =>
    rw [hhistory] at hbefore
    rw [← hhistory]
    apply h latest (by rw [hhistory]; rfl) pack blob time (hbefore blob hdead)
    rcases hstamped with hpack | ⟨other, hother, hblob⟩
    · exact .inl hpack
    · exact .inr ⟨other, hbefore other hother, hblob⟩

theorem BorneOut.pass {env : GCEnv} {opts : GCOptions} (hsettled : settled state (.pass env opts)) :
    BorneOut (candidateStep state (.pass env opts)) := by
  have hstep : candidateStep state (.pass env opts) =
      ⟨(planGC env opts state.store).2, (observe env opts state.store).toList ++ state.history⟩ :=
    rfl
  rw [hstep]
  cases hobserve : observe env opts state.store with
  | none =>
    intro latest hlatest pack blob time hdead hstamped
    apply h latest hlatest pack blob time hdead
    rcases hstamped with hpack | ⟨other, hother, hblob⟩
    · exact .inl (recordedAt_planGC_of_none hobserve hpack)
    · exact .inr ⟨other, hother, recordedAt_planGC_of_none hobserve hblob⟩
  | some observed =>
    intro latest hlatest pack blob time hdead hstamped
    obtain rfl : observed = latest := Option.some.inj hlatest
    apply h.unreachableSince hsettled hobserve hdead
    exact (stampedAt_planGC hobserve hstamped).symm

theorem BorneOut.change (edit : CatalogEdit) : BorneOut (candidateStep state (.change edit)) := by
  have hkept : ∀ {target id time},
      recordedAt ((state.store.putAll edit.puts).deleteAll edit.deletes) target id = some time →
      recordedAt state.store target id = some time := by
    intro target id time hrecorded
    have hputs : (state.store.putAll edit.puts).lookup (.garbageCollection target id) =
        state.store.lookup (.garbageCollection target id) :=
      Table.lookup_putAll_of_forall_ne fun put hput => edit.notRecorded put hput target id
    unfold recordedAt at hrecorded ⊢
    rw [Table.lookup_deleteAll, hputs] at hrecorded
    split_ifs at hrecorded
    exact hrecorded
  intro latest hlatest pack blob time hdead hstamped
  apply h latest hlatest pack blob time hdead
  rcases hstamped with hpack | ⟨other, hother, hblob⟩
  · exact .inl (hkept hpack)
  · exact .inr ⟨other, hother, hkept hblob⟩

theorem BorneOut.schedulesAged {action : CandidateStep}
    (hsettled : settled state action) : schedulesAged state action := by
  cases action with
  | change edit => trivial
  | pass env opts =>
    intro plan hplan
    have hrun : (planGC env opts state.store).1 = .ok plan := by
      cases hresult : (planGC env opts state.store).1 with
      | error message =>
        rw [hresult] at hplan
        cases hplan
      | ok found =>
        rw [hresult] at hplan
        cases hplan
        rfl
    obtain ⟨observed, hobserve, htime, hdiscovered⟩ := discovered_of_scheduled hrun
    refine ⟨observed, hobserve, ?_⟩
    intro pack hpack blob hmem hunreachable
    obtain ⟨discovered, hstamp, hage⟩ := hdiscovered pack (List.mem_append.mp hpack)
    -- Without a minimum age the pass itself is early enough.
    by_cases hpositive : opts.minCandidateAge ≤ 0
    · exact ⟨hunreachable, .inl (by omega)⟩
    have hsince := h.unreachableSince hsettled hobserve ⟨hmem, hunreachable⟩ hstamp
    apply hsince.mono
    unfold timeSub at hage
    omega

end

/-- In every run of passes and changes of the catalog in which no pass finds a newly
unreachable member in a pack with a timestamp, a pass schedules only packs whose unreachable
members were all classed as unreachable by every pass since one at least the minimum age
ago. -/
theorem schedulesAged_of_settled (store : SchemaStore) (actions : List CandidateStep)
    (h : Along candidateStep settled ⟨store, []⟩ actions) :
    Along candidateStep schedulesAged ⟨store, []⟩ actions := by
  apply h.of_invariant BorneOut
  · intro state action hsettled hborne
    refine ⟨hborne.schedulesAged hsettled, ?_⟩
    cases action with
    | pass env opts => exact hborne.pass hsettled
    | change edit => exact hborne.change edit
  · intro latest hlatest
    cases hlatest

/-- The store after a backup has published pack 10 with the data blob 1. -/
def agingStore : SchemaStore :=
  (step {} (sampleBackup 100 [(samplePack 10 1 .data .data, .done)])).store

/-- A pass with a minimum age of 50 at the given time, whose walk reaches the given blobs. -/
def agingPass (now : Int) (reached : Finset BlobHandle) : CandidateStep :=
  .pass { limits := sampleLimits, now, runID := 0, walk := .ok reached } { minCandidateAge := 50 }

/-- The pass schedules the pack for sweeping. -/
def sweeps (state : Observed) (pack : ID) : CandidateStep → Bool
  | .pass env opts => okAnd (planGC env opts state.store).1 fun plan => pack ∈ plan.wholePacks
  | .change _ => false

/-- A blob that is unreachable at 100 and at 160: the second pass sweeps its pack. -/
theorem schedulesAged_of_settled_swept :
    sweeps (candidateStep ⟨agingStore, []⟩ (agingPass 100 ∅)) 10 (agingPass 160 ∅) = true ∧
      Along candidateStep schedulesAged ⟨agingStore, []⟩ [agingPass 100 ∅, agingPass 160 ∅] :=
  ⟨by decide +kernel, schedulesAged_of_settled agingStore _ (by decide +kernel)⟩

/-- A blob that is unreachable at 100, in use at 120 and unreachable at 160: the third pass
sweeps its pack. -/
theorem scheduled_in_use_before :
    ¬ Along candidateStep schedulesAged ⟨agingStore, []⟩
      [agingPass 100 ∅, agingPass 120 {⟨1, .data⟩}, agingPass 160 ∅] := by
  decide +kernel

end Vaultic.Repository
