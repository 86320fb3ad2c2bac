/-
  Analytics/Delta.lean  —  the effect of the analytics outbox on the published facts.

  Source: internal/index/analytics/engine.go, analytics.go.

  A generation has at most one fact for each identity.  A batch of deltas is collected
  into the facts it changes: the first delta of an identity starts from the fact of the
  parent generation, the later ones from the fact collected so far.  `collectDeltaFacts_spec`
  says that this is the same as applying the deltas one after another to the facts.
-/
import Vaultic.Wire.Analytics
import Vaultic.Wire.Snapshots

set_option autoImplicit false

namespace Vaultic.Analytics

open Vaultic.Lib
open Vaultic.Wire

/-! ## Configuration -/

/-- `Config`, without the fields of the query cache. -/
structure Config where
  (svmDepth volumeDepth pathGroupDepth : Int := 0)
  pathGroupPrefixes : List Bytes := []
  segmentRows : Int := 0
  deriving DecidableEq, Repr

/-- A value, or the default for a field that is not set. -/
def orSet (value default : Int) : Int := if value = 0 then default else value

def Config.normalized (config : Config) : Config :=
  { config with
    svmDepth := orSet config.svmDepth 1
    volumeDepth := orSet config.volumeDepth 2
    pathGroupDepth := orSet config.pathGroupDepth 3
    segmentRows := orSet config.segmentRows 4096 }

/-- What a day and a week of the calendar are called. -/
structure CalendarDate where
  year : Int32
  month : UInt8
  isoYear : Int32
  week : UInt8

/-- Paths, time and JSON, from the standard library. -/
structure Host where
  decodeConfig : Bytes → Result Config
  encodeConfig : Config → Bytes
  /-- The date of a number of nanoseconds since the epoch. -/
  calendar : Int64 → CalendarDate
  clean : Bytes → Bytes
  splitPath : Bytes → List Bytes
  /-- The floor of the decimal logarithm, a floating-point computation; 0 for size 0. -/
  sizeLog10 : UInt64 → UInt8
  snapshot : SnapshotHost

/-! ## Facts -/

/-- `analyticsIdentityKey` -/
structure IdentityKey where
  fsid : UInt32
  (inode generation : UInt64)
  deriving DecidableEq, Repr

/-- `segmentIdentity` -/
structure SegmentIdentity where
  fsid : UInt32 := 0
  (inode generation revision : UInt64 := 0)
  known : UInt16 := 0
  deriving DecidableEq, Repr

/-- The record with every field zero. -/
def zeroFact : AnalyticsFactRecord :=
  { revision := 0, uid := 0, gid := 0, known := 0, createdAt := 0, logicalSize := 0
    calendarYear := 0, calendarMonth := 0, isoYear := 0, workweek := 0, sizeLog10 := 0
    sourcePath := [], svm := [], volume := [], pathGroup := [], residency := 0
    creationBasis := 0, identityGeneration := 0, identityContinuity := 0 }

structure BuildFact where
  identity : SegmentIdentity := {}
  fact : AnalyticsFactRecord := zeroFact
  retainedRefs : UInt64 := 0
  lastComplete : Int64 := 0
  deriving DecidableEq, Repr

/-- The facts of a generation, as `loadActiveBuildFact` finds them. -/
abbrev Facts := IdentityKey → Option BuildFact

/-- `facts` with those of `changed` in place of its own. -/
def Facts.override (facts changed : Facts) : Facts := fun key => changed key <|> facts key

def atDepth (parts : List Bytes) (depth : Int) : Bytes :=
  if depth > 0 ∧ parts.length ≥ depth then parts.getD (depth.toNat - 1) []
  else ascii "unknown"

section
variable (host : Host)

def classifyGroup (source : Bytes) (parts : List Bytes) (config : Config) : Bytes :=
  let best := config.pathGroupPrefixes.foldl
    (fun best path =>
      let clean := host.clean path
      if (source = clean ∨ (clean ++ ascii "/") <+: source) ∧ clean.length > best.length then
        clean
      else best)
    []
  if best ≠ [] then best else atDepth parts config.pathGroupDepth

/-- The time an inode revision gives for its creation. -/
def creationTime (revision : InodeRevision) : Int64 × AnalyticsCreationBasis :=
  if revision.known &&& knownCTime ≠ 0 then (revision.ctime, analyticsCTime)
  else if revision.known &&& knownMTime ≠ 0 then (revision.mtime, analyticsMTime)
  else (0, analyticsTimeUnknown)

def populateFactCalendar (fact : AnalyticsFactRecord) : AnalyticsFactRecord :=
  let fact :=
    if fact.creationBasis ≠ analyticsTimeUnknown then
      let created := host.calendar fact.createdAt
      { fact with
        calendarYear := created.year, calendarMonth := created.month
        isoYear := created.isoYear, workweek := created.week }
    else fact
  if fact.known &&& knownSize ≠ 0 then { fact with sizeLog10 := host.sizeLog10 fact.logicalSize }
  else fact

def makeFact (keyRevision : UInt64) (revision : InodeRevision) (config : Config) :
    AnalyticsFactRecord :=
  let parts := host.splitPath revision.sourcePath
  let created := creationTime revision
  populateFactCalendar host
    { zeroFact with
      revision := keyRevision, uid := revision.uid, gid := revision.gid
      logicalSize := revision.size, sourcePath := revision.sourcePath
      residency := analyticsArchiveOnly, known := revision.known
      createdAt := created.1, creationBasis := created.2
      svm := atDepth parts config.svmDepth, volume := atDepth parts config.volumeDepth
      pathGroup := classifyGroup host revision.sourcePath parts config }

end

/-! ## One delta -/

def identityKey (delta : AnalyticsDeltaRecord) : IdentityKey :=
  { fsid := delta.fsid, inode := delta.inode, generation := delta.identityGeneration }

/-- The identifiers a text of an error names. -/
def identityText (delta : AnalyticsDeltaRecord) (last : UInt64) : String :=
  let fsid := delta.fsid
  let inode := delta.inode
  s!"{fsid}:{inode}:{last}"

/-- The references after a delta. -/
def nextReferences (refs : UInt64) (delta : AnalyticsDeltaRecord) : Result UInt64 :=
  let identity := identityText delta delta.identityGeneration
  if delta.referenceOperation = analyticsReferencesIncrement then .ok (refs + 1)
  else if delta.referenceOperation = analyticsReferencesDecrement then
    if refs = 0 then .error s!"analytics retained-reference underflow for {identity}"
    else .ok (refs - 1)
  else if delta.referenceOperation = analyticsReferencesSet then .ok delta.retainedSnapshotRefs
  else if delta.retainedSnapshotRefs = 0 then
    if refs = 0 then
      .error s!"analytics retained-reference underflow for legacy delta {identity}"
    else .ok (refs - 1)
  else .ok (refs + delta.retainedSnapshotRefs)

def applyReferenceDelta (item : BuildFact) (delta : AnalyticsDeltaRecord) :
    Result BuildFact := do
  let retainedRefs ← nextReferences item.retainedRefs delta
  let residency :=
    if item.fact.residency = analyticsExpired ∧ retainedRefs > 0 then analyticsArchiveOnly
    else if item.fact.residency = analyticsArchiveOnly ∧ retainedRefs = 0 then analyticsExpired
    else item.fact.residency
  pure { item with retainedRefs, fact := { item.fact with residency } }

/-- Does the delta read an inode revision? -/
def readsRevision (delta : AnalyticsDeltaRecord) : Bool :=
  delta.kind = analyticsDeltaCreation ∨ delta.kind = analyticsDeltaClassification

section

variable (host : Host) (config : Config)

/-- The part of `applyAnalyticsDelta` after the item has been loaded.  `value` is what the
store has for the inode revision of the delta. -/
def changeItem (value : Option Bytes) (item : BuildFact) (delta : AnalyticsDeltaRecord) :
    Result BuildFact :=
  if readsRevision delta then
    match value with
    | none =>
      let revision := identityText delta delta.revision
      .error s!"analytics delta points to missing inode revision {revision}"
    | some value => do
        let revision ← unmarshalInodeRevision value
        let fact := makeFact host delta.revision revision config
        pure
          { item with
            identity := { item.identity with revision := delta.revision, known := delta.known }
            fact := populateFactCalendar host
              { fact with
                revision := delta.revision, uid := delta.uid, gid := delta.gid
                known := delta.known, createdAt := delta.createdAt
                logicalSize := delta.logicalSize, residency := delta.state
                creationBasis := delta.creationBasis
                identityGeneration := delta.identityGeneration
                identityContinuity := delta.identityContinuity }
            retainedRefs := delta.retainedSnapshotRefs }
  else if delta.kind = analyticsDeltaSourceState then
    .ok { item with
      fact := { item.fact with
        residency := delta.state
        identityContinuity :=
          if delta.identityContinuity ≠ analyticsContinuityUnknown then delta.identityContinuity
          else item.fact.identityContinuity } }
  else applyReferenceDelta item delta

/-- The item of an identity that has no fact yet. -/
def newItem (delta : AnalyticsDeltaRecord) : BuildFact :=
  { identity :=
      { fsid := delta.fsid, inode := delta.inode, generation := delta.identityGeneration
        revision := delta.revision, known := delta.known } }

/-- `applyAnalyticsDelta`: the new item and, for the first delta of an identity, the fact
of the parent. -/
def applyAnalyticsDelta (value : Option Bytes) (parent : Facts) (item : BuildFact)
    (delta : AnalyticsDeltaRecord) (first : Bool) :
    Result (BuildFact × Option BuildFact) := do
  if first then
    let old := parent (identityKey delta)
    let changed ← changeItem host config value (old.getD (newItem delta)) delta
    pure (changed, old)
  else
    let changed ← changeItem host config value item delta
    pure (changed, none)

/-! ## A batch of deltas -/

structure Collected where
  order : List IdentityKey := []
  (affected previous : Facts := fun _ => none)

def Facts.set (facts : Facts) (key : IdentityKey) (item : BuildFact) : Facts :=
  fun other => if other = key then some item else facts other

/-- The body of the loop of `collectDeltaFacts`. -/
def collectDelta (revisions : AnalyticsDeltaRecord → Option Bytes) (classificationEpoch : Nat)
    (parent : Facts) (collected : Collected) (delta : AnalyticsDeltaRecord) :
    Result Collected := do
  let epoch := delta.classificationEpoch.toNat
  if epoch ≠ classificationEpoch then
    .error (s!"analytics classification epoch changed from {epoch} to {classificationEpoch}" ++
      "; streaming rebuild required")
  else
    let key := identityKey delta
    let current := collected.affected key
    let (item, old) ← applyAnalyticsDelta host config (revisions delta) parent
      (current.getD {}) delta current.isNone
    pure
      { order := if current.isNone then collected.order ++ [key] else collected.order
        affected := collected.affected.set key item
        previous := match old with
          | some old => collected.previous.set key old
          | none => collected.previous }

def collectDeltaFacts (revisions : AnalyticsDeltaRecord → Option Bytes)
    (classificationEpoch : Nat) (parent : Facts) (deltas : List AnalyticsDeltaRecord) :
    Result Collected :=
  deltas.foldlM (collectDelta host config revisions classificationEpoch parent) {}

/-! ## The deltas one after another -/

/-- The effect of one delta on the facts. -/
def effect (value : Option Bytes) (facts : Facts) (delta : AnalyticsDeltaRecord) :
    Result Facts := do
  let key := identityKey delta
  let item ← changeItem host config value ((facts key).getD (newItem delta)) delta
  pure (facts.set key item)

end

variable {revisions : AnalyticsDeltaRecord → Option Bytes}

variable {host : Host} {config : Config} {parent : Facts} {epoch : Nat}

/-- What one delta adds to a collection is its effect on the facts collected so far. -/
theorem collectDelta_spec {collected next : Collected} {delta : AnalyticsDeltaRecord}
    (h : collectDelta host config revisions epoch parent collected delta = .ok next) :
    delta.classificationEpoch.toNat = epoch ∧
      effect host config (revisions delta) (parent.override collected.affected) delta =
        .ok (parent.override next.affected) := by
  rw [collectDelta] at h
  split_ifs at h with hepoch
  obtain ⟨⟨item, old⟩, happly, h⟩ := of_bind h
  cases h
  refine ⟨not_not.mp hepoch, bind_eq_ok.mpr ⟨item, ?_, ?_⟩⟩
  · rw [applyAnalyticsDelta] at happly
    cases hcurrent : collected.affected (identityKey delta) with
    | none =>
      rw [hcurrent] at happly
      obtain ⟨changed, hchanged, heq⟩ := of_bind happly
      cases heq
      simpa [Facts.override, hcurrent] using hchanged
    | some current =>
      rw [hcurrent] at happly
      obtain ⟨changed, hchanged, heq⟩ := of_bind happly
      cases heq
      simpa [Facts.override, hcurrent] using hchanged
  · refine congrArg Except.ok (funext fun other => ?_)
    simp only [Facts.override, Facts.set]
    split_ifs <;> simp

variable {deltas : List AnalyticsDeltaRecord}

theorem foldlM_collectDelta_spec {collected result : Collected}
    (h : deltas.foldlM (collectDelta host config revisions epoch parent) collected = .ok result) :
    (∀ delta ∈ deltas, delta.classificationEpoch.toNat = epoch) ∧
      deltas.foldlM (fun facts delta => effect host config (revisions delta) facts delta)
          (parent.override collected.affected) = .ok (parent.override result.affected) := by
  induction deltas generalizing collected with
  | nil =>
    cases h
    exact ⟨by simp, rfl⟩
  | cons delta deltas ih =>
    obtain ⟨next, hnext, hrest⟩ := of_bind h
    obtain ⟨hepoch, heffect⟩ := collectDelta_spec hnext
    obtain ⟨hepochs, heffects⟩ := ih hrest
    refine ⟨List.forall_mem_cons.mpr ⟨hepoch, hepochs⟩, ?_⟩
    rw [List.foldlM_cons]
    exact bind_eq_ok.mpr ⟨_, heffect, heffects⟩

/-- Collecting a batch is applying its deltas one after another, all of the parent's
epoch. -/
theorem collectDeltaFacts_spec {result : Collected}
    (h : collectDeltaFacts host config revisions epoch parent deltas = .ok result) :
    (∀ delta ∈ deltas, delta.classificationEpoch.toNat = epoch) ∧
      deltas.foldlM (fun facts delta => effect host config (revisions delta) facts delta)
          parent = .ok (parent.override result.affected) := by
  have hempty : parent.override (fun _ => none) = parent := by
    funext key
    simp [Facts.override]
  have hspec := foldlM_collectDelta_spec h
  rwa [hempty] at hspec

end Vaultic.Analytics
