/-
  Daemon/Verification.lean  —  recording the outcomes of pack verification.

  Source: internal/index/daemon/verification.go.

  A failed verification of a pack on a backend opens a finding, or is added to the open one;
  a successful verification at a high enough level resolves it.  The state keeps one level
  for the finding, and every failure overwrites it.  So a finding is resolved only at the
  levels of all the failures it collected as long as no failure is recorded at a lower level
  than the one before it (`findings_resolved_at_level`); after such a failure, it is not
  (`finding_resolved_below_level`).
-/
import Vaultic.Lib.Run
import Vaultic.Wire.Verification

set_option autoImplicit false

namespace Vaultic.Daemon

open Vaultic.Lib Vaultic.Wire
open Vaultic.Schema (ID)

structure VerificationOutcome where
  packID : ID
  backend : UInt64
  level : VerificationLevel
  completedAt : Int64
  runID : ID
  classification : VerificationClassification
  (expected observed : Bytes)

/-- The Unix time of Go's zero time. -/
def zeroTime : Int64 := -62135596800

/-- The state before the first outcome. -/
def emptyVerificationState : VerificationStateRecord :=
  { lastAttemptAt := 0, lastAttemptLevel := 0, headerVerifiedAt := 0, checksumVerifiedAt := 0
    fullVerifiedAt := 0, result := verificationUnknown, openFindingID := 0, findingLevel := 0
    classification := verificationNoError, firstErrorAt := 0, lastErrorAt := 0
    consecutiveFailures := 0, lastRunID := 0 }

/-- The records of one pack on one backend, the event sequence and the events. -/
structure VerificationStore where
  (state placement nextEventSequence : Option Bytes)
  events : List (Bytes × Bytes)
  deriving DecidableEq, Repr

section

variable (findingID : VerificationOutcome → ID) (store : VerificationStore)
  (state : VerificationStateRecord)

def advanceVerificationSuccess (level : VerificationLevel) (completed : Int64) :
    VerificationStateRecord :=
  { state with
    headerVerifiedAt :=
      if completed > state.headerVerifiedAt then completed else state.headerVerifiedAt
    checksumVerifiedAt :=
      if level ≥ verificationChecksum && completed > state.checksumVerifiedAt then completed
      else state.checksumVerifiedAt
    fullVerifiedAt :=
      if level ≥ verificationFull && completed > state.fullVerifiedAt then completed
      else state.fullVerifiedAt }

section

variable (outcome : VerificationOutcome)

/-- The state and the event of a successful verification. -/
def recordSuccess : VerificationStateRecord × Option VerificationEventRecord :=
  let state := advanceVerificationSuccess state outcome.level outcome.completedAt
  if state.openFindingID ≠ 0 ∧ outcome.level ≥ state.findingLevel then
    ({ state with
        openFindingID := 0, findingLevel := 0, classification := verificationNoError
        firstErrorAt := 0, lastErrorAt := 0, consecutiveFailures := 0
        result := verificationHealthy },
      some
        { type := verificationResolved, findingID := state.openFindingID, runID := outcome.runID
          level := state.findingLevel, classification := state.classification
          firstDetected := state.firstErrorAt, lastDetected := state.lastErrorAt
          occurrences := state.consecutiveFailures, expected := [], observed := []
          resolution := ascii "successful verification" })
  else if state.openFindingID = 0 then ({ state with result := verificationHealthy }, none)
  else (state, none)

/-- The event of a failed verification. -/
def failureEvent (type : VerificationEventType) (findingID : ID) (firstDetected : Int64)
    (occurrences : UInt64) (outcome : VerificationOutcome) : VerificationEventRecord :=
  { type, findingID, runID := outcome.runID, level := outcome.level
    classification := outcome.classification, firstDetected
    lastDetected := outcome.completedAt, occurrences, expected := outcome.expected
    observed := outcome.observed, resolution := [] }

/-- What is kept of the outcome that failed last. -/
def lastFailure : VerificationStateRecord :=
  { state with
    result :=
      if isIntegrity outcome.classification then verificationIntegrityError
      else verificationOperationalError
    findingLevel := outcome.level, classification := outcome.classification
    lastErrorAt := outcome.completedAt }

/-- The state and the event of a failed verification; `findingID` is the hash that names a new
finding. -/
def recordFailure : VerificationStateRecord × Option VerificationEventRecord :=
  if state.openFindingID = 0 then
    (lastFailure
      { state with
        openFindingID := findingID outcome, firstErrorAt := outcome.completedAt
        consecutiveFailures := 1 } outcome,
      some (failureEvent verificationDetected (findingID outcome) outcome.completedAt 1 outcome))
  else
    let failures := state.consecutiveFailures + 1
    (lastFailure { state with consecutiveFailures := failures } outcome,
      if state.classification ≠ outcome.classification ∨ state.findingLevel ≠ outcome.level then
        some (failureEvent verificationChanged state.openFindingID state.firstErrorAt failures
          outcome)
      else none)

def VerificationStore.storedState : Result VerificationStateRecord :=
  match store.state with
  | none => .ok emptyVerificationState
  | some data => unmarshalVerificationStateRecord data

def attempted : VerificationStateRecord :=
  { state with
    lastAttemptAt := outcome.completedAt, lastAttemptLevel := outcome.level
    lastRunID := outcome.runID }

def recordedState : VerificationStateRecord × Option VerificationEventRecord :=
  if outcome.classification = verificationNoError then
    recordSuccess (attempted state outcome) outcome
  else recordFailure findingID (attempted state outcome) outcome

/-- A success is noted in the placement. -/
def verifiedPlacement : Result (Option Bytes) :=
  if outcome.classification = verificationNoError then
    match store.placement with
    | none => .ok none
    | some data => do
        let placement ← unmarshalPlacementRecord data
        if outcome.completedAt > placement.lastVerifiedAt then
          let placement := { placement with lastVerifiedAt := outcome.completedAt }
          let data ← placement.marshalBinary
          .ok (some data)
        else .ok (some data)
  else .ok store.placement

def eventSequence : Result UInt64 :=
  match store.nextEventSequence with
  | none => .ok 1
  | some data => unmarshalNextRevision data

/-- `appendVerificationEvent`, with the store that its puts give. -/
def appendVerificationEvent (event : VerificationEventRecord) :
    Result VerificationStore := do
  let sequence ← eventSequence store
  let eventValue ← event.marshalBinary
  let nextValue ← marshalNextRevision (sequence + 1)
  .ok { store with
        nextEventSequence := some nextValue
        events := (verificationEventKey outcome.completedAt.toUInt64 sequence outcome.packID
          outcome.backend, eventValue) :: store.events }

def appendEvent : Option VerificationEventRecord → Result VerificationStore
  | none => .ok store
  | some event => appendVerificationEvent store outcome event

/-- `RecordVerification`; a run that was recorded last is not recorded again. -/
def recordVerification : Result VerificationStore := do
  if outcome.packID = 0 ∨ outcome.backend = 0 ∨ outcome.runID = 0 ∨
      outcome.completedAt = zeroTime then
    .error "invalid verification outcome identity"
  else do
    let state ← store.storedState
    if store.state.isSome ∧ state.lastRunID = outcome.runID then .ok store
    else do
      let recorded := recordedState findingID state outcome
      let data ← recorded.1.marshalBinary
      let placement ← verifiedPlacement store outcome
      appendEvent { store with state := some data, placement } outcome recorded.2

/-! ## Runs -/

/-- A finding is open. -/
def VerificationStore.hasFinding : Bool :=
  okAnd store.storedState fun state => state.openFindingID != 0

/-- The records, and the levels of the failures that the last finding collected. -/
structure VerificationRun where
  store : VerificationStore
  contributed : List VerificationLevel

def VerificationRun.start (placement nextEventSequence : Option Bytes) : VerificationRun :=
  { store := { state := none, placement, nextEventSequence, events := [] }, contributed := [] }

/-- The outcome is not of the run that was recorded last. -/
def isNewRun : Bool :=
  okAnd store.storedState fun state =>
    !decide (store.state.isSome ∧ state.lastRunID = outcome.runID)

end

def verificationStep (run : VerificationRun) (outcome : VerificationOutcome) : VerificationRun :=
  match recordVerification findingID run.store outcome with
  | .error _ => run
  | .ok store =>
    { store
      contributed :=
        if outcome.classification = verificationNoError ∨ isNewRun run.store outcome = false then
          run.contributed
        else if run.store.hasFinding then outcome.level :: run.contributed
        else [outcome.level] }

/-- The outcome closes the open finding. -/
def resolves (run : VerificationRun) (outcome : VerificationOutcome) : Bool :=
  run.store.hasFinding &&
    okAnd (recordVerification findingID run.store outcome) fun store => !store.hasFinding

/-- A finding is closed by a success at the level of each failure that it collected. -/
def resolvesAtLevel (run : VerificationRun) (outcome : VerificationOutcome) : Prop :=
  resolves findingID run outcome = true →
    outcome.classification = verificationNoError ∧
      ∀ level ∈ run.contributed, level ≤ outcome.level

end

instance (findingID : VerificationOutcome → ID) (run : VerificationRun)
    (outcome : VerificationOutcome) : Decidable (resolvesAtLevel findingID run outcome) :=
  inferInstanceAs (Decidable (_ → _ ∧ _))

/-- A failure is not recorded at a level below that of the open finding. -/
def keepsLevel (run : VerificationRun) (outcome : VerificationOutcome) : Prop :=
  outcome.classification ≠ verificationNoError →
    okAnd run.store.storedState (fun state =>
      state.openFindingID == 0 || decide (state.findingLevel ≤ outcome.level)) = true

instance (run : VerificationRun) (outcome : VerificationOutcome) :
    Decidable (keepsLevel run outcome) :=
  inferInstanceAs (Decidable (_ → _))

/-! ## What is recorded -/

section Recorded

variable {findingID : VerificationOutcome → ID} {store store' : VerificationStore}

variable {outcome : VerificationOutcome}

theorem appendEvent_state
    {event : Option VerificationEventRecord} (h : appendEvent store outcome event = .ok store') :
    store'.state = store.state := by
  cases event with
  | none =>
    cases h
    rfl
  | some event =>
    obtain ⟨sequence, -, h⟩ := of_bind h
    obtain ⟨eventValue, -, h⟩ := of_bind h
    obtain ⟨nextValue, -, h⟩ := of_bind h
    cases h
    rfl

/-- What a recorded outcome leaves: the store as it was, or the recorded state. -/
theorem recordVerification_eq_ok (h : recordVerification findingID store outcome = .ok store') :
    ∃ state, store.storedState = .ok state ∧
      ((isNewRun store outcome = false ∧ store' = store) ∨
        (isNewRun store outcome = true ∧
          store'.storedState = .ok (recordedState findingID state outcome).1)) := by
  replace h := (of_guard h).2
  obtain ⟨state, hstate, h⟩ := of_bind h
  refine ⟨state, hstate, ?_⟩
  unfold isNewRun
  rw [hstate]
  rcases ite_eq_iff.mp h with ⟨hrun, h⟩ | ⟨hrun, h⟩
  · cases h
    exact .inl ⟨by rw [okAnd, decide_eq_true hrun]; rfl, rfl⟩
  refine .inr ⟨by rw [okAnd, decide_eq_false hrun]; rfl, ?_⟩
  obtain ⟨data, hdata, h⟩ := of_bind h
  obtain ⟨placement, -, h⟩ := of_bind h
  rw [VerificationStore.storedState, appendEvent_state h]
  exact VerificationStateRecord.unmarshal_marshalBinary hdata

theorem hasFinding_iff {store : VerificationStore} {state : VerificationStateRecord}
    (h : store.storedState = .ok state) : store.hasFinding = true ↔ state.openFindingID ≠ 0 := by
  rw [VerificationStore.hasFinding, h]
  exact bne_iff_ne

variable {state : VerificationStateRecord} {outcome : VerificationOutcome}

theorem recordFailure_level :
    (recordFailure findingID state outcome).1.findingLevel = outcome.level := by
  unfold recordFailure
  split_ifs <;> rfl

theorem recordFailure_open (hopen : state.openFindingID ≠ 0) :
    (recordFailure findingID state outcome).1.openFindingID = state.openFindingID := by
  unfold recordFailure
  rw [if_neg hopen]
  rfl

/-- Only a success at the level of a finding closes it. -/
theorem recordedState_closes (hopen : state.openFindingID ≠ 0)
    (hclosed : (recordedState findingID state outcome).1.openFindingID = 0) :
    outcome.classification = verificationNoError ∧ state.findingLevel ≤ outcome.level := by
  unfold recordedState at hclosed
  split_ifs at hclosed with hsuccess
  · refine ⟨hsuccess, ?_⟩
    unfold recordSuccess at hclosed
    dsimp only at hclosed
    split_ifs at hclosed with hresolved
    · exact hresolved.2
    · exact absurd hclosed hopen
    · exact absurd hclosed hopen
  · have hkept : (attempted state outcome).openFindingID ≠ 0 := hopen
    exact absurd ((recordFailure_open hkept).symm.trans hclosed) hopen

/-- A success that leaves a finding open keeps its level. -/
theorem recordedState_success (hsuccess : outcome.classification = verificationNoError)
    (hopen : (recordedState findingID state outcome).1.openFindingID ≠ 0) :
    state.openFindingID ≠ 0 ∧
      (recordedState findingID state outcome).1.findingLevel = state.findingLevel := by
  unfold recordedState at hopen ⊢
  rw [if_pos hsuccess] at hopen ⊢
  unfold recordSuccess at hopen ⊢
  dsimp only at hopen ⊢
  split_ifs at hopen ⊢ with hresolved hnone
  · exact absurd rfl hopen
  · exact absurd hnone hopen
  · exact ⟨hopen, rfl⟩

end Recorded

/-! ## The level of a finding -/

/-- The level of the open finding is that of every failure it collected, or above. -/
def LevelInvariant (run : VerificationRun) : Prop :=
  ∀ state, run.store.storedState = .ok state → state.openFindingID ≠ 0 →
    ∀ level ∈ run.contributed, level ≤ state.findingLevel

section Step

variable {findingID : VerificationOutcome → ID} {run : VerificationRun}
  {outcome : VerificationOutcome}

theorem LevelInvariant.safe (hinv : LevelInvariant run) :
    resolvesAtLevel findingID run outcome := by
  intro hresolves
  obtain ⟨hopen, hrecorded⟩ := Bool.and_eq_true_iff.mp hresolves
  obtain ⟨store, hstore, hclosed⟩ := okAnd_eq_true.mp hrecorded
  have hclosed : ¬ store.hasFinding = true := by simpa using hclosed
  obtain ⟨state, hstate, hcases⟩ := recordVerification_eq_ok hstore
  rcases hcases with ⟨-, rfl⟩ | ⟨-, hafter⟩
  · -- nothing was recorded, so the finding is still open
    exact absurd hopen hclosed
  have hopen := (hasFinding_iff hstate).mp hopen
  rw [hasFinding_iff hafter, not_not] at hclosed
  obtain ⟨hsuccess, hlevel⟩ := recordedState_closes hopen hclosed
  refine ⟨hsuccess, fun level hmem => ?_⟩
  exact UInt8.le_trans (hinv state hstate hopen level hmem) hlevel

theorem LevelInvariant.step (hinv : LevelInvariant run) (hkeeps : keepsLevel run outcome) :
    LevelInvariant (verificationStep findingID run outcome) := by
  unfold verificationStep
  split
  · exact hinv
  next store hstore =>
    obtain ⟨state, hstate, hcases⟩ := recordVerification_eq_ok hstore
    intro after hafter hopen level hlevel
    rcases hcases with ⟨hold, rfl⟩ | ⟨hnew, hrecorded⟩
    · rw [if_pos (.inr hold)] at hlevel
      exact hinv after hafter hopen level hlevel
    obtain rfl := Except.ok.inj (hrecorded.symm.trans hafter)
    by_cases hsuccess : outcome.classification = verificationNoError
    · rw [if_pos (.inl hsuccess)] at hlevel
      obtain ⟨hbefore, hkept⟩ := recordedState_success hsuccess hopen
      rw [hkept]
      exact hinv state hstate hbefore level hlevel
    · rw [if_neg (by simp [hsuccess, hnew])] at hlevel
      rw [recordedState, if_neg hsuccess, recordFailure_level]
      split_ifs at hlevel with hfinding
      · -- the failures before are at most at the level of the finding, which this one keeps
        have hbefore := (hasFinding_iff hstate).mp hfinding
        have hkept := hkeeps hsuccess
        rw [hstate, okAnd, beq_eq_false_iff_ne.mpr hbefore, Bool.false_or,
          decide_eq_true_eq] at hkept
        rcases List.mem_cons.mp hlevel with rfl | hlevel
        · exact UInt8.le_refl _
        · exact UInt8.le_trans (hinv state hstate hbefore level hlevel) hkept
      · rw [List.mem_singleton.mp hlevel]
        exact UInt8.le_refl _

end Step

/-- Over every sequence of outcomes in which no failure lowers the level of the open finding,
a finding is resolved only by a success at the level of every failure it collected. -/
theorem findings_resolved_at_level (findingID : VerificationOutcome → ID)
    (placement nextEventSequence : Option Bytes) (outcomes : List VerificationOutcome)
    (hkeeps : Along (verificationStep findingID) keepsLevel (.start placement nextEventSequence)
      outcomes) :
    Along (verificationStep findingID) (resolvesAtLevel findingID)
      (.start placement nextEventSequence) outcomes := by
  apply hkeeps.of_invariant LevelInvariant
  · intro run outcome hlevel hinv
    exact ⟨hinv.safe, hinv.step hlevel⟩
  · intro state hstate hopen
    obtain rfl := Except.ok.inj hstate
    exact absurd rfl hopen

/-- An outcome of pack 1 on backend 1. -/
def outcomeAt (level : VerificationLevel) (completedAt : Int64) (runID : ID)
    (classification : VerificationClassification) : VerificationOutcome :=
  { packID := 1, backend := 1, level, completedAt, runID, classification, expected := []
    observed := [] }

theorem findings_resolved_at_level_full :
    Along (verificationStep fun outcome => outcome.runID)
      (resolvesAtLevel fun outcome => outcome.runID) (.start none none)
      [outcomeAt 1 10 1 verificationMissing, outcomeAt 3 11 2 verificationPayloadDecrypt,
        outcomeAt 2 12 3 verificationNoError, outcomeAt 3 13 4 verificationNoError] :=
  findings_resolved_at_level _ none none _ (by decide +kernel)

/-- A failed full verification, then a failed check of the header: the finding is resolved by a
successful check of the header. -/
theorem finding_resolved_below_level :
    ¬ Along (verificationStep fun outcome => outcome.runID)
      (resolvesAtLevel fun outcome => outcome.runID) (.start none none)
      [outcomeAt 3 10 1 verificationPayloadDecrypt, outcomeAt 1 11 2 verificationTransport,
        outcomeAt 1 12 3 verificationNoError] := by
  decide +kernel

end Vaultic.Daemon
