/-
  Staging/Discovery.lean  —  the packs that sealed journals protect.

  Source: internal/repository/staging/journal.go (`Discover`, `VerifyJob`,
  `PackRoots.Current`).

  Discovery learns of a journal from the listings of the mirrors.  A listing that fails
  is noted and otherwise passed over, so a journal is missed without an error when
  every mirror that would have reported its seal fails.
-/
import Vaultic.Staging.Mirrors

set_option autoImplicit false

namespace Vaultic.Staging

open Vaultic.Lib Vaultic.Schema

/-! ## Listing -/

/-- The job whose seal a name is. -/
def sealedJob : Handle → Option String
  | .sealHandle jobID => if jobID = "" ∨ '/' ∈ jobID.toList then none else some jobID
  | _ => none

section

variable (codec : Codec) (store : Store) (faults : Faults)

/-- The names that a mirror reports. -/
def listedNames (id : String) (mirror : Mirror) : List Handle :=
  match faults.list id with
  | none => mirror.entries.map (·.1)
  | some reported => (mirror.entries.map (·.1)).take reported

/-- The callback of a listing on the names in turn: the seals it loaded, and the failure
that ended it. -/
def collectSeals (id : String) (mirror : Mirror) :
    List Handle → List (String × Bytes) × Option LoadError
  | [] => ([], none)
  | name :: rest =>
    match sealedJob name with
    | none => collectSeals id mirror rest
    | some jobID =>
      match loadObject faults .listing id mirror (.sealHandle jobID) with
      | .error fault => ([], some fault)
      | .ok encoded =>
        ((jobID, encoded) :: (collectSeals id mirror rest).1, (collectSeals id mirror rest).2)

/-- The copies of seals that the listings found. -/
def sealCopies : List (String × Bytes) :=
  store.mirrors.entries.flatMap fun e =>
    (collectSeals faults e.1 e.2 (listedNames faults e.1 e.2)).1

/-- The mirrors whose listing failed. -/
def listFailures : List (String × String) :=
  store.mirrors.entries.filterMap fun e =>
    match (collectSeals faults e.1 e.2 (listedNames faults e.1 e.2)).2, faults.list e.1 with
    | some (.failed text), _ => some (e.1, text)
    | some .notExist, _ => some (e.1, "does not exist")
    | none, some _ => some (e.1, "list failed")
    | none, none => none

/-! ## Discovery -/

/-- The seal of a journal, with its digest. -/
def discoverSeal (repositoryID jobID : String) (candidates : List Bytes) : Result (Seal × String) :=
  match loadQuorum store faults (.sealHandle jobID) with
  | .error text => .error ("load journal " ++ jobID ++ " seal: " ++ text)
  | .ok first =>
    -- The first candidate is not compared.
    if candidates.tail.any fun candidate => decide (candidate ≠ first) then
      .error ("conflicting seal for journal " ++ jobID)
    else if codec.unmarshalEnvelope first = none then
      .error ("decode journal " ++ jobID ++ " envelope")
    else do
      let opened ← openObject codec codec.decodeSeal first store.key repositoryID jobID "seal" 0
      opened.1.header.validate opened.1.header.createdAt
      if opened.1.header.repositoryID ≠ repositoryID ∨ opened.1.header.jobID ≠ jobID ∨
          opened.1.state ≠ .sealedPending then
        .error "journal seal identity mismatch"
      else .ok (opened.1, codec.sha256 first)

/-- The highest generation of which some mirror has an extension. -/
def lastGeneration (jobID : String) : Nat :=
  (store.mirrors.entries.flatMap fun e => e.2.entries.filterMap fun object =>
    match object.1 with
    | .extensionHandle job generation => if job = jobID then some generation else none
    | _ => none).foldr max 0

/-- The loop over extensions, from the last one accepted. -/
def readExtensions (header : Header) (sealSHA256 : String) :
    List Nat → Option Extension × String → Time → Result (Option Extension × String)
  | [], chain, _ => .ok chain
  | generation :: rest, chain, previousExpiry =>
    match loadOptionalQuorum store faults (.extensionHandle header.jobID generation) with
    | .error text =>
      .error
        ("load journal " ++ header.jobID ++ " extension " ++ toString generation ++ ": " ++ text)
    | .ok none => .ok chain
    | .ok (some encoded) => do
        let opened ← openObject codec codec.decodeExtension encoded store.key header.repositoryID
          header.jobID "extension" generation
        if opened.1.sealSHA256 ≠ sealSHA256 ∨ opened.1.generation ≠ generation ∨
            opened.1.previousExpiresAt ≠ previousExpiry ∨
            opened.1.previousExtensionSHA256 ≠ chain.2 ∨
            ¬opened.1.previousExpiresAt < opened.1.expiresAt then
          .error "journal extension does not bind the discovered seal and expiry"
        else
          readExtensions header sealSHA256 rest (some opened.1, opened.2) opened.1.expiresAt

/-- The object that ends a journal in one way, if there is one. -/
def readState {α : Type} (codec : Codec) (store : Store) (faults : Faults)
    (decode : Bytes → Option α) (binds : α → Bool) (header : Header) (kind : String)
    (handle : Handle) : Result (Option α) :=
  match loadOptionalQuorum store faults handle with
  | .error text => .error ("load journal " ++ header.jobID ++ " " ++ kind ++ ": " ++ text)
  | .ok none => .ok none
  | .ok (some encoded) => do
      let opened ← openObject codec decode encoded store.key header.repositoryID header.jobID kind 0
      if binds opened.1 then .ok (some opened.1)
      else .error ("journal " ++ kind ++ " does not bind the discovered seal")

def readCompletion (header : Header) (sealSHA256 : String) : Result (Option Completion) :=
  readState codec store faults codec.decodeCompletion
    (fun c => decide (c.state = .committed) && decide (c.sealSHA256 = sealSHA256)) header
    "completion" (.completionHandle header.jobID)

def readAbandonment (header : Header) (sealSHA256 : String) : Result (Option Abandonment) :=
  readState codec store faults codec.decodeAbandonment
    (fun a => decide (a.state = .abandoned) && decide (a.sealSHA256 = sealSHA256)) header
    "abandonment" (.abandonmentHandle header.jobID)

def readRejection (header : Header) (sealSHA256 : String) : Result (Option Rejection) :=
  readState codec store faults codec.decodeRejection
    (fun r => decide (r.state = .rejected) && decide (r.sealSHA256 = sealSHA256)) header
    "rejection" (.rejectionHandle header.jobID)

/-- The journal with the state that its completion, abandonment or rejection gives it. -/
def resolveState (job : Job) : Result Job := do
  let completion ← readCompletion codec store faults job.header job.sealSHA256
  match completion with
  | some completion => .ok { job with state := .committed, completion := some completion }
  | none => do
      let abandonment ← readAbandonment codec store faults job.header job.sealSHA256
      match abandonment with
      | some abandonment => .ok { job with state := .abandoned, abandonment := some abandonment }
      | none => do
          let rejection ← readRejection codec store faults job.header job.sealSHA256
          match rejection with
          | some rejection => .ok { job with state := .rejected, rejection := some rejection }
          | none => .ok job

/-- The part of `Discover` for one journal. -/
def discoverJob (repositoryID jobID : String) (candidates : List Bytes) : Result Job := do
  let found ← discoverSeal codec store faults repositoryID jobID candidates
  let chain ← readExtensions codec store faults found.1.header found.2
    (List.range' 1 (lastGeneration store found.1.header.jobID + 1)) (none, "")
    found.1.header.expiresAt
  let job : Job :=
    { header := found.1.header, state := .sealedPending, sealRecord := found.1
      sealSHA256 := found.2, extension := chain.1, extensionSHA256 := chain.2
      mirrorFailures := listFailures store faults }
  resolveState codec store faults
    { job with state := if store.now < job.effectiveExpiresAt then .sealedPending else .expired }

/-- `Discover` -/
def discover (repositoryID : String) : Result (List Job) := do
  let copies := sealCopies store faults
  let jobs ← ((copies.map (·.1)).dedup.map fun jobID =>
    discoverJob codec store faults repositoryID jobID
      ((copies.filter fun copy => decide (copy.1 = jobID)).map (·.2))).mapM id
  .ok (jobs.insertionSort fun a b => a.header.createdAt ≤ b.header.createdAt)

/-! ## Verification -/

/-- The time at which `VerifyJob` validates segments: an expired journal is taken as it
was just before it expired. -/
def validationTime (header : Header) : Time :=
  if store.now < header.expiresAt then store.now else header.expiresAt - 1

def verifySegments (header : Header) : Nat → String → List String → Result (List Segment)
  | _, _, [] => .ok []
  | sequence, previous, expected :: rest =>
    match loadQuorum store faults (.segmentHandle header.jobID sequence) with
    | .error text => .error ("load sealed journal segment " ++ toString sequence ++ ": " ++ text)
    | .ok authoritative =>
      if codec.sha256 authoritative ≠ expected then
        .error ("sealed journal segment " ++ toString sequence ++ " digest mismatch")
      else do
        let opened ← openObject codec codec.decodeSegment authoritative store.key
          header.repositoryID header.jobID "segment" sequence
        if opened.1.sequence ≠ sequence ∨ opened.1.previousSHA256 ≠ previous then
          .error "sealed journal segment chain is discontinuous"
        else do
          opened.1.validate codec (validationTime store header) store.policy
          let segments ← verifySegments header (sequence + 1) expected rest
          .ok (opened.1 :: segments)

/-- `VerifyJob` -/
def verifyJob (job : Job) : Result (List Segment) :=
  if job.state = .uploading ∨ job.state = .committing then
    .error ("journal " ++ job.header.jobID ++ " is not a sealed reachability root")
  else if job.sealRecord.segmentSHA256 = [] ∨ job.sealRecord.header ≠ job.header then
    .error "journal seal header mismatch"
  else verifySegments codec store faults job.header 1 "" job.sealRecord.segmentSHA256

/-! ## Protected packs -/

/-- The packs of the journal are protected. -/
def Job.isRoot (now : Time) (job : Job) : Bool :=
  decide (job.state = .sealedPending) || decide (job.state = .expired) ||
    decide (job.state = .rejected) ||
    (decide (job.state = .abandoned) && job.abandonment.any fun a => decide (now < a.deleteAfter))

def stagedPackID (pack : Pack) : Result ID :=
  match parseID pack.id with
  | .ok id => .ok id
  | .error text => .error ("invalid staged pack ID " ++ pack.id ++ ": " ++ text)

/-- The packs that a journal names. -/
def protectedBy (job : Job) : Result (List ID) := do
  let segments ← verifyJob codec store faults job
  ((segments.flatMap (·.packs)).map stagedPackID).mapM id

/-- `PackRoots.Current` -/
def current (repositoryID : String) : Result (Finset ID) := do
  let jobs ← discover codec store faults repositoryID
  let found ← ((jobs.filter (Job.isRoot store.now)).map (protectedBy codec store faults)).mapM id
  .ok found.flatten.toFinset

/-! ## Jobs and what can be seen of them -/

/-- The object opens to a value. -/
def Opens {α : Type} (codec : Codec) (store : Store) (decode : Bytes → Option α)
    (repositoryID jobID kind : String) (sequence : Nat) (encoded : Bytes) (value : α) : Prop :=
  openObject codec decode encoded store.key repositoryID jobID kind sequence =
    .ok (value, codec.sha256 encoded)

/-- A job with its objects. -/
structure StagedJob where
  header : Header
  sealBytes : Bytes
  segments : List (Bytes × Segment)

def StagedJob.packs (job : StagedJob) : List Pack := job.segments.flatMap (·.2.packs)

/-- The seal is that of the segments. -/
structure Sealed (repositoryID : String) (job : StagedJob) : Prop where
  repository : job.header.repositoryID = repositoryID
  seals : ∃ record : Seal, record.header = job.header ∧
    record.segmentSHA256 = job.segments.map (fun s => codec.sha256 s.1) ∧
    Opens codec store codec.decodeSeal repositoryID job.header.jobID "seal" 0 job.sealBytes record
  opens : ∀ i s, job.segments[i]? = some s →
    Opens codec store codec.decodeSegment repositoryID job.header.jobID "segment" (i + 1) s.1 s.2

/-- Segments and seal were published with the policy met. -/
structure Published (repositoryID : String) (job : StagedJob) : Prop where
  isSealed : Sealed codec store repositoryID job
  sealHeld : HeldWithPolicy store (.sealHandle job.header.jobID) job.sealBytes
  segmentsHeld : ∀ i s, job.segments[i]? = some s →
    HeldWithPolicy store (.segmentHandle job.header.jobID (i + 1)) s.1

/-- A completion of the job was published. -/
def Committed (job : StagedJob) : Prop :=
  ∃ encoded completion, HeldWithPolicy store (.completionHandle job.header.jobID) encoded ∧
    Opens codec store codec.decodeCompletion job.header.repositoryID job.header.jobID "completion" 0
      encoded completion ∧
    completion.state = .committed ∧ completion.sealSHA256 = codec.sha256 job.sealBytes

/-- An abandonment of the job was published, and its delay has passed. -/
def AbandonedForGood (job : StagedJob) : Prop :=
  ∃ encoded abandonment, HeldWithPolicy store (.abandonmentHandle job.header.jobID) encoded ∧
    Opens codec store codec.decodeAbandonment job.header.repositoryID job.header.jobID
      "abandonment" 0 encoded abandonment ∧
    abandonment.state = .abandoned ∧ abandonment.sealSHA256 = codec.sha256 job.sealBytes ∧
    abandonment.deleteAfter ≤ store.now

def Live (job : StagedJob) : Prop :=
  ¬Committed codec store job ∧ ¬AbandonedForGood codec store job

/-- Some mirror lists the seal of the job before its listing fails, and serves it and
every seal that it lists before. -/
def Reported (jobID : String) : Prop :=
  ∃ id mirror, store.mirrors.lookup id = some mirror ∧
    ∃ before after, listedNames faults id mirror = before ++ .sealHandle jobID :: after ∧
      sealedJob (.sealHandle jobID) = some jobID ∧
      ∀ name ∈ before ++ [.sealHandle jobID], sealedJob name ≠ none →
        ∃ encoded, loadObject faults .listing id mirror name = .ok encoded

/-- Discovery can see the job: its seal is listed, and mirrors serve its objects. -/
structure Visible (job : StagedJob) : Prop where
  reported : Reported store faults job.header.jobID
  sealServed : Served store faults (.sealHandle job.header.jobID) job.sealBytes
  segmentsServed : ∀ i s, job.segments[i]? = some s →
    Served store faults (.segmentHandle job.header.jobID (i + 1)) s.1

/-- No completion of the job is read, and no abandonment whose delay has passed. -/
def ReadOpen (header : Header) (sealSHA256 : String) : Prop :=
  readCompletion codec store faults header sealSHA256 = .ok none ∧
    ∀ abandonment, readAbandonment codec store faults header sealSHA256 = .ok (some abandonment) →
      store.now < abandonment.deleteAfter

end

/-! ## What discovery returns -/

variable {α : Type} {store : Store} {codec : Codec} {faults : Faults} {repositoryID jobID : String}
  {kind : String} {sequence : Nat} {decode : Bytes → Option α} {encoded : Bytes} {value : α}
  {candidates : List Bytes} {job : Job} {header : Header} {result : Finset ID} {ids : List ID}
  {staged : StagedJob}

theorem openObject_eq_ok {opened : α × String}
    (h : openObject codec decode encoded store.key repositoryID jobID kind sequence = .ok opened) :
    opened.2 = codec.sha256 encoded ∧
      Opens codec store decode repositoryID jobID kind sequence encoded opened.1 := by
  have hdigest := (openObject_inv h).2.2
  refine ⟨hdigest, ?_⟩
  unfold Opens
  rw [h, ← hdigest]

section

variable (h : Opens codec store decode repositoryID jobID kind sequence encoded value)
include h

theorem Opens.unique {value' : α}
    (h' : Opens codec store decode repositoryID jobID kind sequence encoded value') :
    value = value' := by
  have heq := Except.ok.inj (h.symm.trans h')
  exact congrArg Prod.fst heq

theorem Opens.ne_nil : encoded ≠ [] :=
  (openObject_inv h).1

end

theorem sealedJob_eq_some {name : Handle} (h : sealedJob name = some jobID) :
    name = .sealHandle jobID := by
  cases name with
  | sealHandle job =>
    dsimp only [sealedJob] at h
    split_ifs at h
    rw [Option.some.inj h]
  | _ => cases h

/-- A seal is collected when it and the seals before it could be loaded. -/
theorem mem_collectSeals {id : String} {mirror : Mirror} {names : List Handle} :
    (∃ encoded, (jobID, encoded) ∈ (collectSeals faults id mirror names).1) ↔
      ∃ before after, names = before ++ .sealHandle jobID :: after ∧
        sealedJob (.sealHandle jobID) = some jobID ∧
        ∀ name ∈ before ++ [.sealHandle jobID], sealedJob name ≠ none →
          ∃ encoded, loadObject faults .listing id mirror name = .ok encoded := by
  induction names with
  | nil =>
    constructor
    · rintro ⟨encoded, hmem⟩
      exact absurd hmem List.not_mem_nil
    · rintro ⟨before, after, hnames, -⟩
      exact absurd hnames (by simp)
  | cons name rest ih =>
    unfold collectSeals
    constructor
    · rintro ⟨encoded, hmem⟩
      cases hname : sealedJob name with
      | none =>
        rw [hname] at hmem
        obtain ⟨before, after, rfl, hvalid, hload⟩ := ih.mp ⟨encoded, hmem⟩
        refine ⟨name :: before, after, rfl, hvalid, List.forall_mem_cons.mpr ⟨?_, hload⟩⟩
        exact fun hne => absurd hname hne
      | some job =>
        rw [hname] at hmem
        have hhandle := sealedJob_eq_some hname
        cases hloaded : loadObject faults .listing id mirror (.sealHandle job) with
        | error fault => simp [hloaded] at hmem
        | ok copy =>
          simp only [hloaded, List.mem_cons] at hmem
          rcases hmem with hfirst | hmem
          · cases hfirst
            subst hhandle
            exact ⟨[], rest, rfl, hname, by simpa using fun _ => ⟨_, hloaded⟩⟩
          · obtain ⟨before, after, rfl, hvalid, hload⟩ := ih.mp ⟨encoded, hmem⟩
            refine ⟨name :: before, after, rfl, hvalid, List.forall_mem_cons.mpr ⟨?_, hload⟩⟩
            exact fun _ => ⟨copy, hhandle ▸ hloaded⟩
    · rintro ⟨before, after, hnames, hvalid, hload⟩
      cases before with
      | nil =>
        obtain ⟨rfl, rfl⟩ : name = .sealHandle jobID ∧ rest = after := by simpa using hnames
        obtain ⟨encoded, hloaded⟩ := hload (.sealHandle jobID) (by simp) (by simp [hvalid])
        exact ⟨encoded, by simp [hvalid, hloaded]⟩
      | cons first before =>
        obtain ⟨rfl, rfl⟩ : name = first ∧ rest = before ++ .sealHandle jobID :: after := by
          simpa using hnames
        obtain ⟨encoded, hrest⟩ := ih.mpr ⟨before, after, rfl, hvalid,
          fun other hother => hload other (.tail _ hother)⟩
        refine ⟨encoded, ?_⟩
        cases hname : sealedJob name with
        | none => exact hrest
        | some job =>
          obtain ⟨copy, hloaded⟩ := hload name (.head _) (by simp [hname])
          rw [sealedJob_eq_some hname] at hloaded
          simp [hloaded, hrest]

theorem mem_sealCopies :
    jobID ∈ ((sealCopies store faults).map (·.1)).dedup ↔ Reported store faults jobID := by
  rw [List.mem_dedup, List.mem_map]
  unfold sealCopies Reported
  simp only [List.mem_flatMap]
  constructor
  · rintro ⟨⟨job, encoded⟩, ⟨⟨id, mirror⟩, hentry, hmem⟩, rfl⟩
    exact ⟨id, mirror, Table.mem_entries_iff.mp hentry, mem_collectSeals.mp ⟨encoded, hmem⟩⟩
  · rintro ⟨id, mirror, hlook, hreported⟩
    obtain ⟨encoded, hmem⟩ := mem_collectSeals.mpr hreported
    exact ⟨(jobID, encoded), ⟨⟨id, mirror⟩, Table.mem_entries_iff.mpr hlook, hmem⟩, rfl⟩

/-- A state object that was read lies on enough mirrors. -/
theorem readState_eq_some {binds : α → Bool} {handle : Handle}
    (h : readState codec store faults decode binds header kind handle = .ok (some value)) :
    ∃ encoded, HeldWithPolicy store handle encoded ∧
      Opens codec store decode header.repositoryID header.jobID kind 0 encoded value ∧
      binds value = true := by
  unfold readState at h
  split at h
  · cases h
  · cases h
  rename_i encoded hload
  obtain ⟨opened, hopen, h⟩ := of_bind h
  split at h
  · rename_i hbinds
    cases h
    have hopens := (openObject_eq_ok hopen).2
    exact ⟨encoded, ((loadQuorum_spec (loadQuorum_of_optional hload)).2 hopens.ne_nil).2, hopens,
      hbinds⟩
  · cases h

/-- The seal of a discovered journal. -/
theorem discoverSeal_inv {found : Seal × String}
    (h : discoverSeal codec store faults repositoryID jobID candidates = .ok found) :
    ∃ first, loadQuorum store faults (.sealHandle jobID) = .ok first ∧
      found.2 = codec.sha256 first ∧
      Opens codec store codec.decodeSeal repositoryID jobID "seal" 0 first found.1 ∧
      found.1.header.repositoryID = repositoryID ∧ found.1.header.jobID = jobID := by
  unfold discoverSeal at h
  cases hload : loadQuorum store faults (.sealHandle jobID) with
  | error text => simp [hload] at h
  | ok first =>
    rw [hload] at h
    dsimp only at h
    split at h
    · cases h
    split at h
    · cases h
    obtain ⟨opened, hopen, h⟩ := of_bind h
    obtain ⟨_, -, h⟩ := of_bind h
    split at h
    · cases h
    rename_i hidentity
    push Not at hidentity
    cases h
    exact ⟨first, rfl, rfl, (openObject_eq_ok hopen).2, hidentity.1, hidentity.2.1⟩

/-- What the state objects leave of a journal that was pending or expired. -/
theorem resolveState_inv {job job' : Job} (h : resolveState codec store faults job = .ok job')
    (hstate : job.state = .sealedPending ∨ job.state = .expired) :
    job'.header = job.header ∧ job'.sealRecord = job.sealRecord ∧
      (∃ completion, readCompletion codec store faults job.header job.sealSHA256 = .ok completion) ∧
      (job'.isRoot store.now = true ↔ ReadOpen codec store faults job.header job.sealSHA256) := by
  obtain ⟨completion, hcompletion, h⟩ := of_bind h
  unfold ReadOpen
  rw [hcompletion]
  cases completion with
  | some completion =>
    cases h
    exact ⟨rfl, rfl, ⟨_, rfl⟩, by simp [Job.isRoot]⟩
  | none =>
    obtain ⟨abandonment, habandonment, h⟩ := of_bind h
    rw [habandonment]
    cases abandonment with
    | some abandonment =>
      cases h
      exact ⟨rfl, rfl, ⟨_, rfl⟩, by simp [Job.isRoot]⟩
    | none =>
      obtain ⟨rejection, hrejection, h⟩ := of_bind h
      cases rejection with
      | some rejection =>
        cases h
        exact ⟨rfl, rfl, ⟨_, rfl⟩, by simp [Job.isRoot]⟩
      | none =>
        cases h
        refine ⟨rfl, rfl, ⟨_, rfl⟩, ?_⟩
        rcases hstate with hstate | hstate <;> simp [Job.isRoot, hstate]

theorem discoverJob_inv
    (h : discoverJob codec store faults repositoryID jobID candidates = .ok job) :
    ∃ first, loadQuorum store faults (.sealHandle jobID) = .ok first ∧
      Opens codec store codec.decodeSeal repositoryID jobID "seal" 0 first job.sealRecord ∧
      job.header.repositoryID = repositoryID ∧ job.header.jobID = jobID ∧
      job.sealRecord.header = job.header ∧
      (∃ completion,
        readCompletion codec store faults job.header (codec.sha256 first) = .ok completion) ∧
      (job.isRoot store.now = true ↔
        ReadOpen codec store faults job.header (codec.sha256 first)) := by
  obtain ⟨found, hfound, h⟩ := of_bind h
  obtain ⟨chain, -, h⟩ := of_bind h
  obtain ⟨first, hload, hdigest, hopens, hrepository, hjob⟩ := discoverSeal_inv hfound
  obtain ⟨hheader, hrecord, hcompletion, hroot⟩ :=
    resolveState_inv h (by dsimp only; split <;> simp)
  rw [hheader, hrecord]
  rw [hdigest] at hcompletion hroot
  exact ⟨first, hload, hopens, hrepository, hjob, rfl, hcompletion, hroot⟩

/-- The segments of a verified journal, with their objects. -/
theorem verifySegments_inv {previous : String} {digests : List String} {segments : List Segment}
    (h : verifySegments codec store faults header sequence previous digests = .ok segments) :
    ∃ entries : List (Bytes × Segment), entries.map (·.2) = segments ∧
      entries.map (fun s => codec.sha256 s.1) = digests ∧
      ∀ i s, entries[i]? = some s →
        loadQuorum store faults (.segmentHandle header.jobID (sequence + i)) = .ok s.1 ∧
        Opens codec store codec.decodeSegment header.repositoryID header.jobID "segment"
          (sequence + i) s.1 s.2 := by
  induction digests generalizing sequence previous segments with
  | nil =>
    cases h
    exact ⟨[], rfl, rfl, by simp⟩
  | cons expected rest ih =>
    unfold verifySegments at h
    cases hload : loadQuorum store faults (.segmentHandle header.jobID sequence) with
    | error text => simp [hload] at h
    | ok authoritative =>
      rw [hload] at h
      dsimp only at h
      split at h
      · cases h
      rename_i hdigest
      obtain ⟨opened, hopen, h⟩ := of_bind h
      split at h
      · cases h
      obtain ⟨_, -, h⟩ := of_bind h
      obtain ⟨later, hlater, h⟩ := of_bind h
      cases h
      obtain ⟨entries, hsegments, hdigests, hentries⟩ := ih hlater
      refine ⟨(authoritative, opened.1) :: entries, by simp [hsegments], ?_, ?_⟩
      · rw [List.map_cons, hdigests]
        exact congrArg (· :: rest) (by simpa using hdigest)
      intro i s hs
      cases i with
      | zero =>
        obtain rfl : (authoritative, opened.1) = s := by simpa using hs
        exact ⟨hload, (openObject_eq_ok hopen).2⟩
      | succ i =>
        have hstep := hentries i s (by simpa using hs)
        rwa [show sequence + 1 + i = sequence + (i + 1) by omega] at hstep

/-- A verified journal, with the objects that it was read from. -/
theorem protectedBy_inv (h : protectedBy codec store faults job = .ok ids) :
    ∃ entries : List (Bytes × Segment),
      entries.map (fun s => codec.sha256 s.1) = job.sealRecord.segmentSHA256 ∧
      (∀ i s, entries[i]? = some s →
        loadQuorum store faults (.segmentHandle job.header.jobID (i + 1)) = .ok s.1 ∧
        Opens codec store codec.decodeSegment job.header.repositoryID job.header.jobID "segment"
          (i + 1) s.1 s.2) ∧
      (∀ id, id ∈ ids ↔ ∃ pack ∈ entries.flatMap (·.2.packs), parseID pack.id = .ok id) ∧
      ∀ pack ∈ entries.flatMap (·.2.packs), ∃ id, parseID pack.id = .ok id := by
  obtain ⟨segments, hverify, hpacks⟩ := of_bind h
  unfold verifyJob at hverify
  split at hverify
  · cases hverify
  split at hverify
  · cases hverify
  obtain ⟨entries, hsegments, hdigests, hentries⟩ := verifySegments_inv hverify
  have hparse : ∀ pack id, stagedPackID pack = .ok id ↔ parseID pack.id = .ok id := by
    intro pack id
    unfold stagedPackID
    cases parseID pack.id <;> simp
  rw [← hsegments, List.flatMap_map] at hpacks
  refine ⟨entries, hdigests, fun i s hs => ?_, fun id => ?_, fun pack hpack => ?_⟩
  · have hentry := hentries i s hs
    rwa [Nat.add_comm 1 i] at hentry
  · rw [mem_of_mapM_map hpacks]
    exact exists_congr fun pack => and_congr_right fun _ => hparse pack id
  · obtain ⟨id, -, hid⟩ := ok_of_mapM_map hpacks hpack
    exact ⟨id, (hparse pack id).mp hid⟩

/-- The protected set, over the journals that were discovered. -/
theorem mem_of_current (h : current codec store faults repositoryID = .ok result) :
    (∀ jobID, Reported store faults jobID → ∃ candidates job,
      discoverJob codec store faults repositoryID jobID candidates = .ok job ∧
      (job.isRoot store.now = true → ∃ ids, protectedBy codec store faults job = .ok ids ∧
        ∀ id ∈ ids, id ∈ result)) ∧
    ∀ id ∈ result, ∃ jobID candidates job ids, Reported store faults jobID ∧
      discoverJob codec store faults repositoryID jobID candidates = .ok job ∧
      job.isRoot store.now = true ∧ protectedBy codec store faults job = .ok ids ∧ id ∈ ids := by
  obtain ⟨jobs, hdiscover, h⟩ := of_bind h
  obtain ⟨found, hfound, h⟩ := of_bind h
  obtain ⟨unsorted, hjobs, hsorted⟩ := of_bind hdiscover
  cases h
  have hmem : ∀ job, job ∈ jobs ↔ job ∈ unsorted := by
    intro job
    rw [← Except.ok.inj hsorted]
    exact List.mem_insertionSort _
  constructor
  · intro jobID hreported
    obtain ⟨job, hjob, hok⟩ := ok_of_mapM_map hjobs (mem_sealCopies.mpr hreported)
    refine ⟨_, job, hok, fun hroot => ?_⟩
    obtain ⟨ids, hids, hprotected⟩ :=
      ok_of_mapM_map hfound (List.mem_filter.mpr ⟨(hmem job).mpr hjob, hroot⟩)
    refine ⟨ids, hprotected, fun id hid => ?_⟩
    rw [List.mem_toFinset, List.mem_flatten]
    exact ⟨ids, hids, hid⟩
  · intro id hid
    rw [List.mem_toFinset, List.mem_flatten] at hid
    obtain ⟨ids, hids, hid⟩ := hid
    obtain ⟨job, hjob, hprotected⟩ := (mem_of_mapM_map hfound).mp hids
    obtain ⟨hjob, hroot⟩ := List.mem_filter.mp hjob
    obtain ⟨jobID, hlisted, hok⟩ := (mem_of_mapM_map hjobs).mp ((hmem job).mp hjob)
    exact ⟨jobID, _, job, ids, mem_sealCopies.mp hlisted, hok, hroot, hprotected, hid⟩

section

variable (hsealed : Sealed codec store repositoryID staged) (hvisible : Visible store faults staged)
include hsealed hvisible

/-- What is read of a visible job is the job. -/
theorem Visible.discovered
    (h : discoverJob codec store faults repositoryID staged.header.jobID candidates = .ok job) :
    job.header = staged.header ∧
      job.sealRecord.segmentSHA256 = staged.segments.map (fun s => codec.sha256 s.1) ∧
      (∃ completion, readCompletion codec store faults staged.header
        (codec.sha256 staged.sealBytes) = .ok completion) ∧
      (job.isRoot store.now = true ↔
        ReadOpen codec store faults staged.header (codec.sha256 staged.sealBytes)) := by
  obtain ⟨first, hload, hopens, -, -, hheader, hcompletion, hroot⟩ := discoverJob_inv h
  obtain rfl : staged.sealBytes = first := (loadQuorum_spec hload).1 _ hvisible.sealServed
  obtain ⟨record, hrecord, hdigests, hseal⟩ := hsealed.seals
  obtain rfl : record = job.sealRecord := hseal.unique hopens
  rw [hheader] at hrecord
  rw [hrecord] at hcompletion hroot
  exact ⟨hrecord, hdigests, hcompletion, hroot⟩

/-- The segments read of a visible job are its segments. -/
theorem Visible.entries_eq {entries : List (Bytes × Segment)}
    (hdigests : entries.map (fun s => codec.sha256 s.1) =
      staged.segments.map (fun s => codec.sha256 s.1)) (hentries : ∀ i s, entries[i]? = some s →
      loadQuorum store faults (.segmentHandle staged.header.jobID (i + 1)) = .ok s.1 ∧
      Opens codec store codec.decodeSegment repositoryID staged.header.jobID "segment" (i + 1) s.1
        s.2) : entries = staged.segments := by
  have hlength : entries.length = staged.segments.length := by
    simpa using congrArg List.length hdigests
  refine List.ext_getElem hlength fun i hi hi' => ?_
  obtain ⟨hload, hopens⟩ := hentries i entries[i] (List.getElem?_eq_getElem hi)
  have hserved := hvisible.segmentsServed i staged.segments[i] (List.getElem?_eq_getElem hi')
  have hbytes : staged.segments[i].1 = entries[i].1 := (loadQuorum_spec hload).1 _ hserved
  have hopens' := hsealed.opens i staged.segments[i] (List.getElem?_eq_getElem hi')
  rw [hbytes] at hopens'
  exact Prod.ext hbytes.symm (hopens.unique hopens')

/-- What is protected for a visible job are its packs, and they all have identifiers. -/
theorem Visible.mem_protectedBy (hheader : job.header = staged.header)
    (hdigests : job.sealRecord.segmentSHA256 = staged.segments.map (fun s => codec.sha256 s.1))
    (h : protectedBy codec store faults job = .ok ids) :
    (∀ id, id ∈ ids ↔ ∃ pack ∈ staged.packs, parseID pack.id = .ok id) ∧
      ∀ pack ∈ staged.packs, ∃ id, parseID pack.id = .ok id := by
  obtain ⟨entries, hdigests', hentries, hids, hparse⟩ := protectedBy_inv h
  rw [hheader, hsealed.repository] at hentries
  obtain rfl := hvisible.entries_eq hsealed (hdigests'.trans hdigests) hentries
  exact ⟨hids, hparse⟩

end

/-- The protected packs are those of the jobs that can be seen and are read as open. -/
theorem mem_current (h : current codec store faults repositoryID = .ok result) {id : ID} :
    id ∈ result ↔ ∃ staged : StagedJob, Sealed codec store repositoryID staged ∧
      Visible store faults staged ∧
      ReadOpen codec store faults staged.header (codec.sha256 staged.sealBytes) ∧
      ∃ pack ∈ staged.packs, parseID pack.id = .ok id := by
  obtain ⟨hreported, hresult⟩ := mem_of_current h
  constructor
  · intro hid
    obtain ⟨jobID, candidates, job, ids, hlisted, hjob, hroot, hprotected, hid⟩ := hresult id hid
    obtain ⟨first, hload, hopens, rfl, rfl, hheader, -, hopen⟩ := discoverJob_inv hjob
    obtain ⟨entries, hdigests, hentries, hids, -⟩ := protectedBy_inv hprotected
    refine ⟨⟨job.header, first, entries⟩, ⟨rfl, ⟨job.sealRecord, hheader, hdigests.symm, hopens⟩,
      fun i s hs => (hentries i s hs).2⟩, ⟨hlisted, ?_, fun i s hs => ?_⟩, hopen.mp hroot,
      (hids id).mp hid⟩
    · exact ((loadQuorum_spec hload).2 hopens.ne_nil).1
    · exact ((loadQuorum_spec (hentries i s hs).1).2 (hentries i s hs).2.ne_nil).1
  · rintro ⟨staged, hsealed, hvisible, hopen, hpack⟩
    obtain ⟨candidates, job, hjob, hprotects⟩ := hreported _ hvisible.reported
    obtain ⟨hheader, hdigests, -, hroot⟩ := hvisible.discovered hsealed hjob
    obtain ⟨ids, hids, hsubset⟩ := hprotects (hroot.mpr hopen)
    exact hsubset id ((hvisible.mem_protectedBy hsealed hheader hdigests hids).1 id |>.mpr hpack)

/-- A job that is neither committed nor abandoned for good is not read as such. -/
theorem Live.readOpen (hlive : Live codec store staged)
    (hcompletion : ∃ completion, readCompletion codec store faults staged.header
      (codec.sha256 staged.sealBytes) = .ok completion) :
    ReadOpen codec store faults staged.header (codec.sha256 staged.sealBytes) := by
  obtain ⟨hcommitted, habandoned⟩ := hlive
  constructor
  · obtain ⟨_ | completion, hread⟩ := hcompletion
    · exact hread
    · obtain ⟨encoded, hheld, hopens, hbinds⟩ := readState_eq_some hread
      simp only [Bool.and_eq_true, decide_eq_true_eq] at hbinds
      exact absurd ⟨encoded, completion, hheld, hopens, hbinds⟩ hcommitted
  · intro abandonment hread
    obtain ⟨encoded, hheld, hopens, hbinds⟩ := readState_eq_some hread
    simp only [Bool.and_eq_true, decide_eq_true_eq] at hbinds
    by_contra hpassed
    exact habandoned ⟨encoded, abandonment, hheld, hopens, hbinds.1, hbinds.2, not_lt.mp hpassed⟩

/-- The pack is in the set. -/
def Protected (result : Finset ID) (pack : Pack) : Prop := ∃ id ∈ result, parseID pack.id = .ok id

/-- A read that returned protects all packs of all live published jobs exactly when each
such job is visible, or each of its packs is also a pack of a visible job that is read
as open. -/
theorem current_protects_iff (codec : Codec) (store : Store) (faults : Faults)
    (repositoryID : String) (result : Finset ID)
    (h : current codec store faults repositoryID = .ok result) :
    (∀ job, Published codec store repositoryID job → Live codec store job →
        ∀ pack ∈ job.packs, Protected result pack) ↔
      ∀ job, Published codec store repositoryID job → Live codec store job →
        Visible store faults job ∨ ∀ pack ∈ job.packs,
          ∃ other, Sealed codec store repositoryID other ∧
          Visible store faults other ∧
          ReadOpen codec store faults other.header (codec.sha256 other.sealBytes) ∧
          ∃ pack' ∈ other.packs, ∃ id, parseID pack.id = .ok id ∧ parseID pack'.id = .ok id := by
  constructor
  · intro hprotects job hpublished hlive
    refine .inr fun pack hpack => ?_
    obtain ⟨id, hid, hparse⟩ := hprotects job hpublished hlive pack hpack
    obtain ⟨other, hsealed, hvisible, hopen, pack', hpack', hparse'⟩ := (mem_current h).mp hid
    exact ⟨other, hsealed, hvisible, hopen, pack', hpack', id, hparse, hparse'⟩
  · intro hcondition job hpublished hlive pack hpack
    rcases hcondition job hpublished hlive with hvisible | hcovered
    · obtain ⟨candidates, found, hjob, hprotects⟩ := (mem_of_current h).1 _ hvisible.reported
      obtain ⟨hheader, hdigests, hcompletion, hroot⟩ :=
        hvisible.discovered hpublished.isSealed hjob
      have hopen := hlive.readOpen hcompletion
      -- The read of the job returned, so each of its packs has an identifier.
      obtain ⟨ids, hids, hsubset⟩ := hprotects (hroot.mpr hopen)
      obtain ⟨hmem, hparses⟩ :=
        hvisible.mem_protectedBy hpublished.isSealed hheader hdigests hids
      obtain ⟨id, hparse⟩ := hparses pack hpack
      exact ⟨id, hsubset id ((hmem id).mpr ⟨pack, hpack, hparse⟩), hparse⟩
    · obtain ⟨other, hsealed, hvisible, hopen, pack', hpack', id, hparse, hparse'⟩ :=
        hcovered pack hpack
      exact
        ⟨id, (mem_current h).mpr ⟨other, hsealed, hvisible, hopen, pack', hpack', hparse'⟩, hparse⟩

/-! ## A mirror whose listing fails -/

def zeroDigest : String := String.ofList (List.replicate 64 '0')

def sampleHeader : Header :=
  { format := 1, repositoryID := "repo", jobID := "job", idempotencyKey := "key", createdAt := 1
    expiresAt := 100, capsuleGeneration := 1, repositoryKeyVersion := 1, chunkerVersion := ""
    compressionVersion := "", placementPolicyVersion := 1, sourceIdentitySHA256 := zeroDigest
    consistencyEvidence := "" }

def samplePack : Pack :=
  { id := zeroDigest, type := "data", size := 10, payloadSize := 4, headerSize := 6, blobCount := 1
    sha256 := zeroDigest, placements := [⟨"b", "d", false, 10, zeroDigest⟩] }

def sampleSegment : Segment := { header := sampleHeader, sequence := 1, packs := [samplePack] }

def sampleSeal : Seal :=
  { header := sampleHeader, state := .sealedPending, segmentSHA256 := [zeroDigest], packCount := 1
    protectedBytes := 10, sealedAt := 2 }

/-- Under this codec the object `[1]` is the seal of the job and `[2]` its segment. -/
def sampleCodec : Codec where
  decodeEnvelope encoded :=
    if encoded = [1] then some ⟨1, "repo", "job", "seal", 0, [], [1]⟩
    else if encoded = [2] then some ⟨1, "repo", "job", "segment", 1, [], [2]⟩ else none
  unmarshalEnvelope encoded :=
    if encoded = [1] then some ⟨1, "repo", "job", "seal", 0, [], [1]⟩ else none
  decrypt _ object := some object.ciphertext
  decodeSegment plaintext := if plaintext = [2] then some sampleSegment else none
  decodeSeal plaintext := if plaintext = [1] then some sampleSeal else none
  decodeCompletion _ := none
  decodeAbandonment _ := none
  decodeRejection _ := none
  decodeExtension _ := none
  marshaledSize _ := 100
  sha256 _ := zeroDigest
  decodeEnvelope_nil := by decide

/-- The objects of the job. -/
def sampleMirror : Mirror :=
  ((∅ : Table Handle Bytes).insert (Handle.sealHandle "job") [1]).insert
    (Handle.segmentHandle "job" 1) [2]

def sampleStore : Store :=
  { mirrors := (∅ : Table String Mirror).insert "m" sampleMirror
    key := List.replicate 32 0
    policy := ⟨1, 1, 0⟩
    now := 50 }

def sampleJob : StagedJob := ⟨sampleHeader, [1], [([2], sampleSegment)]⟩

theorem sampleJob_published : Published sampleCodec sampleStore "repo" sampleJob := by
  have hsegment : ∀ i s, sampleJob.segments[i]? = some s → i = 0 ∧ s = ([2], sampleSegment) := by
    intro i s hs
    cases i <;> simp_all [sampleJob]
  refine ⟨⟨rfl, ⟨sampleSeal, rfl, rfl, by unfold Opens; rfl⟩, fun i s hs => ?_⟩,
    by unfold HeldWithPolicy PolicyMet; decide, fun i s hs => ?_⟩ <;>
    obtain ⟨rfl, rfl⟩ := hsegment i s hs
  · unfold Opens
    rfl
  · unfold HeldWithPolicy PolicyMet
    decide

theorem sampleJob_live : Live sampleCodec sampleStore sampleJob := by
  constructor
  all_goals
    rintro ⟨encoded, state, -, hopens, -⟩
    obtain ⟨-, ⟨plaintext, hdecode⟩, -⟩ := openObject_inv hopens
    cases hdecode

/-- The mirror that has the job cannot be listed: no error, and nothing is protected. -/
theorem current_misses_unlisted_job :
    ∃ result, current sampleCodec sampleStore { list := fun _ => some 0 } "repo" = .ok result ∧
      ∃ job, Published sampleCodec sampleStore "repo" job ∧ Live sampleCodec sampleStore job ∧
        ∃ pack ∈ job.packs, ¬Protected result pack := by
  have hrun : okAnd (current sampleCodec sampleStore { list := fun _ => some 0 } "repo")
      (fun result => decide (result = ∅)) = true := by
    decide +kernel
  obtain ⟨result, hresult, hempty⟩ := okAnd_eq_true.mp hrun
  obtain rfl : result = ∅ := by simpa using hempty
  refine ⟨∅, hresult, sampleJob, sampleJob_published, sampleJob_live, samplePack, by decide, ?_⟩
  rintro ⟨id, hid, -⟩
  exact absurd hid (Finset.notMem_empty id)

theorem current_protects_iff_sample :
    ∃ result, current sampleCodec sampleStore {} "repo" = .ok result ∧ result = {0} ∧
      ((∀ job, Published sampleCodec sampleStore "repo" job → Live sampleCodec sampleStore job →
          ∀ pack ∈ job.packs, Protected result pack) ↔
        ∀ job, Published sampleCodec sampleStore "repo" job → Live sampleCodec sampleStore job →
          Visible sampleStore {} job ∨ ∀ pack ∈ job.packs, ∃ other,
            Sealed sampleCodec sampleStore "repo" other ∧ Visible sampleStore {} other ∧
            ReadOpen sampleCodec sampleStore {} other.header
              (sampleCodec.sha256 other.sealBytes) ∧
            ∃ pack' ∈ other.packs, ∃ id, parseID pack.id = .ok id ∧ parseID pack'.id = .ok id) := by
  have hrun : okAnd (current sampleCodec sampleStore {} "repo")
      (fun result => decide (result = {0})) = true := by
    decide +kernel
  obtain ⟨result, hresult, hset⟩ := okAnd_eq_true.mp hrun
  exact ⟨result, hresult, by simpa using hset,
    current_protects_iff sampleCodec sampleStore {} "repo" result hresult⟩

end Vaultic.Staging
