/-
  Staging/Mirrors.lean  —  journal objects on several mirrors.

  Source: internal/repository/staging/journal.go (`Publish`, `publish`, `loadQuorum`,
  `loadOptionalQuorum`, `loadObject`).

  A journal object is written once to each mirror that takes it, and read from every
  mirror that serves it.  Each call to a mirror may fail; which ones do is an input.
  The mirrors are visited in the order of their table, and any order is the order of
  some table.
-/
import Vaultic.Lib.Run
import Vaultic.Staging.Records

set_option autoImplicit false

namespace Vaultic.Staging

open Vaultic.Lib

/-! ## Mirrors -/

/-- The names of journal objects.  They differ by suffixes of fixed length, so that
none is the name of another object as well. -/
inductive Handle where
  | segmentHandle (jobID : String) (sequence : Nat)
  | sealHandle (jobID : String)
  | completionHandle (jobID : String)
  | abandonmentHandle (jobID : String)
  | rejectionHandle (jobID : String)
  | extensionHandle (jobID : String) (generation : Nat)
  deriving DecidableEq, Repr

abbrev Mirror := Table Handle Bytes

structure MirrorPlacement where
  failureDomain : String
  offsite : Bool

structure Store where
  mirrors : Table String Mirror
  mirrorPlacements : Table String MirrorPlacement := ∅
  key : Bytes
  policy : Policy
  now : Time

/-- Where in the code an object is read. -/
inductive Site where
  | inspect
  | recheck
  | verify
  | listing
  | quorum
  | optional

inductive SaveOutcome where
  | saved
  | refused
  /-- The object was stored, but an error was returned. -/
  | unacknowledged
  deriving DecidableEq, Repr

/-- The calls to mirrors that fail. -/
structure Faults where
  /-- A listing that fails does so after it has reported so many names. -/
  list : String → Option Nat := fun _ => none
  (stat load : Site → String → Handle → Bool := fun _ _ _ => false)
  save : String → Handle → SaveOutcome := fun _ _ => .saved

inductive LoadError where
  | notExist
  | failed (text : String)

/-- The size of an object. -/
def statObject (faults : Faults) (site : Site) (id : String) (mirror : Mirror) (handle : Handle) :
    Except LoadError Nat :=
  if faults.stat site id handle then .error (.failed "stat failed")
  else match mirror.lookup handle with
    | none => .error .notExist
    | some encoded => .ok encoded.length

def loadObject (faults : Faults) (site : Site) (id : String) (mirror : Mirror) (handle : Handle) :
    Except LoadError Bytes := do
  let size ← statObject faults site id mirror handle
  if size = 0 ∨ size > maxSegmentBytes * 2 then
    .error (.failed "journal object has invalid size")
  else if faults.load site id handle then .error (.failed "load failed")
  else .ok ((mirror.lookup handle).getD [])

variable {faults : Faults} {handle : Handle} {encoded : Bytes} {mirror : Mirror} {id : String}

/-- What is served is what the mirror has, and it is not empty. -/
theorem lookup_of_loadObject {site : Site}
    (h : loadObject faults site id mirror handle = .ok encoded) :
    mirror.lookup handle = some encoded ∧ encoded ≠ [] := by
  obtain ⟨size, hstat, hload⟩ := of_bind h
  unfold statObject at hstat
  cases hlook : mirror.lookup handle with
  | none =>
    rw [hlook] at hstat
    split at hstat <;> cases hstat
  | some stored =>
    rw [hlook] at hstat hload
    split at hstat
    · cases hstat
    obtain rfl : stored.length = size := by simpa using hstat
    split at hload
    · cases hload
    rename_i hsize
    split at hload
    · cases hload
    obtain rfl : stored = encoded := by simpa using hload
    refine ⟨rfl, ?_⟩
    rintro rfl
    exact hsize (.inl rfl)

theorem lookup_of_notExist {site : Site}
    (h : loadObject faults site id mirror handle = .error .notExist) :
    mirror.lookup handle = none := by
  cases hlook : mirror.lookup handle with
  | none => rfl
  | some stored =>
      unfold loadObject statObject at h
      rw [hlook] at h
      split at h
      · cases h
      simp only [bind, Except.bind] at h
      split at h
      · cases h
      · split at h <;> cases h

/-! ## The policy -/

structure Tally where
  (successes offsite : Nat := 0)
  domains : Finset String := ∅

def placementOf (store : Store) (id : String) : MirrorPlacement :=
  (store.mirrorPlacements.lookup id).getD ⟨id, false⟩

def Tally.count (store : Store) (tally : Tally) (id : String) : Tally :=
  { successes := tally.successes + 1
    offsite := if (placementOf store id).offsite then tally.offsite + 1 else tally.offsite
    domains := insert (placementOf store id).failureDomain tally.domains }

/-- The test at the end of a publication and of a read. -/
def Policy.satisfied (policy : Policy) (tally : Tally) : Bool :=
  !(decide (tally.successes < policy.minCopies) ||
    decide (tally.domains.card < policy.minDomains) || decide (tally.offsite < policy.minOffsite))

/-- The mirrors `ids` together meet the policy. -/
def PolicyMet (store : Store) (ids : List String) : Prop :=
  store.policy.satisfied (ids.foldl (Tally.count store) {}) = true

structure Tally.Le (left right : Tally) : Prop where
  successes : left.successes ≤ right.successes
  offsite : left.offsite ≤ right.offsite
  domains : left.domains ⊆ right.domains

theorem Tally.Le.refl (tally : Tally) : tally.Le tally := ⟨le_rfl, le_rfl, Finset.Subset.refl _⟩

theorem Tally.Le.trans {a b c : Tally} (hab : a.Le b) (hbc : b.Le c) : a.Le c :=
  ⟨hab.successes.trans hbc.successes, hab.offsite.trans hbc.offsite, hab.domains.trans hbc.domains⟩

theorem Tally.le_count (store : Store) (tally : Tally) (id : String) :
    tally.Le (tally.count store id) := by
  refine ⟨Nat.le_succ _, ?_, Finset.subset_insert _ _⟩
  unfold Tally.count
  dsimp only
  split <;> omega

variable {store : Store}

theorem Tally.Le.count {left right : Tally} (h : left.Le right) (id : String) :
    (left.count store id).Le (right.count store id) := by
  refine ⟨Nat.succ_le_succ h.successes, ?_, Finset.insert_subset_insert _ h.domains⟩
  have hoffsite := h.offsite
  unfold Tally.count
  dsimp only
  split <;> omega

/-- More mirrors count for more. -/
theorem Tally.foldl_count_le {ids ids' : List String} (h : ids.Sublist ids')
    {left right : Tally} (hle : left.Le right) :
    (ids.foldl (Tally.count store) left).Le (ids'.foldl (Tally.count store) right) := by
  induction h generalizing left right with
  | slnil => exact hle
  | cons id _ ih => exact ih (hle.trans (Tally.le_count store right id))
  | cons_cons id _ ih => exact ih (hle.count id)

theorem PolicyMet.mono {ids ids' : List String} (h : PolicyMet store ids)
    (hsub : ids.Sublist ids') : PolicyMet store ids' := by
  have hle := @Tally.foldl_count_le store _ _ hsub _ _ (Tally.Le.refl {})
  have hcard := Finset.card_le_card hle.domains
  unfold PolicyMet Policy.satisfied at h ⊢
  simp only [Bool.not_eq_true', Bool.or_eq_false_iff, decide_eq_false_iff_not, not_lt] at h ⊢
  exact ⟨⟨h.1.1.trans hle.successes, h.1.2.trans hcard⟩, h.2.trans hle.offsite⟩

/-- The mirrors that have an object. -/
def holders (store : Store) (handle : Handle) (encoded : Bytes) : List String :=
  (store.mirrors.entries.filter fun e => decide (e.2.lookup handle = some encoded)).map (·.1)

/-- The object is on enough mirrors. -/
def HeldWithPolicy (store : Store) (handle : Handle) (encoded : Bytes) : Prop :=
  PolicyMet store (holders store handle encoded)

/-! ## Publication -/

/-- The mirror after a `Save`. -/
def saveObject (faults : Faults) (handle : Handle) (encoded : Bytes) (id : String)
    (mirror : Mirror) : Mirror :=
  if faults.save id handle = .refused then mirror else mirror.insert handle encoded

/-- `Publish` on one mirror. -/
def publishTo (faults : Faults) (handle : Handle) (encoded : Bytes) (id : String)
    (mirror : Mirror) : Mirror × Result Unit :=
  if encoded = [] ∨ encoded.length > maxSegmentBytes then
    (mirror, .error "journal publication requires staging mirrors")
  else
    match loadObject faults .inspect id mirror handle with
    | .ok existing =>
      if existing ≠ encoded then
        (mirror, .error ("journal object conflicts with immutable object on " ++ id))
      else (mirror, .ok ())
    | .error (.failed text) => (mirror, .error ("inspect journal object on " ++ id ++ ": " ++ text))
    | .error .notExist =>
      let stored := saveObject faults handle encoded id mirror
      if faults.save id handle ≠ .saved ∧
          okAnd (loadObject faults .recheck id stored handle) (fun b => decide (b = encoded)) =
            false then
        (stored, .error ("publish journal object to " ++ id))
      else if okAnd (loadObject faults .verify id stored handle)
          (fun b => decide (b = encoded)) = false then
        (stored, .error ("verify journal object on " ++ id))
      else (stored, .ok ())

/-- `publish` -/
def publish (store : Store) (faults : Faults) (handle : Handle) (encoded : Bytes) :
    Store × Result Unit :=
  let next := { store with mirrors := store.mirrors.mapValues fun id mirror =>
    (publishTo faults handle encoded id mirror).1 }
  let successes := (store.mirrors.entries.filter fun e =>
    okAnd (publishTo faults handle encoded e.1 e.2).2 fun _ => true).map (·.1)
  if store.policy.satisfied (successes.foldl (Tally.count store) {}) = false then
    (next, .error "journal publication policy unsatisfied")
  else (next, .ok ())

/-- A mirror that was published to has the object, and has lost nothing else. -/
theorem publishTo_spec :
    (∀ other stored, mirror.lookup other = some stored →
      (publishTo faults handle encoded id mirror).1.lookup other = some stored) ∧
    ((publishTo faults handle encoded id mirror).2 = .ok () →
      (publishTo faults handle encoded id mirror).1.lookup handle = some encoded) := by
  unfold publishTo
  split
  · exact ⟨fun _ _ h => h, fun h => by cases h⟩
  cases hload : loadObject faults .inspect id mirror handle with
  | ok existing =>
    dsimp only
    split
    · exact ⟨fun _ _ h => h, fun h => by cases h⟩
    · rename_i hsame
      obtain rfl : existing = encoded := by simpa using hsame
      exact ⟨fun _ _ h => h, fun _ => (lookup_of_loadObject hload).1⟩
  | error fault =>
    cases fault with
    | failed text => exact ⟨fun _ _ h => h, fun h => by cases h⟩
    | notExist =>
      have habsent : mirror.lookup handle = none := lookup_of_notExist hload
      have hkeeps : ∀ other stored, mirror.lookup other = some stored →
          (saveObject faults handle encoded id mirror).lookup other = some stored := by
        intro other stored hlook
        unfold saveObject
        split
        · exact hlook
        rw [Table.lookup_insert_eq, if_neg]
        · exact hlook
        · rintro rfl
          rw [habsent] at hlook
          cases hlook
      dsimp only
      split
      · exact ⟨hkeeps, fun h => by cases h⟩
      split
      · exact ⟨hkeeps, fun h => by cases h⟩
      rename_i hverified
      refine ⟨hkeeps, fun _ => ?_⟩
      obtain ⟨loaded, hloaded, heq⟩ := okAnd_eq_true.mp (by simpa using hverified)
      obtain rfl : loaded = encoded := by simpa using heq
      exact (lookup_of_loadObject hloaded).1

/-- What has been published is on enough mirrors. -/
theorem heldWithPolicy_of_publish {store next : Store}
    (h : publish store faults handle encoded = (next, .ok ())) :
    HeldWithPolicy next handle encoded := by
  unfold publish at h
  dsimp only at h
  split at h
  · cases h
  rename_i hpolicy
  cases h
  have hmet : PolicyMet store ((store.mirrors.entries.filter fun e =>
      okAnd (publishTo faults handle encoded e.1 e.2).2 fun _ => true).map (·.1)) := by
    simpa [PolicyMet] using hpolicy
  refine hmet.mono ?_
  unfold holders Table.mapValues
  dsimp only
  rw [List.filter_map, List.map_map]
  refine (List.monotone_filter_right _ fun e hok => ?_).map _
  obtain ⟨_, hpublished, -⟩ := okAnd_eq_true.mp hok
  simpa using publishTo_spec.2 hpublished

/-- A publication takes nothing from the mirrors. -/
theorem HeldWithPolicy.publish {handle other : Handle} {encoded stored : Bytes}
    (h : HeldWithPolicy store other stored) :
    HeldWithPolicy (publish store faults handle encoded).1 other stored := by
  have hmet : PolicyMet (Staging.publish store faults handle encoded).1
      (holders store other stored) := by
    unfold Staging.publish
    dsimp only
    split <;> exact h
  refine hmet.mono ?_
  have hmirrors : (Staging.publish store faults handle encoded).1.mirrors =
      store.mirrors.mapValues fun id mirror => (publishTo faults handle encoded id mirror).1 := by
    unfold Staging.publish
    dsimp only
    split <;> rfl
  unfold holders
  rw [hmirrors]
  unfold Table.mapValues
  dsimp only
  rw [List.filter_map, List.map_map]
  refine (List.monotone_filter_right _ fun e hheld => ?_).map _
  simpa using publishTo_spec.1 other stored (of_decide_eq_true hheld)

/-- A published object stays on enough mirrors, whatever is published later and whatever fails. -/
theorem published_stays_held (later : List (Faults × Handle × Bytes))
    (hok : (publish store faults handle encoded).2 = .ok ()) :
    HeldWithPolicy (later.foldl (fun store call => (publish store call.1 call.2.1 call.2.2).1)
      (publish store faults handle encoded).1) handle encoded :=
  run_invariant (HeldWithPolicy · handle encoded) (fun _ _ h => h.publish) later
    (heldWithPolicy_of_publish (Prod.ext rfl hok))

theorem published_stays_held_single :
    let store : Store :=
      { mirrors := (∅ : Table String Mirror).insert "a" ∅, key := [], now := 0
        policy := ⟨1, 1, 0⟩ }
    HeldWithPolicy (publish (publish store {} (.sealHandle "1") [1]).1 {} (.sealHandle "2") [2]).1
      (.sealHandle "1") [1] :=
  published_stays_held [(_, .sealHandle "2", [2])] (by decide +kernel)

/-! ## Reads -/

section

variable (store : Store) (faults : Faults)

/-- The object was served to `loadQuorum` by some mirror. -/
def Served (handle : Handle) (encoded : Bytes) : Prop :=
  ∃ id mirror, store.mirrors.lookup id = some mirror ∧
    loadObject faults .quorum id mirror handle = .ok encoded

/-- The turn of one mirror in `loadQuorum`. -/
def readMirror (handle : Handle) (state : Option Bytes × Tally)
    (entry : Sigma fun _ : String => Mirror) : Result (Option Bytes × Tally) :=
  match loadObject faults .quorum entry.1 entry.2 handle with
  | .error _ => .ok state
  | .ok encoded =>
    match state.1 with
    | none => .ok (some encoded, state.2.count store entry.1)
    | some authoritative =>
      if authoritative ≠ encoded then .error "journal object conflicts across mirrors"
      else .ok (some authoritative, state.2.count store entry.1)

/-- `loadQuorum`.  Without any copy it returns nothing, which a policy of no copies
accepts. -/
def loadQuorum (handle : Handle) : Result Bytes := do
  let state ← store.mirrors.entries.foldlM (readMirror store faults handle) (none, {})
  if store.policy.satisfied state.2 = false then .error "journal read policy unsatisfied"
  else .ok (state.1.getD [])

/-- `loadOptionalQuorum` -/
def loadOptionalQuorum (handle : Handle) : Result (Option Bytes) :=
  if store.mirrors.entries.any fun e =>
      okAnd (statObject faults .optional e.1 e.2 handle) fun _ => true then do
    let encoded ← loadQuorum store faults handle
    .ok (some encoded)
  else .ok none

/-- The mirrors among `entries` that serve the object. -/
def servers (handle : Handle) (entries : List (Sigma fun _ : String => Mirror)) (encoded : Bytes) :
    List String :=
  (entries.filter fun e =>
    okAnd (loadObject faults .quorum e.1 e.2 handle) fun b => decide (b = encoded)).map (·.1)

end

variable {state state' : Option Bytes × Tally}

/-- One mirror either does not serve the object, or agrees with the others. -/
theorem readMirror_inv {entry : Sigma fun _ : String => Mirror}
    (h : readMirror store faults handle state entry = .ok state') :
    ((∃ fault, loadObject faults .quorum entry.1 entry.2 handle = .error fault) ∧ state' = state) ∨
    ∃ encoded, loadObject faults .quorum entry.1 entry.2 handle = .ok encoded ∧
      (state.1 = none ∨ state.1 = some encoded) ∧
      state' = (some encoded, state.2.count store entry.1) := by
  unfold readMirror at h
  cases hload : loadObject faults .quorum entry.1 entry.2 handle with
  | error fault =>
    rw [hload] at h
    exact .inl ⟨⟨fault, rfl⟩, (Except.ok.inj h).symm⟩
  | ok encoded =>
    rw [hload] at h
    refine .inr ⟨encoded, rfl, ?_⟩
    cases hstate : state.1 with
    | none =>
      rw [hstate] at h
      exact ⟨.inl rfl, (Except.ok.inj h).symm⟩
    | some authoritative =>
      rw [hstate] at h
      dsimp only at h
      split at h
      · cases h
      · rename_i hsame
        obtain rfl : authoritative = encoded := by simpa using hsame
        exact ⟨.inr rfl, (Except.ok.inj h).symm⟩

/-- The loop over the mirrors: whatever was served is the authoritative copy, and the
tally counts the mirrors that served it. -/
theorem foldlM_readMirror {entries : List (Sigma fun _ : String => Mirror)}
    (h : entries.foldlM (readMirror store faults handle) state = .ok state') :
    (∀ encoded, state.1 = some encoded → state'.1 = some encoded) ∧
    (∀ entry ∈ entries, ∀ encoded, loadObject faults .quorum entry.1 entry.2 handle = .ok encoded →
      state'.1 = some encoded) ∧
    (∀ encoded, state'.1 = some encoded → state.1 = some encoded ∨
      ∃ entry ∈ entries, loadObject faults .quorum entry.1 entry.2 handle = .ok encoded) ∧
    ∀ encoded, state'.1 = some encoded →
      state'.2 = (servers faults handle entries encoded).foldl (Tally.count store) state.2 := by
  induction entries generalizing state with
  | nil =>
    obtain rfl : state = state' := Except.ok.inj h
    exact ⟨fun _ hs => hs, by simp, fun _ hs => .inl hs, fun _ _ => rfl⟩
  | cons entry rest ih =>
    obtain ⟨next, hentry, hrest⟩ := of_bind h
    obtain ⟨hkeeps, hagree, hfrom, htally⟩ := ih hrest
    rcases readMirror_inv hentry with ⟨⟨fault, hload⟩, rfl⟩ | ⟨served, hload, hold, rfl⟩
    · refine ⟨hkeeps, ?_, ?_, ?_⟩
      · intro e he encoded hserved
        rcases List.mem_cons.mp he with rfl | he
        · rw [hload] at hserved
          cases hserved
        · exact hagree e he encoded hserved
      · intro encoded hs
        rcases hfrom encoded hs with hs | ⟨e, he, hserved⟩
        · exact .inl hs
        · exact .inr ⟨e, .tail _ he, hserved⟩
      · intro encoded hs
        rw [htally encoded hs, servers, servers, List.filter_cons_of_neg]
        simp [hload, okAnd]
    · have hfinal : state'.1 = some served := hkeeps served rfl
      refine ⟨?_, ?_, ?_, ?_⟩
      · intro encoded hs
        rcases hold with hold | hold
        · rw [hold] at hs
          cases hs
        · rw [hfinal, ← hold, hs]
      · intro e he encoded hserved
        rcases List.mem_cons.mp he with rfl | he
        · rw [hload] at hserved
          rw [hfinal, Except.ok.inj hserved]
        · exact hagree e he encoded hserved
      · intro encoded hs
        obtain rfl : served = encoded := Option.some.inj (hfinal.symm.trans hs)
        exact .inr ⟨entry, .head _, hload⟩
      · intro encoded hs
        obtain rfl : served = encoded := Option.some.inj (hfinal.symm.trans hs)
        rw [htally served hs, servers, servers, List.filter_cons_of_pos]
        · rfl
        · simp [hload, okAnd]

/-- A read that returned: all that was served agrees with it, and unless it is empty
it was served, and lies on enough mirrors. -/
theorem loadQuorum_spec (h : loadQuorum store faults handle = .ok encoded) :
    (∀ served, Served store faults handle served → served = encoded) ∧
    (encoded ≠ [] → Served store faults handle encoded ∧ HeldWithPolicy store handle encoded) := by
  obtain ⟨state, hloop, hpolicy⟩ := of_bind h
  split at hpolicy
  · cases hpolicy
  rename_i hmet
  obtain rfl : state.1.getD [] = encoded := by simpa using hpolicy
  obtain ⟨-, hagree, hfrom, htally⟩ := foldlM_readMirror hloop
  constructor
  · rintro served ⟨id, mirror, hlook, hserved⟩
    rw [hagree ⟨id, mirror⟩ (Table.mem_entries_iff.mpr hlook) served hserved]
    rfl
  · intro hne
    cases hstate : state.1 with
    | none =>
      rw [hstate] at hne
      exact absurd rfl hne
    | some copy =>
      rcases hfrom copy hstate with hnone | ⟨⟨id, mirror⟩, hentry, hserved⟩
      · cases hnone
      refine ⟨⟨id, mirror, Table.mem_entries_iff.mp hentry, hserved⟩, ?_⟩
      have hservers : PolicyMet store (servers faults handle store.mirrors.entries copy) := by
        unfold PolicyMet
        rw [← htally copy hstate]
        simpa using hmet
      refine hservers.mono ((List.monotone_filter_right _ fun e hok => ?_).map _)
      obtain ⟨loaded, hloaded, heq⟩ := okAnd_eq_true.mp hok
      obtain rfl : loaded = copy := by simpa using heq
      simpa using (lookup_of_loadObject hloaded).1

/-- What an optional read found, a read returned. -/
theorem loadQuorum_of_optional (h : loadOptionalQuorum store faults handle = .ok (some encoded)) :
    loadQuorum store faults handle = .ok encoded := by
  unfold loadOptionalQuorum at h
  split at h
  · obtain ⟨read, hread, hok⟩ := of_bind h
    cases hok
    exact hread
  · cases h

end Vaultic.Staging
