/-
  PathIndex/Prune.lean  —  pruning the index of path versions.

  Source: internal/index/pathindex/pathindex.go (`expectedMutations`, `PruneBefore`).

  A rebuild records a path only at the commits at which its binding changes, so the
  record in force at a commit may lie long before it.  A prune goes by the revision
  in the key alone and deletes that record too.  Where a path leads at a commit
  (`ResolvePathAtCommit`) is found along the directory records of that commit, which a
  prune leaves alone; every result here holds for any such function.
-/
import Vaultic.Daemon.Transaction
import Vaultic.Wire.Keys

set_option autoImplicit false

namespace Vaultic.PathIndex

open Vaultic.Lib Vaultic.Schema Vaultic.Daemon

/-! ## The records of a rebuild -/

/-- `indexhistory.Binding`: where a path leads at a commit. -/
structure Binding where
  (covered present : Bool)
  (inode revision : Nat)
  nodeType : Option NodeType
  deriving DecidableEq, Repr

/-- What a rebuild takes from the snapshots, and the digest of an overlong path. -/
structure Host where
  digest : GoString → GoString
  /-- The snapshot commits, as they are scanned. -/
  commits : List Nat
  resolvePathAtCommit : GoString → Nat → Result Binding

def cleanPath (value : GoString) : GoString :=
  let value := trimSlash (Wire.trimSpace value)
  if value = [] then [0x2e] else value

def Binding.record (binding : Binding) : PathVersionRecord :=
  if binding.covered && binding.present then
    { state := .bound, nodeType := binding.nodeType, inode := binding.inode
      revision := binding.revision }
  else { state := .tombstone }

/-- The commits of a path within the limit; `previous` is the binding recorded last. -/
def expectedVersions (host : Host) (path : GoString) :
    Option Binding → List Nat → Result (List Mutation)
  | _, [] => .ok []
  | previous, commit :: commits => do
    let binding ← host.resolvePathAtCommit path commit
    if previous = some binding then expectedVersions host path previous commits
    else
      match pathVersionKey 0 path commit with
      | none => expectedVersions host path previous commits
      | some key => do
        let value ← marshalPathVersionRecord binding.record
        let rest ← expectedVersions host path (some binding) commits
        .ok ((key, value) :: rest)

/-- A path over the limit has a record at every commit. -/
def expectedOverflow (host : Host) (path : GoString) : Result (List Mutation) := do
  let puts ← host.commits.mapM fun commit => do
    let value ← marshalPathVersionRecord { state := .overflow, path }
    .ok ((pathOverflowKey host.digest 0 path commit).map (·, value))
  .ok puts.reduceOption

/-- `expectedMutations`: the records after a rebuild.  Those that are stored already are not
written again. -/
def expectedMutations (host : Host) (paths : List GoString) : Result (List Mutation) := do
  let puts ← paths.mapM fun target =>
    let path := cleanPath target
    if path.length > maxPathIndexPathBytes then expectedOverflow host path
    else expectedVersions host path none host.commits
  .ok puts.flatten

/-! ## Pruning -/

def prunedKey (beforeCommit : Nat) : Key → Bool
  | .pathVersion _ _ revision => decide (revision < beforeCommit)
  | _ => false

/-- `PruneBefore`: the number of records before the commit, and the store after. -/
def pruneBefore (beforeCommit : Nat) (dryRun : Bool) (store : SchemaStore) : Nat × SchemaStore :=
  if beforeCommit = 0 then (0, store)
  else
    let deletes := store.keys.filter (prunedKey beforeCommit)
    (deletes.length, if dryRun then store else Table.deleteAll store deletes)

/-- The path has a record of this revision. -/
abbrev Recorded (store : SchemaStore) (path : GoString) (revision : Nat) : Prop :=
  (store.lookup (.pathVersion 0 path revision)).isSome = true

/-- The binding in force at a commit: the record of the path with the greatest revision not
above it. -/
def bindingInForce (store : SchemaStore) (path : GoString) (commit : Nat) : Option Value :=
  store.lookup (.pathVersion 0 path (Nat.findGreatest (Recorded store path) commit))

variable {store : SchemaStore} {path : GoString} {beforeCommit commit revision : Nat}

theorem lookup_pruneBefore : (pruneBefore beforeCommit false store).2.lookup
      (.pathVersion 0 path revision) =
    if revision < beforeCommit then none else store.lookup (.pathVersion 0 path revision) := by
  unfold pruneBefore
  split
  · rw [if_neg (by omega)]
  · simp only [Bool.false_eq_true, if_false, Table.lookup_deleteAll, List.mem_filter, prunedKey,
      decide_eq_true_eq]
    by_cases hlt : revision < beforeCommit
    · cases hlook : store.lookup (.pathVersion 0 path revision) with
      | none => simp
      | some value => simp [hlt, AList.mem_keys.symm, ← AList.lookup_isSome, hlook]
    · simp [hlt]

theorem recorded_pruneBefore : Recorded (pruneBefore beforeCommit false store).2 path revision ↔
    Recorded store path revision ∧ beforeCommit ≤ revision := by
  rw [Recorded, lookup_pruneBefore]
  by_cases hlt : revision < beforeCommit
  · simp [hlt]
  · simp [hlt, not_lt.mp hlt]

theorem bindingInForce_eq_none_iff : bindingInForce store path commit = none ↔
    ∀ revision ≤ commit, ¬Recorded store path revision := by
  constructor
  · intro hnone revision hle hrecorded
    have hgreatest := Nat.findGreatest_spec (P := Recorded store path) hle hrecorded
    exact Option.isSome_iff_ne_none.mp hgreatest hnone
  · intro h
    have hnone := h (Nat.findGreatest (Recorded store path) commit) (Nat.findGreatest_le commit)
    exact Option.not_isSome_iff_eq_none.mp hnone

/-- A record that stays keeps the one in force. -/
theorem bindingInForce_pruneBefore (hbefore : beforeCommit ≤ revision) (hle : revision ≤ commit)
    (h : Recorded store path revision) :
    bindingInForce (pruneBefore beforeCommit false store).2 path commit =
      bindingInForce store path commit := by
  have hstays := Nat.findGreatest_spec (P := Recorded store path) hle h
  have hafter := hbefore.trans (Nat.le_findGreatest hle h)
  have hgreatest : Nat.findGreatest (Recorded (pruneBefore beforeCommit false store).2 path)
      commit = Nat.findGreatest (Recorded store path) commit := by
    apply le_antisymm
    · exact Nat.findGreatest_mono_left (fun _ hother => (recorded_pruneBefore.mp hother).1) _
    · exact Nat.le_findGreatest (Nat.findGreatest_le commit)
        (recorded_pruneBefore.mpr ⟨hstays, hafter⟩)
  rw [bindingInForce, hgreatest, lookup_pruneBefore, if_neg (not_lt.mpr hafter), bindingInForce]

/-- A prune keeps the binding in force at a later commit exactly where it is a dry run, or the
path has a record from the cut up to that commit, or had none before the cut. -/
theorem pruneBefore_keeps_iff (store : SchemaStore) (path : GoString) (beforeCommit commit : Nat)
    (dryRun : Bool) (hcommit : beforeCommit ≤ commit) :
    bindingInForce (pruneBefore beforeCommit dryRun store).2 path commit =
        bindingInForce store path commit ↔
      dryRun = true ∨
        (∃ revision, beforeCommit ≤ revision ∧ revision ≤ commit ∧ Recorded store path revision) ∨
        ∀ revision < beforeCommit, ¬Recorded store path revision := by
  cases dryRun
  case true => simp [pruneBefore, apply_ite Prod.snd]
  rw [or_iff_right Bool.false_ne_true]
  by_cases hlater : ∃ revision, beforeCommit ≤ revision ∧ revision ≤ commit ∧
      Recorded store path revision
  · obtain ⟨revision, hbefore, hle, hrecorded⟩ := id hlater
    exact iff_of_true (bindingInForce_pruneBefore hbefore hle hrecorded) (.inl hlater)
  -- Nothing is left that could be in force.
  have hnone : bindingInForce (pruneBefore beforeCommit false store).2 path commit = none := by
    refine bindingInForce_eq_none_iff.mpr fun revision hle hstays => hlater ?_
    obtain ⟨hrecorded, hbefore⟩ := recorded_pruneBefore.mp hstays
    exact ⟨revision, hbefore, hle, hrecorded⟩
  rw [hnone, eq_comm, bindingInForce_eq_none_iff, or_iff_right hlater]
  constructor
  · intro h revision hlt
    exact h revision (hlt.le.trans hcommit)
  · intro h revision hle hrecorded
    by_cases hlt : revision < beforeCommit
    · exact h revision hlt hrecorded
    · exact hlater ⟨revision, not_lt.mp hlt, hle, hrecorded⟩

/-- Two commits, with a file that did not change between them. -/
def unchangedFile : Host where
  digest := id
  commits := [1, 2]
  resolvePathAtCommit _ _ := .ok ⟨true, true, 10, 7, some .file⟩

/-- The index of the file: one record, at the first commit. -/
def unchangedRecords : List Mutation := [(.pathVersion 0 [0x61] 1,
  .pathVersion { state := .bound, nodeType := some .file, inode := 10, revision := 7 })]

/-- The record is in force at the second commit, and pruning before that commit deletes it. -/
theorem pruneBefore_drops_unchanged :
    let store := Table.putAll (∅ : SchemaStore) unchangedRecords
    expectedMutations unchangedFile [[0x61]] = .ok unchangedRecords ∧
      (bindingInForce store [0x61] 2).isSome = true ∧
      bindingInForce (pruneBefore 2 false store).2 [0x61] 2 = none := by
  refine ⟨rfl, ?_, ?_⟩ <;> decide

/-- Pruning before the first commit keeps what is in force at the second one. -/
theorem pruneBefore_keeps_first :
    let store := Table.putAll (∅ : SchemaStore) unchangedRecords
    bindingInForce (pruneBefore 1 false store).2 [0x61] 2 = bindingInForce store [0x61] 2 :=
  (pruneBefore_keeps_iff _ [0x61] 1 2 false (by decide)).mpr
    (.inr (.inl ⟨1, by decide, by decide, by decide⟩))

end Vaultic.PathIndex
