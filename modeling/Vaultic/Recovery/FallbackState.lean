/-
  Recovery/FallbackState.lean  —  the lifecycle of static fallback credentials across a policy
  mutation and a restart of the key broker.

  Source: vaulticdb/src/broker/fallback_state.rs, vaulticdb/src/broker.rs
  (`new_with_identity_mode`, `acquire_storage_credential_lease`, `persist_fallback_state`,
  `prepare_policy_mutation`, `activate_policy_mutation`) and
  vaulticdb/src/encryption/recovery_capsule/shares.rs (`logical_id`).

  The sets of issued and retired fallbacks are kept in a signed file that names the
  repository and the logical ID of the recovery capsule.  An activation writes the file
  again, but with the logical ID that the store was opened with, and the logical ID of a
  capsule changes with its generation.  So the file is accepted after a restart exactly if
  the activated capsule has the logical ID of the one the broker was opened with
  (`restart_iff_logicalId`), and no mutation prepared by the broker is like that
  (`restart_after_activation`).

  The signature scheme is a parameter.  The file is modelled by its decoded content, and
  what a capsule carries besides its header (policy, members, payloads) by a type with the
  checks made on it.
-/
import Vaultic.Lib.Run
import Vaultic.Lib.Result

set_option autoImplicit false

namespace Vaultic.Recovery

open Vaultic.Lib

abbrev Fallbacks := Finset (String × Nat)

/-! ## Capsules -/

structure CapsuleHeader (VerifyingKey : Type) where
  format : Nat
  (logicalId repositoryId : String)
  generation : Nat
  algorithm : String
  brokerIdentityPublicKey : VerifyingKey
  deriving DecidableEq, Repr

structure RecoveryCapsule (VerifyingKey Body : Type) where
  header : CapsuleHeader VerifyingKey
  body : Body

/-- A number with at least 20 digits. -/
def padded (n : Nat) : List Char :=
  List.replicate (20 - (Nat.toDigits 10 n).length) '0' ++ Nat.toDigits 10 n

def logicalIdOf (repositoryId : String) (generation : Nat) : String :=
  String.ofList ("vaultic-capsule/".toList ++ repositoryId.toList ++ '/' :: padded generation)

def capsuleFormat : Nat := 1

def capsuleAlgorithm : String := "HKDF-SHA256/AES-256-GCM/Shamir-GF256"

section Broker

variable {SigningKey VerifyingKey Signature Body : Type}

/-- `bodyError` are the checks of the policy, the members and the payloads. -/
def RecoveryCapsule.validate (bodyError : Body → Option String)
    (capsule : RecoveryCapsule VerifyingKey Body) : Result Unit :=
  if capsule.header.format ≠ capsuleFormat ∨ capsule.header.generation = 0 ∨
      capsule.header.repositoryId = "" ∨
      capsule.header.logicalId ≠
        logicalIdOf capsule.header.repositoryId capsule.header.generation ∨
      capsule.header.algorithm ≠ capsuleAlgorithm then
    .error "invalid recovery capsule header"
  else
    match bodyError capsule.body with
    | some error => .error error
    | none => .ok ()

/-! ## The state file -/

/-- What is signed. -/
structure SigningPayload where
  context : String
  format : Nat
  (repositoryId capsuleLogicalId : String)
  (issued retired : Fallbacks)
  deriving DecidableEq

structure StateFile (Signature : Type) where
  format : Nat
  (repositoryId capsuleLogicalId : String)
  (issued retired : Fallbacks)
  signature : Signature

def stateFormat : Nat := 1

def signingContext : String := "vaultic-static-fallback-state-v1"

/-- `signing_bytes`. -/
def StateFile.payload (state : StateFile Signature) : SigningPayload :=
  { context := signingContext, format := state.format, repositoryId := state.repositoryId
    capsuleLogicalId := state.capsuleLogicalId, issued := state.issued
    retired := state.retired }

/-- The signature scheme. -/
structure Signatures (SigningKey VerifyingKey Signature : Type) where
  verifyingKey : SigningKey → VerifyingKey
  sign : SigningKey → SigningPayload → Signature
  verify : VerifyingKey → SigningPayload → Signature → Bool

def Signatures.Lawful (signatures : Signatures SigningKey VerifyingKey Signature) : Prop :=
  ∀ key payload,
    signatures.verify (signatures.verifyingKey key) payload (signatures.sign key payload) = true

/-- A file at the path of the state: its content, and whether it is a regular file that
nobody else may read. -/
structure StoredFile (Signature : Type) where
  content : StateFile Signature
  isPrivate : Bool

abbrev Disk (Signature : Type) := Option (StoredFile Signature)

structure FallbackStateStore where
  (repositoryId capsuleLogicalId : String)

variable (signatures : Signatures SigningKey VerifyingKey Signature)

def loadState (repositoryId capsuleLogicalId : String) (verifyingKey : VerifyingKey)
    (disk : Disk Signature) : Result (FallbackStateStore × Fallbacks × Fallbacks) :=
  let store : FallbackStateStore := { repositoryId, capsuleLogicalId }
  match disk with
  | none => .ok (store, ∅, ∅)
  | some file =>
    if file.isPrivate = false then
      .error "must be a non-symlink regular file with mode 0600 or stricter"
    else if file.content.format ≠ stateFormat ∨
        file.content.repositoryId ≠ store.repositoryId ∨
        file.content.capsuleLogicalId ≠ store.capsuleLogicalId then
      .error "static fallback lifecycle state does not match the recovery capsule"
    else if ¬ Disjoint file.content.issued file.content.retired then
      .error "static fallback lifecycle state contains conflicting entries"
    else if signatures.verify verifyingKey file.content.payload file.content.signature then
      .ok (store, file.content.issued, file.content.retired)
    else .error "verify static fallback lifecycle signature"

/-- Where writing the file fails: before the new file took the old one's place, or when the
directory was synced after that. -/
inductive WriteFault where
  | beforeRename
  | afterRename

def atomicWrite (fault : Option WriteFault) (content : StateFile Signature)
    (disk : Disk Signature) : Result Unit × Disk Signature :=
  if disk.any (fun file => !file.isPrivate) then
    (.error "must be a non-symlink regular file with mode 0600 or stricter", disk)
  else
    match fault with
    | some .beforeRename => (.error "persist", disk)
    | some .afterRename => (.error "persist", some { content, isPrivate := true })
    | none => (.ok (), some { content, isPrivate := true })

/-- The file that a store writes. -/
def FallbackStateStore.stateFile (store : FallbackStateStore) (issued retired : Fallbacks)
    (key : SigningKey) : StateFile Signature :=
  let payload : SigningPayload :=
    { context := signingContext, format := stateFormat, repositoryId := store.repositoryId
      capsuleLogicalId := store.capsuleLogicalId, issued, retired }
  { format := stateFormat, repositoryId := store.repositoryId
    capsuleLogicalId := store.capsuleLogicalId, issued, retired
    signature := signatures.sign key payload }

def FallbackStateStore.persist (store : FallbackStateStore) (issued retired : Fallbacks)
    (key : SigningKey) (fault : Option WriteFault) (disk : Disk Signature) :
    Result Unit × Disk Signature :=
  if ¬ Disjoint issued retired then
    (.error "static fallback lifecycle state contains conflicting entries", disk)
  else atomicWrite fault (store.stateFile signatures issued retired key) disk

/-! ## The broker -/

structure PendingPolicyMutation (VerifyingKey Body : Type) where
  capsule : RecoveryCapsule VerifyingKey Body
  digest : String

structure KeyBroker (SigningKey VerifyingKey Body : Type) where
  capsule : RecoveryCapsule VerifyingKey Body
  identity : SigningKey
  unlocked : Bool
  pendingPolicyMutation : Option (PendingPolicyMutation VerifyingKey Body)
  identityRecovery : Bool
  (issuedStaticFallbacks retiredStaticFallbacks : Fallbacks)
  fallbackStateStore : Option FallbackStateStore

variable (bodyError : Body → Option String)

/-- `new_with_identity_mode` with a path of a state file. -/
def newWithFallbackState [DecidableEq VerifyingKey]
    (capsule : RecoveryCapsule VerifyingKey Body) (identity : SigningKey)
    (identityRecovery : Bool) (disk : Disk Signature) :
    Result (KeyBroker SigningKey VerifyingKey Body) := do
  capsule.validate bodyError
  let identityMatches :=
    decide (capsule.header.brokerIdentityPublicKey = signatures.verifyingKey identity)
  if !identityRecovery && !identityMatches then
    .error "broker identity does not match capsule pin"
  else if identityRecovery && identityMatches then
    .error "identity recovery requires a fresh broker identity"
  else do
    let (store, issued, retired) ← loadState signatures capsule.header.repositoryId
      capsule.header.logicalId capsule.header.brokerIdentityPublicKey disk
    .ok { capsule, identity, unlocked := false, pendingPolicyMutation := none, identityRecovery
          issuedStaticFallbacks := issued, retiredStaticFallbacks := retired
          fallbackStateStore := some store }

namespace KeyBroker

variable (broker : KeyBroker SigningKey VerifyingKey Body)

def persistFallbackState (fault : Option WriteFault) (disk : Disk Signature) :
    Result Unit × Disk Signature :=
  match broker.fallbackStateStore with
  | none => (.ok (), disk)
  | some store =>
    store.persist signatures broker.issuedStaticFallbacks broker.retiredStaticFallbacks
      broker.identity fault disk

/-- A static credential is checked out because the provider is unavailable. -/
def checkout (fallback : String × Nat) (fault : Option WriteFault) (disk : Disk Signature) :
    KeyBroker SigningKey VerifyingKey Body × Disk Signature :=
  if fallback ∈ broker.retiredStaticFallbacks ∨ fallback ∈ broker.issuedStaticFallbacks then
    (broker, disk)
  else
    let issued :=
      { broker with issuedStaticFallbacks := insert fallback broker.issuedStaticFallbacks }
    match issued.persistFallbackState signatures fault disk with
    | (.ok (), disk) => (issued, disk)
    | (.error _, disk) => (broker, disk)

/-- The provider issued a credential again: the fallbacks of the target are retired. -/
def retire (target : String) (fault : Option WriteFault) (disk : Disk Signature) :
    KeyBroker SigningKey VerifyingKey Body × Disk Signature :=
  let recovered := broker.issuedStaticFallbacks.filter fun fallback => fallback.1 = target
  if recovered = ∅ then (broker, disk)
  else
    let retired :=
      { broker with
        issuedStaticFallbacks := broker.issuedStaticFallbacks \ recovered
        retiredStaticFallbacks := broker.retiredStaticFallbacks ∪ recovered }
    match retired.persistFallbackState signatures fault disk with
    | (.ok (), disk) => (retired, disk)
    | (.error _, disk) => (broker, disk)

/-- The capsule that a mutation prepares: of the next generation, pinned to the identity of
the broker. -/
def candidate (body : Body) : RecoveryCapsule VerifyingKey Body :=
  { header :=
      { format := capsuleFormat
        logicalId := logicalIdOf broker.capsule.header.repositoryId
          (broker.capsule.header.generation + 1)
        repositoryId := broker.capsule.header.repositoryId
        generation := broker.capsule.header.generation + 1
        algorithm := capsuleAlgorithm
        brokerIdentityPublicKey := signatures.verifyingKey broker.identity }
    body }

/-- `prepare_policy_mutation` and `prepare_topology_mutation`, whose new policy or topology is
in `body`; `allowed` are the authorisation of the client and the check for downgrades. -/
def preparePolicyMutation (body : Body) (digest : String) (allowed : Bool) :
    Result (KeyBroker SigningKey VerifyingKey Body) := do
  if !allowed then .error "policy mutation is not allowed"
  else if broker.pendingPolicyMutation.isSome then
    .error "a policy mutation is already pending publication"
  else if !broker.unlocked then .error "broker is locked"
  else if 2 ^ 64 ≤ broker.capsule.header.generation + 1 then .error "capsule generation overflow"
  else do
    (broker.candidate signatures body).validate bodyError
    .ok { broker with
          pendingPolicyMutation := some { capsule := broker.candidate signatures body, digest } }

/-- `activate_policy_mutation` by an authorised client. -/
def activatePolicyMutation (digest : String) (fault : Option WriteFault) (disk : Disk Signature) :
    Result (KeyBroker SigningKey VerifyingKey Body) × Disk Signature :=
  match broker.pendingPolicyMutation with
  | none => (.error "no policy mutation is pending publication", disk)
  | some pending =>
    if pending.digest ≠ digest then
      (.error "published capsule digest does not match pending policy mutation", disk)
    else
      match broker.persistFallbackState signatures fault disk with
      | (.error error, disk) => (.error error, disk)
      | (.ok (), disk) =>
        (.ok { broker with
               capsule := pending.capsule, pendingPolicyMutation := none
               identityRecovery := false, unlocked := false }, disk)

end KeyBroker

/-! ## Reading back what was written -/

/-- The path holds a file that was written by the store. -/
def FallbackStateStore.writtenFile (store : FallbackStateStore) (issued retired : Fallbacks)
    (key : SigningKey) : Disk Signature :=
  some { content := store.stateFile signatures issued retired key, isPrivate := true }

variable {fault : Option WriteFault} {disk disk' : Disk Signature}
  {broker broker' : KeyBroker SigningKey VerifyingKey Body} {digest : String}
  {capsule : RecoveryCapsule VerifyingKey Body} {identity : SigningKey}
  {issued retired : Fallbacks} {store : FallbackStateStore}

theorem persist_eq_ok {key : SigningKey}
    (h : store.persist signatures issued retired key fault disk = (.ok (), disk')) :
    Disjoint issued retired ∧ disk' = store.writtenFile signatures issued retired key := by
  unfold FallbackStateStore.persist at h
  by_cases hdisjoint : Disjoint issued retired
  · rw [if_neg (not_not.mpr hdisjoint)] at h
    unfold atomicWrite at h
    split_ifs at h
    · cases h
    · cases fault with
      | none => exact ⟨hdisjoint, (Prod.mk.inj h).2.symm⟩
      | some fault => cases fault <;> cases h
  · rw [if_pos hdisjoint] at h
    cases h

/-- A file is accepted for the repository and the logical ID that it was written for. -/
theorem loadState_written (hlawful : signatures.Lawful) (store : FallbackStateStore)
    (hdisjoint : Disjoint issued retired) (key : SigningKey)
    (repositoryId capsuleLogicalId : String) :
    loadState signatures repositoryId capsuleLogicalId (signatures.verifyingKey key)
        (store.writtenFile signatures issued retired key) =
      if repositoryId = store.repositoryId ∧ capsuleLogicalId = store.capsuleLogicalId then
        .ok ({ repositoryId, capsuleLogicalId }, issued, retired)
      else .error "static fallback lifecycle state does not match the recovery capsule" := by
  have hverify : signatures.verify (signatures.verifyingKey key)
      (store.stateFile signatures issued retired key).payload
      (store.stateFile signatures issued retired key).signature = true := hlawful key _
  unfold loadState FallbackStateStore.writtenFile
  dsimp only
  rw [if_neg (by decide), hverify]
  by_cases hmatch : repositoryId = store.repositoryId ∧ capsuleLogicalId = store.capsuleLogicalId
  · obtain ⟨rfl, rfl⟩ := hmatch
    simp [FallbackStateStore.stateFile, hdisjoint]
  rw [if_neg hmatch, if_pos]
  simp only [FallbackStateStore.stateFile, ne_eq, not_true_eq_false, false_or]
  rw [← not_and_or]
  exact fun h => hmatch ⟨h.1.symm, h.2.symm⟩

theorem activatePolicyMutation_eq_ok
    (h : broker.activatePolicyMutation signatures digest fault disk = (.ok broker', disk')) :
    ∃ pending, broker.pendingPolicyMutation = some pending ∧
      broker.persistFallbackState signatures fault disk = (.ok (), disk') ∧
      broker' = { broker with
        capsule := pending.capsule, pendingPolicyMutation := none
        identityRecovery := false, unlocked := false } := by
  unfold KeyBroker.activatePolicyMutation at h
  split at h
  · cases h
  next pending hpending =>
    split_ifs at h
    · cases h
    split at h
    · cases h
    · next written hpersist =>
        obtain ⟨hbroker, hdisk⟩ := Prod.mk.inj h
        exact ⟨pending, hpending, hdisk ▸ hpersist, (Except.ok.inj hbroker).symm⟩

/-- A restart on the activated capsule, which is valid and pinned to the identity, comes down
to reading the file. -/
theorem newWithFallbackState_eq [DecidableEq VerifyingKey]
    (hvalid : capsule.validate bodyError = .ok ())
    (hpinned : capsule.header.brokerIdentityPublicKey = signatures.verifyingKey identity)
    (disk : Disk Signature) :
    newWithFallbackState signatures bodyError capsule identity false disk =
      (loadState signatures capsule.header.repositoryId capsule.header.logicalId
        (signatures.verifyingKey identity) disk).map fun (store, issued, retired) =>
          { capsule, identity, unlocked := false, pendingPolicyMutation := none
            identityRecovery := false, issuedStaticFallbacks := issued
            retiredStaticFallbacks := retired, fallbackStateStore := some store } := by
  unfold newWithFallbackState
  rw [hvalid, hpinned]
  simp only [bind, Except.bind, Bool.not_false, decide_true, Bool.not_true, Bool.and_false,
    Bool.false_eq_true, if_false, Bool.false_and]
  cases loadState signatures capsule.header.repositoryId capsule.header.logicalId
      (signatures.verifyingKey identity) disk with
  | error error => rfl
  | ok loaded => rfl

/-- A restart after an activation finds the file of the activation. -/
theorem restart_activated [DecidableEq VerifyingKey] (hlawful : signatures.Lawful)
    {pending : PendingPolicyMutation VerifyingKey Body}
    (hstore : broker.fallbackStateStore = some store)
    (hpending : broker.pendingPolicyMutation = some pending)
    (hvalid : pending.capsule.validate bodyError = .ok ())
    (hpinned : pending.capsule.header.brokerIdentityPublicKey =
      signatures.verifyingKey broker.identity)
    (hactivated : broker.activatePolicyMutation signatures digest fault disk =
      (.ok broker', disk')) :
    newWithFallbackState signatures bodyError broker'.capsule broker'.identity false disk' =
      if pending.capsule.header.repositoryId = store.repositoryId ∧
          pending.capsule.header.logicalId = store.capsuleLogicalId then
        .ok { broker' with
              fallbackStateStore := some
                { repositoryId := pending.capsule.header.repositoryId
                  capsuleLogicalId := pending.capsule.header.logicalId } }
      else .error "static fallback lifecycle state does not match the recovery capsule" := by
  obtain ⟨pending', hpending', hpersist, rfl⟩ := activatePolicyMutation_eq_ok signatures hactivated
  obtain rfl : pending = pending' := Option.some.inj (hpending.symm.trans hpending')
  rw [KeyBroker.persistFallbackState, hstore] at hpersist
  obtain ⟨hdisjoint, rfl⟩ := persist_eq_ok signatures hpersist
  rw [newWithFallbackState_eq signatures bodyError hvalid hpinned,
    loadState_written signatures hlawful store hdisjoint]
  split_ifs with hmatch
  · rfl
  · rfl

/-- For every broker with a state file and a pending mutation whose capsule is valid, of the
same repository and pinned to the identity of the broker: after a successful activation, a
restart on the activated capsule yields the sets held before it exactly if the capsule has
the logical ID that the state store was opened with. -/
theorem restart_iff_logicalId [DecidableEq VerifyingKey] (hlawful : signatures.Lawful)
    (broker broker' : KeyBroker SigningKey VerifyingKey Body) (store : FallbackStateStore)
    (pending : PendingPolicyMutation VerifyingKey Body) (digest : String)
    (fault : Option WriteFault) (disk disk' : Disk Signature)
    (hstore : broker.fallbackStateStore = some store)
    (hpending : broker.pendingPolicyMutation = some pending)
    (hvalid : pending.capsule.validate bodyError = .ok ())
    (hpinned : pending.capsule.header.brokerIdentityPublicKey =
      signatures.verifyingKey broker.identity)
    (hrepository : pending.capsule.header.repositoryId = store.repositoryId)
    (hactivated : broker.activatePolicyMutation signatures digest fault disk =
      (.ok broker', disk')) :
    (∃ restarted, newWithFallbackState signatures bodyError broker'.capsule broker'.identity false
        disk' = .ok restarted ∧
      restarted.issuedStaticFallbacks = broker'.issuedStaticFallbacks ∧
      restarted.retiredStaticFallbacks = broker'.retiredStaticFallbacks) ↔
      pending.capsule.header.logicalId = store.capsuleLogicalId := by
  rw [restart_activated signatures bodyError hlawful hstore hpending hvalid hpinned hactivated]
  by_cases hid : pending.capsule.header.logicalId = store.capsuleLogicalId
  · rw [if_pos ⟨hrepository, hid⟩]
    exact ⟨fun _ => hid, fun _ => ⟨_, rfl, rfl, rfl⟩⟩
  rw [if_neg fun h => hid h.2]
  refine ⟨fun h => ?_, fun h => absurd h hid⟩
  obtain ⟨restarted, hrestarted, -⟩ := h
  cases hrestarted

/-! ## Logical IDs -/

theorem ofDigitChars_padded (n : Nat) : Nat.ofDigitChars 10 (padded n) 0 = n := by
  have hzeros : ∀ count, Nat.ofDigitChars 10 (List.replicate count '0' ++ Nat.toDigits 10 n) 0 =
      Nat.ofDigitChars 10 (Nat.toDigits 10 n) 0 := by
    intro count
    induction count with
    | zero => rfl
    | succ count ih => exact ih
  rw [padded, hzeros]
  exact Nat.ofDigitChars_toDigits (by decide) (by decide)

/-- The generations of a repository have different logical IDs. -/
theorem logicalIdOf_inj {repositoryId : String} {generation generation' : Nat}
    (h : logicalIdOf repositoryId generation = logicalIdOf repositoryId generation') :
    generation = generation' := by
  have hchars := String.ofList_injective h
  have hdigits := (List.cons.inj (List.append_cancel_left hchars)).2
  rw [← ofDigitChars_padded generation, hdigits, ofDigitChars_padded]

/-! ## Runs -/

inductive BrokerCall (Body : Type) where
  | unlock
  | checkout (fallback : String × Nat) (fault : Option WriteFault)
  | retire (target : String) (fault : Option WriteFault)
  | prepare (body : Body) (digest : String) (allowed : Bool)
  | cancel
  | activate (digest : String) (fault : Option WriteFault)

/-- A call on the broker; one that fails leaves the broker as it was. -/
def brokerStep (state : KeyBroker SigningKey VerifyingKey Body × Disk Signature) :
    BrokerCall Body → KeyBroker SigningKey VerifyingKey Body × Disk Signature
  | .unlock => ({ state.1 with unlocked := true }, state.2)
  | .checkout fallback fault => state.1.checkout signatures fallback fault state.2
  | .retire target fault => state.1.retire signatures target fault state.2
  | .prepare body digest allowed =>
    match state.1.preparePolicyMutation signatures bodyError body digest allowed with
    | .ok broker => (broker, state.2)
    | .error _ => state
  | .cancel => ({ state.1 with pendingPolicyMutation := none }, state.2)
  | .activate digest fault =>
    match state.1.activatePolicyMutation signatures digest fault state.2 with
    | (.ok broker, disk) => (broker, disk)
    | (.error _, disk) => (state.1, disk)

/-- The store keeps the generation that it was opened with, and a pending capsule is the next
generation of the broker's own. -/
structure Bound (broker : KeyBroker SigningKey VerifyingKey Body) : Prop where
  store : ∃ store generation, broker.fallbackStateStore = some store ∧
    store.repositoryId = broker.capsule.header.repositoryId ∧
    store.capsuleLogicalId = logicalIdOf store.repositoryId generation ∧
    generation ≤ broker.capsule.header.generation
  pending : ∀ pending, broker.pendingPolicyMutation = some pending →
    pending.capsule.validate bodyError = .ok () ∧
    ∃ body, pending.capsule = broker.candidate signatures body

theorem validate_logicalId (h : capsule.validate bodyError = .ok ()) :
    capsule.header.logicalId =
      logicalIdOf capsule.header.repositoryId capsule.header.generation := by
  unfold RecoveryCapsule.validate at h
  split_ifs at h with hinvalid
  by_contra hid
  exact hinvalid (.inr (.inr (.inr (.inl hid))))

variable {signatures bodyError}

section

variable (h : Bound signatures bodyError broker)
include h

/-- Another record of fallbacks does not matter. -/
theorem Bound.withFallbacks (issued retired : Fallbacks) :
    Bound signatures bodyError
      { broker with issuedStaticFallbacks := issued, retiredStaticFallbacks := retired } :=
  ⟨h.store, h.pending⟩

theorem Bound.checkout (fallback : String × Nat) (fault : Option WriteFault)
    (disk : Disk Signature) :
    Bound signatures bodyError (broker.checkout signatures fallback fault disk).1 := by
  unfold KeyBroker.checkout
  split_ifs
  · exact h
  dsimp only
  split
  · exact h.withFallbacks _ _
  · exact h

theorem Bound.retire (target : String) (fault : Option WriteFault) (disk : Disk Signature) :
    Bound signatures bodyError (broker.retire signatures target fault disk).1 := by
  unfold KeyBroker.retire
  dsimp only
  split_ifs
  · exact h
  · split
    · exact h.withFallbacks _ _
    · exact h

theorem Bound.prepare {body : Body} {allowed : Bool}
    (hprepared : broker.preparePolicyMutation signatures bodyError body digest allowed =
      .ok broker') : Bound signatures bodyError broker' := by
  unfold KeyBroker.preparePolicyMutation at hprepared
  split_ifs at hprepared
  obtain ⟨_, hvalid, hprepared⟩ := of_bind hprepared
  obtain rfl := Except.ok.inj hprepared
  refine ⟨h.store, fun pending hpending => ?_⟩
  obtain rfl := Option.some.inj hpending
  exact ⟨hvalid, body, rfl⟩

theorem Bound.activate
    (hactivated : broker.activatePolicyMutation signatures digest fault disk =
      (.ok broker', disk')) : Bound signatures bodyError broker' := by
  obtain ⟨pending, hpending, -, rfl⟩ := activatePolicyMutation_eq_ok signatures hactivated
  obtain ⟨-, body, hcandidate⟩ := h.pending pending hpending
  obtain ⟨store, generation, hstore, hrepository, hid, hle⟩ := h.store
  refine ⟨⟨store, generation, hstore, ?_, hid, ?_⟩, nofun⟩
  · rw [hrepository, hcandidate]
    rfl
  · rw [hcandidate]
    exact Nat.le_succ_of_le hle

end

theorem Bound.step {state : KeyBroker SigningKey VerifyingKey Body × Disk Signature}
    (h : Bound signatures bodyError state.1) (call : BrokerCall Body) :
    Bound signatures bodyError (brokerStep signatures bodyError state call).1 := by
  cases call with
  | unlock => exact ⟨h.store, h.pending⟩
  | checkout fallback fault => exact h.checkout fallback fault state.2
  | retire target fault => exact h.retire target fault state.2
  | prepare body digest allowed =>
    simp only [brokerStep]
    split
    · next broker hprepared => exact h.prepare hprepared
    · exact h
  | cancel => exact ⟨h.store, nofun⟩
  | activate digest fault =>
    simp only [brokerStep]
    split
    · next broker disk hactivated => exact h.activate hactivated
    · exact h

variable {identityRecovery : Bool}

theorem newWithFallbackState_bound [DecidableEq VerifyingKey]
    (h : newWithFallbackState signatures bodyError capsule identity identityRecovery disk =
      .ok broker) : Bound signatures bodyError broker := by
  obtain ⟨_, hvalid, h⟩ := of_bind h
  dsimp only at h
  split_ifs at h
  obtain ⟨⟨store, issued, retired⟩, hload, h⟩ := of_bind h
  obtain rfl := Except.ok.inj h
  have hstore : store =
      { repositoryId := capsule.header.repositoryId
        capsuleLogicalId := capsule.header.logicalId } := by
    unfold loadState at hload
    dsimp only at hload
    split at hload
    · exact (Prod.mk.inj (Except.ok.inj hload)).1.symm
    · split_ifs at hload
      exact (Prod.mk.inj (Except.ok.inj hload)).1.symm
  refine ⟨⟨store, capsule.header.generation, rfl, ?_, ?_, le_rfl⟩, nofun⟩
  · rw [hstore]
  · rw [hstore]
    exact validate_logicalId bodyError hvalid

/-- Whatever a broker with a state file has done since it was opened, a restart after a
successful activation does not accept the file that the activation wrote. -/
theorem restart_after_activation [DecidableEq VerifyingKey] (hlawful : signatures.Lawful)
    {opened : Disk Signature}
    (hopened : newWithFallbackState signatures bodyError capsule identity identityRecovery opened =
      .ok broker) (calls : List (BrokerCall Body))
    (hactivated : (calls.foldl (brokerStep signatures bodyError)
        (broker, opened)).1.activatePolicyMutation signatures digest fault
        (calls.foldl (brokerStep signatures bodyError) (broker, opened)).2 =
      (.ok broker', disk')) :
    newWithFallbackState signatures bodyError broker'.capsule broker'.identity false disk' =
      .error "static fallback lifecycle state does not match the recovery capsule" := by
  have hbound : Bound signatures bodyError
      (calls.foldl (brokerStep signatures bodyError) (broker, opened)).1 :=
    run_invariant
      (fun state : KeyBroker SigningKey VerifyingKey Body × Disk Signature =>
        Bound signatures bodyError state.1)
      (fun _ call h => h.step call) calls (newWithFallbackState_bound hopened)
  obtain ⟨pending, hpending, -, -⟩ := activatePolicyMutation_eq_ok signatures hactivated
  obtain ⟨hvalid, body, hcandidate⟩ := hbound.pending pending hpending
  obtain ⟨store, generation, hstore, hrepository, hid, hle⟩ := hbound.store
  rw [restart_activated signatures bodyError hlawful hstore hpending hvalid
    (by rw [hcandidate]; rfl) hactivated, if_neg]
  intro hmatch
  -- the logical IDs are those of two generations of the repository
  have hids := (validate_logicalId bodyError hvalid).symm.trans (hmatch.2.trans hid)
  rw [hmatch.1] at hids
  have hgeneration := logicalIdOf_inj hids
  rw [hcandidate] at hgeneration
  exact absurd hgeneration (Nat.ne_of_gt (Nat.lt_succ_of_le hle))

end Broker

/-! ## An activation -/

/-- Signatures that are the signed payload under the key. -/
def plainSignatures : Signatures Nat Nat (Nat × SigningPayload) where
  verifyingKey key := key
  sign key payload := (key, payload)
  verify key payload signature := decide (signature = (key, payload))

theorem plainSignatures_lawful : plainSignatures.Lawful :=
  fun _ _ => decide_eq_true rfl

def firstCapsule : RecoveryCapsule Nat Unit :=
  { header :=
      { format := 1, logicalId := logicalIdOf "repository" 1, repositoryId := "repository"
        generation := 1, algorithm := capsuleAlgorithm, brokerIdentityPublicKey := 7 }
    body := () }

def openedBroker : KeyBroker Nat Nat Unit :=
  { capsule := firstCapsule, identity := 7, unlocked := false, pendingPolicyMutation := none
    identityRecovery := false, issuedStaticFallbacks := ∅, retiredStaticFallbacks := ∅
    fallbackStateStore := some
      { repositoryId := "repository", capsuleLogicalId := logicalIdOf "repository" 1 } }

def firstCalls : List (BrokerCall Unit) :=
  [.unlock, .checkout ("pack:archive", 3) none, .prepare () "digest" true]

/-- A fallback is checked out, the policy is changed and the broker restarts: the issued
fallback was written to the file, and the file is refused. -/
theorem activation_refuses_state :
    newWithFallbackState plainSignatures (fun _ => none) firstCapsule 7 false none =
      .ok openedBroker ∧
    ∃ broker' disk',
      (firstCalls.foldl (brokerStep plainSignatures fun _ => none)
          (openedBroker, none)).1.activatePolicyMutation plainSignatures "digest" none
          (firstCalls.foldl (brokerStep plainSignatures fun _ => none) (openedBroker, none)).2 =
        (.ok broker', disk') ∧
      broker'.issuedStaticFallbacks = {("pack:archive", 3)} ∧
      newWithFallbackState plainSignatures (fun _ => none) broker'.capsule broker'.identity false
          disk' =
        .error "static fallback lifecycle state does not match the recovery capsule" := by
  have hopened : newWithFallbackState plainSignatures (fun _ => none) firstCapsule 7 false none =
      .ok openedBroker := rfl
  refine ⟨hopened, _, _, rfl, rfl, ?_⟩
  exact restart_after_activation plainSignatures_lawful hopened firstCalls
    (Eq.refl (KeyBroker.activatePolicyMutation plainSignatures _ "digest" none _))

/-- At the broker that these calls reach the equivalence says that there is no restart. -/
theorem restart_iff_logicalId_reached :
    let reached := firstCalls.foldl (brokerStep plainSignatures fun _ => none) (openedBroker, none)
    ∃ broker' disk',
      reached.1.activatePolicyMutation plainSignatures "digest" none reached.2 =
        (.ok broker', disk') ∧
      ¬∃ restarted, newWithFallbackState plainSignatures (fun _ => none) broker'.capsule
          broker'.identity false disk' = .ok restarted ∧
        restarted.issuedStaticFallbacks = broker'.issuedStaticFallbacks ∧
        restarted.retiredStaticFallbacks = broker'.retiredStaticFallbacks := by
  intro reached
  refine ⟨_, _, rfl, fun hrestarted => ?_⟩
  have hid := (restart_iff_logicalId plainSignatures (fun _ => none) plainSignatures_lawful
    reached.1 _ _ _ "digest" none reached.2 _ rfl rfl rfl rfl rfl rfl).mp hrestarted
  exact absurd (logicalIdOf_inj hid) (by decide)

end Vaultic.Recovery
