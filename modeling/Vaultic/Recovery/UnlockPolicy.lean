/-
  Recovery/UnlockPolicy.lean  —  unlock policies and the shares dealt under them.

  Source: vaulticdb/src/encryption/recovery_capsule/publish.rs (`UnlockPolicy`) and
  vaulticdb/src/encryption/recovery_capsule/shares.rs (`distribute_policy_secret`,
  `recover_policy_secret`).

  A policy is a tree: a member, some or all of other policies, or a threshold of a group of
  members.  The root secret of a recovery capsule is dealt to the members of the tree, and
  the shares of a set of members that satisfies the policy give it back.

  The Shamir dealer is code of the `sharks` crate.  It is a parameter, `Sharks`; what the
  results need of it are the named properties `Sharks.Lawful` and `Sharks.Hides`.  The
  random choices of a dealing are a value of `Coins`, whose type follows the policy.
-/
import Vaultic.Lib.Result

set_option autoImplicit false

namespace Vaultic.Recovery

open Vaultic.Lib

abbrev MemberId := String

abbrev Bytes := List UInt8

/-- A secret of `n` bytes. -/
abbrev Secret (n : Nat) := Vector UInt8 n

inductive UnlockPolicy where
  | member (memberId : MemberId)
  | anyOf (policies : List UnlockPolicy)
  | allOf (policies : List UnlockPolicy)
  | threshold (groupId : String) (required : Nat) (members : List MemberId)

namespace UnlockPolicy

/-! ## Members -/

/-- `ids.insert` of each of the members, all of which have to be new. -/
def insertMember (ids : Finset MemberId) (memberId : MemberId) : Result (Finset MemberId) :=
  if memberId = "" ∨ memberId ∈ ids then
    .error "policy member IDs must be non-empty and unique"
  else .ok (insert memberId ids)

mutual

def collectMemberIds : UnlockPolicy → Finset MemberId → Result (Finset MemberId)
  | .member memberId, ids => insertMember ids memberId
  | .anyOf policies, ids | .allOf policies, ids =>
    if policies.isEmpty then .error "composed policy must not be empty"
    else collectAllMemberIds policies ids
  | .threshold groupId required members, ids =>
    if groupId = "" ∨ required = 0 ∨ members.length < required ∨ members.isEmpty then
      .error "invalid threshold policy"
    else members.foldlM insertMember ids

def collectAllMemberIds : List UnlockPolicy → Finset MemberId → Result (Finset MemberId)
  | [], ids => .ok ids
  | policy :: policies, ids => do
      let ids ← policy.collectMemberIds ids
      collectAllMemberIds policies ids

end

def memberIds (policy : UnlockPolicy) : Result (Finset MemberId) :=
  policy.collectMemberIds ∅

mutual

def satisfiedBy (members : Finset MemberId) : UnlockPolicy → Bool
  | .member memberId => decide (memberId ∈ members)
  | .anyOf policies => anySatisfiedBy members policies
  | .allOf policies => allSatisfiedBy members policies
  | .threshold _ required requiredMembers =>
    decide (required ≤ (requiredMembers.filter fun member => decide (member ∈ members)).length)

def anySatisfiedBy (members : Finset MemberId) : List UnlockPolicy → Bool
  | [] => false
  | policy :: policies => policy.satisfiedBy members || anySatisfiedBy members policies

def allSatisfiedBy (members : Finset MemberId) : List UnlockPolicy → Bool
  | [] => true
  | policy :: policies => policy.satisfiedBy members && allSatisfiedBy members policies

end

end UnlockPolicy

/-! ## Shamir's scheme -/

instance neZeroShares : NeZero 255 := ⟨by decide⟩

/-- The interface of the `sharks` crate: `dealer` is the iterator over the 255 shares of a
secret, for given random coefficients; `toBytes` and `ofBytes` are the byte form of a share. -/
structure Sharks where
  Share : Type
  Coins : Nat → Nat → Type
  dealer : (required : Nat) → {n : Nat} → Secret n → Coins required n → Fin 255 → Share
  recover : Nat → List Share → Result Bytes
  toBytes : Share → Bytes
  ofBytes : Bytes → Result Share

/-- Any `required` of the dealt shares recover the secret, in any order. -/
structure Sharks.Lawful (sharks : Sharks) : Prop where
  ofBytes_toBytes : ∀ {required n : Nat} (secret : Secret n) (coins : sharks.Coins required n)
    (index : Fin 255), 0 < n →
    sharks.ofBytes (sharks.toBytes (sharks.dealer required secret coins index)) =
      .ok (sharks.dealer required secret coins index)
  recover_dealt : ∀ {required n : Nat} (secret : Secret n) (coins : sharks.Coins required n)
    (picks : List (Fin 255)), 0 < n → 0 < required → picks.Nodup → picks.length = required →
    sharks.recover required (picks.map (sharks.dealer required secret coins)) =
      .ok secret.toList

/-- Fewer than `required` of the dealt shares are the same for any two secrets of one length,
up to a bijection of the random coefficients.  This is an idealisation: it needs uniform
coefficients, and the crate draws them among the non-zero bytes only. -/
def Sharks.Hides (sharks : Sharks) : Prop :=
  ∀ {required n : Nat} (secret secret' : Secret n) (picks : Finset (Fin 255)),
    picks.card < required →
    ∃ bijection : sharks.Coins required n ≃ sharks.Coins required n,
      ∀ coins, ∀ index ∈ picks,
        sharks.dealer required secret coins index =
          sharks.dealer required secret' (bijection coins) index

/-! ## Dealing -/

structure DistributedShare where
  memberId : MemberId
  groupId : String
  (shareIndex threshold shareCount : Nat)
  plaintext : Bytes

def xorSecret {n : Nat} (a b : Secret n) : Secret n :=
  Vector.zipWith (· ^^^ ·) a b

/-- What is drawn for a child of an all_of policy: a fragment, except for the last child. -/
def Draw (n : Nat) : (rest : List UnlockPolicy) → Type
  | [] => Unit
  | _ :: _ => Secret n

/-- The fragment of a child: the drawn one, or what the fragments before it leave of the
secret for the last child. -/
def fragment {n : Nat} (secret combined : Secret n) :
    (rest : List UnlockPolicy) → Draw n rest → Secret n
  | [], () => xorSecret secret combined
  | _ :: _, draw => draw

def combine {n : Nat} (combined : Secret n) : (rest : List UnlockPolicy) → Draw n rest → Secret n
  | [], () => combined
  | _ :: _, draw => xorSecret combined draw

mutual

/-- The random choices of dealing a secret of `n` bytes. -/
def Coins (sharks : Sharks) (n : Nat) : UnlockPolicy → Type
  | .member _ => sharks.Coins 1 n
  | .anyOf policies => AnyCoins sharks n policies
  | .allOf policies => AllCoins sharks n policies
  | .threshold _ required _ => sharks.Coins required n

def AnyCoins (sharks : Sharks) (n : Nat) : List UnlockPolicy → Type
  | [] => Unit
  | policy :: policies => Coins sharks n policy × AnyCoins sharks n policies

def AllCoins (sharks : Sharks) (n : Nat) : List UnlockPolicy → Type
  | [] => Unit
  | policy :: policies =>
    (Draw n policies × Coins sharks n policy) × AllCoins sharks n policies

end

/-- `members.iter().zip(dealer).zip(1_u8..)`. -/
def thresholdShares (sharks : Sharks) {n : Nat} (groupId : String) (required : Nat)
    (members : List MemberId) (secret : Secret n) (coins : sharks.Coins required n) :
    List DistributedShare :=
  ((members.zip (List.ofFn (sharks.dealer required secret coins))).zipIdx 1).map
    fun ((memberId, share), shareIndex) =>
      { memberId, groupId, shareIndex, threshold := required, shareCount := members.length
        plaintext := sharks.toBytes share }

mutual

def distributePolicySecret (sharks : Sharks) {n : Nat} :
    (policy : UnlockPolicy) → Secret n → String → Coins sharks n policy →
      Result (List DistributedShare)
  | .member memberId, secret, path, coins =>
    .ok [{ memberId, groupId := s!"policy:{path}", shareIndex := 1, threshold := 1
           shareCount := 1, plaintext := sharks.toBytes (sharks.dealer 1 secret coins 0) }]
  | .anyOf policies, secret, path, coins => distributeAny sharks policies secret path 0 coins
  | .allOf policies, secret, path, coins =>
    distributeAll sharks policies secret (Vector.replicate n 0) path 0 coins
  | .threshold groupId required members, secret, _, coins =>
    if 255 < members.length then .error "too many threshold members"
    else .ok (thresholdShares sharks groupId required members secret coins)

def distributeAny (sharks : Sharks) {n : Nat} :
    (policies : List UnlockPolicy) → Secret n → String → Nat → AnyCoins sharks n policies →
      Result (List DistributedShare)
  | [], _, _, _, _ => .ok []
  | policy :: policies, secret, path, index, coins => do
      let shares ← distributePolicySecret sharks policy secret s!"{path}/any/{index}" coins.1
      let others ← distributeAny sharks policies secret path (index + 1) coins.2
      .ok (shares ++ others)

def distributeAll (sharks : Sharks) {n : Nat} :
    (policies : List UnlockPolicy) → Secret n → Secret n → String → Nat →
      AllCoins sharks n policies → Result (List DistributedShare)
  | [], _, _, _, _, _ => .ok []
  | policy :: policies, secret, combined, path, index, coins => do
      let shares ← distributePolicySecret sharks policy
        (fragment secret combined policies coins.1.1) s!"{path}/all/{index}" coins.1.2
      let others ← distributeAll sharks policies secret (combine combined policies coins.1.1)
        path (index + 1) coins.2
      .ok (shares ++ others)

end

/-! ## Recovering -/

structure UnwrappedMemberShare where
  memberId : MemberId
  shareIndex : Nat
  plaintext : Bytes

/-- What a member contributes after unwrapping its share. -/
def DistributedShare.unwrapped (share : DistributedShare) : UnwrappedMemberShare :=
  { memberId := share.memberId, shareIndex := share.shareIndex, plaintext := share.plaintext }

def decodeShare (sharks : Sharks) (contribution : UnwrappedMemberShare) : Result sharks.Share :=
  match sharks.ofBytes contribution.plaintext with
  | .ok share => .ok share
  | .error error => .error s!"decode Shamir share: {error}"

/-- `recover_shamir_refs`. -/
def recoverShamir (sharks : Sharks) (contributions : List UnwrappedMemberShare)
    (required : Nat) : Result Bytes :=
  if contributions.length < required then .error "insufficient Shamir shares"
  else do
    let shares ← contributions.mapM (decodeShare sharks)
    match sharks.recover required shares with
    | .ok secret => .ok secret
    | .error error => .error s!"reconstruct policy secret: {error}"

/-- A further fragment of an all_of policy. -/
def mergeFragment (secret : Option Bytes) (fragment : Bytes) : Result (Option Bytes) :=
  match secret with
  | none => .ok (some fragment)
  | some secret =>
    if secret.length ≠ fragment.length then .error "all_of fragments have inconsistent lengths"
    else .ok (some (List.zipWith (· ^^^ ·) secret fragment))

mutual

def recoverPolicySecret (sharks : Sharks) :
    UnlockPolicy → List UnwrappedMemberShare → String → Result Bytes
  | .member memberId, contributions, _ =>
    match contributions.find? fun contribution => contribution.memberId == memberId with
    | none => .error "missing member contribution"
    | some contribution => recoverShamir sharks [contribution] 1
  | .anyOf policies, contributions, path => recoverAny sharks policies contributions path 0
  | .allOf policies, contributions, path => do
      match ← recoverAll sharks policies contributions path 0 none with
      | none => .error "empty all_of policy"
      | some secret => .ok secret
  | .threshold _ required members, contributions, _ =>
    recoverShamir sharks
      ((contributions.filter fun contribution =>
        decide (contribution.memberId ∈ members)).take required) required

def recoverAny (sharks : Sharks) :
    List UnlockPolicy → List UnwrappedMemberShare → String → Nat → Result Bytes
  | [], _, _, _ => .error "no any_of alternative is satisfied"
  | policy :: policies, contributions, path, index =>
    match recoverPolicySecret sharks policy contributions s!"{path}/any/{index}" with
    | .ok secret => .ok secret
    | .error _ => recoverAny sharks policies contributions path (index + 1)

def recoverAll (sharks : Sharks) :
    List UnlockPolicy → List UnwrappedMemberShare → String → Nat → Option Bytes →
      Result (Option Bytes)
  | [], _, _, _, secret => .ok secret
  | policy :: policies, contributions, path, index, secret => do
      let fragment ← recoverPolicySecret sharks policy contributions s!"{path}/all/{index}"
      let secret ← mergeFragment secret fragment
      recoverAll sharks policies contributions path (index + 1) secret

end

end Vaultic.Recovery
