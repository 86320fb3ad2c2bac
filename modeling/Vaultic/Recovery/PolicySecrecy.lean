/-
  Recovery/PolicySecrecy.lean  —  a set of members that does not satisfy the policy learns
  nothing about the secret from its shares.

  Source: vaulticdb/src/encryption/recovery_capsule/shares.rs (`distribute_policy_secret`),
  vaulticdb/src/encryption/recovery_capsule/publish.rs (`satisfied_by`).

  For two secrets of one length, the random choices of the one dealing are carried to those
  of the other by a bijection under which the shares of the set are the same.  In an all_of
  policy it moves the difference of the secrets into the fragment of a child that the set
  does not satisfy; at the leaves it is that of Shamir's scheme.
-/
import Vaultic.Recovery.PolicyShares

set_option autoImplicit false

namespace Vaultic.Recovery

open Vaultic.Lib UnlockPolicy

/-- The shares that a dealing gave to the members of `S`. -/
def view (S : Finset MemberId) (dealt : Result (List DistributedShare)) :
    Result (List DistributedShare) :=
  dealt.map fun shares => shares.filter fun share => decide (share.memberId ∈ S)

/-- The dealings to two subtrees look alike if each of them does. -/
theorem view_append_congr {S : Finset MemberId}
    {own own' others others' : Result (List DistributedShare)}
    (hown : view S own = view S own') (hothers : view S others = view S others') :
    view S (do let own ← own; let others ← others; .ok (own ++ others)) =
      view S (do let own ← own'; let others ← others'; .ok (own ++ others)) := by
  unfold view at hown hothers ⊢
  simp only [map_bind]
  apply bind_congr_of_map hown
  intro shares shares' hshares
  apply bind_congr_of_map hothers
  intro rest rest' hrest
  simp only [Except.map, List.filter_append, hshares, hrest]

/-! ## Differences of secrets -/

section Xor

variable {n : Nat}

theorem xorSecret_assoc (a b c : Secret n) :
    xorSecret (xorSecret a b) c = xorSecret a (xorSecret b c) := by
  ext i hi
  simp only [xorSecret, Vector.getElem_zipWith, UInt8.xor_assoc]

theorem xorSecret_comm (a b : Secret n) : xorSecret a b = xorSecret b a := by
  ext i hi
  simp only [xorSecret, Vector.getElem_zipWith, UInt8.xor_comm]

theorem xorSecret_xorSecret (a b : Secret n) : xorSecret (xorSecret a b) b = a := by
  rw [xorSecret_comm, xorSecret_cancel]

/-- A fragment that takes up the difference of two secrets. -/
theorem xorSecret_difference (a b fragment : Secret n) :
    xorSecret a fragment = xorSecret b (xorSecret fragment (xorSecret a b)) := by
  rw [xorSecret_comm b, xorSecret_assoc, xorSecret_xorSecret, xorSecret_comm]

/-- Moving a fragment by a difference. -/
def xorEquiv (difference : Secret n) : Secret n ≃ Secret n where
  toFun fragment := xorSecret fragment difference
  invFun fragment := xorSecret fragment difference
  left_inv fragment := xorSecret_xorSecret fragment difference
  right_inv fragment := xorSecret_xorSecret fragment difference

end Xor

/-! ## Threshold groups -/

section Group

variable {sharks : Sharks} {n : Nat}

theorem thresholdShares_eq (groupId : String) (required : Nat) (members : List MemberId)
    (secret : Secret n) (coins : sharks.Coins required n) :
    thresholdShares sharks groupId required members secret coins =
      ((members.zip (List.finRange 255)).zipIdx 1).map fun ((memberId, index), shareIndex) =>
        { memberId, groupId, shareIndex, threshold := required, shareCount := members.length
          plaintext := sharks.toBytes (sharks.dealer required secret coins index) } := by
  rw [thresholdShares, List.ofFn_eq_map, List.zip_map_right, List.zipIdx_map, List.map_map]
  rfl

/-- The positions of a group at which `S` has a member. -/
def heldPositions (S : Finset MemberId) (members : List MemberId) : Finset (Fin 255) :=
  (((members.zip (List.finRange 255)).filter fun entry => decide (entry.1 ∈ S)).map
    Prod.snd).toFinset

theorem card_heldPositions (S : Finset MemberId) {members : List MemberId}
    (hwithin : members.length ≤ 255) :
    (heldPositions S members).card ≤
      (members.filter fun member => decide (member ∈ S)).length := by
  apply (List.toFinset_card_le _).trans
  have hzip : (members.zip (List.finRange 255)).map Prod.fst = members :=
    List.map_fst_zip (by rwa [List.length_finRange])
  conv_rhs => rw [← hzip]
  rw [List.filter_map, List.length_map, List.length_map]
  rfl

theorem view_thresholdShares (S : Finset MemberId) {groupId : String} {required : Nat}
    {members : List MemberId} {secret secret' : Secret n} {coins coins' : sharks.Coins required n}
    (h : ∀ index ∈ heldPositions S members,
      sharks.dealer required secret coins index = sharks.dealer required secret' coins' index) :
    view S (.ok (thresholdShares sharks groupId required members secret coins)) =
      view S (.ok (thresholdShares sharks groupId required members secret' coins')) := by
  apply congrArg Except.ok
  dsimp only
  rw [thresholdShares_eq, thresholdShares_eq, List.filter_map, List.filter_map]
  apply List.map_congr_left
  intro entry hentry
  obtain ⟨hmem, hheld⟩ := List.mem_filter.mp hentry
  obtain ⟨⟨memberId, index⟩, shareIndex⟩ := entry
  have hzip := List.mem_of_getElem? (List.mk_mem_zipIdx_iff_le_and_getElem?_sub.mp hmem).2
  have hindex : index ∈ heldPositions S members := by
    apply List.mem_toFinset.mpr
    exact List.mem_map.mpr ⟨(memberId, index), List.mem_filter.mpr ⟨hzip, hheld⟩, rfl⟩
  simp only [h index hindex]

end Group

/-! ## The tree -/

section Tree

variable {sharks : Sharks} {n : Nat} {S : Finset MemberId}

variable {secret secret' combined combined' : Secret n}

section

variable (h : xorSecret secret combined = xorSecret secret' combined')
include h

theorem fragment_residual (rest : List UnlockPolicy) (draw : Draw n rest) :
    fragment secret combined rest draw = fragment secret' combined' rest draw := by
  cases rest with
  | nil => exact h
  | cons _ _ => rfl

theorem combine_residual (rest : List UnlockPolicy) (draw : Draw n rest) :
    xorSecret secret (combine combined rest draw) =
      xorSecret secret' (combine combined' rest draw) := by
  cases rest with
  | nil => exact h
  | cons _ _ =>
    have hdrawn (drawn : Secret n) : xorSecret secret (xorSecret combined drawn) =
        xorSecret secret' (xorSecret combined' drawn) := by
      rw [← xorSecret_assoc, h, xorSecret_assoc]
    exact hdrawn draw

end

/-- Only the part of the secret that is left matters to an all_of dealing. -/
theorem distributeAll_residual (policies : List UnlockPolicy)
    (h : xorSecret secret combined = xorSecret secret' combined') (path : String) (index : Nat)
    (coins : AllCoins sharks n policies) :
    distributeAll sharks policies secret combined path index coins =
      distributeAll sharks policies secret' combined' path index coins := by
  induction policies generalizing combined combined' index with
  | nil => rfl
  | cons policy policies ih =>
    unfold distributeAll
    rw [fragment_residual h, ih (combine_residual h policies coins.1.1)]

/-- Two dealings of a subtree look alike to `S`, up to a bijection of the random choices. -/
def Alike {Choices : Type} (S : Finset MemberId)
    (deal deal' : Choices → Result (List DistributedShare)) : Prop :=
  ∃ bijection : Choices ≃ Choices, ∀ coins, view S (deal coins) = view S (deal' (bijection coins))

theorem Alike.refl {Choices : Type} {deal deal' : Choices → Result (List DistributedShare)}
    (h : ∀ coins, view S (deal coins) = view S (deal' coins)) : Alike S deal deal' :=
  ⟨Equiv.refl Choices, h⟩

mutual

/-- By induction over the policy. -/
theorem distribute_alike (hhides : sharks.Hides) : (policy : UnlockPolicy) →
    policy.satisfiedBy S = false → (secret secret' : Secret n) → (path : String) →
    Alike S (distributePolicySecret sharks policy secret path)
      (distributePolicySecret sharks policy secret' path)
  | .member memberId, hunsatisfied, secret, secret', path => by
    have hmember : decide (memberId ∈ S) = false := hunsatisfied
    apply Alike.refl
    intro coins
    simp only [distributePolicySecret, view, Except.map, List.filter, hmember]
  | .anyOf policies, hunsatisfied, secret, secret', path =>
    distributeAny_alike hhides policies hunsatisfied secret secret' path 0
  | .allOf policies, hunsatisfied, secret, secret', path =>
    distributeAll_alike hhides policies hunsatisfied secret secret' _ _ path 0
  | .threshold groupId required members, hunsatisfied, secret, secret', path => by
    by_cases hlimit : 255 < members.length
    · apply Alike.refl
      intro coins
      unfold distributePolicySecret
      rw [if_pos hlimit, if_pos hlimit]
    · have hfew : (heldPositions S members).card < required :=
        lt_of_le_of_lt (card_heldPositions S (Nat.le_of_not_lt hlimit))
          (Nat.lt_of_not_le (of_decide_eq_false hunsatisfied))
      obtain ⟨bijection, hbijection⟩ := hhides secret secret' (heldPositions S members) hfew
      refine ⟨bijection, fun coins => ?_⟩
      unfold distributePolicySecret
      rw [if_neg hlimit, if_neg hlimit]
      exact view_thresholdShares S (hbijection coins)

theorem distributeAny_alike (hhides : sharks.Hides) : (policies : List UnlockPolicy) →
    anySatisfiedBy S policies = false → (secret secret' : Secret n) → (path : String) →
    (index : Nat) →
    Alike S (distributeAny sharks policies secret path index)
      (distributeAny sharks policies secret' path index)
  | [], _, secret, secret', path, index => Alike.refl fun _ => rfl
  | policy :: policies, hunsatisfied, secret, secret', path, index => by
    obtain ⟨hpolicy, hrest⟩ := Bool.or_eq_false_iff.mp hunsatisfied
    obtain ⟨first, hfirst⟩ :=
      distribute_alike hhides policy hpolicy secret secret' s!"{path}/any/{index}"
    obtain ⟨others, hothers⟩ :=
      distributeAny_alike hhides policies hrest secret secret' path (index + 1)
    refine ⟨Equiv.prodCongr first others, fun coins => ?_⟩
    exact view_append_congr (hfirst coins.1) (hothers coins.2)

theorem distributeAll_alike (hhides : sharks.Hides) : (policies : List UnlockPolicy) →
    allSatisfiedBy S policies = false → (secret secret' combined combined' : Secret n) →
    (path : String) → (index : Nat) →
    Alike S (distributeAll sharks policies secret combined path index)
      (distributeAll sharks policies secret' combined' path index)
  | [], hunsatisfied, _, _, _, _, _, _ => absurd hunsatisfied nofun
  | [policy], hunsatisfied, secret, secret', combined, combined', path, index => by
    -- the last child carries the whole difference
    have hpolicy : policy.satisfiedBy S = false := by
      simpa [allSatisfiedBy] using hunsatisfied
    obtain ⟨last, hlast⟩ := distribute_alike hhides policy hpolicy (xorSecret secret combined)
      (xorSecret secret' combined') s!"{path}/all/{index}"
    refine ⟨Equiv.prodCongr (Equiv.prodCongr (Equiv.refl _) last) (Equiv.refl _), ?_⟩
    intro coins
    exact view_append_congr (hlast coins.1.2) rfl
  | policy :: next :: rest, hunsatisfied, secret, secret', combined, combined', path, index => by
    cases hpolicy : policy.satisfiedBy S with
    | false =>
      -- the fragment of this child takes up the difference, and the rest stays
      let left := xorSecret secret combined
      let left' := xorSecret secret' combined'
      choose bijection hbijection using fun drawn : Secret n =>
        distribute_alike hhides policy hpolicy drawn (xorSecret drawn (xorSecret left left'))
          s!"{path}/all/{index}"
      refine ⟨Equiv.prodCongr
        (Equiv.prodShear (xorEquiv (xorSecret left left')) bijection) (Equiv.refl _), ?_⟩
      intro coins
      apply view_append_congr (hbijection coins.1.1 coins.1.2)
      apply congrArg (view S)
      apply distributeAll_residual
      have hresidual (drawn : Secret n) : xorSecret secret (xorSecret combined drawn) =
          xorSecret secret' (xorSecret combined' (xorSecret drawn (xorSecret left left'))) := by
        rw [← xorSecret_assoc, ← xorSecret_assoc]
        exact xorSecret_difference left left' drawn
      exact hresidual coins.1.1
    | true =>
      have hrest : allSatisfiedBy S (next :: rest) = false := by
        rw [allSatisfiedBy, hpolicy, Bool.true_and] at hunsatisfied
        exact hunsatisfied
      choose bijection hbijection using fun drawn : Secret n =>
        distributeAll_alike hhides (next :: rest) hrest secret secret'
          (xorSecret combined drawn) (xorSecret combined' drawn) path (index + 1)
      refine ⟨Equiv.prodShear (Equiv.refl _) fun coins => bijection coins.1, ?_⟩
      intro coins
      exact view_append_congr rfl (hbijection coins.1.1 coins.2)

end

end Tree

/-- For every policy, every set of members that does not satisfy it and any two secrets of one
length, there is a bijection of the random choices under which the members of the set are
dealt the same shares. -/
theorem shares_hide_secret (sharks : Sharks) (hhides : sharks.Hides) (policy : UnlockPolicy)
    (S : Finset MemberId) (hunsatisfied : policy.satisfiedBy S = false) (n : Nat)
    (secret secret' : Secret n) (path : String) :
    ∃ bijection : Coins sharks n policy ≃ Coins sharks n policy, ∀ coins,
      (distributePolicySecret sharks policy secret path coins).map
          (fun shares => shares.filter fun share => decide (share.memberId ∈ S)) =
        (distributePolicySecret sharks policy secret' path (bijection coins)).map
          (fun shares => shares.filter fun share => decide (share.memberId ∈ S)) :=
  distribute_alike hhides policy hunsatisfied secret secret' path

/-- Two operators without the owner. -/
theorem shares_hide_secret_operators :
    ∃ bijection : Coins shamirSharks 32 ownerAndQuorum ≃ Coins shamirSharks 32 ownerAndQuorum,
      ∀ coins,
        (distributePolicySecret shamirSharks ownerAndQuorum (Vector.replicate 32 7) "root"
            coins).map
            (fun shares => shares.filter fun share =>
              decide (share.memberId ∈ ({"first", "second"} : Finset MemberId))) =
          (distributePolicySecret shamirSharks ownerAndQuorum (Vector.replicate 32 9) "root"
            (bijection coins)).map
            (fun shares => shares.filter fun share =>
              decide (share.memberId ∈ ({"first", "second"} : Finset MemberId))) :=
  shares_hide_secret shamirSharks shamirSharks_hides ownerAndQuorum {"first", "second"}
    (by decide +kernel) 32 (Vector.replicate 32 7) (Vector.replicate 32 9) "root"

end Vaultic.Recovery
