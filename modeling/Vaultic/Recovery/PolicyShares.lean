/-
  Recovery/PolicyShares.lean  —  the shares of a set of members recover the secret exactly
  when the set satisfies the policy.

  Source: vaulticdb/src/encryption/recovery_capsule/shares.rs (`distribute_policy_secret`,
  `recover_policy_secret`), vaulticdb/src/encryption/recovery_capsule/publish.rs
  (`member_ids`, `satisfied_by`).

  The members of an accepted policy are distinct over the whole tree, so the contributions
  of the members of a subtree are shares that were dealt in it (`Contributed`).  The
  induction over the tree then needs Shamir's scheme at its leaves only.
-/
import Vaultic.Recovery.Shamir

set_option autoImplicit false

namespace Vaultic.Recovery

open Vaultic.Lib

/-! ## Accepted policies -/

namespace UnlockPolicy

mutual

/-- The members of a policy, in order. -/
def members : UnlockPolicy → List MemberId
  | .member memberId => [memberId]
  | .anyOf policies | .allOf policies => allMembers policies
  | .threshold _ _ members => members

def allMembers : List UnlockPolicy → List MemberId
  | [] => []
  | policy :: policies => policy.members ++ allMembers policies

end

mutual

/-- No composed policy is empty, and every threshold can be met. -/
def WellFormed : UnlockPolicy → Prop
  | .member _ => True
  | .anyOf policies | .allOf policies => policies ≠ [] ∧ AllWellFormed policies
  | .threshold _ required members => 0 < required ∧ required ≤ members.length

def AllWellFormed : List UnlockPolicy → Prop
  | [] => True
  | policy :: policies => policy.WellFormed ∧ AllWellFormed policies

end

mutual

/-- Every threshold group has at most `limit` members. -/
def groupsWithin (limit : Nat) : UnlockPolicy → Prop
  | .member _ => True
  | .anyOf policies | .allOf policies => allGroupsWithin limit policies
  | .threshold _ _ members => members.length ≤ limit

def allGroupsWithin (limit : Nat) : List UnlockPolicy → Prop
  | [] => True
  | policy :: policies => policy.groupsWithin limit ∧ allGroupsWithin limit policies

end

/-- The members were all new, and are now among the collected ones. -/
structure Collected (ids out : Finset MemberId) (members : List MemberId) : Prop where
  nodup : members.Nodup
  fresh : ∀ member ∈ members, member ∉ ids
  mem : ∀ member, member ∈ out ↔ member ∈ ids ∨ member ∈ members

theorem Collected.nil (ids : Finset MemberId) : Collected ids ids [] :=
  ⟨List.nodup_nil, nofun, fun _ => by simp⟩

theorem Collected.append {ids mid out : Finset MemberId} {left right : List MemberId}
    (hleft : Collected ids mid left) (hright : Collected mid out right) :
    Collected ids out (left ++ right) := by
  refine ⟨?_, ?_, ?_⟩
  · apply List.nodup_append.mpr
    refine ⟨hleft.nodup, hright.nodup, ?_⟩
    intro member hmember other hother heq
    exact hright.fresh other hother ((hleft.mem other).mpr (.inr (heq ▸ hmember)))
  · intro member hmember hids
    rcases List.mem_append.mp hmember with h | h
    · exact hleft.fresh member h hids
    · exact hright.fresh member h ((hleft.mem member).mpr (.inl hids))
  · intro member
    rw [hright.mem, hleft.mem, List.mem_append, or_assoc]

variable {ids out : Finset MemberId}

theorem insertMember_collected {memberId : MemberId} (h : insertMember ids memberId = .ok out) :
    Collected ids out [memberId] := by
  unfold insertMember at h
  split_ifs at h with hold
  obtain rfl := Except.ok.inj h
  refine ⟨List.nodup_singleton memberId, ?_, ?_⟩
  · intro member hmember
    rw [List.mem_singleton.mp hmember]
    exact fun hids => hold (.inr hids)
  · intro member
    rw [Finset.mem_insert, List.mem_singleton, or_comm]

theorem insertMembers_collected {members : List MemberId}
    (h : members.foldlM insertMember ids = .ok out) : Collected ids out members := by
  induction members generalizing ids with
  | nil =>
    obtain rfl := Except.ok.inj h
    exact .nil ids
  | cons memberId rest ih =>
    obtain ⟨mid, hmid, hrest⟩ := of_bind h
    exact (insertMember_collected hmid).append (ih hrest)

mutual

/-- What an accepted policy is: well formed, with distinct members. -/
theorem collectMemberIds_spec : (policy : UnlockPolicy) → {ids out : Finset MemberId} →
    policy.collectMemberIds ids = .ok out →
      policy.WellFormed ∧ Collected ids out policy.members
  | .member memberId, ids, out, h => ⟨trivial, insertMember_collected h⟩
  | .anyOf policies, ids, out, h | .allOf policies, ids, out, h => by
    unfold collectMemberIds at h
    split_ifs at h with hempty
    obtain ⟨hformed, hcollected⟩ := collectAllMemberIds_spec policies h
    exact ⟨⟨fun hnil => hempty (hnil ▸ rfl), hformed⟩, hcollected⟩
  | .threshold groupId required members, ids, out, h => by
    unfold collectMemberIds at h
    split_ifs at h with hinvalid
    have hpositive : 0 < required := Nat.pos_of_ne_zero fun h => hinvalid (.inr (.inl h))
    have hwithin : required ≤ members.length :=
      Nat.le_of_not_lt fun h => hinvalid (.inr (.inr (.inl h)))
    exact ⟨⟨hpositive, hwithin⟩, insertMembers_collected h⟩

theorem collectAllMemberIds_spec : (policies : List UnlockPolicy) →
    {ids out : Finset MemberId} → collectAllMemberIds policies ids = .ok out →
      AllWellFormed policies ∧ Collected ids out (allMembers policies)
  | [], ids, out, h => by
    obtain rfl := Except.ok.inj h
    exact ⟨trivial, .nil ids⟩
  | policy :: policies, ids, out, h => by
    obtain ⟨mid, hpolicy, hrest⟩ := of_bind h
    have hpolicy := collectMemberIds_spec policy hpolicy
    have hrest := collectAllMemberIds_spec policies hrest
    exact ⟨⟨hpolicy.1, hrest.1⟩, hpolicy.2.append hrest.2⟩

end

end UnlockPolicy

open UnlockPolicy

/-! ## What is dealt -/

section Dealing

variable {sharks : Sharks} {n : Nat}

/-- The share of the member at a position of a threshold group. -/
def groupShare (sharks : Sharks) (groupId : String) (required : Nat) (members : List MemberId)
    (secret : Secret n) (coins : sharks.Coins required n) (index : Fin 255) (memberId : MemberId) :
    DistributedShare :=
  { memberId, groupId, shareIndex := index.val + 1, threshold := required
    shareCount := members.length
    plaintext := sharks.toBytes (sharks.dealer required secret coins index) }

theorem mem_thresholdShares {groupId : String} {required : Nat} {members : List MemberId}
    {secret : Secret n} {coins : sharks.Coins required n} {share : DistributedShare} :
    share ∈ thresholdShares sharks groupId required members secret coins ↔
      ∃ index : Fin 255, ∃ memberId, members[index.val]? = some memberId ∧
        share = groupShare sharks groupId required members secret coins index memberId := by
  unfold thresholdShares
  rw [List.mem_map]
  constructor
  · intro h
    obtain ⟨⟨⟨memberId, dealt⟩, shareIndex⟩, hmem, rfl⟩ := h
    obtain ⟨hone, hget⟩ := List.mk_mem_zipIdx_iff_le_and_getElem?_sub.mp hmem
    obtain ⟨hmember, hdealt⟩ := List.getElem?_zip_eq_some.mp hget
    rw [List.getElem?_ofFn] at hdealt
    split_ifs at hdealt with hindex
    obtain rfl := Option.some.inj hdealt
    refine ⟨⟨shareIndex - 1, hindex⟩, memberId, hmember, ?_⟩
    simp only [groupShare, Nat.sub_add_cancel hone]
  · intro h
    obtain ⟨index, memberId, hmember, rfl⟩ := h
    refine ⟨((memberId, sharks.dealer required secret coins index), index.val + 1), ?_, rfl⟩
    apply List.mk_mem_zipIdx_iff_le_and_getElem?_sub.mpr
    refine ⟨Nat.le_add_left 1 _, List.getElem?_zip_eq_some.mpr ⟨hmember, ?_⟩⟩
    rw [Nat.add_sub_cancel, List.getElem?_ofFn, dif_pos index.isLt]

/-- Dealing succeeds, and deals to the given members only. -/
def Dealt (result : Result (List DistributedShare)) (members : List MemberId) : Prop :=
  ∃ shares, result = .ok shares ∧ ∀ share ∈ shares, share.memberId ∈ members

theorem Dealt.append {first second : Result (List DistributedShare)}
    {members rest : List MemberId} (hfirst : Dealt first members) (hsecond : Dealt second rest) :
    Dealt (do let shares ← first; let others ← second; .ok (shares ++ others))
      (members ++ rest) := by
  obtain ⟨own, rfl, hown⟩ := hfirst
  obtain ⟨others, rfl, hothers⟩ := hsecond
  refine ⟨own ++ others, rfl, List.forall_mem_append.mpr ⟨?_, ?_⟩⟩
  · exact fun share hshare => List.mem_append_left _ (hown share hshare)
  · exact fun share hshare => List.mem_append_right _ (hothers share hshare)

mutual

/-- Dealing succeeds if no group is too large, and deals to members of the policy. -/
theorem distribute_dealt : (policy : UnlockPolicy) → policy.groupsWithin 255 →
    (secret : Secret n) → (path : String) → (coins : Coins sharks n policy) →
    Dealt (distributePolicySecret sharks policy secret path coins) policy.members
  | .member memberId, _, secret, path, coins => by
    refine ⟨_, rfl, fun share hshare => ?_⟩
    rw [List.mem_singleton.mp hshare]
    exact List.mem_singleton_self memberId
  | .anyOf policies, hwithin, secret, path, coins =>
    distributeAny_dealt policies hwithin secret path 0 coins
  | .allOf policies, hwithin, secret, path, coins =>
    distributeAll_dealt policies hwithin secret _ path 0 coins
  | .threshold groupId required members, hwithin, secret, path, coins => by
    refine ⟨_, if_neg (Nat.not_lt.mpr hwithin), fun share hshare => ?_⟩
    obtain ⟨index, memberId, hget, rfl⟩ := mem_thresholdShares.mp hshare
    exact List.mem_of_getElem? hget

theorem distributeAny_dealt : (policies : List UnlockPolicy) → allGroupsWithin 255 policies →
    (secret : Secret n) → (path : String) → (index : Nat) →
    (coins : AnyCoins sharks n policies) →
    Dealt (distributeAny sharks policies secret path index coins) (allMembers policies)
  | [], _, _, _, _, _ => ⟨[], rfl, nofun⟩
  | policy :: policies, hwithin, secret, path, index, coins =>
    (distribute_dealt policy hwithin.1 secret _ coins.1).append
      (distributeAny_dealt policies hwithin.2 secret path (index + 1) coins.2)

theorem distributeAll_dealt : (policies : List UnlockPolicy) → allGroupsWithin 255 policies →
    (secret combined : Secret n) → (path : String) → (index : Nat) →
    (coins : AllCoins sharks n policies) →
    Dealt (distributeAll sharks policies secret combined path index coins) (allMembers policies)
  | [], _, _, _, _, _, _ => ⟨[], rfl, nofun⟩
  | policy :: policies, hwithin, secret, _, path, index, coins =>
    (distribute_dealt policy hwithin.1 _ _ coins.1.2).append
      (distributeAll_dealt policies hwithin.2 secret _ path (index + 1) coins.2)

end

end Dealing

/-! ## What is contributed -/

/-- The contributions of members of a subtree are the shares that were dealt in it to the
members of `S`. -/
structure Contributed (contributions : List UnwrappedMemberShare) (S : Finset MemberId)
    (dealt : List DistributedShare) (members : List MemberId) : Prop where
  sound : ∀ contribution ∈ contributions, contribution.memberId ∈ members →
    ∃ share ∈ dealt, share.memberId ∈ S ∧ share.unwrapped = contribution
  complete : ∀ share ∈ dealt, share.memberId ∈ S → share.unwrapped ∈ contributions

/-- Of a list of subtrees with distinct members, the first one and the others. -/
theorem Contributed.split {contributions : List UnwrappedMemberShare} {S : Finset MemberId}
    {first second : Result (List DistributedShare)} {members rest : List MemberId}
    {dealt : List DistributedShare} (h : Contributed contributions S dealt (members ++ rest))
    (hnodup : (members ++ rest).Nodup) (hfirst : Dealt first members) (hsecond : Dealt second rest)
    (hdealt : (do let shares ← first; let others ← second; .ok (shares ++ others)) = .ok dealt) :
    ∃ own others, first = .ok own ∧ second = .ok others ∧
      Contributed contributions S own members ∧ Contributed contributions S others rest := by
  obtain ⟨own, rfl, hown⟩ := hfirst
  obtain ⟨others, rfl, hothers⟩ := hsecond
  cases hdealt
  have hdisjoint := (List.nodup_append.mp hnodup).2.2
  refine ⟨own, others, rfl, rfl, ⟨fun contribution hmem hmember => ?_,
      fun share hshare => h.complete share (List.mem_append_left _ hshare)⟩,
    ⟨fun contribution hmem hmember => ?_,
      fun share hshare => h.complete share (List.mem_append_right _ hshare)⟩⟩
  · obtain ⟨share, hshare, hS, rfl⟩ := h.sound contribution hmem (List.mem_append_left _ hmember)
    rcases List.mem_append.mp hshare with hleft | hright
    · exact ⟨share, hleft, hS, rfl⟩
    · exact absurd rfl (hdisjoint _ hmember _ (hothers share hright))
  · obtain ⟨share, hshare, hS, rfl⟩ := h.sound contribution hmem (List.mem_append_right _ hmember)
    rcases List.mem_append.mp hshare with hleft | hright
    · exact absurd rfl (hdisjoint _ (hown share hleft) _ hmember)
    · exact ⟨share, hright, hS, rfl⟩

/-! ## The leaves -/

section Leaves

variable {sharks : Sharks} {n : Nat} {contributions : List UnwrappedMemberShare}
  {S : Finset MemberId}

theorem recoverShamir_dealt (hlawful : sharks.Lawful) (hn : 0 < n) {required : Nat}
    {secret : Secret n} (coins : sharks.Coins required n) (hrequired : 0 < required)
    (hlength : contributions.length = required) (index : UnwrappedMemberShare → Fin 255)
    (hdealt : ∀ contribution ∈ contributions, contribution.plaintext =
      sharks.toBytes (sharks.dealer required secret coins (index contribution)))
    (hnodup : (contributions.map index).Nodup) :
    recoverShamir sharks contributions required = .ok secret.toList := by
  have hdecode : contributions.mapM (decodeShare sharks) =
      .ok (contributions.map fun contribution =>
        sharks.dealer required secret coins (index contribution)) := by
    apply mapM_eq_map
    intro contribution hmem
    rw [decodeShare, hdealt contribution hmem, hlawful.ofBytes_toBytes secret coins _ hn]
  have hrecover := hlawful.recover_dealt secret coins (contributions.map index) hn hrequired
    hnodup (by rw [List.length_map, hlength])
  rw [List.map_map] at hrecover
  rw [Function.comp_def] at hrecover
  rw [recoverShamir, if_neg (by omega), hdecode]
  simp only [bind, Except.bind, hrecover]

/-- The position of a member in its group. -/
def position (members : List MemberId) (memberId : MemberId) : Fin 255 :=
  Fin.ofNat 255 (members.idxOf memberId)

theorem position_eq {members : List MemberId} (hnodup : members.Nodup) {index : Fin 255}
    {memberId : MemberId} (hget : members[index.val]? = some memberId) :
    position members memberId = index := by
  obtain ⟨hlt, rfl⟩ := List.getElem?_eq_some_iff.mp hget
  apply Fin.ext
  rw [position, hnodup.idxOf_getElem]
  exact Nat.mod_eq_of_lt index.isLt

theorem position_inj {members : List MemberId} (hwithin : members.length ≤ 255)
    {left right : MemberId} (hleft : left ∈ members) (hright : right ∈ members)
    (heq : position members left = position members right) : left = right := by
  have hval := congrArg Fin.val heq
  simp only [position, Fin.val_ofNat] at hval
  have hlt := List.idxOf_lt_length_iff.mpr hleft
  have hlt' := List.idxOf_lt_length_iff.mpr hright
  rw [Nat.mod_eq_of_lt (by omega), Nat.mod_eq_of_lt (by omega)] at hval
  exact (List.idxOf_inj hleft).mp hval

section Group

variable {groupId : String} {required : Nat} {members : List MemberId} {secret : Secret n}
  {coins : sharks.Coins required n}

/-- The contributions of the members of a group. -/
abbrev groupContributions (contributions : List UnwrappedMemberShare) (members : List MemberId) :
    List UnwrappedMemberShare :=
  contributions.filter fun contribution => decide (contribution.memberId ∈ members)

variable (hnodup : members.Nodup) (h : Contributed contributions S
  (thresholdShares sharks groupId required members secret coins) members)
include hnodup h

/-- A contribution to a group is the share at the position of its member. -/
theorem groupContribution
    {contribution : UnwrappedMemberShare} (hmem : contribution ∈ contributions)
    (hmember : contribution.memberId ∈ members) :
    contribution.memberId ∈ S ∧
      contribution = (groupShare sharks groupId required members secret coins
        (position members contribution.memberId) contribution.memberId).unwrapped := by
  obtain ⟨share, hshare, hS, rfl⟩ := h.sound contribution hmem hmember
  obtain ⟨index, memberId, hget, rfl⟩ := mem_thresholdShares.mp hshare
  refine ⟨hS, ?_⟩
  change _ = (groupShare sharks groupId required members secret coins
    (position members memberId) memberId).unwrapped
  rw [position_eq hnodup hget]

variable (hwithin : members.length ≤ 255) (hcontributions : contributions.Nodup)
include hwithin hcontributions

/-- As many contribute to a group as the policy counts. -/
theorem length_groupContributions :
    ((groupContributions contributions members).map (·.memberId)).Nodup ∧
      (groupContributions contributions members).length =
        (members.filter fun member => decide (member ∈ S)).length := by
  have hids : ((groupContributions contributions members).map (·.memberId)).Nodup := by
    apply List.Nodup.map_on
    · intro left hleft right hright heq
      obtain ⟨hleft, hleftMember⟩ := List.mem_filter.mp hleft
      obtain ⟨hright, hrightMember⟩ := List.mem_filter.mp hright
      rw [(groupContribution hnodup h hleft (of_decide_eq_true hleftMember)).2,
        (groupContribution hnodup h hright (of_decide_eq_true hrightMember)).2, heq]
    · exact hcontributions.filter _
  refine ⟨hids, ?_⟩
  have hperm : List.Perm ((groupContributions contributions members).map (·.memberId))
      (members.filter fun member => decide (member ∈ S)) := by
    apply (List.perm_ext_iff_of_nodup hids (hnodup.filter _)).mpr
    intro member
    rw [List.mem_map, List.mem_filter, decide_eq_true_eq]
    constructor
    · intro hmember
      obtain ⟨contribution, hmem, rfl⟩ := hmember
      obtain ⟨hmem, hmember⟩ := List.mem_filter.mp hmem
      have hmember := of_decide_eq_true hmember
      exact ⟨hmember, (groupContribution hnodup h hmem hmember).1⟩
    · intro hmember
      obtain ⟨hmember, hS⟩ := hmember
      obtain ⟨index, hindex, hget⟩ := List.getElem_of_mem hmember
      have hget : members[index]? = some member := List.getElem?_eq_some_iff.mpr ⟨hindex, hget⟩
      refine ⟨(groupShare sharks groupId required members secret coins
        ⟨index, by omega⟩ member).unwrapped, List.mem_filter.mpr ⟨?_, decide_eq_true hmember⟩, rfl⟩
      exact h.complete _ (mem_thresholdShares.mpr ⟨_, member, hget, rfl⟩) hS
  rw [← hperm.length_eq, List.length_map]

theorem recover_threshold (hlawful : sharks.Lawful) (hn : 0 < n) (hrequired : 0 < required)
    (hsatisfied : required ≤ (members.filter fun member => decide (member ∈ S)).length) :
    recoverShamir sharks ((groupContributions contributions members).take required) required =
      .ok secret.toList := by
  obtain ⟨hids, hlength⟩ := length_groupContributions hnodup h hwithin hcontributions
  have hmem : ∀ contribution ∈ (groupContributions contributions members).take required,
      contribution ∈ contributions ∧ contribution.memberId ∈ members := by
    intro contribution htaken
    obtain ⟨hmem, hmember⟩ := List.mem_filter.mp (List.mem_of_mem_take htaken)
    exact ⟨hmem, of_decide_eq_true hmember⟩
  apply recoverShamir_dealt hlawful hn coins hrequired ?_
    fun contribution => position members contribution.memberId
  · intro contribution htaken
    obtain ⟨hmem, hmember⟩ := hmem contribution htaken
    exact congrArg UnwrappedMemberShare.plaintext
      (groupContribution hnodup h hmem hmember).2
  · have htaken := hids.sublist ((List.take_sublist required _).map _)
    have hpositions := htaken.map_on (f := position members) ?_
    · rwa [List.map_map] at hpositions
    intro left hleft right hright
    obtain ⟨first, hfirst, rfl⟩ := List.mem_map.mp hleft
    obtain ⟨second, hsecond, rfl⟩ := List.mem_map.mp hright
    exact position_inj hwithin (hmem first hfirst).2 (hmem second hsecond).2
  · rw [List.length_take, hlength]
    exact Nat.min_eq_left hsatisfied

/-- Too few contributions to a group do not recover. -/
theorem recover_threshold_error
    (hunsatisfied : ¬ required ≤ (members.filter fun member => decide (member ∈ S)).length) :
    recoverShamir sharks ((groupContributions contributions members).take required) required =
      .error "insufficient Shamir shares" := by
  have hlength := (length_groupContributions hnodup h hwithin hcontributions).2
  rw [recoverShamir, if_pos]
  rw [List.length_take, hlength]
  omega

end Group

theorem find_member {own : DistributedShare}
    (h : Contributed contributions S [own] [own.memberId]) :
    contributions.find? (fun contribution => contribution.memberId == own.memberId) =
      if own.memberId ∈ S then some own.unwrapped else none := by
  have honly : ∀ contribution ∈ contributions, contribution.memberId = own.memberId →
      own.memberId ∈ S ∧ own.unwrapped = contribution := by
    intro contribution hmem hmember
    obtain ⟨share, hshare, hS, hcontribution⟩ :=
      h.sound contribution hmem (List.mem_singleton.mpr hmember)
    obtain rfl := List.mem_singleton.mp hshare
    exact ⟨hS, hcontribution⟩
  cases hfind : contributions.find? fun contribution => contribution.memberId == own.memberId with
  | none =>
    rw [if_neg]
    intro hS
    have hmem := h.complete own (List.mem_singleton_self own) hS
    exact List.find?_eq_none.mp hfind _ hmem (beq_self_eq_true _)
  | some contribution =>
    have hmember : contribution.memberId = own.memberId := by
      simpa using List.find?_some hfind
    obtain ⟨hS, heq⟩ := honly contribution (List.mem_of_find?_eq_some hfind) hmember
    rw [if_pos hS, heq]

end Leaves

/-! ## The tree -/

section Tree

variable {sharks : Sharks} {n : Nat} {contributions : List UnwrappedMemberShare}
  {S : Finset MemberId}

/-- A recovery gives the secret if the policy is satisfied, and fails otherwise. -/
def Recovers {α : Type} (result : Result α) (satisfied : Bool) (secret : α) : Prop :=
  if satisfied then result = .ok secret else ∃ error, result = .error error

theorem zero_xorSecret (secret : Secret n) : xorSecret (Vector.replicate n 0) secret = secret := by
  ext i hi
  simp [xorSecret]

/-- The last fragment completes the secret. -/
theorem xorSecret_cancel (secret combined : Secret n) :
    xorSecret combined (xorSecret secret combined) = secret := by
  ext i hi
  simp only [xorSecret, Vector.getElem_zipWith]
  rw [UInt8.xor_comm, UInt8.xor_assoc, UInt8.xor_self, UInt8.xor_zero]

/-- The fragments so far, as recovering has them. -/
def Accumulated (combined : Secret n) (accumulated : Option Bytes) : Prop :=
  accumulated = some combined.toList ∨ (accumulated = none ∧ combined = Vector.replicate n 0)

theorem mergeFragment_eq {combined : Secret n} {accumulated : Option Bytes}
    (h : Accumulated combined accumulated) (fragment : Secret n) :
    mergeFragment accumulated fragment.toList =
      .ok (some (xorSecret combined fragment).toList) := by
  rcases h with rfl | ⟨rfl, rfl⟩
  · have hlength : combined.toList.length = fragment.toList.length := by simp
    rw [mergeFragment, if_neg (not_not.mpr hlength)]
    simp [xorSecret, Vector.toList, Vector.toArray_zipWith]
  · rw [mergeFragment, zero_xorSecret]

mutual

/-- Recovering from the contributions of a subtree, by induction over the policy. -/
theorem recover_spec (hlawful : sharks.Lawful) (hn : 0 < n) (hcontributions : contributions.Nodup) :
    (policy : UnlockPolicy) → policy.WellFormed → policy.groupsWithin 255 →
    policy.members.Nodup → (branch : String) → {secret : Secret n} → {path : String} →
    {coins : Coins sharks n policy} → {dealt : List DistributedShare} →
    distributePolicySecret sharks policy secret path coins = .ok dealt →
    Contributed contributions S dealt policy.members →
    Recovers (recoverPolicySecret sharks policy contributions branch) (policy.satisfiedBy S)
      secret.toList
  | .member memberId, _, _, _, branch, secret, path, coins, dealt, hdealt, h => by
    obtain rfl := Except.ok.inj hdealt
    unfold recoverPolicySecret satisfiedBy Recovers
    rw [find_member h]
    by_cases hS : memberId ∈ S
    · simp only [hS, if_true, decide_true]
      apply recoverShamir_dealt hlawful hn coins Nat.one_pos rfl (fun _ => 0)
      · intro contribution hmem
        rw [List.mem_singleton.mp hmem]
        rfl
      · exact List.nodup_singleton _
    · simp only [hS, if_false, decide_false, Bool.false_eq_true]
      exact ⟨_, rfl⟩
  | .anyOf policies, hformed, hwithin, hnodup, branch, secret, path, coins, dealt, hdealt, h => by
    exact recoverAny_spec hlawful hn hcontributions policies hformed.2 hwithin hnodup branch 0
      hdealt h
  | .allOf policies, hformed, hwithin, hnodup, branch, secret, path, coins, dealt, hdealt, h => by
    have hall := recoverAll_spec hlawful hn hcontributions policies hformed.1 hformed.2 hwithin
      hnodup branch 0 hdealt h (.inr ⟨rfl, rfl⟩)
    unfold recoverPolicySecret satisfiedBy
    unfold Recovers at hall ⊢
    split_ifs at hall ⊢
    · rw [hall]
      rfl
    · obtain ⟨error, hall⟩ := hall
      rw [hall]
      exact ⟨error, rfl⟩
  | .threshold groupId required members, hformed, hwithin, hnodup, branch, secret, path, coins,
      dealt, hdealt, h => by
      unfold distributePolicySecret at hdealt
      split_ifs at hdealt
      obtain rfl := Except.ok.inj hdealt
      unfold recoverPolicySecret satisfiedBy Recovers
      split_ifs with hsatisfied
      · exact recover_threshold hnodup h hwithin hcontributions hlawful hn hformed.1
          (of_decide_eq_true hsatisfied)
      · exact ⟨_, recover_threshold_error hnodup h hwithin hcontributions
          fun hrequired => hsatisfied (decide_eq_true hrequired)⟩

theorem recoverAny_spec (hlawful : sharks.Lawful) (hn : 0 < n)
    (hcontributions : contributions.Nodup) :
    (policies : List UnlockPolicy) → AllWellFormed policies → allGroupsWithin 255 policies →
    (allMembers policies).Nodup → (branch : String) → (number : Nat) → {secret : Secret n} →
    {path : String} → {index : Nat} → {coins : AnyCoins sharks n policies} →
    {dealt : List DistributedShare} →
    distributeAny sharks policies secret path index coins = .ok dealt →
    Contributed contributions S dealt (allMembers policies) →
    Recovers (recoverAny sharks policies contributions branch number) (anySatisfiedBy S policies)
      secret.toList
  | [], _, _, _, branch, number, secret, path, index, coins, dealt, _, _ => ⟨_, rfl⟩
  | policy :: policies, hformed, hwithin, hnodup, branch, number, secret, path, index, coins, dealt,
      hdealt, h => by
      have hsplit := List.nodup_append.mp hnodup
      obtain ⟨own, others, hown, hothers, hleft, hright⟩ := h.split hnodup
        (distribute_dealt policy hwithin.1 _ _ _)
        (distributeAny_dealt policies hwithin.2 _ _ _ _) hdealt
      have hfirst := recover_spec hlawful hn hcontributions policy hformed.1 hwithin.1 hsplit.1
        s!"{branch}/any/{number}" hown hleft
      have hrest := recoverAny_spec hlawful hn hcontributions policies hformed.2 hwithin.2
        hsplit.2.1 branch (number + 1) hothers hright
      unfold recoverAny anySatisfiedBy
      unfold Recovers at hfirst
      split_ifs at hfirst with hsatisfied
      · rw [hfirst, hsatisfied]
        rfl
      · obtain ⟨error, hfirst⟩ := hfirst
        rw [hfirst, Bool.eq_false_iff.mpr hsatisfied, Bool.false_or]
        exact hrest

theorem recoverAll_spec (hlawful : sharks.Lawful) (hn : 0 < n)
    (hcontributions : contributions.Nodup) :
    (policies : List UnlockPolicy) → policies ≠ [] → AllWellFormed policies →
    allGroupsWithin 255 policies → (allMembers policies).Nodup → (branch : String) →
    (number : Nat) → {secret combined : Secret n} → {path : String} → {index : Nat} →
    {coins : AllCoins sharks n policies} →
    {dealt : List DistributedShare} → {accumulated : Option Bytes} →
    distributeAll sharks policies secret combined path index coins = .ok dealt →
    Contributed contributions S dealt (allMembers policies) →
    Accumulated combined accumulated →
    Recovers (recoverAll sharks policies contributions branch number accumulated)
      (allSatisfiedBy S policies) (some secret.toList)
  | [], hne, _, _, _, _, _, _, _, _, _, _, _, _, _, _, _ => absurd rfl hne
  | policy :: policies, _, hformed, hwithin, hnodup, branch, number, secret, combined, path, index,
      coins, dealt, accumulated, hdealt, h, haccumulated => by
      have hsplit := List.nodup_append.mp hnodup
      obtain ⟨own, others, hown, hothers, hleft, hright⟩ := h.split hnodup
        (distribute_dealt policy hwithin.1 _ _ _)
        (distributeAll_dealt policies hwithin.2 _ _ _ _ _) hdealt
      have hfirst := recover_spec hlawful hn hcontributions policy hformed.1 hwithin.1 hsplit.1
        s!"{branch}/all/{number}" hown hleft
      unfold recoverAll allSatisfiedBy
      unfold Recovers at hfirst
      split_ifs at hfirst with hsatisfied
      · rw [hfirst, hsatisfied, Bool.true_and]
        have hmerge := mergeFragment_eq haccumulated (fragment secret combined policies coins.1.1)
        cases policies with
        | nil =>
          have hlast : xorSecret combined (fragment secret combined [] coins.1.1) = secret :=
            xorSecret_cancel secret combined
          rw [hlast] at hmerge
          exact bind_eq_ok.mpr ⟨_, rfl, bind_eq_ok.mpr ⟨_, hmerge, rfl⟩⟩
        | cons next rest =>
          have hrest := recoverAll_spec hlawful hn hcontributions (next :: rest) nofun hformed.2
            hwithin.2 hsplit.2.1 branch (number + 1) hothers hright (.inl rfl)
          simp only [bind, Except.bind, hmerge]
          exact hrest
      · obtain ⟨error, hfirst⟩ := hfirst
        rw [hfirst, Bool.eq_false_iff.mpr hsatisfied, Bool.false_and]
        exact ⟨error, rfl⟩

end

end Tree

/-- For every accepted policy with groups of at most 255 members, every secret of 32 bytes and
all random choices: any duplicate-free list of the dealt shares of a set of members recovers
exactly if the set satisfies the policy, and then gives the secret. -/
theorem recovers_iff_satisfied (sharks : Sharks) (hlawful : sharks.Lawful)
    (policy : UnlockPolicy) (ids : Finset MemberId) (haccepted : policy.memberIds = .ok ids)
    (hwithin : policy.groupsWithin 255) (secret : Secret 32) (coins : Coins sharks 32 policy)
    (path : String) :
    ∃ shares, distributePolicySecret sharks policy secret path coins = .ok shares ∧
      ∀ (S : Finset MemberId) (contributions : List UnwrappedMemberShare),
        contributions.Nodup →
        (∀ contribution, contribution ∈ contributions ↔
          ∃ share ∈ shares, share.memberId ∈ S ∧ share.unwrapped = contribution) →
        ((∃ recovered, recoverPolicySecret sharks policy contributions path = .ok recovered) ↔
            policy.satisfiedBy S = true) ∧
          (policy.satisfiedBy S = true →
            recoverPolicySecret sharks policy contributions path = .ok secret.toList) := by
  obtain ⟨hformed, hids⟩ := collectMemberIds_spec policy haccepted
  have hnodup := hids.nodup
  obtain ⟨shares, hshares, -⟩ := distribute_dealt policy hwithin secret path coins
  refine ⟨shares, hshares, ?_⟩
  intro S contributions hcontributions hdealt
  have hcontributed : Contributed contributions S shares policy.members :=
    ⟨fun contribution hmem _ => (hdealt contribution).mp hmem,
      fun share hshare hS => (hdealt _).mpr ⟨share, hshare, hS, rfl⟩⟩
  have hrecovers := recover_spec hlawful (by decide) hcontributions policy hformed hwithin hnodup
    path hshares hcontributed
  unfold Recovers at hrecovers
  split_ifs at hrecovers with hsatisfied
  · exact ⟨⟨fun _ => hsatisfied, fun _ => ⟨_, hrecovers⟩⟩, fun _ => hrecovers⟩
  obtain ⟨error, hrecovers⟩ := hrecovers
  refine ⟨⟨fun hok => ?_, fun h => absurd h hsatisfied⟩, fun h => absurd h hsatisfied⟩
  obtain ⟨recovered, hok⟩ := hok
  cases hrecovers.symm.trans hok

/-- A quorum of two operators, together with the owner. -/
def ownerAndQuorum : UnlockPolicy :=
  .allOf [.member "owner", .threshold "operators" 2 ["first", "second", "third"]]

noncomputable def ownerAndQuorumCoins : Coins shamirSharks 32 ownerAndQuorum :=
  ((Vector.replicate 32 (5 : UInt8), fun _ _ => (0 : GaloisField 2 8)),
    ((), fun _ _ => (1 : GaloisField 2 8)), ())

theorem recovers_iff_satisfied_quorum :
    ∃ shares, distributePolicySecret shamirSharks ownerAndQuorum (Vector.replicate 32 7) "root"
        ownerAndQuorumCoins = .ok shares ∧
      ∀ (S : Finset MemberId) (contributions : List UnwrappedMemberShare),
        contributions.Nodup →
        (∀ contribution, contribution ∈ contributions ↔
          ∃ share ∈ shares, share.memberId ∈ S ∧ share.unwrapped = contribution) →
        ((∃ recovered, recoverPolicySecret shamirSharks ownerAndQuorum contributions "root" =
            .ok recovered) ↔ ownerAndQuorum.satisfiedBy S = true) ∧
          (ownerAndQuorum.satisfiedBy S = true →
            recoverPolicySecret shamirSharks ownerAndQuorum contributions "root" =
              .ok (Vector.replicate 32 (7 : UInt8)).toList) :=
  recovers_iff_satisfied shamirSharks shamirSharks_lawful ownerAndQuorum
    {"third", "second", "first", "owner"} rfl ⟨trivial, (by decide : 3 ≤ 255), trivial⟩
    (Vector.replicate 32 7) ownerAndQuorumCoins "root"

end Vaultic.Recovery
