/-
  Recovery/Custodians.lean  —  the least number of custodians that unlock a policy.

  Source: vaulticdb/src/encryption/recovery_capsule/publish.rs (`minimum_custodians`,
  `collect_member_ids`, `satisfied_by`).

  The lower bound is first proved for the list of members, where the parts of an `all_of`
  simply add up.  Only the members of an accepted policy are distinct, so only there is the
  bound one on the size of the set.
-/
import Vaultic.Recovery.PolicyShares

set_option autoImplicit false

namespace Vaultic.Recovery.UnlockPolicy

mutual

def minimumCustodians : UnlockPolicy → Nat
  | .member _ => 1
  | .anyOf policies => (minimumCustodiansOf policies).min?.getD 0
  | .allOf policies => (minimumCustodiansOf policies).sum
  | .threshold _ required _ => required

/-- `policies.iter().map(Self::minimum_custodians)`. -/
def minimumCustodiansOf : List UnlockPolicy → List Nat
  | [] => []
  | policy :: policies => policy.minimumCustodians :: minimumCustodiansOf policies

end

variable {present : Finset MemberId}

/-- The members of a list that are present. -/
def among (present : Finset MemberId) (members : List MemberId) : List MemberId :=
  members.filter fun member => decide (member ∈ present)

theorem length_among_append (members rest : List MemberId) :
    (among present (members ++ rest)).length =
      (among present members).length + (among present rest).length := by
  rw [among, List.filter_append, List.length_append]
  rfl

mutual

/-- A policy is satisfied by no fewer of its members than the minimum. -/
theorem minimumCustodians_le : (policy : UnlockPolicy) → policy.satisfiedBy present = true →
    policy.minimumCustodians ≤ (among present policy.members).length
  | .member memberId, h => by
    have hmem : memberId ∈ among present [memberId] :=
      List.mem_filter.mpr ⟨List.mem_singleton_self memberId, h⟩
    exact List.length_pos_of_mem hmem
  | .anyOf policies, h => by
    obtain ⟨least, hleast, hle⟩ := anyOf_minimum_le policies h
    exact (List.min?_getD_le_of_mem hleast).trans hle
  | .allOf policies, h => allOf_minimum_le policies h
  | .threshold _ required members, h => of_decide_eq_true h

theorem anyOf_minimum_le : (policies : List UnlockPolicy) →
    anySatisfiedBy present policies = true →
    ∃ least ∈ minimumCustodiansOf policies, least ≤ (among present (allMembers policies)).length
  | policy :: policies, h => by
    rw [allMembers, length_among_append]
    rcases (Bool.or_eq_true _ _).mp h with h | h
    · have hle := minimumCustodians_le policy h
      exact ⟨_, .head _, by omega⟩
    · obtain ⟨least, hleast, hle⟩ := anyOf_minimum_le policies h
      exact ⟨least, .tail _ hleast, by omega⟩

theorem allOf_minimum_le : (policies : List UnlockPolicy) →
    allSatisfiedBy present policies = true →
    (minimumCustodiansOf policies).sum ≤ (among present (allMembers policies)).length
  | [], _ => Nat.zero_le _
  | policy :: policies, h => by
    obtain ⟨hpolicy, hpolicies⟩ := (Bool.and_eq_true _ _).mp h
    have hle := minimumCustodians_le policy hpolicy
    have hrest := allOf_minimum_le policies hpolicies
    rw [allMembers, length_among_append, minimumCustodiansOf, List.sum_cons]
    omega

end

/-- Some `count` of the members are enough to satisfy. -/
def Enough (satisfied : Finset MemberId → Bool) (members : List MemberId) (count : Nat) : Prop :=
  ∃ chosen : List MemberId, chosen.Sublist members ∧ chosen.length = count ∧
    ∀ present : Finset MemberId, (∀ member ∈ chosen, member ∈ present) → satisfied present = true

mutual

/-- An accepted policy is satisfied by some of its members, as many as the minimum. -/
theorem minimumCustodians_enough : (policy : UnlockPolicy) → policy.WellFormed →
    Enough (policy.satisfiedBy ·) policy.members policy.minimumCustodians
  | .member memberId, _ =>
    ⟨[memberId], List.Sublist.refl _, rfl, fun _ h =>
      decide_eq_true (h memberId (List.mem_singleton_self memberId))⟩
  | .anyOf policies, h => by
    obtain ⟨hne, hformed⟩ := h
    apply anyOf_enough policies hformed
    rw [minimumCustodians]
    cases hleast : (minimumCustodiansOf policies).min? with
    | some least => exact List.min?_mem hleast
    | none =>
      cases policies with
      | nil => exact absurd rfl hne
      | cons policy policies => cases List.min?_eq_none_iff.mp hleast
  | .allOf policies, h => allOf_enough policies h.2
  | .threshold _ required members, h => by
    refine ⟨members.take required, List.take_sublist _ _, List.length_take_of_le h.2, ?_⟩
    intro present hpresent
    have hall : among present (members.take required) = members.take required :=
      List.filter_eq_self.mpr fun member hmember => decide_eq_true (hpresent member hmember)
    have hle : (among present (members.take required)).length ≤ (among present members).length :=
      ((List.take_sublist required members).filter _).length_le
    rw [hall, List.length_take_of_le h.2] at hle
    exact decide_eq_true hle

theorem anyOf_enough : (policies : List UnlockPolicy) → AllWellFormed policies →
    ∀ least ∈ minimumCustodiansOf policies,
      Enough (anySatisfiedBy · policies) (allMembers policies) least
  | policy :: policies, h, least, hleast => by
    rcases List.mem_cons.mp hleast with rfl | hleast
    · obtain ⟨chosen, hchosen, hlength, hsatisfied⟩ := minimumCustodians_enough policy h.1
      refine ⟨chosen, hchosen.trans (List.sublist_append_left _ _), hlength, ?_⟩
      intro present hpresent
      exact (Bool.or_eq_true _ _).mpr (.inl (hsatisfied present hpresent))
    · obtain ⟨chosen, hchosen, hlength, hsatisfied⟩ := anyOf_enough policies h.2 least hleast
      refine ⟨chosen, hchosen.trans (List.sublist_append_right _ _), hlength, ?_⟩
      intro present hpresent
      exact (Bool.or_eq_true _ _).mpr (.inr (hsatisfied present hpresent))

theorem allOf_enough : (policies : List UnlockPolicy) → AllWellFormed policies →
    Enough (allSatisfiedBy · policies) (allMembers policies) (minimumCustodiansOf policies).sum
  | [], _ => ⟨[], List.Sublist.refl _, rfl, fun _ _ => rfl⟩
  | policy :: policies, h => by
    obtain ⟨chosen, hchosen, hlength, hsatisfied⟩ := minimumCustodians_enough policy h.1
    obtain ⟨others, hothers, hlength', hsatisfied'⟩ := allOf_enough policies h.2
    refine ⟨chosen ++ others, hchosen.append hothers, ?_, ?_⟩
    · rw [List.length_append, hlength, hlength']
      rfl
    · intro present hpresent
      rw [List.forall_mem_append] at hpresent
      exact (Bool.and_eq_true _ _).mpr
        ⟨hsatisfied present hpresent.1, hsatisfied' present hpresent.2⟩

end

/-- The minimum of an accepted policy is the number of members in the smallest set that
satisfies it: some of its own members are that many, and no set is smaller. -/
theorem minimumCustodians_least (policy : UnlockPolicy) (ids : Finset MemberId)
    (h : policy.memberIds = .ok ids) :
    (∃ members ⊆ ids, policy.satisfiedBy members = true ∧
        members.card = policy.minimumCustodians) ∧
      ∀ members, policy.satisfiedBy members = true → policy.minimumCustodians ≤ members.card := by
  obtain ⟨hformed, hcollected⟩ := collectMemberIds_spec policy h
  constructor
  · obtain ⟨chosen, hchosen, hlength, hsatisfied⟩ := minimumCustodians_enough policy hformed
    refine ⟨chosen.toFinset, ?_, ?_, ?_⟩
    · intro member hmember
      have hmember := hchosen.subset (List.mem_toFinset.mp hmember)
      exact (hcollected.mem member).mpr (.inr hmember)
    · exact hsatisfied _ fun member hmember => List.mem_toFinset.mpr hmember
    · rw [List.toFinset_card_of_nodup (hcollected.nodup.sublist hchosen), hlength]
  · intro members hmembers
    apply (minimumCustodians_le policy hmembers).trans
    rw [among, ← List.toFinset_card_of_nodup (hcollected.nodup.filter _)]
    apply Finset.card_le_card
    intro member hmember
    exact of_decide_eq_true (List.mem_filter.mp (List.mem_toFinset.mp hmember)).2

/-- Two operators and the owner are the fewest that unlock. -/
theorem minimumCustodians_least_quorum : ownerAndQuorum.minimumCustodians = 3 ∧
    ∀ members, ownerAndQuorum.satisfiedBy members = true → 3 ≤ members.card :=
  ⟨rfl, (minimumCustodians_least ownerAndQuorum {"third", "second", "first", "owner"} rfl).2⟩

end Vaultic.Recovery.UnlockPolicy
