/-
  Daemon/AggregateDeltas.lean  —  several pack changes on one read of the aggregates.

  Source: internal/index/daemon/schema_store_reconcile.go
  (`applyPackAggregateDeltas`, `applyPackAggregateDeltasFromValues`).

  A batch of pack changes is folded into every aggregate after a single read.  Whether an
  old record is subtracted from a tier depends on whether that read found the tier, not on
  what the fold has entered since.  So a batch and its parts one after the other agree on a
  tier that did not exist only if no part takes out what an earlier part put in.
-/
import Vaultic.Daemon.Aggregates

set_option autoImplicit false

namespace Vaultic.Schema.PackAggregate

/-- An aggregate under another update sequence. -/
def withSequence (aggregate : PackAggregate) (sequence : Nat) : PackAggregate :=
  { aggregate with updateSequence := sequence }

/-- What an aggregate says apart from its update sequence. -/
def totals (aggregate : PackAggregate) : PackAggregate := aggregate.withSequence 0

@[simp] theorem totals_withSequence (aggregate : PackAggregate) (sequence : Nat) :
    (aggregate.withSequence sequence).totals = aggregate.totals := rfl

end Vaultic.Schema.PackAggregate

namespace Vaultic.Daemon

open Vaultic.Lib Vaultic.Schema

/-! ## The fold -/

/-- `packChange`: the records of a pack before and after. -/
structure LegacyPackChange where
  packID : ID
  old : Option PackRecord
  current : PackRecord
  deriving DecidableEq, Repr

/-- The old record of the change belongs to the aggregate. -/
def LegacyPackChange.oldIn (key : Key) (change : LegacyPackChange) : Bool :=
  change.old.any (aggregateAppliesTo key)

/-- The new record of the change belongs to the aggregate. -/
def LegacyPackChange.currentIn (key : Key) (change : LegacyPackChange) : Bool :=
  aggregateAppliesTo key change.current

/-- One change on one aggregate that the read did or did not find. -/
def applyLegacyChange (found : Bool) (key : Key) (state : PackAggregate × Bool)
    (change : LegacyPackChange) :
    Result (PackAggregate × Bool) := do
  let (aggregate, touched) ←
    match change.old with
    | none => .ok state
    | some record =>
      if aggregateAppliesTo key record && (found || !isTierAggregate key) then do
        let aggregate ← subtractPackAggregate state.1 record
        .ok (aggregate, true)
      else .ok state
  enterAggregate change.current key aggregate touched

/-- One aggregate of `applyPackAggregateDeltasFromValues`: unused tiers stay absent. -/
def applyAggregateDeltas (store : SchemaStore) (changes : List LegacyPackChange)
    (advanceUntouched : Bool) (key : Key) : Result (Option Mutation) := do
  let aggregate ← loadAggregate store key
  let (aggregate, touched) ← changes.foldlM (applyLegacyChange (store.lookup key).isSome key)
    (aggregate, false)
  if !touched && (!advanceUntouched || isTierAggregate key && (store.lookup key).isNone) then
    .ok none
  else .ok (some (aggregatePut key aggregate))

/-- `applyPackAggregateDeltasFromValues` -/
def applyPackAggregateDeltasFromValues (store : SchemaStore) (changes : List LegacyPackChange)
    (advanceUntouched : Bool) : Result (List Mutation) := do
  let puts ← (aggregateKeys.map (applyAggregateDeltas store changes advanceUntouched)).mapM id
  .ok (puts.filterMap id)

/-! ## Totals -/

variable {found found' : Bool} {key : Key} {aggregate : PackAggregate} {change : LegacyPackChange}

section Sequence

variable (found key aggregate) (sequence : Nat) (touched : Bool)

theorem subtractPackAggregate_withSequence (record : PackRecord) :
    subtractPackAggregate (aggregate.withSequence sequence) record =
      (subtractPackAggregate aggregate record).map (PackAggregate.withSequence · sequence) := by
  unfold subtractPackAggregate PackAggregate.withSequence
  split_ifs <;> rfl

theorem addPackAggregate_withSequence (record : PackRecord) :
    addPackAggregate (aggregate.withSequence sequence) record =
      (addPackAggregate aggregate record).map (PackAggregate.withSequence · sequence) := by
  unfold addPackAggregate PackAggregate.withSequence
  split_ifs <;> rfl

/-- The old record of the change is taken out of an aggregate that was or was not found. -/
def LegacyPackChange.leaves (found : Bool) (key : Key) (change : LegacyPackChange) : Bool :=
  change.oldIn key && (found || !isTierAggregate key)

theorem applyLegacyChange_some (state : PackAggregate × Bool) (pack : ID)
    (old current : PackRecord) :
    applyLegacyChange found key state ⟨pack, some old, current⟩ =
      if LegacyPackChange.leaves found key ⟨pack, some old, current⟩ then do
        let aggregate ← subtractPackAggregate state.1 old
        enterAggregate current key aggregate true
      else enterAggregate current key state.1 state.2 := by
  simp only [applyLegacyChange, LegacyPackChange.leaves, LegacyPackChange.oldIn, Option.any_some]
  rfl

theorem enterAggregate_withSequence (current : PackRecord) :
    enterAggregate current key (aggregate.withSequence sequence) touched =
      (enterAggregate current key aggregate false).map fun state =>
        (state.1.withSequence sequence, touched || state.2) := by
  unfold enterAggregate
  rw [addPackAggregate_withSequence]
  cases aggregateAppliesTo key current with
  | true =>
    cases addPackAggregate aggregate current with
    | error reason => rfl
    | ok entered => simp [Except.map, bind, Except.bind]
  | false => simp [Except.map]

/-- The update sequence and the mark play no part in a change. -/
theorem applyLegacyChange_withSequence (change : LegacyPackChange) :
    applyLegacyChange found key (aggregate.withSequence sequence, touched) change =
      (applyLegacyChange found key (aggregate, false) change).map fun state =>
        (state.1.withSequence sequence, touched || state.2) := by
  obtain ⟨pack, old, current⟩ := change
  cases old with
  | none => exact enterAggregate_withSequence key aggregate sequence touched current
  | some old =>
    rw [applyLegacyChange_some, applyLegacyChange_some]
    cases LegacyPackChange.leaves found key ⟨pack, some old, current⟩ with
    | true =>
      simp only [if_true, subtractPackAggregate_withSequence]
      cases subtractPackAggregate aggregate old with
      | error reason => rfl
      | ok left =>
        have htrue := enterAggregate_withSequence key left left.updateSequence true current
        have hmarked := enterAggregate_withSequence key left sequence true current
        simp only [Except.map, bind, Except.bind]
        change enterAggregate current key left true = _ at htrue
        rw [hmarked, htrue]
        cases enterAggregate current key left false <;> simp [Except.map]
        rfl
    | false => exact enterAggregate_withSequence key aggregate sequence touched current

theorem foldlM_applyLegacyChange_withSequence (changes : List LegacyPackChange) :
    changes.foldlM (applyLegacyChange found key)
        (aggregate.withSequence sequence, touched) =
      (changes.foldlM (applyLegacyChange found key) (aggregate, false)).map fun state =>
        (state.1.withSequence sequence, touched || state.2) := by
  induction changes generalizing aggregate sequence touched with
  | nil => simp [Except.map, pure, Except.pure]
  | cons change rest ih =>
    rw [List.foldlM_cons, List.foldlM_cons, applyLegacyChange_withSequence]
    cases applyLegacyChange found key (aggregate, false) change with
    | error reason => rfl
    | ok state =>
      have hsame := ih state.1 state.1.updateSequence state.2
      change rest.foldlM (applyLegacyChange found key) (state.1, state.2) = _ at hsame
      have hmoved := ih state.1 sequence (touched || state.2)
      simp only [Except.map, bind, Except.bind] at hmoved ⊢
      rw [hmoved, hsame]
      cases rest.foldlM (applyLegacyChange found key) (state.1, false) with
      | error reason => rfl
      | ok after => simp [Except.map, Bool.or_assoc]; rfl

end Sequence

/-- A change depends on what the read found only where an old record is in a tier. -/
theorem applyLegacyChange_congr
    (h : change.leaves found key = change.leaves found' key) (state : PackAggregate × Bool) :
    applyLegacyChange found key state change = applyLegacyChange found' key state change := by
  obtain ⟨pack, old, current⟩ := change
  cases old with
  | none => rfl
  | some old => rw [applyLegacyChange_some, applyLegacyChange_some, h]

theorem enterAggregate_packCount {current : PackRecord} {touched : Bool}
    {after : PackAggregate × Bool} (h : enterAggregate current key aggregate touched = .ok after) :
    after.1.packCount = aggregate.packCount + (aggregateAppliesTo key current).toNat ∧
      after.2 = (touched || aggregateAppliesTo key current) := by
  unfold enterAggregate at h
  cases hin : aggregateAppliesTo key current with
  | true =>
    rw [hin, if_pos rfl] at h
    obtain ⟨entered, hentered, h⟩ := of_bind h
    cases h
    refine ⟨?_, (Bool.or_true touched).symm⟩
    cases (of_guard (of_guard hentered).2).2
    split <;> rfl
  | false =>
    rw [hin, if_neg Bool.false_ne_true] at h
    cases h
    exact ⟨rfl, (Bool.or_false touched).symm⟩

variable {state after : PackAggregate × Bool}

/-- A change moves the pack count by what leaves and what enters. -/
theorem applyLegacyChange_packCount {found : Bool}
    (h : applyLegacyChange found key state change = .ok after) :
    after.1.packCount + (change.leaves found key).toNat =
        state.1.packCount + (change.currentIn key).toNat ∧
      after.2 = (state.2 || change.leaves found key || change.currentIn key) := by
  obtain ⟨pack, old, current⟩ := change
  cases old with
  | none =>
    obtain ⟨hcount, htouched⟩ := enterAggregate_packCount h
    refine ⟨hcount, htouched.trans ?_⟩
    simp [LegacyPackChange.leaves, LegacyPackChange.oldIn, LegacyPackChange.currentIn]
  | some old =>
    rw [applyLegacyChange_some] at h
    cases hleaves : LegacyPackChange.leaves found key ⟨pack, some old, current⟩ with
    | true =>
      rw [hleaves, if_pos rfl] at h
      obtain ⟨left, hleft, h⟩ := of_bind h
      obtain ⟨hcount, htouched⟩ := enterAggregate_packCount h
      have hsubtracted : left.packCount + 1 = state.1.packCount := by
        obtain ⟨hfits, hleft⟩ := of_guard hleft
        cases (of_guard hleft).2
        split <;> exact Nat.sub_add_cancel (Nat.pos_of_ne_zero fun hzero => hfits (.inl hzero))
      refine ⟨?_, by simp [htouched, LegacyPackChange.currentIn]⟩
      simp only [LegacyPackChange.currentIn, Bool.toNat_true]
      omega
    | false =>
      rw [hleaves, if_neg Bool.false_ne_true] at h
      obtain ⟨hcount, htouched⟩ := enterAggregate_packCount h
      exact ⟨hcount, by simp [htouched, LegacyPackChange.currentIn]⟩

/-! ## Changes in a row -/

variable {changes : List LegacyPackChange}

theorem foldlM_applyLegacyChange_congr
    (h : ∀ change ∈ changes, change.leaves found key = change.leaves found' key)
    (state : PackAggregate × Bool) :
    changes.foldlM (applyLegacyChange found key) state =
      changes.foldlM (applyLegacyChange found' key) state := by
  induction changes generalizing state with
  | nil => rfl
  | cons change rest ih =>
    rw [List.forall_mem_cons] at h
    rw [List.foldlM_cons, List.foldlM_cons, applyLegacyChange_congr h.1]
    cases applyLegacyChange found' key state change with
    | error reason => rfl
    | ok next => exact ih h.2 next

theorem foldlM_applyLegacyChange_packCount {found : Bool}
    (h : changes.foldlM (applyLegacyChange found key) state = .ok after) :
    after.1.packCount + changes.countP (·.leaves found key) =
        state.1.packCount + changes.countP (·.currentIn key) ∧
      after.2 = (state.2 || changes.any fun change =>
        change.leaves found key || change.currentIn key) := by
  induction changes generalizing state with
  | nil =>
    cases h
    exact ⟨rfl, (Bool.or_false _).symm⟩
  | cons change rest ih =>
    obtain ⟨next, hnext, h⟩ := of_bind h
    obtain ⟨hstep, htouched⟩ := applyLegacyChange_packCount hnext
    obtain ⟨hrest, hany⟩ := ih h
    constructor
    · rw [List.countP_cons, List.countP_cons]
      simp only [Bool.toNat] at hstep
      cases hleaves : change.leaves found key <;> cases hin : change.currentIn key <;>
        simp only [hleaves, hin, cond_true, cond_false, if_true, Bool.false_eq_true, if_false]
          at hstep ⊢ <;> omega
    · rw [hany, htouched, List.any_cons]
      simp [Bool.or_assoc]

/-! ## Batches of changes on one aggregate -/

/-- What a batch of changes leaves under a key; an empty batch reads nothing. -/
def aggregateAfter (key : Key) (stored : Option PackAggregate) (changes : List LegacyPackChange) :
    Result (Option PackAggregate) :=
  if changes = [] then .ok stored
  else do
    let (aggregate, touched) ← changes.foldlM (applyLegacyChange stored.isSome key)
      (stored.getD {}, false)
    .ok (if !touched && isTierAggregate key && stored.isNone then none
      else some (PackAggregate.withSequence aggregate ((aggregate.updateSequence + 1) % 2 ^ 64)))

/-- The totals that changes leave. -/
def totalsAfter (found : Bool) (key : Key) (changes : List LegacyPackChange)
    (aggregate : PackAggregate) : Result PackAggregate :=
  (changes.foldlM (applyLegacyChange found key) (aggregate, false)).map fun state =>
    state.1.totals

section

variable (found key aggregate)

theorem totalsAfter_totals (changes : List LegacyPackChange) :
    totalsAfter found key changes aggregate.totals =
      totalsAfter found key changes aggregate := by
  unfold totalsAfter
  rw [PackAggregate.totals, foldlM_applyLegacyChange_withSequence]
  cases changes.foldlM (applyLegacyChange found key) (aggregate, false) <;> rfl

theorem totalsAfter_append (first second : List LegacyPackChange) :
    totalsAfter found key (first ++ second) aggregate =
      totalsAfter found key first aggregate >>= totalsAfter found key second := by
  unfold totalsAfter
  rw [List.foldlM_append]
  cases first.foldlM (applyLegacyChange found key) (aggregate, false) with
  | error reason => rfl
  | ok state =>
    have hsame := foldlM_applyLegacyChange_withSequence found key state.1
      state.1.updateSequence state.2 second
    have htotals := foldlM_applyLegacyChange_withSequence found key state.1 0 false second
    change second.foldlM (applyLegacyChange found key) state = _ at hsame
    simp only [Except.map, bind, Except.bind]
    rw [hsame, PackAggregate.totals, htotals]
    cases second.foldlM (applyLegacyChange found key) (state.1, false) <;> rfl

end

/-- The totals of what is stored. -/
abbrev storedTotals (stored : Option PackAggregate) : Option PackAggregate :=
  stored.map PackAggregate.totals

theorem aggregateAfter_some (key : Key) (stored : PackAggregate) (changes : List LegacyPackChange) :
    (aggregateAfter key (some stored) changes).map storedTotals =
      (totalsAfter true key changes stored).map some := by
  unfold aggregateAfter totalsAfter
  split
  · rename_i hempty
    rw [hempty]
    rfl
  · simp only [Option.isSome_some, Option.getD_some]
    cases changes.foldlM (applyLegacyChange true key) (stored, false) with
    | error reason => rfl
    | ok state => simp [Except.map, bind, Except.bind]

/-- Batches on a stored aggregate are one batch. -/
theorem foldlM_aggregateAfter_some (key : Key) (stored : PackAggregate)
    (groups : List (List LegacyPackChange)) :
    (groups.foldlM (aggregateAfter key) (some stored)).map storedTotals =
      (totalsAfter true key groups.flatten stored).map some := by
  induction groups generalizing stored with
  | nil => rfl
  | cons group rest ih =>
    rw [List.foldlM_cons, List.flatten_cons, totalsAfter_append, map_bind, map_bind]
    refine bind_congr_of_map (aggregateAfter_some key stored group) fun after totals hafter => ?_
    obtain ⟨next, rfl, rfl⟩ := Option.map_eq_some_iff.mp hafter
    rw [ih next, totalsAfter_totals]

/-- The first batch on an aggregate that is not stored. -/
theorem aggregateAfter_none (hne : changes ≠ [])
    (htouched : isTierAggregate key = true → changes.any (·.currentIn key) = true) :
    (aggregateAfter key none changes).map storedTotals =
      (totalsAfter false key changes {}).map some := by
  unfold aggregateAfter totalsAfter
  rw [if_neg hne]
  simp only [Option.isSome_none, Option.getD_none]
  cases hfold : changes.foldlM (applyLegacyChange false key) (({} : PackAggregate), false) with
  | error reason => rfl
  | ok state =>
    have hmark := (foldlM_applyLegacyChange_packCount hfold).2
    cases htier : isTierAggregate key with
    | false => simp [Except.map, bind, Except.bind]
    | true =>
      obtain ⟨change, hmem, hin⟩ := List.any_eq_true.mp (htouched htier)
      have htrue : state.2 = true := by
        rw [hmark, Bool.false_or]
        exact List.any_eq_true.mpr ⟨change, hmem, by simp [hin]⟩
      simp [Except.map, bind, Except.bind, htrue]

/-- Changes that enter nothing leave an absent tier alone. -/
theorem foldlM_applyLegacyChange_of_outside (htier : isTierAggregate key = true)
    (hout : changes.any (·.currentIn key) = false) (state : PackAggregate × Bool) :
    changes.foldlM (applyLegacyChange false key) state = .ok state := by
  induction changes generalizing state with
  | nil => rfl
  | cons change rest ih =>
    rw [List.any_cons, Bool.or_eq_false_iff] at hout
    have hone : applyLegacyChange false key state change = .ok state := by
      have henter : enterAggregate change.current key state.1 state.2 = .ok state := by
        unfold enterAggregate
        rw [show aggregateAppliesTo key change.current = false from hout.1]
        rfl
      obtain ⟨pack, old, current⟩ := change
      cases old with
      | none => exact henter
      | some old =>
        rw [applyLegacyChange_some]
        simp only [LegacyPackChange.leaves, htier, Bool.not_true, Bool.or_self, Bool.and_false,
          Bool.false_eq_true, if_false]
        exact henter
    rw [List.foldlM_cons, hone]
    exact ih hout.2 state

/-- Batches on a type aggregate are one batch. -/
theorem foldlM_aggregateAfter_of_not_tier (htier : isTierAggregate key = false)
    (stored : Option PackAggregate) (groups : List (List LegacyPackChange)) :
    (groups.foldlM (aggregateAfter key) stored).map storedTotals =
      (aggregateAfter key stored groups.flatten).map storedTotals := by
  cases stored with
  | some stored => rw [foldlM_aggregateAfter_some, aggregateAfter_some]
  | none =>
    induction groups with
    | nil => rfl
    | cons group rest ih =>
      by_cases hempty : group = []
      · rw [hempty, List.foldlM_cons, List.flatten_cons, List.nil_append]
        exact ih
      have hvacuous : ∀ changes : List LegacyPackChange, isTierAggregate key = true →
          changes.any (·.currentIn key) = true := by
        intro changes htrue
        rw [htier] at htrue
        cases htrue
      have hflat : (group :: rest).flatten ≠ [] := by simp [hempty]
      rw [aggregateAfter_none hflat (hvacuous _), List.foldlM_cons, List.flatten_cons,
        totalsAfter_append, map_bind, map_bind]
      refine bind_congr_of_map (aggregateAfter_none hempty (hvacuous group)) ?_
      intro after totals hafter
      obtain ⟨next, rfl, rfl⟩ := Option.map_eq_some_iff.mp hafter
      rw [foldlM_aggregateAfter_some, totalsAfter_totals]
      unfold totalsAfter
      -- Outside the tiers the read does not matter to which old records are subtracted.
      have hleaves (change : LegacyPackChange) :
          change.leaves true key = change.leaves false key := by
        simp [LegacyPackChange.leaves, htier]
      rw [foldlM_applyLegacyChange_congr fun change _ => hleaves change]

/-- No later group takes out of the aggregate what an earlier one puts in. -/
def InOrderFor (key : Key) (groups : List (List LegacyPackChange)) : Prop :=
  groups.Pairwise fun earlier later =>
    earlier.any (·.currentIn key) = true → later.any (·.oldIn key) = false

/-- Subtracting or not what is in a tier gives the same totals only if nothing is. -/
theorem totalsAfter_eq_iff (htier : isTierAggregate key = true)
    {aggregate once stepwise : PackAggregate}
    (honce : totalsAfter false key changes aggregate = .ok once)
    (hstepwise : totalsAfter true key changes aggregate = .ok stepwise) :
    once = stepwise ↔ changes.any (·.oldIn key) = false := by
  constructor
  · intro heq
    obtain ⟨state, hstate, rfl⟩ := map_eq_ok.mp honce
    obtain ⟨state', hstate', rfl⟩ := map_eq_ok.mp hstepwise
    obtain ⟨hcount, -⟩ := foldlM_applyLegacyChange_packCount hstate
    obtain ⟨hcount', -⟩ := foldlM_applyLegacyChange_packCount hstate'
    have hsame : state.1.totals.packCount = state'.1.totals.packCount := by rw [heq]
    change state.1.packCount = state'.1.packCount at hsame
    have hnone : changes.countP (·.leaves false key) = 0 := by
      rw [List.countP_eq_zero]
      simp [LegacyPackChange.leaves, htier]
    have hzero : changes.countP (·.leaves true key) = 0 := by omega
    rw [List.countP_eq_zero] at hzero
    rw [List.any_eq_false]
    simpa [LegacyPackChange.leaves] using hzero
  · intro hout
    have hcongr : ∀ change ∈ changes, change.leaves false key = change.leaves true key := by
      intro change hmem
      have holds : change.oldIn key = false := by
        simpa using List.any_eq_false.mp hout change hmem
      simp [LegacyPackChange.leaves, holds]
    unfold totalsAfter at honce hstepwise
    rw [foldlM_applyLegacyChange_congr hcongr, hstepwise] at honce
    exact (Except.ok.inj honce).symm

/-- On a tier that is not stored, batches agree with one batch exactly when they are in
order. -/
theorem foldlM_aggregateAfter_tier_iff (htier : isTierAggregate key = true)
    {groups : List (List LegacyPackChange)} {once stepwise : Option PackAggregate}
    (honce : aggregateAfter key none groups.flatten = .ok once)
    (hstepwise : groups.foldlM (aggregateAfter key) none = .ok stepwise) :
    storedTotals once = storedTotals stepwise ↔ InOrderFor key groups := by
  induction groups generalizing once with
  | nil =>
    cases honce
    cases hstepwise
    exact iff_of_true rfl List.Pairwise.nil
  | cons group rest ih =>
    obtain ⟨after, hafter, hstepwise⟩ := of_bind hstepwise
    rw [List.flatten_cons] at honce
    cases henter : group.any (·.currentIn key) with
    | false =>
      -- The group passes over the tier, in either way.
      have hskip : ∀ changes, aggregateAfter key none (group ++ changes) =
          aggregateAfter key none changes := by
        intro changes
        unfold aggregateAfter
        by_cases hempty : changes = []
        · rw [hempty, List.append_nil, if_pos rfl]
          split
          · rfl
          · rw [Option.isSome_none, foldlM_applyLegacyChange_of_outside htier henter]
            simp [bind, Except.bind, htier]
        · rw [if_neg hempty, if_neg (by simp [hempty]), List.foldlM_append,
            Option.isSome_none, foldlM_applyLegacyChange_of_outside htier henter]
          rfl
      have hnone := hskip []
      rw [List.append_nil, hafter] at hnone
      cases hnone
      rw [hskip] at honce
      rw [ih honce hstepwise, InOrderFor, InOrderFor, List.pairwise_cons]
      exact ⟨fun h => ⟨fun _ _ htrue => by simp [henter] at htrue, h⟩, fun h => h.2⟩
    | true =>
      have hne : group ≠ [] := by
        intro hempty
        rw [hempty] at henter
        cases henter
      have hfirst := aggregateAfter_none hne fun _ => henter
      have hany : (group ++ rest.flatten).any (·.currentIn key) = true := by
        rw [List.any_append, henter, Bool.true_or]
      have hboth := aggregateAfter_none (List.append_ne_nil_of_left_ne_nil hne _) fun _ => hany
      rw [hafter] at hfirst
      obtain ⟨totals, htotals, hsome⟩ := map_eq_ok.mp hfirst.symm
      obtain ⟨next, rfl, rfl⟩ := Option.map_eq_some_iff.mp hsome.symm
      rw [honce, totalsAfter_append, htotals] at hboth
      obtain ⟨batch, hbatch, hbatched⟩ := map_eq_ok.mp hboth.symm
      have hlater := foldlM_aggregateAfter_some key next rest
      rw [hstepwise] at hlater
      obtain ⟨steps, hsteps, hstepped⟩ := map_eq_ok.mp hlater.symm
      change totalsAfter false key rest.flatten next.totals = _ at hbatch
      rw [totalsAfter_totals] at hbatch
      rw [← hbatched, ← hstepped, Option.some.injEq, totalsAfter_eq_iff htier hbatch hsteps,
        InOrderFor, List.pairwise_cons, List.any_flatten, List.any_eq_false]
      simp only [Bool.not_eq_true]
      constructor
      · intro hout
        refine ⟨fun later hlater _ => hout later hlater, ?_⟩
        exact List.pairwise_of_forall_mem_list fun _ _ later hlater _ => hout later hlater
      · intro h later hlater
        exact h.1 later hlater henter

/-! ## Batches of changes on the store -/

variable {store : SchemaStore}

theorem applyAggregateDeltas_key {advanceUntouched : Bool}
    {m : Mutation} (h : applyAggregateDeltas store changes advanceUntouched key = .ok (some m)) :
    m.1 = key := by
  obtain ⟨aggregate, -, h⟩ := of_bind h
  obtain ⟨state, -, h⟩ := of_bind h
  dsimp only at h
  split at h
  · cases h
  · cases h
    rfl

theorem loadAggregate_eq_ok (h : loadAggregate store key = .ok aggregate) :
    ∃ stored : Option PackAggregate, store.lookup key = stored.map .packAggregate ∧
      stored.getD {} = aggregate := by
  unfold loadAggregate at h
  split at h
  · rename_i hnone
    cases h
    exact ⟨none, hnone, rfl⟩
  · rename_i value hvalue
    obtain ⟨-, hview, -⟩ := decode_eq_ok.mp h
    refine ⟨some aggregate, ?_, rfl⟩
    cases value <;> simp_all

/-- What a batch leaves in the store under an aggregate key. -/
theorem applyPackAggregateDeltasFromValues_lookup {puts : List Mutation}
    (h : applyPackAggregateDeltasFromValues store changes true = .ok puts) (hne : changes ≠ [])
    (hkey : key ∈ aggregateKeys) :
    ∃ stored after : Option PackAggregate, store.lookup key = stored.map .packAggregate ∧
      aggregateAfter key stored changes = .ok after ∧
      (store.putAll puts).lookup key = after.map .packAggregate := by
  obtain ⟨planned, hplanned, h⟩ := of_bind h
  cases h
  obtain ⟨put, hput, hok⟩ := ok_of_mapM_map hplanned hkey
  have hother : ∀ m ∈ planned.filterMap id, m.1 = key → put = some m := by
    intro m hm hmkey
    have hmem : some m ∈ planned := by simpa using hm
    obtain ⟨other, -, hother⟩ := (mem_of_mapM_map hplanned).mp hmem
    rw [applyAggregateDeltas_key hother] at hmkey
    rw [hmkey, hok] at hother
    exact Except.ok.inj hother
  obtain ⟨aggregate, hload, hfold⟩ := of_bind hok
  obtain ⟨state, hstate, hresult⟩ := of_bind hfold
  obtain ⟨stored, hstored, rfl⟩ := loadAggregate_eq_ok hload
  have hfound : (store.lookup key).isSome = stored.isSome := by rw [hstored, Option.isSome_map]
  have hmissing : (store.lookup key).isNone = stored.isNone := by rw [hstored, Option.isNone_map]
  simp only [Bool.not_true, Bool.false_or, hmissing] at hresult
  rw [hfound] at hstate
  refine ⟨stored, if !state.2 && isTierAggregate key && stored.isNone then none
    else some (state.1.withSequence ((state.1.updateSequence + 1) % 2 ^ 64)), hstored, ?_, ?_⟩
  · rw [aggregateAfter, if_neg hne, hstate]
    rfl
  rw [Bool.and_assoc]
  split at hresult
  · rename_i huntouched
    cases hresult
    rw [if_pos huntouched, Table.lookup_putAll_of_forall_ne, hstored]
    · simp only [Bool.and_eq_true, Option.isNone_iff_eq_none] at huntouched
      rw [huntouched.2.2]
    · intro m hm hmkey
      cases hother m hm hmkey
  · rename_i htouched
    cases hresult
    rw [if_neg htouched]
    refine Table.lookup_putAll_of_mem ?_ ?_
    · exact List.mem_filterMap.mpr ⟨_, hput, rfl⟩
    · intro value hm
      cases hother _ hm rfl
      rfl

end Vaultic.Daemon
