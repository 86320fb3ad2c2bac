/-
  Server/WriterRole.lean  —  the writer role of the metadata service and its fencing.

  Source: vaulticdb/src/writer_role.rs.

  A service holds the role of the metadata writer for an epoch.  When another service takes a
  greater epoch, the role is fenced: nothing more may be written until the role has been
  given an epoch that is greater than every one observed so far.

  `cancel_demotion` returns to the writer role whatever the role is by then, and
  `recover_fenced_writer` compares the new epoch with the epoch of the role only.  So the
  fence holds over the runs in which a demotion is cancelled only while the role is demoting
  and a fenced writer is recovered only beyond the observed epoch
  (`fence_holds`), and it does not hold over all runs (`fence_broken`).
-/
import Vaultic.Lib.Run

set_option autoImplicit false

namespace Vaultic.Server

open Vaultic.Lib

/-! ## The state -/

inductive WriterRole where
  | readOnly
  | promoting
  | readWrite
  | demoting
  | fenced
  deriving DecidableEq, Repr

structure WriterStatus where
  role : WriterRole
  (currentEpoch observedEpoch activeWriteIntents activeTransactions : Nat)
  transitionReason : String
  transitionStarted : Nat
  writerSince : Option Nat
  promotionSafe : Bool
  deriving DecidableEq, Repr

inductive RoleError where
  | notWriter
  | transitioning
  | fenced (observedEpoch : Nat)
  | minimumTenure
  | quiescenceTimeout
  | staleEpoch

structure WriterRoleState where
  status : WriterStatus
  minimumTenure : Nat
  deriving DecidableEq, Repr

namespace WriterRoleState

def readWrite (epoch now minimumTenure : Nat) : WriterRoleState :=
  { status :=
      { role := .readWrite, currentEpoch := epoch, observedEpoch := epoch
        activeWriteIntents := 0, activeTransactions := 0, transitionReason := "startup"
        transitionStarted := now, writerSince := some now, promotionSafe := false }
    minimumTenure }

def readOnly (observedEpoch now minimumTenure : Nat) : WriterRoleState :=
  { status :=
      { role := .readOnly, currentEpoch := 0, observedEpoch
        activeWriteIntents := 0, activeTransactions := 0
        transitionReason := "writer epoch already claimed"
        transitionStarted := now, writerSince := none, promotionSafe := true }
    minimumTenure }

/-! ## The transitions

Each returns its result and the state after, which a failed call may have changed too. -/

/-- A method of the state. -/
abbrev Transition := WriterRoleState → Except RoleError Unit × WriterRoleState

def update (change : WriterStatus → WriterStatus) (state : WriterRoleState) : WriterRoleState :=
  { state with status := change state.status }

def admitWrite : Transition := fun state =>
  match state.status.role with
  | .readWrite =>
    (.ok (), state.update fun status =>
      { status with activeWriteIntents := status.activeWriteIntents + 1 })
  | .readOnly => (.error .notWriter, state)
  | .promoting | .demoting => (.error .transitioning, state)
  | .fenced => (.error (.fenced state.status.observedEpoch), state)

section

variable (now : Nat) (state : WriterRoleState)

def finishWrite : WriterRoleState :=
  state.update fun status => { status with activeWriteIntents := status.activeWriteIntents - 1 }

def transactionOpened : Transition := fun state =>
  match state.admitWrite with
  | (.error error, state) => (.error error, state)
  | (.ok (), state) =>
    (.ok (), state.finishWrite.update fun status =>
      { status with activeTransactions := status.activeTransactions + 1 })

def transactionClosed : WriterRoleState :=
  state.update fun status => { status with activeTransactions := status.activeTransactions - 1 }

def beginDemotion (reason : String) (force : Bool) : Transition := fun state =>
  if state.status.role ≠ .readWrite then
    match state.admitWrite with
    | (.error error, state) => (.error error, state)
    | (.ok (), state) => (.ok (), state.finishWrite)
  else if !force && state.status.writerSince.any (fun since =>
      decide (now - since < state.minimumTenure)) then
    (.error .minimumTenure, state)
  else
    (.ok (), state.update fun status =>
      { status with
        role := .demoting, transitionReason := reason, transitionStarted := now
        promotionSafe := false })

def completeDemotion : Transition := fun state =>
  if state.status.role ≠ .demoting then (.error .transitioning, state)
  else if state.status.activeWriteIntents ≠ 0 ∨ state.status.activeTransactions ≠ 0 then
    (.error .transitioning, state)
  else
    (.ok (), state.update fun status =>
      { status with
        role := .readOnly, currentEpoch := 0, transitionStarted := now, writerSince := none
        promotionSafe := true })

def failDemotion : WriterRoleState :=
  state.update fun status =>
    { status with
      role := .fenced, transitionReason := "writer close or quiescence failed"
      transitionStarted := now, promotionSafe := false }

/-- The role is not looked at. -/
def cancelDemotion (reason : String) (state : WriterRoleState) : WriterRoleState :=
  state.update fun status =>
    { status with
      role := .readWrite, transitionReason := reason, transitionStarted := now
      promotionSafe := false }

def beginPromotion (reason : String) : Transition := fun state =>
  if state.status.role ≠ .readOnly ∨ state.status.promotionSafe = false then
    (.error .transitioning, state)
  else
    (.ok (), state.update fun status =>
      { status with
        role := .promoting, transitionReason := reason, transitionStarted := now
        promotionSafe := false })

end

def fence (winningEpoch now : Nat) (reason : String) (state : WriterRoleState) : WriterRoleState :=
  state.update fun status =>
    { status with
      role := .fenced, observedEpoch := max status.observedEpoch winningEpoch
      transitionReason := reason, transitionStarted := now, promotionSafe := false }

/-- A stale promotion fences the role. -/
def stalePromotion (epoch : Nat) (state : WriterRoleState) : Bool :=
  decide (state.status.role = .promoting ∧
    epoch ≤ max state.status.currentEpoch state.status.observedEpoch)

def completePromotion (epoch now : Nat) : Transition := fun state =>
  if state.status.role ≠ .promoting then (.error .transitioning, state)
  else if epoch ≤ max state.status.currentEpoch state.status.observedEpoch then
    (.error .staleEpoch,
      state.fence (max state.status.observedEpoch epoch) now "stale promotion epoch")
  else
    (.ok (), state.update fun status =>
      { status with
        role := .readWrite, currentEpoch := epoch, observedEpoch := epoch
        transitionStarted := now, writerSince := some now })

def failPromotionToReader (observedEpoch now : Nat) (state : WriterRoleState) : WriterRoleState :=
  state.update fun status =>
    { status with
      role := .readOnly, currentEpoch := 0
      observedEpoch := max status.observedEpoch observedEpoch
      transitionReason := "writer promotion rolled back", transitionStarted := now
      writerSince := none, promotionSafe := true }

/-- The observed epoch is overwritten, and compared with nothing. -/
def recoverFencedWriter (epoch now : Nat) : Transition := fun state =>
  if state.status.role ≠ .fenced ∨ epoch ≤ state.status.currentEpoch then
    (.error .staleEpoch, state)
  else
    (.ok (), state.update fun status =>
      { status with
        role := .readWrite, currentEpoch := epoch, observedEpoch := epoch
        transitionReason := "writer fence reconciled", transitionStarted := now
        writerSince := some now, promotionSafe := false })

def refreshWriterEpoch (epoch now : Nat) : Transition := fun state =>
  if state.status.role ≠ .readWrite ∨ epoch ≤ state.status.currentEpoch then
    (.error .staleEpoch, state)
  else
    (.ok (), state.update fun status =>
      { status with
        currentEpoch := epoch, observedEpoch := epoch
        transitionReason := "writer fence refreshed", transitionStarted := now })

end WriterRoleState

open WriterRoleState

/-! ## Runs -/

/-- A call on the role; demotions are called by tasks. -/
inductive RoleCall where
  | admitWrite
  | finishWrite
  | transactionOpened
  | transactionClosed
  | beginDemotion (task now : Nat) (reason : String) (force : Bool)
  | completeDemotion (task now : Nat)
  | failDemotion (now : Nat)
  | cancelDemotion (task now : Nat) (reason : String)
  | beginPromotion (now : Nat) (reason : String)
  | completePromotion (epoch now : Nat)
  | failPromotionToReader (observedEpoch now : Nat)
  | recoverFencedWriter (epoch now : Nat)
  | refreshWriterEpoch (epoch now : Nat)
  | fence (winningEpoch now : Nat) (reason : String)

/-- A method without a result succeeds. -/
def always (change : WriterRoleState → WriterRoleState) : Transition := fun state =>
  (.ok (), change state)

def RoleCall.run : RoleCall → Transition
  | .admitWrite => WriterRoleState.admitWrite
  | .finishWrite => always WriterRoleState.finishWrite
  | .transactionOpened => WriterRoleState.transactionOpened
  | .transactionClosed => always WriterRoleState.transactionClosed
  | .beginDemotion _ now reason force => WriterRoleState.beginDemotion now reason force
  | .completeDemotion _ now => WriterRoleState.completeDemotion now
  | .failDemotion now => always (WriterRoleState.failDemotion now)
  | .cancelDemotion _ now reason => always (WriterRoleState.cancelDemotion now reason)
  | .beginPromotion now reason => WriterRoleState.beginPromotion now reason
  | .completePromotion epoch now => WriterRoleState.completePromotion epoch now
  | .failPromotionToReader epoch now => always (WriterRoleState.failPromotionToReader epoch now)
  | .recoverFencedWriter epoch now => WriterRoleState.recoverFencedWriter epoch now
  | .refreshWriterEpoch epoch now => WriterRoleState.refreshWriterEpoch epoch now
  | .fence epoch now reason => always (WriterRoleState.fence epoch now reason)

def succeeded {ε α : Type} : Except ε α → Bool
  | .ok _ => true
  | .error _ => false

/-- The epoch that a call gives the role when it succeeds. -/
def RoleCall.given : RoleCall → Option Nat
  | .completePromotion epoch _ | .recoverFencedWriter epoch _ | .refreshWriterEpoch epoch _ =>
    some epoch
  | _ => none

/-- The epoch that a call fences the role with. -/
def RoleCall.fences (state : WriterRoleState) : RoleCall → Option Nat
  | .fence epoch _ _ => some epoch
  | .completePromotion epoch _ =>
    if state.stalePromotion epoch then some (max state.status.observedEpoch epoch) else none
  | _ => none

/-- A run: the role, the tasks whose demotion has begun, the greatest epoch observed so far,
and the fences that no greater epoch has lifted yet. -/
structure RoleRun where
  role : WriterRoleState
  begun : List Nat
  observed : Nat
  standing : List Nat

def RoleRun.start (role : WriterRoleState) : RoleRun :=
  { role, begun := [], observed := role.status.observedEpoch, standing := [] }

/-- The fences that stand after the role was given an epoch: it lifts those below it if it is
greater than every epoch observed before. -/
def RoleRun.lift (run : RoleRun) : Option Nat → List Nat
  | none => run.standing
  | some epoch => run.standing.filter fun fence =>
    !(decide (fence < epoch) && decide (run.observed < epoch))

def roleStep (run : RoleRun) (call : RoleCall) : RoleRun :=
  let (result, role) := call.run run.role
  { role
    begun :=
      match call with
      | .beginDemotion task _ _ _ => if succeeded result then task :: run.begun else run.begun
      | _ => run.begun
    observed := max run.observed role.status.observedEpoch
    standing := (call.fences run.role).toList ++
      run.lift (if succeeded result then call.given else none) }

/-- The task whose demotion a call ends. -/
def RoleCall.ends : RoleCall → Option Nat
  | .completeDemotion task _ | .cancelDemotion task _ _ => some task
  | _ => none

/-- The demotion of a task ends only after it has begun. -/
def legalCall (run : RoleRun) (call : RoleCall) : Prop :=
  ∀ task ∈ call.ends, task ∈ run.begun

instance (run : RoleRun) (call : RoleCall) : Decidable (legalCall run call) :=
  inferInstanceAs (Decidable (∀ task ∈ call.ends, task ∈ run.begun))

def RoleCall.admits : RoleCall → Bool
  | .admitWrite | .transactionOpened => true
  | _ => false

/-- A call does not lower the observed epoch, and admits nothing while a fence stands. -/
def safeCall (run : RoleRun) (call : RoleCall) : Prop :=
  run.role.status.observedEpoch ≤ (roleStep run call).role.status.observedEpoch ∧
    (call.admits = true → succeeded (call.run run.role).1 = true → run.standing = [])

instance (run : RoleRun) (call : RoleCall) : Decidable (safeCall run call) :=
  inferInstanceAs (Decidable (_ ∧ _))

def RoleCall.cancels : RoleCall → Bool
  | .cancelDemotion _ _ _ => true
  | _ => false

/-- The epoch that a call recovers a fenced role with. -/
def RoleCall.recovers : RoleCall → Option Nat
  | .recoverFencedWriter epoch _ => some epoch
  | _ => none

/-- What the callers would have to see to: a demotion is cancelled while the role is
demoting, and a fenced role is recovered beyond the observed epoch. -/
def guardedCall (run : RoleRun) (call : RoleCall) : Prop :=
  (call.cancels = true → run.role.status.role = .demoting) ∧
    ∀ epoch ∈ call.recovers,
      epoch ≤ run.role.status.currentEpoch ∨ run.role.status.observedEpoch < epoch

instance (run : RoleRun) (call : RoleCall) : Decidable (guardedCall run call) :=
  inferInstanceAs (Decidable (_ ∧ ∀ epoch ∈ call.recovers, _))

/-! ## What a call does to the epochs -/

/-- The role writes, or can return to writing without a new epoch. -/
def WriterRole.holdsEpoch : WriterRole → Bool
  | .readWrite | .demoting => true
  | .readOnly | .promoting | .fenced => false

/-- What a guarded call does, and the epoch that it gives the role: it keeps the epochs, it
gives the role up, or it takes an epoch beyond every observed one. -/
inductive EpochMove (before after : WriterStatus) : Option Nat → Prop
  | keeps (role : after.role.holdsEpoch = true → before.role.holdsEpoch = true)
      (current : after.currentEpoch = before.currentEpoch)
      (observed : after.observedEpoch = before.observedEpoch) : EpochMove before after none
  | leaves (role : after.role.holdsEpoch = false)
      (current : after.currentEpoch ≤ after.observedEpoch)
      (observed : before.observedEpoch ≤ after.observedEpoch) : EpochMove before after none
  | takes (epoch : Nat) (greater : before.observedEpoch < epoch)
      (role : after.role.holdsEpoch = true) (current : after.currentEpoch = epoch)
      (observed : after.observedEpoch = epoch) : EpochMove before after (some epoch)

namespace EpochMove

variable {before after : WriterStatus} {given : Option Nat}

theorem refl (status : WriterStatus) : EpochMove status status none :=
  .keeps id rfl rfl

theorem observed_le (move : EpochMove before after given) :
    before.observedEpoch ≤ after.observedEpoch := by
  cases move with
  | keeps _ _ observed => exact observed.ge
  | leaves _ _ observed => exact observed
  | takes epoch greater _ _ observed => exact observed ▸ greater.le

end EpochMove

/-- The epoch that a call has given the role. -/
def RoleCall.taken (call : RoleCall) (state : WriterRoleState) : Option Nat :=
  if succeeded (call.run state).1 then call.given else none

section Moves

variable (state : WriterRoleState)

theorem admitWrite_cases :
    (state.status.role = .readWrite ∧ succeeded state.admitWrite.1 = true ∧
      state.admitWrite.2.status.role = .readWrite ∧
      state.admitWrite.2.status.currentEpoch = state.status.currentEpoch ∧
      state.admitWrite.2.status.observedEpoch = state.status.observedEpoch) ∨
    (state.status.role ≠ .readWrite ∧ ∃ error, state.admitWrite = (.error error, state)) := by
  unfold WriterRoleState.admitWrite
  cases hrole : state.status.role with
  | readWrite => exact .inl ⟨rfl, rfl, hrole, rfl, rfl⟩
  | readOnly | promoting | demoting | fenced => exact .inr ⟨nofun, _, rfl⟩

theorem admitWrite_move : EpochMove state.status state.admitWrite.2.status none := by
  rcases admitWrite_cases state with ⟨hrole, -, hafter, hcurrent, hobserved⟩ | ⟨-, error, h⟩
  · exact .keeps (fun _ => by rw [hrole]; rfl) hcurrent hobserved
  · rw [h]
    exact .refl _

theorem transactionOpened_move : EpochMove state.status state.transactionOpened.2.status none := by
  have hmove := admitWrite_move state
  unfold WriterRoleState.transactionOpened
  rcases hadm : state.admitWrite with ⟨_ | _, admitted⟩ <;> rw [hadm] at hmove
  · exact hmove
  · cases hmove with
    | keeps role current observed => exact .keeps role current observed
    | leaves role current observed => exact .leaves role current observed

theorem transactionOpened_succeeded (h : succeeded state.transactionOpened.1 = true) :
    succeeded state.admitWrite.1 = true := by
  unfold WriterRoleState.transactionOpened at h
  rcases hadm : state.admitWrite with ⟨_ | _, admitted⟩ <;> rw [hadm] at h
  · exact h
  · rfl

theorem beginDemotion_move (now : Nat) (reason : String) (force : Bool) :
    EpochMove state.status (state.beginDemotion now reason force).2.status none := by
  unfold WriterRoleState.beginDemotion
  split_ifs with hrole htenure
  · -- the role is no writer, so the refusal of a write is returned
    rcases admitWrite_cases state with ⟨hwriter, -⟩ | ⟨-, error, h⟩
    · exact absurd hwriter hrole
    · rw [h]
      exact .refl _
  · exact .refl _
  · exact .keeps (fun _ => by rw [not_not.mp hrole]; rfl) rfl rfl

theorem completeDemotion_move (now : Nat) :
    EpochMove state.status (state.completeDemotion now).2.status none := by
  unfold WriterRoleState.completeDemotion
  split_ifs with hrole hactive
  · exact .refl _
  · exact .refl _
  · exact .leaves rfl (Nat.zero_le _) le_rfl

theorem beginPromotion_move (now : Nat) (reason : String) :
    EpochMove state.status (state.beginPromotion now reason).2.status none := by
  unfold WriterRoleState.beginPromotion
  split_ifs with hrole
  · exact .refl _
  · exact .keeps nofun rfl rfl

section

variable (hcurrent : state.status.currentEpoch ≤ state.status.observedEpoch)
include hcurrent

theorem fence_move (epoch now : Nat) (reason : String) :
    EpochMove state.status (state.fence epoch now reason).status none :=
  .leaves rfl (hcurrent.trans (le_max_left _ _)) (le_max_left _ _)

/-- A promotion takes its epoch, or fences the role when it is stale. -/
theorem completePromotion_move (epoch now : Nat) :
    EpochMove state.status (state.completePromotion epoch now).2.status
      (if succeeded (state.completePromotion epoch now).1 then some epoch else none) := by
  unfold WriterRoleState.completePromotion
  by_cases hrole : state.status.role ≠ .promoting
  · rw [if_pos hrole]
    exact .refl _
  rw [if_neg hrole]
  by_cases hstale : epoch ≤ max state.status.currentEpoch state.status.observedEpoch
  · rw [if_pos hstale]
    exact fence_move state hcurrent _ _ _
  · rw [if_neg hstale]
    exact .takes epoch (lt_of_le_of_lt (le_max_right _ _) (not_le.mp hstale)) rfl rfl rfl

end

theorem recoverFencedWriter_move (epoch now : Nat)
    (hguard : epoch ≤ state.status.currentEpoch ∨ state.status.observedEpoch < epoch) :
    EpochMove state.status (state.recoverFencedWriter epoch now).2.status
      (if succeeded (state.recoverFencedWriter epoch now).1 then some epoch else none) := by
  unfold WriterRoleState.recoverFencedWriter
  by_cases hrole : state.status.role ≠ .fenced ∨ epoch ≤ state.status.currentEpoch
  · rw [if_pos hrole]
    exact .refl _
  · rw [if_neg hrole]
    exact .takes epoch (hguard.resolve_left (not_or.mp hrole).2) rfl rfl rfl

theorem refreshWriterEpoch_move (epoch now : Nat) (hwriter : state.status.role.holdsEpoch = true →
      state.status.currentEpoch = state.status.observedEpoch) :
    EpochMove state.status (state.refreshWriterEpoch epoch now).2.status
      (if succeeded (state.refreshWriterEpoch epoch now).1 then some epoch else none) := by
  unfold WriterRoleState.refreshWriterEpoch
  by_cases hrole : state.status.role ≠ .readWrite ∨ epoch ≤ state.status.currentEpoch
  · rw [if_pos hrole]
    exact .refl _
  rw [if_neg hrole]
  obtain ⟨hrole, hcurrent⟩ := not_or.mp hrole
  have hholds : state.status.role.holdsEpoch = true := by
    rw [not_not.mp hrole]
    rfl
  exact .takes epoch (hwriter hholds ▸ not_le.mp hcurrent) hholds rfl rfl

end Moves

/-! ## The invariant -/

/-- A role that holds an epoch has one that nothing observed exceeds, and no fence stands. -/
structure FenceInvariant (run : RoleRun) : Prop where
  observed : run.observed = run.role.status.observedEpoch
  current : run.role.status.currentEpoch ≤ run.role.status.observedEpoch
  standing : ∀ fence ∈ run.standing, fence ≤ run.role.status.observedEpoch
  writer : run.role.status.role.holdsEpoch = true →
    run.standing = [] ∧ run.role.status.currentEpoch = run.role.status.observedEpoch

section Step

variable {run : RoleRun} {call : RoleCall}

/-- What every guarded call does to the epochs. -/
theorem run_move (hinv : FenceInvariant run) (hguard : guardedCall run call) :
    EpochMove run.role.status (call.run run.role).2.status (call.taken run.role) := by
  cases call with
  | admitWrite =>
    simp only [RoleCall.taken, RoleCall.given, ite_self]
    exact admitWrite_move run.role
  | finishWrite => exact .keeps id rfl rfl
  | transactionOpened =>
    simp only [RoleCall.taken, RoleCall.given, ite_self]
    exact transactionOpened_move run.role
  | transactionClosed => exact .keeps id rfl rfl
  | beginDemotion task now reason force =>
    simp only [RoleCall.taken, RoleCall.given, ite_self]
    exact beginDemotion_move run.role now reason force
  | completeDemotion task now =>
    simp only [RoleCall.taken, RoleCall.given, ite_self]
    exact completeDemotion_move run.role now
  | failDemotion now => exact .leaves rfl hinv.current le_rfl
  | cancelDemotion task now reason =>
    have hrole : run.role.status.role = .demoting := hguard.1 rfl
    exact .keeps (fun _ => by rw [hrole]; rfl) rfl rfl
  | beginPromotion now reason =>
    simp only [RoleCall.taken, RoleCall.given, ite_self]
    exact beginPromotion_move run.role now reason
  | completePromotion epoch now => exact completePromotion_move run.role hinv.current epoch now
  | failPromotionToReader epoch now => exact .leaves rfl (Nat.zero_le _) (le_max_left _ _)
  | recoverFencedWriter epoch now =>
    exact recoverFencedWriter_move run.role epoch now (hguard.2 epoch rfl)
  | refreshWriterEpoch epoch now =>
    exact refreshWriterEpoch_move run.role epoch now fun h => (hinv.writer h).2
  | fence epoch now reason => exact fence_move run.role hinv.current epoch now reason

/-- A fence is observed, and takes the role away. -/
theorem run_fences {fence : Nat} (h : call.fences run.role = some fence) :
    fence ≤ (call.run run.role).2.status.observedEpoch ∧
      (call.run run.role).2.status.role.holdsEpoch = false := by
  cases call with
  | fence epoch now reason =>
    obtain rfl : epoch = fence := Option.some.inj h
    exact ⟨le_max_right _ _, rfl⟩
  | completePromotion epoch now =>
    rw [RoleCall.fences] at h
    split_ifs at h with hstale
    obtain ⟨hrole, hepoch⟩ := of_decide_eq_true hstale
    obtain rfl := Option.some.inj h
    simp only [RoleCall.run, WriterRoleState.completePromotion, hrole, ne_eq, not_true_eq_false,
      if_false, if_pos hepoch]
    exact ⟨le_max_right _ _, rfl⟩
  | _ => cases h

theorem roleStep_role : (roleStep run call).role = (call.run run.role).2 := rfl

theorem roleStep_observed :
    (roleStep run call).observed = max run.observed (call.run run.role).2.status.observedEpoch :=
  rfl

theorem roleStep_standing :
    (roleStep run call).standing =
      (call.fences run.role).toList ++ run.lift (call.taken run.role) :=
  rfl

theorem lift_subset (given : Option Nat) : run.lift given ⊆ run.standing := by
  cases given with
  | none => exact List.Subset.refl _
  | some epoch => exact List.filter_sublist.subset

section

variable (hinv : FenceInvariant run)
include hinv

/-- An epoch beyond every observed one lifts all the fences. -/
theorem lift_eq_nil {epoch : Nat}
    (hepoch : run.role.status.observedEpoch < epoch) : run.lift (some epoch) = [] := by
  apply List.filter_eq_nil_iff.mpr
  intro fence hfence
  have hbelow : fence < epoch := lt_of_le_of_lt (hinv.standing fence hfence) hepoch
  have hseen : run.observed < epoch := hinv.observed ▸ hepoch
  simp [hbelow, hseen]

section

variable (hguard : guardedCall run call)
include hguard

/-- No fence stands after a call that leaves the role with an epoch. -/
theorem standing_nil (hholds : (call.run run.role).2.status.role.holdsEpoch = true) :
    (roleStep run call).standing = [] := by
  have hfences : call.fences run.role = none := by
    cases hfences : call.fences run.role with
    | none => rfl
    | some fence => exact absurd ((run_fences hfences).2.symm.trans hholds) nofun
  rw [roleStep_standing, hfences, Option.toList_none, List.nil_append]
  have hmove := run_move hinv hguard
  cases htaken : call.taken run.role with
  | none =>
    rw [htaken] at hmove
    cases hmove with
    | keeps role _ _ => exact (hinv.writer (role hholds)).1
    | leaves role _ _ => exact absurd (role.symm.trans hholds) nofun
  | some epoch =>
    rw [htaken] at hmove
    cases hmove with
    | takes _ greater _ _ _ => exact lift_eq_nil hinv greater

theorem FenceInvariant.step : FenceInvariant (roleStep run call) := by
  have hmove := run_move hinv hguard
  generalize call.taken run.role = given at hmove
  refine ⟨?_, ?_, ?_, ?_⟩
  · rw [roleStep_observed, hinv.observed]
    exact max_eq_right hmove.observed_le
  · rw [roleStep_role]
    cases hmove with
    | keeps _ current observed => exact current.trans_le (hinv.current.trans_eq observed.symm)
    | leaves _ current _ => exact current
    | takes _ _ _ current observed => exact current.trans_le observed.ge
  · intro fence hfence
    rw [roleStep_standing, List.mem_append, Option.mem_toList] at hfence
    rcases hfence with hfence | hfence
    · exact (run_fences hfence).1
    · exact (hinv.standing fence (lift_subset _ hfence)).trans hmove.observed_le
  · intro hholds
    refine ⟨standing_nil hinv hguard hholds, ?_⟩
    rw [roleStep_role] at hholds ⊢
    cases hmove with
    | keeps role current observed =>
      rw [current, observed]
      exact (hinv.writer (role hholds)).2
    | leaves role _ _ => exact absurd (role.symm.trans hholds) nofun
    | takes _ _ _ current observed => exact current.trans observed.symm

theorem FenceInvariant.safe : safeCall run call := by
  refine ⟨(run_move hinv hguard).observed_le, fun hadmits hok => ?_⟩
  have hwriter : succeeded run.role.admitWrite.1 = true := by
    cases call with
    | admitWrite => exact hok
    | transactionOpened => exact transactionOpened_succeeded run.role hok
    | _ => cases hadmits
  rcases admitWrite_cases run.role with ⟨hrole, -⟩ | ⟨-, error, h⟩
  · exact (hinv.writer (by rw [hrole]; rfl)).1
  · rw [h] at hwriter
    cases hwriter

end

end

end Step

/-! ## Runs keep the fence -/

/-- The two ways a service starts. -/
inductive Starts : WriterRoleState → Prop
  | readWrite (epoch now minimumTenure : Nat) : Starts (readWrite epoch now minimumTenure)
  | readOnly (epoch now minimumTenure : Nat) : Starts (readOnly epoch now minimumTenure)

theorem Starts.invariant {role : WriterRoleState} (h : Starts role) :
    FenceInvariant (.start role) := by
  cases h with
  | readWrite => exact ⟨rfl, Nat.le_refl _, nofun, fun _ => ⟨rfl, rfl⟩⟩
  | readOnly => exact ⟨rfl, Nat.zero_le _, nofun, nofun⟩

/-- In every run of guarded calls, the observed epoch does not fall, and nothing is admitted
under a fence until the role is given an epoch beyond the fence and every epoch observed
before. -/
theorem fence_holds (role : WriterRoleState) (hstart : Starts role) (calls : List RoleCall)
    (hguard : Along roleStep guardedCall (.start role) calls) :
    Along roleStep safeCall (.start role) calls := by
  refine hguard.of_invariant FenceInvariant ?_ hstart.invariant
  intro run call hcall hinv
  exact ⟨hinv.safe hcall, hinv.step hcall⟩

/-- A writer that is fenced, recovered beyond the fence and writes again. -/
theorem fence_holds_recovered :
    Along roleStep safeCall (.start (readWrite 5 0 0))
      [.admitWrite, .finishWrite, .beginDemotion 1 1 "handover" true, .fence 9 2 "lost",
        .recoverFencedWriter 10 3, .admitWrite] :=
  fence_holds (readWrite 5 0 0) (.readWrite 5 0 0) _ (by decide)

/-- A demotion that is cancelled after the role was fenced makes the fenced service a writer
of its old epoch, and a fenced role is recovered with an epoch below the observed one. -/
theorem fence_broken :
    (Along roleStep legalCall (.start (readWrite 5 0 0))
        [.beginDemotion 1 1 "handover" true, .fence 9 2 "lost", .cancelDemotion 1 3 "timeout",
          .admitWrite] ∧
      ¬ Along roleStep safeCall (.start (readWrite 5 0 0))
        [.beginDemotion 1 1 "handover" true, .fence 9 2 "lost", .cancelDemotion 1 3 "timeout",
          .admitWrite]) ∧
    Along roleStep legalCall (.start (readWrite 5 0 0))
        [.fence 9 1 "lost", .recoverFencedWriter 6 2] ∧
      ¬ Along roleStep safeCall (.start (readWrite 5 0 0))
        [.fence 9 1 "lost", .recoverFencedWriter 6 2] := by
  decide

end Vaultic.Server
