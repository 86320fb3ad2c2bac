/-
  Maintenance/Placement.lean  —  placements and the durability policy.

  Source: internal/index/maintenance/placement.go.

  A pack has a placement on each backend it was ever put on.  The copies that count are
  the live ones on a backend of the registry that is not a read cache.  Whether a pack is
  durable depends on the set of these backends alone, and more of them never hurt.
-/
import Vaultic.Schema.Codec

set_option autoImplicit false

namespace Vaultic.Maintenance

open Vaultic.Lib Vaultic.Schema

/-! ## The registry -/

/-- The role of a backend; the source compares it with four names. -/
inductive Role where
  | primary
  | archival
  | cache
  | readCache
  | other (name : String)
  deriving DecidableEq, Repr

structure PlacementBackend where
  id : String
  hash : Nat
  role : Role
  ingest : Option Bool := none
  offsite : Bool := false
  (failureDomain retrievalClass : String := "")
  (minRetentionSeconds maxBandwidthBytes maxRequestsPerSecond : Nat := 0)
  deriving DecidableEq, Repr

def PlacementBackend.ingestEnabled (backend : PlacementBackend) : Bool :=
  backend.ingest.getD true

structure DurabilityPolicy where
  (minCopies minDomains minOffsite : Nat := 0)
  (offsiteDeadline promotionCrossoverSeconds : Int := 0)
  deriving DecidableEq, Repr

structure PlacementModel where
  backends : List PlacementBackend
  policy : DurabilityPolicy
  deriving DecidableEq, Repr

/-- The map from hashes to backends; of two backends with one hash the later one counts. -/
def PlacementModel.byHash (model : PlacementModel) : Table Nat PlacementBackend :=
  Table.putAll ∅ (model.backends.map fun backend => (backend.hash, backend))

/-! ## Sets of copies -/

/-- `policy` is met by copies on the backends `copies`. -/
def Satisfies (policy : DurabilityPolicy) (backends : Table Nat PlacementBackend)
    (copies : Finset Nat) : Prop :=
  let minCopies := if policy.minCopies = 0 then 1 else policy.minCopies
  let minDomains := if policy.minDomains = 0 then minCopies else policy.minDomains
  minCopies ≤ copies.card ∧
    minDomains ≤ (copies.image fun hash => (backends.lookup hash).map (·.failureDomain)).card ∧
    policy.minOffsite ≤ (copies.filter fun hash => (backends.lookup hash).any (·.offsite)).card

instance (policy : DurabilityPolicy) (backends : Table Nat PlacementBackend)
    (copies : Finset Nat) : Decidable (Satisfies policy backends copies) :=
  inferInstanceAs (Decidable (_ ∧ _ ∧ _))

variable {backends : Table Nat PlacementBackend}

theorem Satisfies.mono {policy : DurabilityPolicy}
    {copies more : Finset Nat} (h : Satisfies policy backends copies) (hsub : copies ⊆ more) :
    Satisfies policy backends more :=
  ⟨h.1.trans (Finset.card_le_card hsub),
    h.2.1.trans (Finset.card_le_card (Finset.image_subset_image hsub)),
    h.2.2.trans (Finset.card_le_card (Finset.filter_subset_filter _ hsub))⟩

/-! ## Placements -/

/-- The placements of one pack, by backend. -/
abbrev PlacementSet := Table Nat PlacementRecord

/-- Does the placement count as a copy? -/
def counts (backends : Table Nat PlacementBackend) (hash : Nat) (placement : PlacementRecord) :
    Bool :=
  placement.state = .live && (backends.lookup hash).any fun backend => backend.role ≠ .readCache

/-- The backends whose copies `durable` counts. -/
def copiesOf (placements : PlacementSet) (backends : Table Nat PlacementBackend) : Finset Nat :=
  (placements.scan fun hash placement =>
    if counts backends hash placement then some hash else none).toFinset

def durable (placements : PlacementSet) (backends : Table Nat PlacementBackend)
    (policy : DurabilityPolicy) : Bool :=
  decide (Satisfies policy backends (copiesOf placements backends))

theorem mem_copiesOf {placements : PlacementSet} {hash : Nat} :
    hash ∈ copiesOf placements backends ↔
      ∃ placement, placements.lookup hash = some placement ∧
        counts backends hash placement = true := by
  rw [copiesOf, List.mem_toFinset, Table.mem_scan]
  constructor
  · rintro ⟨other, placement, hlookup, hselect⟩
    split_ifs at hselect with hcounts
    cases hselect
    exact ⟨placement, hlookup, hcounts⟩
  · rintro ⟨placement, hlookup, hcounts⟩
    exact ⟨hash, placement, hlookup, if_pos hcounts⟩

variable {placements : PlacementSet} {backends : Table Nat PlacementBackend} {hash : Nat}
  {placement : PlacementRecord}

/-- A live placement takes no copy away. -/
theorem copiesOf_subset_insert (h : placement.state = .live) :
    copiesOf placements backends ⊆ copiesOf (placements.insert hash placement) backends := by
  intro other hother
  rw [mem_copiesOf] at hother ⊢
  obtain ⟨old, hlookup, hcounts⟩ := hother
  by_cases hsame : other = hash
  · subst hsame
    refine ⟨placement, AList.lookup_insert _, ?_⟩
    simp only [counts, Bool.and_eq_true, decide_eq_true_eq] at hcounts ⊢
    exact ⟨h, hcounts.2⟩
  · exact ⟨old, by rw [AList.lookup_insert_ne hsame, hlookup], hcounts⟩

/-- A placement that is not live leaves the copies on the other backends. -/
theorem copiesOf_insert (h : placement.state ≠ .live) :
    copiesOf (placements.insert hash placement) backends =
      (copiesOf placements backends).erase hash := by
  have h : counts backends hash placement = false := by simp [counts, h]
  ext other
  rw [Finset.mem_erase, mem_copiesOf, mem_copiesOf]
  by_cases hsame : other = hash
  · subst hsame
    rw [AList.lookup_insert]
    simp [h]
  · rw [AList.lookup_insert_ne hsame]
    simp [hsame]

theorem copiesOf_erase :
    copiesOf (placements.erase hash) backends = (copiesOf placements backends).erase hash := by
  ext other
  rw [Finset.mem_erase, mem_copiesOf, mem_copiesOf]
  by_cases hsame : other = hash
  · subst hsame
    rw [AList.lookup_erase]
    simp
  · rw [AList.lookup_erase_ne hsame]
    simp [hsame]

end Vaultic.Maintenance
