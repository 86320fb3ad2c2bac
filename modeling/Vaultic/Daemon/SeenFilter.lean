/-
  Daemon/SeenFilter.lean  —  the filter of identifiers seen during a legacy import.

  Source: internal/index/daemon/legacy_import_filter.go.

  The filter is a list of bit arrays, here the youngest first; an identifier is in a layer if all
  its probes are set there.  A layer is added when the youngest is full.  Once a layer is
  refused, the filter answers that everything may have been seen, and the importer asks the
  database instead.

  Parameters: `parameters` is `seenFilterLayerParameters` with the target rate, which computes
  in floating point and gives no bytes for a rate out of range; `admitted` says whether the
  context and the working-state reservation let a layer be added.
-/
import Vaultic.Lib.Bytes
import Vaultic.Schema.Records

set_option autoImplicit false

namespace Vaultic.Daemon

open Vaultic.Lib
open Vaultic.Schema (ID maxUint64)

structure IDSeenFilterLayer where
  bits : List UInt8
  (capacity inserts : Nat)
  probes : UInt8
  deriving DecidableEq, Repr

structure IDSeenFilter where
  layers : List IDSeenFilterLayer
  (initialCapacity maxBytes allocatedBytes inserts : Nat)
  fallbackToDatabase : Bool

def seenFilterGrowth : Nat := 2

def seenFilterHashes (id : ID) : UInt64 × UInt64 :=
  let word (index : Nat) : UInt64 := UInt64.ofNat (id.toNat >>> (64 * (3 - index)))
  let first := word 0 ^^^ word 2
  let second := word 1 ^^^ word 3
  (first, second * 0x9e3779b97f4a7c15 ||| 1)

/-- The bits of an identifier in a layer. -/
def IDSeenFilterLayer.probed (layer : IDSeenFilterLayer) (id : ID) : List Nat :=
  let (first, second) := seenFilterHashes id
  (List.range layer.probes.toNat).map fun probe =>
    (first + UInt64.ofNat probe * second).toNat % (layer.bits.length * 8)

def IDSeenFilterLayer.possiblyContains (layer : IDSeenFilterLayer) (id : ID) : Bool :=
  (layer.probed id).all (getBit layer.bits)

def IDSeenFilterLayer.insert (layer : IDSeenFilterLayer) (id : ID) : IDSeenFilterLayer :=
  { layer with bits := (layer.probed id).foldl setBit layer.bits }

/-- The capacity of the next layer; `none` where it does not fit in 64 bits. -/
def layerCapacity (initialCapacity : Nat) : Nat → Option Nat
  | 0 => some initialCapacity
  | layers + 1 => do
    let capacity ← layerCapacity initialCapacity layers
    if capacity > maxUint64 / seenFilterGrowth then none else some (capacity * seenFilterGrowth)

section

variable (parameters : Nat → Nat → Nat × UInt8) (filter : IDSeenFilter)

/-- `addLayer`; `none` where the source returns `false`. -/
def IDSeenFilter.addLayer (admitted : Bool) (filter : IDSeenFilter) : Option IDSeenFilter := do
  let capacity ← layerCapacity filter.initialCapacity filter.layers.length
  let (byteCount, probes) := parameters filter.layers.length capacity
  if byteCount = 0 ∨ probes = 0 ∨ filter.allocatedBytes ≥ filter.maxBytes ∨
      byteCount > filter.maxBytes - filter.allocatedBytes ∨ !admitted then none
  else some { filter with
    layers :=
      { bits := List.replicate byteCount 0, capacity, inserts := 0, probes } :: filter.layers
    allocatedBytes := filter.allocatedBytes + byteCount }

/-- `newIDSeenFilterContext`; `accounted` says whether the policy of the context, if any,
accounts for memory. -/
def newIDSeenFilter (initialCapacity maxBytes : Int) (accounted admitted : Bool) : IDSeenFilter :=
  let filter : IDSeenFilter :=
    { layers := [], initialCapacity := (max initialCapacity 1).toNat
      maxBytes := (max maxBytes 1).toNat, allocatedBytes := 0, inserts := 0
      fallbackToDatabase := false }
  if !accounted then { filter with fallbackToDatabase := true }
  else (filter.addLayer parameters admitted).getD { filter with fallbackToDatabase := true }

def IDSeenFilter.possiblyContains (id : ID) : Bool :=
  filter.fallbackToDatabase || filter.layers.any (·.possiblyContains id)

/-- Insert into the youngest layer. -/
def IDSeenFilter.insertActive (id : ID) : IDSeenFilter :=
  match filter.layers with
  | [] => filter
  | active :: older =>
    { filter with
      layers := { active.insert id with inserts := active.inserts + 1 } :: older
      inserts := filter.inserts + 1 }

def IDSeenFilter.insert (inserted : ID × Bool) : IDSeenFilter :=
  let (id, admitted) := inserted
  if filter.fallbackToDatabase then filter
  else
    match filter.layers with
    | [] => { filter with fallbackToDatabase := true }
    | active :: _ =>
      if filter.layers.any (·.possiblyContains id) then filter
      else if active.inserts ≥ active.capacity then
        match filter.addLayer parameters admitted with
        | none => { filter with fallbackToDatabase := true }
        | some filter => filter.insertActive id
      else filter.insertActive id

end

/-! ## No false negatives -/

section
variable {layer : IDSeenFilterLayer} {filter filter' : IDSeenFilter} {id other : ID}
  {parameters : Nat → Nat → Nat × UInt8} {admitted : Bool}

theorem IDSeenFilterLayer.possiblyContains_insert (hbits : layer.bits ≠ [])
    (h : layer.possiblyContains other = true ∨ other = id) :
    (layer.insert id).possiblyContains other = true := by
  have hlength : (layer.insert id).bits.length = layer.bits.length := length_foldl_setBit _ _
  rw [possiblyContains, List.all_eq_true]
  intro bit hbit
  have hprobed : bit ∈ layer.probed other := by
    rwa [probed, hlength] at hbit
  apply getBit_foldl_setBit
  rcases h with h | rfl
  · exact .inl (List.all_eq_true.mp h bit hprobed)
  · refine .inr ⟨hprobed, ?_⟩
    obtain ⟨probe, -, rfl⟩ := List.mem_map.mp hprobed
    exact Nat.mod_lt _ (Nat.mul_pos (List.length_pos_iff.mpr hbits) (by decide))

/-- Every layer has bits. -/
def IDSeenFilter.Allocated (filter : IDSeenFilter) : Prop :=
  ∀ layer ∈ filter.layers, layer.bits ≠ []

theorem IDSeenFilter.addLayer_spec (h : filter.addLayer parameters admitted = some filter') :
    ∃ layer, layer.bits ≠ [] ∧ filter'.layers = layer :: filter.layers ∧
      filter'.fallbackToDatabase = filter.fallbackToDatabase := by
  obtain ⟨capacity, -, h⟩ := Option.bind_eq_some_iff.mp h
  dsimp only at h
  split_ifs at h with hrefused
  cases h
  refine ⟨_, ?_, rfl, rfl⟩
  simpa [List.replicate_eq_nil_iff] using fun hzero => hrefused (.inl hzero)

theorem IDSeenFilter.insertActive_spec (hbits : filter.Allocated) (hlayers : filter.layers ≠ []) :
    (filter.insertActive id).Allocated ∧
      ∀ other, filter.possiblyContains other = true ∨ other = id →
        (filter.insertActive id).possiblyContains other = true := by
  obtain ⟨active, older, hactive⟩ := List.exists_cons_of_ne_nil hlayers
  have hnonempty : active.bits ≠ [] := hbits active (by rw [hactive]; exact (.head _))
  rw [Allocated, hactive, List.forall_mem_cons] at hbits
  unfold insertActive
  rw [hactive]
  constructor
  · refine List.forall_mem_cons.mpr ⟨?_, hbits.2⟩
    rw [← List.length_pos_iff] at hnonempty ⊢
    exact (length_foldl_setBit _ _).symm ▸ hnonempty
  · intro other hother
    simp only [possiblyContains, hactive, List.any_cons, Bool.or_eq_true] at hother ⊢
    rcases hother with (hfallback | hcontains | hcontains) | hother
    · exact .inl hfallback
    · exact .inr (.inl (IDSeenFilterLayer.possiblyContains_insert hnonempty (.inl hcontains)))
    · exact .inr (.inr hcontains)
    · exact .inr (.inl (IDSeenFilterLayer.possiblyContains_insert hnonempty (.inr hother)))

/-- An insertion keeps what was contained and adds the identifier, whether a layer is added,
refused or not needed. -/
theorem IDSeenFilter.insert_spec (hbits : filter.Allocated) :
    (filter.insert parameters (id, admitted)).Allocated ∧
      ∀ other, filter.possiblyContains other = true ∨ other = id →
        (filter.insert parameters (id, admitted)).possiblyContains other = true := by
  have hfallback : ∀ other, { filter with fallbackToDatabase := true }.possiblyContains other =
      true := fun other => rfl
  unfold insert
  dsimp only
  by_cases hdatabase : filter.fallbackToDatabase = true
  · rw [if_pos hdatabase]
    exact ⟨hbits, fun other _ => by rw [possiblyContains, hdatabase]; rfl⟩
  rw [if_neg hdatabase]
  split
  · exact ⟨hbits, fun other _ => hfallback other⟩
  next active older hactive =>
    have hlayers : filter.layers ≠ [] := hactive ▸ List.cons_ne_nil _ _
    split_ifs with hseen hfull
    · refine ⟨hbits, fun other hother => ?_⟩
      rcases hother with hold | rfl
      · exact hold
      · rw [possiblyContains, hseen, Bool.or_true]
    · split
      · exact ⟨hbits, fun other _ => hfallback other⟩
      next added hadded =>
        obtain ⟨layer, hlayer, hadded, hkept⟩ := addLayer_spec hadded
        have hallocated : added.Allocated := by
          rw [Allocated, hadded]
          exact List.forall_mem_cons.mpr ⟨hlayer, hbits⟩
        obtain ⟨hallocated, hcontains⟩ :=
          insertActive_spec hallocated (hadded ▸ List.cons_ne_nil _ _)
        refine ⟨hallocated, fun other hother => hcontains other (hother.imp_left fun hold => ?_)⟩
        rw [possiblyContains] at hold
        rw [possiblyContains, hadded, hkept, List.any_cons, Bool.or_left_comm, hold, Bool.or_true]
    · exact insertActive_spec hbits hlayers

end

/-- Whatever layers are added or refused, every identifier inserted so far may be contained. -/
theorem inserted_possiblyContained (parameters : Nat → Nat → Nat × UInt8)
    (initialCapacity maxBytes : Int) (accounted admitted : Bool) (inserted : List (ID × Bool)) :
    (inserted.map Prod.fst).all
      (inserted.foldl (IDSeenFilter.insert parameters)
        (newIDSeenFilter parameters initialCapacity maxBytes accounted admitted)).possiblyContains =
      true := by
  have hrun : ∀ filter : IDSeenFilter, filter.Allocated → ∀ id,
      filter.possiblyContains id = true ∨ id ∈ inserted.map Prod.fst →
      (inserted.foldl (IDSeenFilter.insert parameters) filter).possiblyContains id = true := by
    induction inserted with
    | nil => exact fun filter _ id h => h.resolve_right List.not_mem_nil
    | cons first rest ih =>
      intro filter hbits id h
      obtain ⟨hallocated, hcontains⟩ := IDSeenFilter.insert_spec hbits
      apply ih _ hallocated
      rw [List.map_cons, List.mem_cons, ← or_assoc] at h
      exact h.imp_left (hcontains id)
  refine List.all_eq_true.mpr fun id hid => hrun _ ?_ id (.inr hid)
  unfold newIDSeenFilter
  dsimp only
  split_ifs
  · exact nofun
  · cases hadded : IDSeenFilter.addLayer parameters admitted _ with
    | none => exact nofun
    | some added =>
      obtain ⟨layer, hlayer, hadded, -⟩ := IDSeenFilter.addLayer_spec hadded
      rw [Option.getD_some, IDSeenFilter.Allocated, hadded]
      exact List.forall_mem_cons.mpr ⟨hlayer, nofun⟩

end Vaultic.Daemon
