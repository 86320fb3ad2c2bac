/-
  Daemon/BlobMerge.lean  —  the algebra of merging blob records.

  Source: internal/index/daemon/schema_store_import.go.

  The nested search keeps the first location at a place, and the sort compares
  the fields in another order.  Neither shows in the result: a record is read as
  the largest uncompressed size at each place, merging takes maxima of what is
  read, and a canonical record is determined by it.
-/
import Vaultic.Daemon.Packs

set_option autoImplicit false

namespace Vaultic.Daemon

open Vaultic.Lib Vaultic.Schema

/-- What two locations of one stored blob have in common. -/
def place (location : BlobLocation) : ID × ℕ × ℕ × BlobType :=
  (location.packID, location.offset, location.length, location.type)

/-- The largest uncompressed size seen at a place. -/
def sizeAt (spot : ID × ℕ × ℕ × BlobType) (locations : List BlobLocation) : WithBot ℕ :=
  locations.toFinset.sup fun location =>
    if place location = spot then location.uncompressedSize else ⊥

variable {spot : ID × ℕ × ℕ × BlobType} {location candidate : BlobLocation}
  {locations : List BlobLocation}

theorem samePhysicalLocation_iff_place {left right : BlobLocation} :
    samePhysicalLocation left right = true ↔ place left = place right := by
  simp [samePhysicalLocation, place, and_assoc]

theorem sizeAt_append (left right : List BlobLocation) :
    sizeAt spot (left ++ right) = max (sizeAt spot left) (sizeAt spot right) := by
  rw [sizeAt, List.toFinset_append, Finset.sup_union]
  rfl

theorem sizeAt_cons :
    sizeAt spot (location :: locations) =
      max (if place location = spot then location.uncompressedSize else ⊥ : WithBot ℕ)
        (sizeAt spot locations) := by
  rw [sizeAt, List.toFinset_cons, Finset.sup_insert]
  rfl

theorem sizeAt_eq_bot : sizeAt spot locations = ⊥ ↔ spot ∉ locations.map place := by
  simp [sizeAt, Finset.sup_eq_bot_iff]

/-- The place and the size are the whole location: a location has the size read
at its place exactly if it is listed and no other there is larger. -/
theorem sizeAt_eq_self :
    sizeAt (place location) locations = location.uncompressedSize ↔
      location ∈ locations ∧ ∀ other ∈ locations, place other = place location →
        other.uncompressedSize ≤ location.uncompressedSize := by
  have hbound : sizeAt (place location) locations ≤ location.uncompressedSize ↔
      ∀ other ∈ locations, place other = place location →
        other.uncompressedSize ≤ location.uncompressedSize := by
    simp only [sizeAt, Finset.sup_le_iff, List.mem_toFinset]
    refine forall₂_congr fun other _ => ?_
    split_ifs with hplace <;> simp [hplace]
  rw [← hbound]
  constructor
  · intro hsize
    refine ⟨by_contra fun hmem => hsize.not_lt ?_, hsize.le⟩
    refine (Finset.sup_lt_iff (WithBot.bot_lt_coe _)).mpr fun other hother => ?_
    rw [List.mem_toFinset] at hother
    split_ifs with hplace
    · have hne : other.uncompressedSize ≠ location.uncompressedSize := by
        intro heq
        have : other = location := by cases other; cases location; simp_all [place]
        exact hmem (this ▸ hother)
      exact WithBot.coe_lt_coe.mpr (lt_of_le_of_ne (hbound.mp hsize.le other hother hplace) hne)
    · exact WithBot.bot_lt_coe _
  · intro ⟨hmem, hle⟩
    refine le_antisymm hle (le_trans ?_ (Finset.le_sup (List.mem_toFinset.mpr hmem)))
    rw [if_pos rfl]

/-! ## Merging takes maxima -/

theorem sizeAt_mergeLocation :
    sizeAt spot (mergeLocation candidate locations) =
      max (sizeAt spot locations) (sizeAt spot [candidate]) := by
  induction locations with
  | nil => exact (max_bot_left _).symm
  | cons location rest ih =>
    unfold mergeLocation
    split
    · rename_i hsame
      have hplace := samePhysicalLocation_iff_place.mp hsame
      rw [sizeAt_cons, sizeAt_cons, sizeAt_cons, max_right_comm, ← hplace]
      change max (if place location = spot then _ else ⊥) _ = _
      split_ifs
      · rw [max_assoc, max_comm _ (sizeAt spot []), ← max_assoc, ← max_assoc]
        rfl
      · rfl
    · rw [sizeAt_cons, sizeAt_cons, ih, max_assoc]

theorem nodup_mergeLocation (h : (locations.map place).Nodup) :
    ((mergeLocation candidate locations).map place).Nodup := by
  induction locations with
  | nil => exact List.nodup_singleton _
  | cons location rest ih =>
    obtain ⟨hhead, hrest⟩ := List.nodup_cons.mp h
    unfold mergeLocation
    split
    · exact h
    · rename_i hother
      refine List.nodup_cons.mpr ⟨?_, ih hrest⟩
      rw [← sizeAt_eq_bot, sizeAt_mergeLocation, sizeAt_eq_bot.mpr hhead, max_bot_left,
        sizeAt_eq_bot]
      simpa [samePhysicalLocation_iff_place] using hother

theorem mem_iff_of_nodup (h : (locations.map place).Nodup) :
    location ∈ locations ↔ sizeAt (place location) locations = location.uncompressedSize := by
  refine ⟨fun hmem => sizeAt_eq_self.mpr ⟨hmem, fun other hother hplace => ?_⟩,
    fun hsize => (sizeAt_eq_self.mp hsize).1⟩
  rw [List.inj_on_of_nodup_map h hother hmem hplace]

theorem mergeAll_spec (candidates locations : List BlobLocation) :
    (∀ spot, sizeAt spot
        (candidates.foldl (fun acc candidate => mergeLocation candidate acc) locations) =
      max (sizeAt spot locations) (sizeAt spot candidates)) ∧
    ((locations.map place).Nodup → ((candidates.foldl
      (fun acc candidate => mergeLocation candidate acc) locations).map place).Nodup) := by
  induction candidates generalizing locations with
  | nil => exact ⟨fun spot => (max_bot_right _).symm, id⟩
  | cons candidate rest ih =>
    obtain ⟨hsize, hnodup⟩ := ih (mergeLocation candidate locations)
    refine ⟨fun spot => ?_, fun h => hnodup (nodup_mergeLocation h)⟩
    rw [List.foldl_cons, hsize, sizeAt_mergeLocation, max_assoc, ← sizeAt_append]
    rfl

/-! ## Canonical records -/

/-- The fields in the order in which the sort compares them. -/
def sortKey (location : BlobLocation) : ℕ ×ₗ ℕ ×ₗ ℕ ×ₗ ℕ ×ₗ ℕ :=
  toLex (location.packID.toNat, toLex (location.type.code, toLex (location.offset,
    toLex (location.length, location.uncompressedSize))))

theorem locationLE_iff {left right : BlobLocation} :
    locationLE left right = true ↔ sortKey left ≤ sortKey right := by
  have hcode : left.type = right.type ↔ left.type.code = right.type.code := by
    cases left.type <;> cases right.type <;> decide
  unfold locationLE
  simp only [sortKey, Prod.Lex.toLex_le_toLex, ne_eq, ite_not, ← BitVec.toNat_inj, hcode,
    BitVec.lt_def]
  split_ifs <;> simp <;> omega

theorem sortKey_injective : Function.Injective sortKey := by
  intro left right h
  obtain ⟨_, _, _, _, leftType⟩ := left
  obtain ⟨_, _, _, _, rightType⟩ := right
  cases leftType <;> cases rightType <;>
    simp_all [sortKey, BlobType.code, BitVec.toNat_inj]

theorem canonicalBlobRecord_spec (record : BlobRecord) :
    (∀ spot, sizeAt spot (canonicalBlobRecord record).locations =
      sizeAt spot record.locations) ∧
    ((canonicalBlobRecord record).locations.map place).Nodup := by
  obtain ⟨hsize, hnodup⟩ := mergeAll_spec record.locations []
  have hperm := List.perm_insertionSort (fun left right => locationLE left right = true)
    (record.locations.foldl (fun acc candidate => mergeLocation candidate acc) [])
  refine ⟨fun spot => ?_, (hperm.map place).nodup_iff.mpr (hnodup List.nodup_nil)⟩
  rw [canonicalBlobRecord, sizeAt, List.toFinset_eq_of_perm _ _ hperm]
  exact (hsize spot).trans (max_bot_left _)

theorem place_mem_canonicalBlobRecord {record : BlobRecord} :
    spot ∈ (canonicalBlobRecord record).locations.map place ↔
      spot ∈ record.locations.map place := by
  rw [← not_iff_not, ← sizeAt_eq_bot, ← sizeAt_eq_bot, (canonicalBlobRecord_spec _).1]

/-- The sizes at every place determine the canonical record. -/
theorem canonicalBlobRecord_congr {left right : BlobRecord}
    (h : ∀ spot, sizeAt spot left.locations = sizeAt spot right.locations) :
    canonicalBlobRecord left = canonicalBlobRecord right := by
  obtain ⟨hleft, hleftNodup⟩ := canonicalBlobRecord_spec left
  obtain ⟨hright, hrightNodup⟩ := canonicalBlobRecord_spec right
  have hperm : (canonicalBlobRecord left).locations.Perm (canonicalBlobRecord right).locations := by
    rw [List.perm_ext_iff_of_nodup hleftNodup.of_map hrightNodup.of_map]
    intro location
    rw [mem_iff_of_nodup hleftNodup, mem_iff_of_nodup hrightNodup, hleft, hright, h]
  have hsorted : ∀ record, (canonicalBlobRecord record).locations.Pairwise
      fun left right => locationLE left right = true := by
    intro record
    have : Std.Total fun left right => locationLE left right = true :=
      ⟨fun left right => by simpa only [locationLE_iff] using le_total _ _⟩
    have : IsTrans BlobLocation fun left right => locationLE left right = true :=
      ⟨fun left middle right => by simpa only [locationLE_iff] using le_trans⟩
    exact List.pairwise_insertionSort _ _
  have hlocations := hperm.eq_of_pairwise (fun left right _ _ hle hge => sortKey_injective
    (le_antisymm (locationLE_iff.mp hle) (locationLE_iff.mp hge))) (hsorted left) (hsorted right)
  calc canonicalBlobRecord left = ⟨(canonicalBlobRecord left).locations⟩ := rfl
    _ = canonicalBlobRecord right := by rw [hlocations]

theorem sizeAt_mergeBlobRecords (existing incoming : BlobRecord) :
    sizeAt spot (mergeBlobRecords existing incoming).locations =
      max (sizeAt spot existing.locations) (sizeAt spot incoming.locations) := by
  rw [mergeBlobRecords, (canonicalBlobRecord_spec _).1, (mergeAll_spec _ _).1]

theorem place_mem_mergeBlobRecords {existing incoming : BlobRecord} :
    spot ∈ (mergeBlobRecords existing incoming).locations.map place ↔
      spot ∈ existing.locations.map place ∨ spot ∈ incoming.locations.map place := by
  rw [← not_iff_not, not_or, ← sizeAt_eq_bot, ← sizeAt_eq_bot, ← sizeAt_eq_bot,
    sizeAt_mergeBlobRecords, max_eq_bot]

/-- Merging blob records is a semilattice operation on canonical records, and
the merge of two records holds one location for each place of either, with the
largest uncompressed size seen there. -/
theorem mergeBlobRecords_semilattice (left middle right : BlobRecord) :
    mergeBlobRecords left right = mergeBlobRecords right left ∧
    mergeBlobRecords (mergeBlobRecords left middle) right =
      mergeBlobRecords left (mergeBlobRecords middle right) ∧
    mergeBlobRecords left left = canonicalBlobRecord left ∧
    canonicalBlobRecord (canonicalBlobRecord left) = canonicalBlobRecord left ∧
    ((mergeBlobRecords left right).locations.map place).Nodup ∧
    (∀ spot, spot ∈ (mergeBlobRecords left right).locations.map place ↔
      spot ∈ left.locations.map place ∨ spot ∈ right.locations.map place) ∧
    ∀ location, location ∈ (mergeBlobRecords left right).locations ↔
      location ∈ left.locations ++ right.locations ∧
        ∀ other ∈ left.locations ++ right.locations, place other = place location →
          other.uncompressedSize ≤ location.uncompressedSize := by
  have hnodup : ((mergeBlobRecords left right).locations.map place).Nodup :=
    (canonicalBlobRecord_spec _).2
  refine ⟨canonicalBlobRecord_congr fun spot => ?_, canonicalBlobRecord_congr fun spot => ?_,
    canonicalBlobRecord_congr fun spot => ?_,
    canonicalBlobRecord_congr (canonicalBlobRecord_spec left).1, hnodup,
    fun spot => place_mem_mergeBlobRecords, fun location => ?_⟩
  · rw [(mergeAll_spec _ _).1, (mergeAll_spec _ _).1, max_comm]
  · rw [(mergeAll_spec _ _).1, (mergeAll_spec _ _).1, sizeAt_mergeBlobRecords,
      sizeAt_mergeBlobRecords, max_assoc]
  · rw [(mergeAll_spec _ _).1, max_self]
  · rw [mem_iff_of_nodup hnodup, sizeAt_mergeBlobRecords, ← sizeAt_append, sizeAt_eq_self]

end Vaultic.Daemon
