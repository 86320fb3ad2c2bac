/-
  Repository/Prune/IndexFiles.lean  —  the rewriting of index files in a prune.

  `World` says of a rewrite which files it replaces and which entries it copies.  The
  rewriter itself (`IndexRewrite`) works on files, groups and their hashes.  With the files
  that it keeps as the choice left open in `World`, both replace the same files and leave
  the same entries.
-/
import Vaultic.Repository.IndexRewrite
import Vaultic.Repository.Prune.World

set_option autoImplicit false

namespace Vaultic.Repository.Prune

open Vaultic.Lib
open Vaultic.Schema (ID)
open IndexFile IndexRewrite

section

variable {Digest : Type} [DecidableEq Digest] {host : Host Digest} {plan : PrunePlan}
  {arrivals : List (Arrival (doomed plan))} {world : World} (view : Entry → IndexedBlob)

/-- The files that arrive are files of the repository, with the entries they have there. -/
def Loaded (world : World) (arrivals : List (Arrival (doomed plan))) : Prop :=
  ∀ arrival ∈ arrivals, contents world.indexes arrival.id = (entries arrival.packs).map view

/-- The files that a rewrite keeps, as the prune chooses them. -/
def keptBy (result : Rewritten (doomed plan)) (file : ID) : Bool :=
  decide (file ∈ result.kept.map (·.id))

/-- A rewrite replaces the files that the prune takes for obsolete, and what it keeps and
saves is what the prune leaves in the other files and copies. -/
theorem rewrite_refines (hview : ∀ entry, (view entry).packID = entry.pack)
    (hloaded : Loaded view world arrivals) (hids : (arrivals.map (·.id)).Nodup)
    (hinj : Set.InjOn host.sha256 (hashedInputs host arrivals)) (hdoomed : doomed plan ≠ ∅)
    {result : Rewritten (doomed plan)} (h : rewrite host ∅ arrivals = .ok result) :
    obsoleteIndexes (keptBy result) plan (arrivals.map (·.id)) world = result.obsolete ∧
      ∀ blob, ((∃ arrival ∈ arrivals, arrival.id ∉ result.obsolete ∧
            blob ∈ contents world.indexes arrival.id) ∨
          blob ∈ copiedEntries (keptBy result) plan (arrivals.map (·.id)) world) ↔
        ∃ entry, view entry = blob ∧ ((∃ arrival ∈ result.kept, entry ∈ entries arrival.packs) ∨
          ∃ packs ∈ result.saved, entry ∈ entries packs) := by
  obtain ⟨hentries, hkept, hobsolete⟩ := rewrite_spec hids hinj h
  rw [Finset.empty_union] at hobsolete
  -- A file that is kept lists no pack that goes.
  have hclean : ∀ file ∈ result.kept.map (·.id), ∀ blob ∈ contents world.indexes file,
      blob.packID ∉ doomed plan := by
    intro file hfile blob hblob
    obtain ⟨arrival, harrival, rfl⟩ := List.mem_map.mp hfile
    rw [hloaded arrival (hkept.subset harrival)] at hblob
    obtain ⟨entry, hentry, rfl⟩ := List.mem_map.mp hblob
    obtain ⟨-, -, -, hstays⟩ := (hentries entry).mp (.inl ⟨arrival, harrival, hentry⟩)
    rwa [hview]
  have hsame : obsoleteIndexes (keptBy result) plan (arrivals.map (·.id)) world =
      result.obsolete := by
    rw [obsoleteIndexes, if_neg hdoomed, hobsolete]
    ext file
    have hkeep : Prune.keepCurrentIndex (keptBy result) (doomed plan) world.indexes file =
        keptBy result file := by
      cases hfile : keptBy result file with
      | false => simp [Prune.keepCurrentIndex, hfile]
      | true => simpa [Prune.keepCurrentIndex, hfile] using hclean file (of_decide_eq_true hfile)
    simp [hkeep, keptBy]
  refine ⟨hsame, fun blob => ?_⟩
  have hretained : (∃ entry, view entry = blob ∧ entry ∈ retained arrivals) ↔
      ∃ arrival ∈ arrivals, blob ∈ contents world.indexes arrival.id ∧
        blob.packID ∉ doomed plan := by
    constructor
    · rintro ⟨entry, rfl, arrival, harrival, hentry, hstays⟩
      refine ⟨arrival, harrival, ?_, by rwa [hview]⟩
      rw [hloaded arrival harrival]
      exact List.mem_map_of_mem hentry
    · rintro ⟨arrival, harrival, hblob, hstays⟩
      rw [hloaded arrival harrival] at hblob
      obtain ⟨entry, hentry, rfl⟩ := List.mem_map.mp hblob
      exact ⟨entry, rfl, arrival, harrival, hentry, by rwa [hview] at hstays⟩
  simp only [hentries, hretained, copiedEntries, hsame, List.mem_filter, List.mem_flatMap,
    List.mem_map, decide_eq_true_eq]
  constructor
  · rintro (⟨arrival, harrival, hstays, hblob⟩ |
      ⟨⟨_, ⟨⟨arrival, harrival, rfl⟩, -⟩, hblob⟩, hstays⟩)
    · have hfile : arrival.id ∈ result.kept.map (·.id) := by
        simpa [hobsolete, List.mem_map_of_mem harrival] using hstays
      exact ⟨arrival, harrival, hblob, hclean _ hfile blob hblob⟩
    · exact ⟨arrival, harrival, hblob, hstays⟩
  · rintro ⟨arrival, harrival, hblob, hstays⟩
    by_cases hfile : arrival.id ∈ result.obsolete
    · exact .inr ⟨⟨_, ⟨⟨arrival, harrival, rfl⟩, hfile⟩, hblob⟩, hstays⟩
    · exact .inl ⟨arrival, harrival, hfile, hblob⟩

end

end Vaultic.Repository.Prune
