/-
  Recovery/Shamir.lean  —  Shamir's scheme over a field of 256 elements.

  A realisation of the interface of the `sharks` crate that has both of the properties the
  results on policies ask for: the bytes of a secret are shared one by one, the share at
  position `i` is the value at the point `i + 1`, and all coefficients are equally likely.
-/
import Vaultic.Lib.Shamir
import Vaultic.Recovery.UnlockPolicy

set_option autoImplicit false

namespace Vaultic.Recovery

open Vaultic.Lib Vaultic.Lib.Shamir

structure PointShare where
  x : UInt8
  y : List UInt8

section Field

variable {F : Type} [Field F] (byte : UInt8 ≃ F)

def pointOf (index : Fin 255) : UInt8 :=
  UInt8.ofNat (index.val + 1)

noncomputable def shareByte {k : Nat} (secret : UInt8) (coefficients : Fin k → F) (x : UInt8) :
    UInt8 :=
  byte.symm ((poly (byte secret) coefficients).eval (byte x))

noncomputable def recoverByte (shares : List PointShare) (i : Nat) : UInt8 :=
  byte.symm (interpolateAtZero (shares.map fun share => (byte share.x, byte (share.y.getD i 0))))

noncomputable def pointShare {k n : Nat} (secret : Secret n) (coins : Fin n → Fin k → F)
    (index : Fin 255) : PointShare :=
  { x := pointOf index
    y := List.ofFn fun i : Fin n => shareByte byte secret[i] (coins i) (pointOf index) }

noncomputable def recoverPoints (required : Nat) (shares : List PointShare) : Result Bytes :=
  match shares with
  | [] => .error "Not enough shares to recover original secret"
  | first :: _ =>
    if shares.length < required then .error "Not enough shares to recover original secret"
    else .ok (List.ofFn fun i : Fin first.y.length => recoverByte byte shares i)

def pointShareOfBytes : Bytes → Result PointShare
  | x :: y :: rest => .ok { x, y := y :: rest }
  | _ => .error "A Share must be at least 2 bytes long"

/-- Sharing over a field whose elements are the bytes. -/
noncomputable def fieldSharks : Sharks where
  Share := PointShare
  Coins required n := Fin n → Fin (required - 1) → F
  dealer _ _ secret coins index := pointShare byte secret coins index
  recover := recoverPoints byte
  toBytes share := share.x :: share.y
  ofBytes := pointShareOfBytes

theorem pointOf_injective : Function.Injective pointOf := by
  intro a b h
  have h := congrArg UInt8.toNat h
  simp only [pointOf, UInt8.toNat_ofNat'] at h
  omega

theorem pointOf_ne_zero (index : Fin 255) : pointOf index ≠ 0 := by
  intro h
  have h := congrArg UInt8.toNat h
  simp only [pointOf, UInt8.toNat_ofNat', UInt8.toNat_zero] at h
  omega

variable {k n : Nat} (secret : Secret n) (coins : Fin n → Fin k → F)

variable {picks : List (Fin 255)}

theorem recoverByte_dealt (hnodup : picks.Nodup) (hlength : picks.length = k + 1) (i : Fin n) :
    recoverByte byte (picks.map (pointShare byte secret coins)) i = secret[i] := by
  have hpoints : (picks.map (pointShare byte secret coins)).map
      (fun share => (byte share.x, byte (share.y.getD i 0))) =
      (picks.map fun index => byte (pointOf index)).map
        fun x => (x, (poly (byte secret[i]) (coins i)).eval x) := by
    rw [List.map_map, List.map_map]
    apply List.map_congr_left
    intro index _
    simp [pointShare, shareByte]
  rw [recoverByte, hpoints, interpolateAtZero_shares, Equiv.symm_apply_apply]
  · exact hnodup.map (byte.injective.comp pointOf_injective)
  · rw [List.length_map, hlength]

theorem recoverPoints_dealt (hnodup : picks.Nodup) (hlength : picks.length = k + 1) :
    recoverPoints byte (k + 1) (picks.map (pointShare byte secret coins)) =
      .ok secret.toList := by
  have hbytes := recoverByte_dealt byte secret coins hnodup hlength
  cases picks with
  | nil => cases hlength
  | cons pick rest =>
    rw [List.map_cons, recoverPoints, if_neg (by simp_all)]
    apply congrArg Except.ok
    apply List.ext_getElem
    · simp [pointShare]
    · intro i hi hi'
      rw [List.getElem_ofFn]
      exact hbytes ⟨i, by simpa using hi'⟩

theorem pointShareOfBytes_dealt (hn : 0 < n) (index : Fin 255) :
    pointShareOfBytes ((pointShare byte secret coins index).x ::
      (pointShare byte secret coins index).y) = .ok (pointShare byte secret coins index) := by
  obtain ⟨m, rfl⟩ := Nat.exists_eq_add_one_of_ne_zero hn.ne'
  simp only [pointShare, List.ofFn_succ, pointShareOfBytes]

theorem fieldSharks_lawful : (fieldSharks byte).Lawful where
  ofBytes_toBytes secret coins index hn := pointShareOfBytes_dealt byte secret coins hn index
  recover_dealt {required _} secret coins picks _ hrequired hnodup hlength := by
    have hsucc : required - 1 + 1 = required := Nat.sub_add_cancel hrequired
    have hdealt := recoverPoints_dealt byte secret coins hnodup (hlength.trans hsucc.symm)
    rwa [hsucc] at hdealt

/-- Where zero is the byte zero, no share is the secret itself. -/
theorem fieldSharks_hides (hzero : byte 0 = 0) : (fieldSharks byte).Hides := by
  intro required n secret secret' picks hfew
  classical
  let points := picks.image fun index => byte (pointOf index)
  have hpoints : (0 : F) ∉ points := by
    intro h
    obtain ⟨index, -, hindex⟩ := Finset.mem_image.mp h
    exact pointOf_ne_zero index (byte.injective (hindex.trans hzero.symm))
  have hcard : points.card ≤ required - 1 :=
    Finset.card_image_le.trans (Nat.le_sub_one_of_lt hfew)
  choose bijection hbijection using fun i : Fin n =>
    exists_translation hpoints hcard (byte secret[i]) (byte secret'[i])
  refine ⟨Equiv.piCongrRight bijection, fun coins index hindex => ?_⟩
  have hpoint : byte (pointOf index) ∈ points := Finset.mem_image_of_mem _ hindex
  apply congrArg (PointShare.mk (pointOf index))
  apply congrArg List.ofFn
  funext i
  exact congrArg byte.symm (hbijection i (coins i) _ hpoint)

end Field

/-! ## The field of 256 elements -/

def byteEquivFin : UInt8 ≃ Fin (2 ^ 8) where
  toFun := UInt8.toFin
  invFun := UInt8.ofFin
  left_inv _ := rfl
  right_inv _ := rfl

noncomputable def bytesEquivField : UInt8 ≃ GaloisField 2 8 :=
  byteEquivFin.trans
    (Finite.equivFinOfCardEq (GaloisField.card 2 8 (by decide))).symm

noncomputable def fieldByte : UInt8 ≃ GaloisField 2 8 :=
  bytesEquivField.trans (Equiv.subRight (bytesEquivField 0))

theorem fieldByte_zero : fieldByte 0 = 0 :=
  sub_self _

/-- Shamir's scheme on bytes. -/
noncomputable def shamirSharks : Sharks :=
  fieldSharks fieldByte

theorem shamirSharks_lawful : shamirSharks.Lawful :=
  fieldSharks_lawful fieldByte

theorem shamirSharks_hides : shamirSharks.Hides :=
  fieldSharks_hides fieldByte fieldByte_zero

end Vaultic.Recovery
