/-
  Lib/Bytes.lean  —  numbers as byte strings of fixed width.

  `beBytes width n` and `leBytes width n` are the big-endian and little-endian strings
  of `n`, cut to `width` bytes.  Reading back gives the number modulo `256 ^ width`,
  and every string is the string of the number it is read as, so the two are inverse
  to each other on the numbers below the bound.
-/
import Mathlib

set_option autoImplicit false

namespace Vaultic.Lib

/-! ## Little-endian -/

def leBytes : Nat → Nat → List UInt8
  | 0, _ => []
  | width + 1, n => UInt8.ofNat n :: leBytes width (n / 256)

def ofLE : List UInt8 → Nat
  | [] => 0
  | byte :: rest => byte.toNat + 256 * ofLE rest

@[simp] theorem length_leBytes (width n : Nat) : (leBytes width n).length = width := by
  induction width generalizing n with
  | zero => rfl
  | succ width ih => rw [leBytes, List.length_cons, ih]

/-- Reading back loses what does not fit the width. -/
theorem ofLE_leBytes (width n : Nat) : ofLE (leBytes width n) = n % 256 ^ width := by
  induction width generalizing n with
  | zero => simp [leBytes, ofLE, Nat.mod_one]
  | succ width ih =>
    rw [leBytes, ofLE, ih, pow_succ', Nat.mod_mul]
    simp

theorem ofLE_lt (bytes : List UInt8) : ofLE bytes < 256 ^ bytes.length := by
  induction bytes with
  | nil => simp [ofLE]
  | cons byte rest ih =>
    have hbyte : byte.toNat < 256 := byte.toNat_lt
    rw [ofLE, List.length_cons, pow_succ']
    omega

/-- A string is that of the number it is read as. -/
theorem leBytes_ofLE (bytes : List UInt8) : leBytes bytes.length (ofLE bytes) = bytes := by
  induction bytes with
  | nil => rfl
  | cons byte rest ih =>
    have hbyte : byte.toNat < 256 := byte.toNat_lt
    have hdiv : (byte.toNat + 256 * ofLE rest) / 256 = ofLE rest := by omega
    have hmod : (byte.toNat + 256 * ofLE rest) % 256 = byte.toNat := by omega
    rw [List.length_cons, ofLE, leBytes, hdiv, ih]
    refine congrArg (· :: rest) (UInt8.toNat_inj.mp ?_)
    rw [UInt8.toNat_ofNat']
    exact hmod

theorem leBytes_inj {width n m : Nat} (hn : n < 256 ^ width) (hm : m < 256 ^ width)
    (h : leBytes width n = leBytes width m) : n = m := by
  have hread := congrArg ofLE h
  rwa [ofLE_leBytes, ofLE_leBytes, Nat.mod_eq_of_lt hn, Nat.mod_eq_of_lt hm] at hread

/-! ## Big-endian -/

def beBytes (width n : Nat) : List UInt8 := (leBytes width n).reverse

def ofBE (bytes : List UInt8) : Nat := ofLE bytes.reverse

@[simp] theorem length_beBytes (width n : Nat) : (beBytes width n).length = width := by
  simp [beBytes]

theorem ofBE_beBytes (width n : Nat) : ofBE (beBytes width n) = n % 256 ^ width := by
  rw [ofBE, beBytes, List.reverse_reverse, ofLE_leBytes]

theorem ofBE_lt (bytes : List UInt8) : ofBE bytes < 256 ^ bytes.length := by
  simpa [ofBE] using ofLE_lt bytes.reverse

theorem ofBE_lt_of_length {width : Nat} {bytes : List UInt8} (h : bytes.length = width) :
    ofBE bytes < 256 ^ width := by
  rw [← h]
  exact ofBE_lt bytes

theorem beBytes_ofBE (bytes : List UInt8) : beBytes bytes.length (ofBE bytes) = bytes := by
  have h := leBytes_ofLE bytes.reverse
  rw [List.length_reverse] at h
  rw [beBytes, ofBE, h, List.reverse_reverse]

theorem ofBE_beBytes_of_lt {width n : Nat} (h : n < 256 ^ width) : ofBE (beBytes width n) = n := by
  rw [ofBE_beBytes, Nat.mod_eq_of_lt h]

theorem beBytes_ofBE_of_length {width : Nat} {bytes : List UInt8} (h : bytes.length = width) :
    beBytes width (ofBE bytes) = bytes := by
  rw [← h, beBytes_ofBE]

/-! ## Concatenations -/

/-- Items of one positive width are told apart in their concatenation. -/
theorem flatMap_inj {α : Type} {encode : α → List UInt8} {width : Nat} (hpos : 0 < width)
    (hlength : ∀ x, (encode x).length = width) (hinj : Function.Injective encode)
    {xs ys : List α} (h : xs.flatMap encode = ys.flatMap encode) : xs = ys := by
  have hne : ∀ z zs, [] ≠ List.flatMap encode (z :: zs) := by
    intro z zs hempty
    have hzero := congrArg List.length hempty
    rw [List.flatMap_cons, List.length_append, hlength, List.length_nil] at hzero
    omega
  induction xs generalizing ys with
  | nil =>
    cases ys with
    | nil => rfl
    | cons y ys => exact absurd h (hne y ys)
  | cons x xs ih =>
    cases ys with
    | nil => exact absurd h.symm (hne x xs)
    | cons y ys =>
      rw [List.flatMap_cons, List.flatMap_cons] at h
      obtain ⟨hhead, htail⟩ := List.append_inj h ((hlength x).trans (hlength y).symm)
      rw [hinj hhead, ih htail]

/-! ## Bit arrays -/

/-- Bit `bit` of an array of bytes. -/
def getBit (bits : List UInt8) (bit : Nat) : Bool :=
  bits.getD (bit / 8) 0 &&& (1 <<< UInt8.ofNat (bit % 8)) != 0

/-- Set bit `bit` of an array of bytes. -/
def setBit (bits : List UInt8) (bit : Nat) : List UInt8 :=
  bits.modify (bit / 8) (· ||| (1 <<< UInt8.ofNat (bit % 8)))

theorem length_foldl_setBit (set : List Nat) (bits : List UInt8) :
    (set.foldl setBit bits).length = bits.length := by
  induction set generalizing bits with
  | nil => rfl
  | cons first rest ih => rw [List.foldl_cons, ih, setBit, List.length_modify]

theorem uint8_or_and (byte mask other : UInt8) :
    (byte ||| mask) &&& other = (byte &&& other) ||| (mask &&& other) := by
  rw [← UInt8.toBitVec_inj]
  exact BitVec.and_or_distrib_right

variable {bits : List UInt8}

theorem getBit_setBit {bit other : Nat} (h : getBit bits other = true) :
    getBit (setBit bits bit) other = true := by
  simp only [getBit, setBit, List.getD_eq_getElem?_getD, List.getElem?_modify, bne_iff_ne] at h ⊢
  by_cases hbyte : bit / 8 = other / 8
  · cases hget : bits[other / 8]? with
    | none => simp [hget] at h
    | some byte =>
      rw [hget] at h
      simp only [hbyte, if_true, Option.map_eq_map, Option.map_some, Option.getD_some,
        uint8_or_and, ne_eq, UInt8.or_eq_zero_iff, not_and_or]
      exact .inl h
  · simpa [hbyte] using h

theorem getBit_setBit_self {bit : Nat} (h : bit < bits.length * 8) :
    getBit (setBit bits bit) bit = true := by
  have hmask : (1 <<< UInt8.ofNat (bit % 8) : UInt8) ≠ 0 := by
    have hlt := Nat.mod_lt bit (Nat.zero_lt_succ 7)
    interval_cases bit % 8 <;> decide
  have hbyte : bit / 8 < bits.length := by omega
  simp only [getBit, setBit, List.getD_eq_getElem?_getD, List.getElem?_modify, if_true,
    List.getElem?_eq_getElem hbyte, Option.map_eq_map, Option.map_some, Option.getD_some,
    uint8_or_and, UInt8.and_self, bne_iff_ne, ne_eq, UInt8.or_eq_zero_iff, not_and_or]
  exact .inr hmask

/-- Setting bits keeps the bits that are set, and sets those of the list. -/
theorem getBit_foldl_setBit {set : List Nat} {bit : Nat}
    (h : getBit bits bit = true ∨ bit ∈ set ∧ bit < bits.length * 8) :
    getBit (set.foldl setBit bits) bit = true := by
  induction set generalizing bits with
  | nil => exact h.resolve_right fun hmem => nomatch hmem.1
  | cons first rest ih =>
    apply ih
    rcases h with hbit | ⟨hmem, hlt⟩
    · exact .inl (getBit_setBit hbit)
    · rcases List.mem_cons.mp hmem with rfl | hmem
      · exact .inl (getBit_setBit_self hlt)
      · exact .inr ⟨hmem, by rwa [setBit, List.length_modify]⟩

end Vaultic.Lib
