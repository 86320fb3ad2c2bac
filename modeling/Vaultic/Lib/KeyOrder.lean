/-
  Lib/KeyOrder.lean  —  byte strings in the order of what they encode.

  Byte strings are ordered lexicographically.  An encoding of fixed width keeps an order if
  it is injective and the order of its strings is the order of the encoded values
  (`OrderEncodes`).  Big-endian numbers do, a text in front changes nothing, and two
  encodings behind each other keep the lexicographic order of the pairs.  Of strings of
  variable length that do not hold the byte zero, one that ends with zero keeps the order
  (`terminated_lt_iff`).
-/
import Vaultic.Lib.Bytes

set_option autoImplicit false

namespace Vaultic.Lib

/-! ## Lexicographic order of concatenations -/

variable {left right rest rest' : List UInt8}

theorem append_lt_append_iff (hlength : left.length = right.length) :
    left ++ rest < right ++ rest' ↔ left < right ∨ left = right ∧ rest < rest' := by
  induction left generalizing right with
  | nil =>
    obtain rfl : right = [] := List.eq_nil_of_length_eq_zero hlength.symm
    simp
  | cons first left ih =>
    cases right with
    | nil => cases hlength
    | cons second right =>
      have hlength : left.length = right.length := Nat.succ.inj hlength
      rw [List.cons_append, List.cons_append, List.cons_lt_cons_iff, List.cons_lt_cons_iff,
        ih hlength, List.cons.injEq]
      tauto

/-- A common beginning does not matter. -/
theorem append_lt_append_left_iff (text : List UInt8) :
    text ++ rest < text ++ rest' ↔ rest < rest' := by
  rw [append_lt_append_iff rfl]
  simp

/-- Strings that end with their first zero byte are in the order of what stands before it. -/
theorem terminated_lt_iff (hleft : 0 ∉ left) (hright : 0 ∉ right) :
    left ++ 0 :: rest < right ++ 0 :: rest' ↔ left < right ∨ left = right ∧ rest < rest' := by
  induction left generalizing right with
  | nil =>
    cases right with
    | nil => simp
    | cons second right =>
      have hpos : (0 : UInt8) < second :=
        UInt8.pos_iff_ne_zero.mpr fun h => hright (h ▸ List.mem_cons_self)
      simp [List.cons_lt_cons_iff, hpos]
  | cons first left ih =>
    have hpos : first ≠ 0 := fun h => hleft (h ▸ List.mem_cons_self)
    cases right with
    | nil =>
      simp [List.cons_lt_cons_iff, hpos]
    | cons second right =>
      have ih := ih (fun h => hleft (.tail _ h))
        (fun h => hright (.tail _ h))
      rw [List.cons_append, List.cons_append, List.cons_lt_cons_iff, List.cons_lt_cons_iff,
        ih, List.cons.injEq]
      tauto

/-- The first zero byte is where such a string ends. -/
theorem terminated_inj (hleft : 0 ∉ left) (hright : 0 ∉ right) :
    left ++ 0 :: rest = right ++ 0 :: rest' ↔ left = right ∧ rest = rest' := by
  have htake : ∀ {front more : List UInt8}, 0 ∉ front →
      (front ++ 0 :: more).takeWhile (· != 0) = front := by
    intro front more hfront
    have hne : ∀ byte ∈ front, (byte != 0) = true := fun byte hbyte =>
      bne_iff_ne.mpr fun h => hfront (h ▸ hbyte)
    simp [List.takeWhile_append_of_pos hne]
  constructor
  · intro h
    obtain rfl : left = right := by rw [← htake hleft, h, htake hright]
    simpa using h
  · rintro ⟨rfl, rfl⟩
    rfl

/-! ## Big-endian numbers -/

theorem ofLE_append (left right : List UInt8) :
    ofLE (left ++ right) = ofLE left + 256 ^ left.length * ofLE right := by
  induction left with
  | nil => simp [ofLE]
  | cons byte rest ih =>
    rw [List.cons_append, ofLE, ofLE, ih, List.length_cons, pow_succ']
    ring

theorem ofBE_cons (byte : UInt8) (rest : List UInt8) :
    ofBE (byte :: rest) = 256 ^ rest.length * byte.toNat + ofBE rest := by
  rw [ofBE, List.reverse_cons, ofLE_append, List.length_reverse, ofBE]
  simp [ofLE, add_comm]

/-- The leading digit decides, and the rest if it is the same. -/
theorem digit_lt_iff {base digit digit' low low' : Nat} (hlow : low < base) (hlow' : low' < base) :
    digit < digit' ∨ digit = digit' ∧ low < low' ↔ base * digit + low < base * digit' + low' := by
  rcases Nat.lt_trichotomy digit digit' with h | rfl | h
  · have hstep : base * (digit + 1) ≤ base * digit' := Nat.mul_le_mul_left _ h
    rw [Nat.mul_succ] at hstep
    omega
  · omega
  · have hstep : base * (digit' + 1) ≤ base * digit := Nat.mul_le_mul_left _ h
    rw [Nat.mul_succ] at hstep
    omega

/-- Strings of one length are in the order of the numbers they are read as. -/
theorem lt_iff_ofBE_lt (hlength : left.length = right.length) :
    left < right ↔ ofBE left < ofBE right := by
  induction left generalizing right with
  | nil =>
    obtain rfl : right = [] := List.eq_nil_of_length_eq_zero hlength.symm
    simp
  | cons first left ih =>
    cases right with
    | nil => cases hlength
    | cons second right =>
      have hlength : left.length = right.length := Nat.succ.inj hlength
      have hleft := ofBE_lt left
      have hright := ofBE_lt right
      rw [List.cons_lt_cons_iff, ih hlength, ofBE_cons, ofBE_cons, hlength,
        UInt8.lt_iff_toNat_lt, ← UInt8.toNat_inj]
      rw [hlength] at hleft
      exact digit_lt_iff hleft hright

/-! ## Encodings that keep an order -/

/-- The strings have one length, and are in the order of what they encode. -/
structure OrderEncodes {α : Type} (encode : α → List UInt8) (lt : α → α → Prop) (width : Nat) :
    Prop where
  length : ∀ a, (encode a).length = width
  injective : Function.Injective encode
  lt_iff : ∀ a b, encode a < encode b ↔ lt a b

namespace OrderEncodes

variable {α β : Type} {encode : α → List UInt8} {encode' : β → List UInt8} {lt : α → α → Prop}
  {lt' : β → β → Prop} {width width' : Nat}

/-- Big-endian numbers. -/
theorem bigEndian {toNat : α → Nat} (hinjective : Function.Injective toNat)
    (hbound : ∀ a, toNat a < 256 ^ width) (hlt : ∀ a b, lt a b ↔ toNat a < toNat b) :
    OrderEncodes (fun a => beBytes width (toNat a)) lt width where
  length a := length_beBytes _ _
  injective a b h := by
    have hread := congrArg ofBE h
    rw [ofBE_beBytes_of_lt (hbound a), ofBE_beBytes_of_lt (hbound b)] at hread
    exact hinjective hread
  lt_iff a b := by
    rw [lt_iff_ofBE_lt (by rw [length_beBytes, length_beBytes]), ofBE_beBytes_of_lt (hbound a),
      ofBE_beBytes_of_lt (hbound b), hlt]

section

variable (h : OrderEncodes encode lt width)
include h

theorem append (h' : OrderEncodes encode' lt' width') :
    OrderEncodes (fun pair : α × β => encode pair.1 ++ encode' pair.2) (Prod.Lex lt lt')
      (width + width') where
  length pair := by rw [List.length_append, h.length, h'.length]
  injective left right heq := by
    obtain ⟨hfirst, hsecond⟩ := List.append_inj heq ((h.length _).trans (h.length _).symm)
    exact Prod.ext (h.injective hfirst) (h'.injective hsecond)
  lt_iff left right := by
    rw [append_lt_append_iff ((h.length _).trans (h.length _).symm), h.lt_iff, h'.lt_iff,
      Prod.lex_iff, h.injective.eq_iff]

/-- A text in front. -/
theorem text (text : List UInt8) :
    OrderEncodes (fun a => text ++ encode a) lt (text.length + width) where
  length a := by rw [List.length_append, h.length]
  injective _ _ heq := h.injective (List.append_cancel_left heq)
  lt_iff a b := (append_lt_append_left_iff text).trans (h.lt_iff a b)

/-- Other values of the same strings. -/
theorem comap {γ : Type} {value : γ → α} {lt' : γ → γ → Prop}
    (hinjective : Function.Injective value) (hlt : ∀ a b, lt (value a) (value b) ↔ lt' a b) :
    OrderEncodes (fun a => encode (value a)) lt' width where
  length _ := h.length _
  injective := h.injective.comp hinjective
  lt_iff a b := (h.lt_iff _ _).trans (hlt a b)

end

end OrderEncodes

end Vaultic.Lib
