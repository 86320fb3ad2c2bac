/-
  Wire/Codec.lean  —  the encoder and decoder of `internal/index/schema/codec.go`.

  Every stored value is one version byte followed by its fields: fixed-width big-endian
  integers, 32-byte identifiers, and byte strings behind a four-byte length.  The
  encoder refuses a field or a value above 15 MiB; the decoder refuses the same, an
  unknown version, a truncated field and bytes behind the last field.

  Go's fixed-width integers are Lean's; a Go string is its bytes; a Go enumeration is,
  as there, a byte with named values, because the encoders' range checks are about the
  bytes that have no name.  Named values, range checks, `marshalBinary` and `unmarshal…`
  have their names from the source.
-/
import Vaultic.Lib.Codec
import Vaultic.Lib.Result
import Vaultic.Schema.Keys

set_option autoImplicit false

namespace Vaultic.Wire

open Vaultic.Lib
open Vaultic.Schema (ID)

def version : UInt8 := 0

def maxEncodedValueBytes : Nat := 15 * 1024 * 1024

def maxFieldBytes : Nat := maxEncodedValueBytes

/-- The text of an error that wraps `ErrMalformed`. -/
def malformed (text : String) : String := "malformed slatedb schema record: " ++ text

/-- The bytes of a string of ASCII characters. -/
def ascii (text : String) : Bytes := text.toList.map fun c => UInt8.ofNat c.toNat

/-- `strings.TrimPrefix` with a prefix of one byte. -/
def trimPrefix (separator : UInt8) (path : Bytes) : Bytes :=
  if path.head? = some separator then path.drop 1 else path

/-- The error of a failed check. -/
def rejected (bad : Bool) (text : String) : Result Unit :=
  if bad then .error (malformed text) else .ok ()

variable {bad : Bool}

theorem rejected_eq_ok {text : String} : rejected bad text = .ok () ↔ bad = false := by
  cases bad <;> simp [rejected]

/-- What one check passes, the same check with another text passes. -/
theorem rejected_retext {text text' : String} (h : rejected bad text = .ok ()) :
    rejected bad text' = .ok () :=
  rejected_eq_ok.mpr (rejected_eq_ok.mp h)

/-- Stop with an error if `bad`. -/
def reject (bad : Bool) (text : String) : StateT Bytes (Result) Unit :=
  check (rejected bad text)

theorem reject_run_eq_ok {text : String} {bytes left : Bytes} {value : Unit}
    (h : (reject bad text).run bytes = .ok (value, left)) : bad = false :=
  rejected_eq_ok.mp (check_run_eq_ok h)

/-! ## Fields -/

def be16 (value : UInt16) : Bytes := beBytes 2 value.toNat

def be32 (value : UInt32) : Bytes := beBytes 4 value.toNat

def be64 (value : UInt64) : Bytes := beBytes 8 value.toNat

def idBytes (id : ID) : Bytes := beBytes 32 id.toNat

def uint16 (bytes : Bytes) : UInt16 := UInt16.ofNat (ofBE bytes)

def uint32 (bytes : Bytes) : UInt32 := UInt32.ofNat (ofBE bytes)

def uint64 (bytes : Bytes) : UInt64 := UInt64.ofNat (ofBE bytes)

def idOf (bytes : Bytes) : ID := BitVec.ofNat 256 (ofBE bytes)

@[simp] theorem length_be16 (value : UInt16) : (be16 value).length = 2 := length_beBytes _ _

@[simp] theorem length_be32 (value : UInt32) : (be32 value).length = 4 := length_beBytes _ _

@[simp] theorem length_be64 (value : UInt64) : (be64 value).length = 8 := length_beBytes _ _

@[simp] theorem length_idBytes (id : ID) : (idBytes id).length = 32 := length_beBytes _ _

@[simp] theorem uint16_be16 (value : UInt16) : uint16 (be16 value) = value := by
  rw [uint16, be16, ofBE_beBytes_of_lt value.toNat_lt, UInt16.ofNat_toNat]

@[simp] theorem uint32_be32 (value : UInt32) : uint32 (be32 value) = value := by
  rw [uint32, be32, ofBE_beBytes_of_lt value.toNat_lt, UInt32.ofNat_toNat]

@[simp] theorem uint64_be64 (value : UInt64) : uint64 (be64 value) = value := by
  rw [uint64, be64, ofBE_beBytes_of_lt value.toNat_lt, UInt64.ofNat_toNat]

@[simp] theorem idOf_idBytes (id : ID) : idOf (idBytes id) = id := by
  rw [idOf, idBytes, ofBE_beBytes_of_lt id.isLt, BitVec.ofNat_toNat, BitVec.setWidth_eq]

theorem be16_uint16 {bytes : Bytes} (h : bytes.length = 2) : be16 (uint16 bytes) = bytes := by
  have hlt : ofBE bytes < 2 ^ 16 := ofBE_lt_of_length h
  rw [be16, uint16, UInt16.toNat_ofNat', Nat.mod_eq_of_lt hlt, beBytes_ofBE_of_length h]

theorem be32_uint32 {bytes : Bytes} (h : bytes.length = 4) : be32 (uint32 bytes) = bytes := by
  have hlt : ofBE bytes < 2 ^ 32 := ofBE_lt_of_length h
  rw [be32, uint32, UInt32.toNat_ofNat', Nat.mod_eq_of_lt hlt, beBytes_ofBE_of_length h]

theorem be64_uint64 {bytes : Bytes} (h : bytes.length = 8) : be64 (uint64 bytes) = bytes := by
  have hlt : ofBE bytes < 2 ^ 64 := ofBE_lt_of_length h
  rw [be64, uint64, UInt64.toNat_ofNat', Nat.mod_eq_of_lt hlt, beBytes_ofBE_of_length h]

theorem idBytes_idOf {bytes : Bytes} (h : bytes.length = 32) : idBytes (idOf bytes) = bytes := by
  have hlt : ofBE bytes < 2 ^ 256 := ofBE_lt_of_length h
  rw [idBytes, idOf, BitVec.toNat_ofNat, Nat.mod_eq_of_lt hlt, beBytes_ofBE_of_length h]

/-! ## The encoder -/

namespace Put

def raw (bytes : Bytes) : Encoder := fun data => .ok ((), data ++ bytes)

def u8 (value : UInt8) : Encoder := raw [value]

def bool (value : Bool) : Encoder := u8 (if value then 1 else 0)

def u16 (value : UInt16) : Encoder := raw (be16 value)

def u32 (value : UInt32) : Encoder := raw (be32 value)

def u64 (value : UInt64) : Encoder := raw (be64 value)

def i64 (value : Int64) : Encoder := u64 value.toUInt64

def id (value : ID) : Encoder := raw (idBytes value)

def bytes (value : Bytes) : Encoder := do
  reject (value.length > maxFieldBytes) "field is too large"
  u32 (UInt32.ofNat value.length)
  raw value

def string (value : Bytes) : Encoder := bytes value

end Put

/-- `newEncoder`, the fields, `finish`. -/
def encoded (write : Encoder) : Result Bytes := do
  let (_, data) ← write.run [version]
  rejected (data.length > maxEncodedValueBytes) "encoded value is too large"
  pure data

/-! ## The decoder -/

namespace Get

def take (size : Nat) : Decoder Bytes := fun data =>
  if data.length < size then .error (malformed "truncated value")
  else .ok (data.take size, data.drop size)

def u8 : Decoder UInt8 := do
  let value ← take 1
  pure (value.headD 0)

def bool : Decoder Bool := do
  let value ← u8
  reject (value > 1) "invalid boolean"
  pure (value == 1)

def u16 : Decoder UInt16 := do
  let value ← take 2
  pure (uint16 value)

def u32 : Decoder UInt32 := do
  let value ← take 4
  pure (uint32 value)

def u64 : Decoder UInt64 := do
  let value ← take 8
  pure (uint64 value)

def i64 : Decoder Int64 := do
  let value ← u64
  pure value.toInt64

def id : Decoder ID := do
  let value ← take 32
  pure (idOf value)

def bytes : Decoder Bytes := do
  let size ← u32
  reject (size.toNat > maxFieldBytes) "field is too large"
  take size.toNat

def string : Decoder Bytes := bytes

def done : Decoder Unit := fun data =>
  if data.isEmpty then .ok ((), data) else .error (malformed "trailing data")

end Get

/-- `newDecoder`, then the fields, where the reader is told the length of the whole value. -/
def decodedSized {α : Type} (read : Nat → Decoder α) (data : Bytes) : Result α := do
  rejected (data.isEmpty || data.length > maxEncodedValueBytes || data.head? != some version)
    "unsupported or missing schema version"
  let (value, _) ← (read data.length).run (data.drop 1)
  pure value

/-- `newDecoder`, then the fields. -/
def decoded {α : Type} (read : Decoder α) : Bytes → Result α := decodedSized fun _ => read

/-- `newDecoder`, the fields, and the checks of the record that was read. -/
def decodedChecked {α : Type} (validate : α → Result Unit) (read : Decoder α)
    (data : Bytes) : Result α := do
  let record ← decoded read data
  validate record
  pure record

theorem take_append {bytes rest : Bytes} {size : Nat} (h : bytes.length = size) :
    (Get.take size).run (bytes ++ rest) = .ok (bytes, rest) := by
  have hlength : ¬(bytes ++ rest).length < size := by
    rw [List.length_append]
    omega
  change (if (bytes ++ rest).length < size then _ else _) = _
  rw [if_neg hlength, List.take_left' h, List.drop_left' h]

/-! ## Reading back what was written -/

end Vaultic.Wire

namespace Vaultic.Lib.RoundTrips

open Vaultic.Wire
open Vaultic.Schema (ID)

variable {rest : Bytes}

theorem take {bytes : Bytes} {size : Nat} (hlength : bytes.length = size) :
    RoundTrips rest (Put.raw bytes) (Get.take size) bytes := by
  intro before written h
  cases h
  exact ⟨bytes, rfl, take_append hlength⟩

/-- A field of fixed size. -/
theorem put {α : Type} {bytes : Bytes} {value : α} (read : Bytes → α) {size : Nat}
    (hlength : bytes.length = size) (hread : read bytes = value) :
    RoundTrips rest (Put.raw bytes) (do
      let taken ← Get.take size
      Pure.pure (read taken)) value := by
  subst hread
  exact last (take hlength) RoundTrips.pure

theorem u8 {value : UInt8} : RoundTrips rest (Put.u8 value) Get.u8 value :=
  put (fun bytes => bytes.headD 0) rfl rfl

theorem u16 {value : UInt16} : RoundTrips rest (Put.u16 value) Get.u16 value :=
  put uint16 (length_be16 value) (uint16_be16 value)

theorem u32 {value : UInt32} : RoundTrips rest (Put.u32 value) Get.u32 value :=
  put uint32 (length_be32 value) (uint32_be32 value)

theorem u64 {value : UInt64} : RoundTrips rest (Put.u64 value) Get.u64 value :=
  put uint64 (length_be64 value) (uint64_be64 value)

theorem id {value : ID} : RoundTrips rest (Put.id value) Get.id value :=
  put idOf (length_idBytes value) (idOf_idBytes value)

theorem i64 {value : Int64} : RoundTrips rest (Put.i64 value) Get.i64 value := by
  have h : RoundTrips rest (Put.u64 value.toUInt64) Get.i64 value.toUInt64.toInt64 :=
    last u64 RoundTrips.pure
  rwa [Int64.toInt64_toUInt64] at h

theorem bool {value : Bool} : RoundTrips rest (Put.bool value) Get.bool value := by
  cases value
  · exact last u8 (checkRead rfl RoundTrips.pure)
  · exact last u8 (checkRead rfl RoundTrips.pure)

theorem bytes {value : Bytes} : RoundTrips rest (Put.bytes value) Get.bytes value := by
  refine checkWrite fun hsize => ?_
  have hle : value.length ≤ maxFieldBytes := by
    simpa [rejected_eq_ok] using hsize
  have hbound : maxFieldBytes < 2 ^ 32 := by decide
  have hcount : (UInt32.ofNat value.length).toNat = value.length := by
    rw [UInt32.toNat_ofNat', Nat.mod_eq_of_lt (by omega)]
  refine bind u32 (checkRead ?_ ?_)
  · rw [hcount]
    exact hsize
  · rw [hcount]
    exact take rfl

theorem string {value : Bytes} : RoundTrips rest (Put.string value) Get.string value :=
  bytes

/-- The reader's end: nothing behind the last field. -/
theorem done {α : Type} {value : α} :
    RoundTrips [] (Pure.pure ()) (Get.done >>= fun _ => Pure.pure value) value := by
  intro before written h
  cases h
  exact ⟨[], (List.append_nil before).symm, rfl⟩

end Vaultic.Lib.RoundTrips

namespace Vaultic.Wire

open Vaultic.Lib

variable {data : Bytes} {write : Encoder}

theorem encoded_inv (h : encoded write = .ok data) :
    write.run [version] = .ok ((), data) ∧ data.length ≤ maxEncodedValueBytes := by
  obtain ⟨⟨_, written⟩, hrun, h⟩ := of_bind h
  obtain ⟨⟨⟩, hsize, h⟩ := of_bind h
  cases h
  exact ⟨hrun, by simpa [rejected_eq_ok] using hsize⟩

/-- An encoded value is the version byte and its fields. -/
theorem length_of_encoded {size : Nat} (h : encoded write = .ok data)
    (happends : Appends write size) :
    data.length = 1 + size ∧ data.length ≤ maxEncodedValueBytes := by
  obtain ⟨hrun, hle⟩ := encoded_inv h
  exact ⟨happends _ _ hrun, hle⟩

variable {α : Type} {read : Nat → Decoder α}

theorem decoded_inv {value : α} (h : decodedSized read data = .ok value) :
    ∃ left, (read data.length).run (data.drop 1) = .ok (value, left) := by
  obtain ⟨⟨⟩, _, h⟩ := of_bind h
  obtain ⟨⟨result, left⟩, hread, h⟩ := of_bind h
  cases h
  exact ⟨left, hread⟩

/-- A count of items that an encoded value has room for is written as it is. -/
theorem toNat_count {length : Nat} (h : length ≤ maxEncodedValueBytes) :
    (UInt32.ofNat length).toNat = length := by
  have hbound : maxEncodedValueBytes < 2 ^ 32 := by decide
  rw [UInt32.toNat_ofNat', Nat.mod_eq_of_lt (by omega)]

theorem count_eq_zero_iff {length : Nat} (h : length ≤ maxEncodedValueBytes) :
    UInt32.ofNat length = 0 ↔ length = 0 := by
  rw [← UInt32.toNat_inj, toNat_count h]
  rfl

/-- Decoding what was encoded, from the round trip of the fields. -/
theorem decodedSized_encoded {value : α}
    (h : encoded write = .ok data) (hfields : RoundTrips [] write (read data.length) value) :
    decodedSized read data = .ok value := by
  obtain ⟨hrun, hle⟩ := encoded_inv h
  obtain ⟨bytes, hdata, hread⟩ := hfields _ _ hrun
  have hcheck : rejected
      (data.isEmpty || data.length > maxEncodedValueBytes || data.head? != some version)
      "unsupported or missing schema version" = .ok () := by
    rw [rejected_eq_ok, hdata]
    rw [hdata] at hle
    simpa using hle
  have hdrop : data.drop 1 = bytes ++ [] := by
    rw [hdata, List.append_nil]
    rfl
  unfold decodedSized
  rw [hcheck, hdrop]
  change (do
    let (value, _) ← (read data.length).run (bytes ++ [])
    pure value) = _
  rw [hread]
  rfl

theorem decoded_encoded {read : Decoder α} {value : α} (h : encoded write = .ok data)
    (hfields : RoundTrips [] write read value) : decoded read data = .ok value :=
  decodedSized_encoded h hfields

theorem readsBack {write : α → Encoder} {read : Decoder α}
    (h : ∀ value, RoundTrips [] (write value) read value) :
    ReadsBack (fun value => encoded (write value)) (decoded read) :=
  fun _ _ hencoded => decoded_encoded hencoded (h _)

/-- A record that is checked before it is written. -/
theorem readsBack_checked {bad : α → Bool} {text : String} {write : α → Encoder}
    {read : Decoder α}
    (h : ∀ value, rejected (bad value) text = .ok () → RoundTrips [] (write value) read value) :
    ReadsBack (fun value => do rejected (bad value) text; encoded (write value))
      (decoded read) := by
  intro value data hmarshal
  obtain ⟨⟨⟩, hvalid, hencoded⟩ := of_bind hmarshal
  exact decoded_encoded hencoded (h value hvalid)

/-- A record that is checked before it is written and after it is read. -/
theorem readsBack_validated {validate : α → Result Unit} {write : α → Encoder}
    {read : Decoder α} (h : ∀ value, RoundTrips [] (write value) read value) :
    ReadsBack (fun value => do validate value; encoded (write value))
      (decodedChecked validate read) := by
  intro value data hmarshal
  obtain ⟨⟨⟩, hvalid, hencoded⟩ := of_bind hmarshal
  have hread : decoded read data = .ok value := decoded_encoded hencoded (h value)
  exact bind_eq_ok.mpr ⟨value, hread, bind_eq_ok.mpr ⟨(), hvalid, rfl⟩⟩

end Vaultic.Wire

namespace Vaultic.Lib.Appends

open Vaultic.Wire
open Vaultic.Schema (ID)

theorem put (bytes : Bytes) : Appends (Put.raw bytes) bytes.length := by
  intro before written hrun
  cases hrun
  exact List.length_append

theorem u8 {value : UInt8} : Appends (Put.u8 value) 1 := put [value]

theorem bool {value : Bool} : Appends (Put.bool value) 1 := u8

theorem u16 {value : UInt16} : Appends (Put.u16 value) 2 :=
  length_be16 value ▸ put (be16 value)

theorem u32 {value : UInt32} : Appends (Put.u32 value) 4 :=
  length_be32 value ▸ put (be32 value)

theorem u64 {value : UInt64} : Appends (Put.u64 value) 8 :=
  length_be64 value ▸ put (be64 value)

theorem i64 {value : Int64} : Appends (Put.i64 value) 8 := u64

theorem id {value : ID} : Appends (Put.id value) 32 :=
  length_idBytes value ▸ put (idBytes value)

theorem bytes {value : Bytes} : Appends (Put.bytes value) (4 + value.length) :=
  checked (u32.bind (put value))

theorem string {value : Bytes} : Appends (Put.string value) (4 + value.length) := bytes

end Vaultic.Lib.Appends
