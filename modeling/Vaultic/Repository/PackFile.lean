/-
  Repository/PackFile.lean  —  the pack file format.

  Source: internal/repository/pack/pack.go, internal/repository/crypto/crypto.go.

  A pack file is its blobs one after another, then the encrypted header, then the
  length of the encrypted header.  A reader guesses how long the header is, reads that
  much from the end of the file, and reads again if the header is longer.  `uint` is
  taken to have 64 bits.
-/
import Vaultic.Lib.Bytes
import Vaultic.Lib.Result
import Vaultic.Schema.Keys

set_option autoImplicit false

namespace Vaultic.Repository.PackFile

open Vaultic.Lib Vaultic.Schema

/-! ## Encryption -/

def ivSize : Nat := 16

def macSize : Nat := 16

/-- `Extension` -/
def extension : Nat := ivSize + macSize

/-- What `NewRandomNonce` returns: a nonce that `validNonce` accepts. -/
abbrev Nonce : Type :=
  { bytes : List UInt8 // bytes.length = ivSize ∧ bytes ≠ List.replicate ivSize 0 }

/-- A valid key: opening what was sealed returns it. -/
structure Key where
  sealed : List UInt8 → List UInt8 → List UInt8
  opened : List UInt8 → List UInt8 → Result (List UInt8)
  length_sealed : ∀ (nonce : Nonce) (plaintext : List UInt8),
    (sealed nonce plaintext).length = plaintext.length + macSize
  opened_sealed : ∀ (nonce : Nonce) (plaintext : List UInt8),
    opened nonce (sealed nonce plaintext) = .ok plaintext

/-! ## The header -/

/-- `Blob` -/
structure Blob where
  handle : BlobHandle
  (length offset uncompressedLength : Nat)
  deriving DecidableEq, Repr

/-- `IsCompressed` -/
def Blob.isCompressed (blob : Blob) : Bool := decide (blob.uncompressedLength ≠ 0)

def headerLengthSize : Nat := 4

def entrySize : Nat := 1 + 2 * headerLengthSize + 32

def plainEntrySize : Nat := 1 + headerLengthSize + 32

def headerSize : Nat := headerLengthSize + extension

def maxHeaderSize : Nat := 16 * 1024 * 1024 + headerLengthSize

def minFileSize : Nat := plainEntrySize + extension + headerLengthSize

def eagerEntries : Nat := 15

def eagerSize : Nat := eagerEntries * entrySize + headerSize

def maxHeaderEntries : Nat := (maxHeaderSize - headerSize) / entrySize

/-- `CalculateEntrySize` -/
def calculateEntrySize (compressed : Bool) : Nat :=
  if compressed then entrySize else plainEntrySize

/-- `CalculateHeaderSize` -/
def calculateHeaderSize (blobs : List Blob) : Nat :=
  blobs.foldl (fun size blob => size + calculateEntrySize blob.isCompressed) headerSize

/-- The byte that gives the type of a blob and whether it is compressed. -/
def typeByte (type : BlobType) (compressed : Bool) : UInt8 :=
  match type, compressed with
  | .data, false => 0
  | .tree, false => 1
  | .data, true => 2
  | .tree, true => 3

def headerEntry (blob : Blob) : List UInt8 :=
  typeByte blob.handle.type blob.isCompressed :: (leBytes 4 blob.length ++
    (if blob.uncompressedLength ≠ 0 then leBytes 4 blob.uncompressedLength else []) ++
    beBytes 32 blob.handle.id.toNat)

/-- `makeHeader` -/
def makeHeader (blobs : List Blob) : List UInt8 := blobs.flatMap headerEntry

/-! ## Reading -/

/-- `ReadAt` -/
def readAt (data : List UInt8) (off count : Nat) : Result (List UInt8) :=
  if off + count ≤ data.length then .ok ((data.drop off).take count) else .error "EOF"

/-- `readRecords` -/
def readRecords (data : List UInt8) (size bufsize : Nat) : Result (List UInt8 × Nat) := do
  let bufsize := min bufsize size
  let b ← readAt data (size - bufsize) bufsize
  let hlen := ofLE (b.drop (b.length - headerLengthSize))
  let b := b.take (b.length - headerLengthSize)
  if hlen = 0 then .error "readHeader: header length is zero"
  else if hlen < extension then .error "readHeader: header length is too short"
  else if hlen > size - headerLengthSize then .error "readHeader: header is larger than file"
  else if hlen > maxHeaderSize - headerLengthSize then
    .error "readHeader: header is larger than maxHeaderSize"
  else
    let total := hlen + headerLengthSize
    .ok (if total < bufsize then b.drop (b.length - hlen) else b, total)

/-- `readHeader` -/
def readHeader (data : List UInt8) (size : Nat) : Result (List UInt8) :=
  if size < minFileSize then .error "readHeader: file is too short"
  else do
    let (b, c) ← readRecords data size eagerSize
    if c ≤ eagerSize then .ok b
    else do
      let (b, _) ← readRecords data size c
      .ok b

/-- `parseHeaderEntry`: the blob and the size of its entry. -/
def parseHeaderEntry (p : List UInt8) : Result (Blob × Nat) :=
  match p with
  | [] => .error "parseHeaderEntry: buffer too short"
  | tpe :: rest =>
    if p.length < plainEntrySize then .error "parseHeaderEntry: buffer too short"
    else if tpe.toNat > 3 then .error "invalid type"
    else
      let type := if tpe = 0 ∨ tpe = 2 then BlobType.data else BlobType.tree
      let length := ofLE (rest.take 4)
      if tpe = 2 ∨ tpe = 3 then
        if p.length < entrySize then .error "parseHeaderEntry: buffer too short"
        else
          .ok (⟨⟨BitVec.ofNat 256 (ofBE (((rest.drop 4).drop 4).take 32)), type⟩, length, 0,
            ofLE ((rest.drop 4).take 4)⟩, entrySize)
      else
        .ok (⟨⟨BitVec.ofNat 256 (ofBE ((rest.drop 4).take 32)), type⟩, length, 0, 0⟩,
          plainEntrySize)

/-- The loop of `List`.  Every entry takes some bytes, so that as many rounds as there
are bytes are enough. -/
def parseEntries : Nat → Nat → List UInt8 → Result (List Blob)
  | _, _, [] => .ok []
  | 0, _, _ :: _ => .error "out of rounds"
  | rounds + 1, pos, buf => do
      let (entry, size) ← parseHeaderEntry buf
      let rest ← parseEntries rounds (pos + entry.length) (buf.drop size)
      .ok ({ entry with offset := pos } :: rest)

/-- `List`: the entries of a pack file and the size of its header. -/
def list (key : Key) (data : List UInt8) (size : Nat) : Result (List Blob × Nat) := do
  let buf ← readHeader data size
  if buf.length < extension then .error "invalid header, too short"
  else do
    let header ← key.opened (buf.take ivSize) (buf.drop ivSize)
    let entries ← parseEntries header.length 0 header
    .ok (entries, headerLengthSize + buf.length)

/-! ## Writing -/

/-- What a write to the underlying file does. -/
inductive WriteOutcome where
  | done
  | short (count : Nat)
  | failed (count : Nat) (text : String)

structure Packer where
  blobs : List Blob := []
  bytes : Nat := 0
  err : Option String := none
  /-- What the underlying file holds. -/
  written : List UInt8 := []

/-- `ErrBroken` -/
def errBroken : String := "packer cannot be used after a write error"

/-- `Add` -/
def Packer.add (packer : Packer) (type : BlobType) (id : ID) (data : List UInt8)
    (uncompressedLength : Nat) (outcome : WriteOutcome) : Packer × Result Nat :=
  match packer.err with
  | some text => (packer, .error (errBroken ++ "\n" ++ text))
  | none =>
    match outcome with
    | .failed count text =>
      ({ packer with
          err := some ("Write: " ++ text), written := packer.written ++ data.take count },
        .error ("Write: " ++ text))
    | .short count =>
      ({ packer with err := some "short write", written := packer.written ++ data.take count },
        .error "short write")
    | .done =>
      let c : Blob := ⟨⟨id, type⟩, data.length, packer.bytes, uncompressedLength⟩
      ({ packer with
          blobs := packer.blobs ++ [c]
          bytes := packer.bytes + data.length
          written := packer.written ++ data },
        .ok (data.length + calculateEntrySize c.isCompressed))

/-- `verifyHeader` -/
def verifyHeader (key : Key) (header : List UInt8) (expected : List Blob) : Result Unit := do
  let (decoded, hdrSize) ← list key header header.length
  if hdrSize ≠ header.length then .error "unexpected header size"
  else if decoded.length ≠ expected.length then .error "pack header size mismatch"
  else if decoded ≠ expected then .error "pack header entry mismatch"
  else .ok ()

/-- What `Finalize` appends. -/
def encryptedHeader (key : Key) (nonce : Nonce) (blobs : List Blob) : List UInt8 :=
  let encrypted := nonce.1 ++ key.sealed nonce (makeHeader blobs)
  encrypted ++ leBytes headerLengthSize encrypted.length

/-- `Finalize` -/
def Packer.finalize (packer : Packer) (key : Key) (nonce : Nonce) (outcome : WriteOutcome) :
    Packer × Result Unit :=
  match packer.err with
  | some text => (packer, .error (errBroken ++ "\n" ++ text))
  | none =>
    let header := encryptedHeader key nonce packer.blobs
    match verifyHeader key header packer.blobs with
    | .error text =>
      (packer, .error ("detected data corruption while writing pack-file header: " ++ text))
    | .ok () =>
      match outcome with
      | .failed count text =>
        ({ packer with
            err := some ("Write: " ++ text), written := packer.written ++ header.take count },
          .error ("Write: " ++ text))
      | .short count =>
        ({ packer with
            err := some "wrong number of bytes written"
            written := packer.written ++ header.take count },
          .error "wrong number of bytes written")
      | .done =>
        ({ packer with
            bytes := packer.bytes + header.length
            written := packer.written ++ header },
          .ok ())

/-! ## Entries -/

/-- The numbers of the blob fit the header. -/
def Blob.Fits (blob : Blob) : Prop := blob.length < 2 ^ 32 ∧ blob.uncompressedLength < 2 ^ 32

theorem length_headerEntry (blob : Blob) :
    (headerEntry blob).length = calculateEntrySize blob.isCompressed := by
  unfold headerEntry calculateEntrySize Blob.isCompressed entrySize plainEntrySize headerLengthSize
  by_cases h : blob.uncompressedLength = 0 <;> simp [h]

theorem ofLE_leBytes_of_lt {n : Nat} (h : n < 2 ^ 32) : ofLE (leBytes 4 n) = n := by
  rw [ofLE_leBytes]
  exact Nat.mod_eq_of_lt (by omega)

theorem ofBE_beBytes_id (id : ID) : BitVec.ofNat 256 (ofBE (beBytes 32 id.toNat)) = id := by
  rw [ofBE_beBytes, Nat.mod_eq_of_lt (by have := id.isLt; omega), BitVec.ofNat_toNat,
    BitVec.setWidth_eq]

/-- An entry is read back, whatever follows it. -/
theorem parseHeaderEntry_headerEntry {blob : Blob} (h : blob.Fits) (rest : List UInt8) :
    parseHeaderEntry (headerEntry blob ++ rest) =
      .ok ({ blob with offset := 0 }, calculateEntrySize blob.isCompressed) := by
  obtain ⟨⟨id, type⟩, length, offset, uncompressedLength⟩ := blob
  obtain ⟨hlength, huncompressed⟩ := h
  have hplain : ¬4 + (32 + rest.length) + 1 < 37 := by omega
  have hcompressed : ¬4 + (4 + (32 + rest.length)) + 1 < 41 := by omega
  have hcompressed' : ¬4 + (4 + (32 + rest.length)) + 1 < 37 := by omega
  by_cases hzero : uncompressedLength = 0
  · subst hzero
    cases type <;>
      simp [parseHeaderEntry, headerEntry, typeByte, Blob.isCompressed, calculateEntrySize,
        plainEntrySize, headerLengthSize, -Nat.not_lt, hplain, ofLE_leBytes_of_lt hlength,
        ofBE_beBytes_id]
  · cases type <;>
      simp [parseHeaderEntry, headerEntry, typeByte, Blob.isCompressed, calculateEntrySize,
        plainEntrySize, entrySize, headerLengthSize, hzero, hcompressed, hcompressed',
        ofLE_leBytes_of_lt hlength, ofLE_leBytes_of_lt huncompressed, ofBE_beBytes_id]

/-- The blobs with the offsets that they have from `pos` on. -/
def placed : Nat → List Blob → List Blob
  | _, [] => []
  | pos, blob :: rest => { blob with offset := pos } :: placed (pos + blob.length) rest

variable {blobs : List Blob}

/-- The header is read back, with offsets counted anew. -/
theorem parseEntries_makeHeader (h : ∀ blob ∈ blobs, blob.Fits) {rounds pos : Nat}
    (hrounds : (makeHeader blobs).length ≤ rounds) :
    parseEntries rounds pos (makeHeader blobs) = .ok (placed pos blobs) := by
  induction blobs generalizing rounds pos with
  | nil =>
    unfold parseEntries
    rfl
  | cons blob rest ih =>
    have hsplit : makeHeader (blob :: rest) = headerEntry blob ++ makeHeader rest :=
      List.flatMap_cons
    have hentry := length_headerEntry blob
    have hpositive : 0 < calculateEntrySize blob.isCompressed := by
      unfold calculateEntrySize entrySize plainEntrySize
      split <;> omega
    rw [hsplit, List.length_append, hentry] at hrounds
    obtain ⟨rounds, rfl⟩ : ∃ n, rounds = n + 1 := ⟨rounds - 1, by omega⟩
    have hrest := @ih (fun b hb => h b (.tail _ hb)) rounds (pos + blob.length)
      (by omega)
    have hdrop : (headerEntry blob ++ makeHeader rest).drop
        (calculateEntrySize blob.isCompressed) = makeHeader rest := by
      rw [← hentry, List.drop_left]
    have hparse := parseHeaderEntry_headerEntry (h blob (.head _)) (makeHeader rest)
    rw [hsplit]
    obtain ⟨byte, tail, hcons⟩ : ∃ byte tail, headerEntry blob ++ makeHeader rest = byte :: tail :=
      ⟨_, _, rfl⟩
    rw [hcons] at hparse hdrop ⊢
    unfold parseEntries
    simp only [hparse, hdrop, hrest, bind, Except.bind, placed]

/-! ## Finding the header -/

/-- A file that ends in an encrypted header of a possible length. -/
structure EndsIn (data encrypted : List UInt8) : Prop where
  shape : ∃ front, data = front ++ encrypted ++ leBytes headerLengthSize encrypted.length
  lower : plainEntrySize + extension ≤ encrypted.length
  upper : encrypted.length ≤ maxHeaderSize - headerLengthSize

variable {data encrypted : List UInt8}

/-- One read from the end finds the length of the header, and the header if it asked
for enough. -/
theorem readRecords_spec (h : EndsIn data encrypted) {bufsize : Nat}
    (hbufsize : headerLengthSize ≤ bufsize) :
    ∃ b, readRecords data data.length bufsize = .ok (b, encrypted.length + headerLengthSize) ∧
      (encrypted.length + headerLengthSize ≤ bufsize → b = encrypted) := by
  obtain ⟨front, rfl⟩ := h.shape
  have hlower := h.lower
  have hupper := h.upper
  simp only [plainEntrySize, extension, ivSize, macSize, maxHeaderSize, headerLengthSize] at *
  have hlength : (front ++ encrypted ++ leBytes 4 encrypted.length).length =
      front.length + encrypted.length + 4 := by
    simp [Nat.add_assoc]
  -- The bytes read are the last `count` of the file.
  obtain ⟨count, hcount⟩ : ∃ count, count = min bufsize (front.length + encrypted.length + 4) :=
    ⟨_, rfl⟩
  have hread : readAt (front ++ encrypted ++ leBytes 4 encrypted.length)
      (front.length + encrypted.length + 4 - count) count =
        .ok ((front ++ encrypted).drop (front.length + encrypted.length + 4 - count) ++
          leBytes 4 encrypted.length) := by
    unfold readAt
    rw [if_pos (by rw [hlength]; omega), List.drop_append_of_le_length (by simp; omega),
      List.take_of_length_le]
    simp
    omega
  have hsuffix : ((front ++ encrypted).drop
      (front.length + encrypted.length + 4 - count)).length = count - 4 := by
    simp
    omega
  have hvalue : ofLE (leBytes 4 encrypted.length) = encrypted.length :=
    ofLE_leBytes_of_lt (by omega)
  unfold readRecords
  simp only [hlength, ← hcount, hread, bind, Except.bind, headerLengthSize, List.length_append,
    hsuffix, length_leBytes, Nat.add_sub_cancel]
  rw [List.drop_left' hsuffix, List.take_left' hsuffix, hvalue]
  rw [if_neg (by omega), if_neg (by simp only [extension, ivSize, macSize]; omega),
    if_neg (by omega), if_neg (by simp only [maxHeaderSize, headerLengthSize]; omega)]
  refine ⟨_, rfl, fun henough => ?_⟩
  split
  · rw [hsuffix, List.drop_drop]
    exact List.drop_left' (by omega)
  · exact List.drop_left' (by omega)

theorem readHeader_spec (h : EndsIn data encrypted) :
    readHeader data data.length = .ok encrypted := by
  have hsize : ¬data.length < minFileSize := by
    obtain ⟨front, rfl⟩ := h.shape
    have hlower := h.lower
    simp only [minFileSize, headerLengthSize, List.length_append, length_leBytes] at *
    omega
  obtain ⟨eager, heager, henough⟩ := @readRecords_spec _ _ h eagerSize (by decide)
  unfold readHeader
  rw [if_neg hsize, heager]
  simp only [bind, Except.bind]
  split
  · rename_i hfits
    rw [henough hfits]
  obtain ⟨whole, hwhole, hall⟩ :=
    @readRecords_spec _ _ h (encrypted.length + headerLengthSize) (Nat.le_add_left _ _)
  rw [hwhole]
  dsimp only
  rw [hall le_rfl]

/-! ## The header of some blobs -/

/-- The sum of the sizes of the header entries. -/
def entriesSize (blobs : List Blob) : Nat :=
  (blobs.map fun blob => calculateEntrySize blob.isCompressed).sum

theorem calculateHeaderSize_eq (blobs : List Blob) :
    calculateHeaderSize blobs = headerSize + entriesSize blobs := by
  have hfold : ∀ size, blobs.foldl (fun size blob =>
      size + calculateEntrySize blob.isCompressed) size = size + entriesSize blobs := by
    unfold entriesSize
    induction blobs with
    | nil => simp
    | cons blob rest ih => intro size; simp [ih, Nat.add_assoc]
  exact hfold headerSize

theorem length_makeHeader (blobs : List Blob) : (makeHeader blobs).length = entriesSize blobs := by
  unfold makeHeader entriesSize
  rw [List.length_flatMap]
  exact congrArg List.sum (List.map_congr_left fun blob _ => length_headerEntry blob)

/-- An allowed number of entries fits the header. -/
theorem entriesSize_bounds (hne : blobs ≠ []) (hcount : blobs.length ≤ maxHeaderEntries) :
    plainEntrySize ≤ entriesSize blobs ∧ entriesSize blobs ≤ maxHeaderSize - headerSize := by
  have hentry : ∀ n ∈ blobs.map fun blob => calculateEntrySize blob.isCompressed,
      plainEntrySize ≤ n ∧ n ≤ entrySize := by
    intro n hn
    obtain ⟨blob, -, rfl⟩ := List.mem_map.mp hn
    unfold calculateEntrySize entrySize plainEntrySize
    split <;> omega
  constructor
  · obtain ⟨blob, rest, rfl⟩ := List.exists_cons_of_ne_nil hne
    have hfirst := (hentry _ (List.mem_map_of_mem (.head _))).1
    simp only [entriesSize, List.map_cons, List.sum_cons]
    omega
  · have hsum := List.sum_le_card_nsmul _ entrySize fun n hn => (hentry n hn).2
    rw [List.length_map, smul_eq_mul] at hsum
    have hmax : maxHeaderEntries * entrySize ≤ maxHeaderSize - headerSize :=
      Nat.div_mul_le_self _ _
    exact hsum.trans ((Nat.mul_le_mul_right _ hcount).trans hmax)

section Header

variable (key : Key) (nonce : Nonce) {blobs : List Blob}

theorem length_encrypted : (nonce.1 ++ key.sealed nonce (makeHeader blobs)).length =
    extension + entriesSize blobs := by
  rw [List.length_append, nonce.2.1, key.length_sealed, length_makeHeader]
  unfold extension
  omega

theorem length_encryptedHeader :
    (encryptedHeader key nonce blobs).length = calculateHeaderSize blobs := by
  unfold encryptedHeader
  rw [List.length_append, length_encrypted, length_leBytes, calculateHeaderSize_eq, headerSize]
  omega

/-- Whatever stands before the header, the blobs are listed from it. -/
theorem list_encryptedHeader (hne : blobs ≠ []) (hcount : blobs.length ≤ maxHeaderEntries)
    (hfits : ∀ blob ∈ blobs, blob.Fits) (front : List UInt8) :
    list key (front ++ encryptedHeader key nonce blobs)
        (front ++ encryptedHeader key nonce blobs).length =
      .ok (placed 0 blobs, calculateHeaderSize blobs) := by
  obtain ⟨hlower, hupper⟩ := entriesSize_bounds hne hcount
  have hlength := @length_encrypted key nonce blobs
  have hends : EndsIn (front ++ encryptedHeader key nonce blobs)
      (nonce.1 ++ key.sealed nonce (makeHeader blobs)) := by
    refine ⟨⟨front, ?_⟩, ?_, ?_⟩
    · unfold encryptedHeader
      rw [List.append_assoc front]
    · rw [hlength]
      omega
    have hroom : headerSize ≤ maxHeaderSize := by decide
    rw [hlength]
    unfold headerSize at hupper hroom
    omega
  have hshort : ¬(nonce.1 ++ key.sealed nonce (makeHeader blobs)).length < extension := by
    rw [hlength]
    omega
  have htake : (nonce.1 ++ key.sealed nonce (makeHeader blobs)).take ivSize = nonce.1 :=
    List.take_left' nonce.2.1
  have hdrop : (nonce.1 ++ key.sealed nonce (makeHeader blobs)).drop ivSize =
      key.sealed nonce (makeHeader blobs) := List.drop_left' nonce.2.1
  unfold list
  rw [readHeader_spec hends]
  simp only [bind, Except.bind]
  rw [if_neg hshort, htake, hdrop, key.opened_sealed, hlength]
  dsimp only
  rw [parseEntries_makeHeader hfits le_rfl, calculateHeaderSize_eq, headerSize]
  simp only [Nat.add_assoc]

theorem verifyHeader_encryptedHeader (hne : blobs ≠ []) (hcount : blobs.length ≤ maxHeaderEntries)
    (hfits : ∀ blob ∈ blobs, blob.Fits) (hplaced : placed 0 blobs = blobs) :
    verifyHeader key (encryptedHeader key nonce blobs) blobs = .ok () := by
  have hlist := list_encryptedHeader key nonce hne hcount hfits []
  rw [List.nil_append, hplaced] at hlist
  unfold verifyHeader
  rw [hlist]
  simp [bind, Except.bind, length_encryptedHeader]

end Header

/-! ## Whole packs -/

/-- A blob to add, with the bytes that are written for it. -/
structure NewBlob where
  handle : BlobHandle
  data : List UInt8
  uncompressedLength : Nat := 0

def NewBlob.blob (item : NewBlob) (offset : Nat) : Blob :=
  ⟨item.handle, item.data.length, offset, item.uncompressedLength⟩

/-- A packer to which the blobs were added. -/
def packAll (items : List NewBlob) : Packer :=
  items.foldl (fun packer item =>
    (packer.add item.handle.type item.handle.id item.data item.uncompressedLength .done).1) {}

/-- One more blob keeps the packer in order. -/
theorem foldl_add_spec (items : List NewBlob) {packer : Packer} (herr : packer.err = none) :
    items.foldl (fun packer item =>
        (packer.add item.handle.type item.handle.id item.data item.uncompressedLength .done).1)
        packer =
      { packer with
        blobs := packer.blobs ++ placed packer.bytes (items.map (·.blob 0))
        bytes := packer.bytes + (items.map (·.data.length)).sum
        written := packer.written ++ items.flatMap (·.data) } := by
  induction items generalizing packer with
  | nil => simp [placed]
  | cons item rest ih =>
    have hadd : (packer.add item.handle.type item.handle.id item.data item.uncompressedLength
        .done).1 =
        { packer with
          blobs := packer.blobs ++ [item.blob packer.bytes]
          bytes := packer.bytes + item.data.length
          written := packer.written ++ item.data } := by
      unfold Packer.add
      rw [herr]
      rfl
    rw [List.foldl_cons, hadd]
    refine (ih ?_).trans ?_
    · exact herr
    · simp [placed, NewBlob.blob, Nat.add_assoc]

theorem packAll_eq (items : List NewBlob) :
    packAll items =
      { blobs := placed 0 (items.map (·.blob 0))
        bytes := (items.map (·.data.length)).sum
        written := items.flatMap (·.data) } := by
  unfold packAll
  rw [foldl_add_spec items rfl]
  simp

theorem placed_placed (pos : Nat) (blobs : List Blob) :
    placed pos (placed pos blobs) = placed pos blobs := by
  induction blobs generalizing pos with
  | nil => rfl
  | cons blob rest ih => simp [placed, ih]

theorem getElem?_placed {pos i : Nat} {blob : Blob} (h : blobs[i]? = some blob) :
    (placed pos blobs)[i]? =
      some { blob with offset := pos + ((blobs.take i).map (·.length)).sum } := by
  induction blobs generalizing pos i with
  | nil => simp at h
  | cons first rest ih =>
    cases i with
    | zero =>
      obtain rfl : first = blob := by simpa using h
      simp [placed]
    | succ i =>
      rw [placed, List.getElem?_cons_succ, ih (by simpa using h)]
      simp [Nat.add_assoc]

theorem length_placed (pos : Nat) (blobs : List Blob) :
    (placed pos blobs).length = blobs.length := by
  induction blobs generalizing pos with
  | nil => rfl
  | cons blob rest ih => simp [placed, ih]

/-- Listing a finalised pack returns the blobs that were added, at the sums of the
lengths before them, and the size of what follows the blobs. -/
theorem list_finalize (key : Key) (nonce : Nonce) (items : List NewBlob)
    (hcount : 1 ≤ items.length ∧ items.length ≤ maxHeaderEntries)
    (hfits : ∀ item ∈ items, item.data.length < 2 ^ 32 ∧ item.uncompressedLength < 2 ^ 32) :
    ∃ packer entries, (packAll items).finalize key nonce .done = (packer, .ok ()) ∧
      list key packer.written packer.written.length = .ok (entries, calculateHeaderSize entries) ∧
      packer.written.length = (items.map (·.data.length)).sum + calculateHeaderSize entries ∧
      entries.length = items.length ∧
      ∀ (i : Nat) (item : NewBlob), items[i]? = some item →
        entries[i]? = some (item.blob ((items.take i).map (·.data.length)).sum) := by
  obtain ⟨hpositive, hmax⟩ := hcount
  -- The blobs of the packer, whose offsets are those of the format.
  obtain ⟨blobs, hblobs⟩ : ∃ blobs, blobs = placed 0 (items.map (·.blob 0)) := ⟨_, rfl⟩
  have hlength : blobs.length = items.length := by rw [hblobs, length_placed, List.length_map]
  have hne : blobs ≠ [] := by
    rintro rfl
    rw [List.length_nil] at hlength
    omega
  have hentry : ∀ (i : Nat) (item : NewBlob), items[i]? = some item →
      blobs[i]? = some (item.blob ((items.take i).map (·.data.length)).sum) := by
    intro i item hitem
    rw [hblobs, getElem?_placed (by rw [List.getElem?_map, hitem]; rfl)]
    simp [NewBlob.blob, ← List.map_take, Function.comp_def]
  have hall : ∀ blob ∈ blobs, blob.Fits := by
    intro blob hblob
    obtain ⟨i, hi, rfl⟩ := List.mem_iff_getElem.mp hblob
    have hi' : i < items.length := hlength ▸ hi
    have hblob := hentry i items[i] (List.getElem?_eq_getElem hi')
    rw [List.getElem?_eq_getElem hi] at hblob
    rw [Option.some.inj hblob]
    exact hfits items[i] (List.getElem_mem hi')
  have hplaced : placed 0 blobs = blobs := by rw [hblobs, placed_placed]
  have hfinal : (packAll items).finalize key nonce .done =
      ({ packAll items with
          bytes := (packAll items).bytes + (encryptedHeader key nonce blobs).length
          written := (packAll items).written ++ encryptedHeader key nonce blobs }, .ok ()) := by
    unfold Packer.finalize
    rw [packAll_eq, ← hblobs]
    dsimp only
    rw [verifyHeader_encryptedHeader key nonce hne (hlength ▸ hmax) hall hplaced]
  refine ⟨_, blobs, hfinal, ?_, ?_, hlength, hentry⟩
  · have hlist := list_encryptedHeader key nonce hne (hlength ▸ hmax) hall (packAll items).written
    rwa [hplaced] at hlist
  · rw [packAll_eq]
    simp [length_encryptedHeader, List.length_flatMap]

/-- A key that leaves the plaintext as it is and appends a constant tag. -/
def plainKey : Key where
  sealed _ plaintext := plaintext ++ List.replicate macSize 0
  opened _ ciphertext := .ok (ciphertext.take (ciphertext.length - macSize))
  length_sealed := by simp
  opened_sealed := by simp

/-- Seventeen compressed tree blobs: the header is longer than the first read. -/
theorem list_finalize_second_read :
    eagerSize < headerSize + 17 * entrySize ∧
    ∃ packer entries, (packAll (List.replicate 17 ⟨⟨7, .tree⟩, [1, 2, 3], 9⟩)).finalize plainKey
        ⟨List.replicate ivSize 1, by decide⟩ .done = (packer, .ok ()) ∧
      list plainKey packer.written packer.written.length =
        .ok (entries, calculateHeaderSize entries) ∧
      packer.written.length = 51 + calculateHeaderSize entries ∧
      entries.length = 17 ∧
      ∀ (i : Nat) (item : NewBlob),
        (List.replicate 17 (⟨⟨7, .tree⟩, [1, 2, 3], 9⟩ : NewBlob))[i]? = some item →
        entries[i]? = some (item.blob
          (((List.replicate 17 (⟨⟨7, .tree⟩, [1, 2, 3], 9⟩ : NewBlob)).take i).map
            (·.data.length)).sum) :=
  ⟨by decide, list_finalize plainKey ⟨List.replicate ivSize 1, by decide⟩
    (List.replicate 17 ⟨⟨7, .tree⟩, [1, 2, 3], 9⟩) (by decide) (by decide)⟩

end Vaultic.Repository.PackFile
