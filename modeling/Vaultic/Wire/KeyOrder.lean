/-
  Wire/KeyOrder.lean  —  the order of the keys is the order of their fields
  (`internal/index/schema/keys.go`, `keys_parse.go`).

  Scans visit keys in byte order.  Fields of fixed width are big-endian, a signed time has
  its sign bit flipped, and a path ends with a zero byte, which it does not contain; so the
  byte order of the keys is the order of their tuples of fields, and a scan behind
  `PathVersionPrefix` sees the versions of one path.

  `PathVersionKey` cuts one leading slash off the path first, so its keys are in the order of
  the paths without it (`pathVersionKey_ignores_slash`).
-/
import Vaultic.Lib.KeyOrder
import Vaultic.Wire.KeyCanonical

set_option autoImplicit false

namespace Vaultic.Wire

open Vaultic.Lib
open Vaultic.Schema (ID)

/-! ## Fields -/

theorem be64_order : OrderEncodes be64 (· < ·) 8 :=
  .bigEndian (fun _ _ h => UInt64.toNat_inj.mp h) (fun value => value.toNat_lt)
    fun _ _ => UInt64.lt_iff_toNat_lt

theorem be32_order : OrderEncodes be32 (· < ·) 4 :=
  .bigEndian (fun _ _ h => UInt32.toNat_inj.mp h) (fun value => value.toNat_lt)
    fun _ _ => UInt32.lt_iff_toNat_lt

theorem idBytes_order : OrderEncodes idBytes (· < ·) 32 :=
  .bigEndian (fun _ _ h => BitVec.eq_of_toNat_eq h)
    (fun id => by
      have h := id.isLt
      norm_num at h ⊢
      exact h)
    fun _ _ => BitVec.lt_def

theorem byte_order : OrderEncodes (fun byte : UInt8 => [byte]) (· < ·) 1 where
  length _ := rfl
  injective _ _ h := (List.cons.inj h).1
  lt_iff a b := by simp [List.cons_lt_cons_iff]

theorem xor_two_pow {k n : Nat} (h : n < 2 ^ k) : n ^^^ 2 ^ k = 2 ^ k + n := by
  apply Nat.eq_of_testBit_eq
  intro i
  rw [Nat.testBit_xor, Nat.testBit_two_pow]
  rcases Nat.lt_trichotomy i k with hi | rfl | hi
  · rw [Nat.testBit_two_pow_add_gt hi, decide_eq_false (by omega), Bool.xor_false]
  · rw [Nat.testBit_two_pow_add_eq, decide_eq_true rfl, Bool.xor_true]
  have hpow : 2 ^ (k + 1) ≤ 2 ^ i := Nat.pow_le_pow_right (by decide) hi
  rw [Nat.testBit_lt_two_pow (by omega), Nat.testBit_lt_two_pow (by omega),
    decide_eq_false (by omega)]
  rfl

/-- Flipping the sign bit moves the times up by half of the range. -/
theorem toNat_sortableTime (timestamp : Int64) :
    ((sortableTime timestamp).toNat : Int) = timestamp.toInt + 2 ^ 63 := by
  have hnat : (sortableTime timestamp).toNat = timestamp.toUInt64.toNat ^^^ 2 ^ 63 := by
    rw [sortableTime, UInt64.toNat_xor]
    rfl
  have hint : timestamp.toInt =
      if 2 * timestamp.toUInt64.toNat < 2 ^ 64 then (timestamp.toUInt64.toNat : Int)
      else (timestamp.toUInt64.toNat : Int) - 2 ^ 64 :=
    BitVec.toInt_eq_toNat_cond timestamp.toBitVec
  have hbound : timestamp.toUInt64.toNat < 2 ^ 64 := timestamp.toUInt64.toNat_lt
  rw [hnat, hint]
  by_cases hsmall : timestamp.toUInt64.toNat < 2 ^ 63
  · rw [xor_two_pow hsmall, if_pos (by omega)]
    push_cast
    ring
  · obtain ⟨low, hlow⟩ := Nat.exists_eq_add_of_le (Nat.le_of_not_lt hsmall)
    have hlt : low < 2 ^ 63 := by omega
    have hxor : timestamp.toUInt64.toNat ^^^ 2 ^ 63 = low := by
      rw [hlow, ← xor_two_pow hlt, Nat.xor_assoc, Nat.xor_self, Nat.xor_zero]
    rw [hxor, if_neg (by omega), hlow]
    push_cast
    ring

theorem sortableTime_lt_iff (a b : Int64) : sortableTime a < sortableTime b ↔ a < b := by
  rw [UInt64.lt_iff_toNat_lt, Int64.lt_iff_toInt_lt, ← Int.ofNat_lt, toNat_sortableTime,
    toNat_sortableTime]
  omega

theorem sortableTime_order : OrderEncodes (fun time => be64 (sortableTime time)) (· < ·) 8 :=
  be64_order.comap (Function.LeftInverse.injective ofSortableTime_sortableTime)
    sortableTime_lt_iff

/-! ## Keys of fixed width -/

/-- A time that is not negative. -/
abbrev Time := { time : Int64 // 0 ≤ time }

theorem toNat_toUInt64 (time : Time) : (time.val.toUInt64.toNat : Int) = time.val.toInt := by
  have hnonneg : 0 ≤ time.val.toInt := Int64.le_iff_toInt_le.mp time.property
  have hint : time.val.toInt =
      if 2 * time.val.toUInt64.toNat < 2 ^ 64 then (time.val.toUInt64.toNat : Int)
      else (time.val.toUInt64.toNat : Int) - 2 ^ 64 :=
    BitVec.toInt_eq_toNat_cond time.val.toBitVec
  have hbound : time.val.toUInt64.toNat < 2 ^ 64 := time.val.toUInt64.toNat_lt
  split_ifs at hint with hsmall
  · exact hint.symm
  · omega

theorem time_order : OrderEncodes (fun time : Time => be64 time.val.toUInt64) (· < ·) 8 := by
  apply be64_order.comap
  · intro a b h
    have h := congrArg (fun value : UInt64 => (value.toNat : Int)) h
    simp only [toNat_toUInt64] at h
    exact Subtype.ext (Int64.toInt_inj.mp h)
  · intro a b
    rw [UInt64.lt_iff_toNat_lt, ← Int.ofNat_lt, toNat_toUInt64, toNat_toUInt64,
      ← Int64.lt_iff_toInt_lt]
    rfl

theorem growthTimeKey_order {x y : AnalyticsGranularity × Int64 × PackTier} {key key' : Bytes}
    (hx : growthTimeKey x.1 x.2.1 x.2.2 = some key)
    (hy : growthTimeKey y.1 y.2.1 y.2.2 = some key') :
    (key < key' ↔ Prod.Lex (· < ·) (Prod.Lex (· < ·) (· < ·)) x y) ∧ (key = key' ↔ x = y) := by
  have horder := (byte_order.append (sortableTime_order.append byte_order)).text (ascii "g:time:")
  unfold growthTimeKey at hx hy
  split_ifs at hx hy
  obtain rfl := Option.some.inj hx
  obtain rfl := Option.some.inj hy
  exact ⟨horder.lt_iff x y, horder.injective.eq_iff⟩

/-! ## Versions of a path -/

variable {fsid : UInt32} {key : Bytes}

/-- What the checks on a path leave to a constructor. -/
theorem valid_path {checks : Bool} {path body : Bytes}
    (h : (if (checks || path.contains 0) = true then none else some body) = some key) :
    0 ∉ path ∧ key = body := by
  split_ifs at h with hinvalid
  simp only [Bool.or_eq_true, not_or] at hinvalid
  exact ⟨fun hzero => hinvalid.2 (List.contains_iff_mem.mpr hzero), (Option.some.inj h).symm⟩

theorem pathVersionKey_eq_some {path : Bytes} {revision : UInt64}
    (h : pathVersionKey fsid path revision = some key) :
    0 ∉ trimPrefix 47 path ∧
      key = ascii "pv:" ++ (be32 fsid ++ (trimPrefix 47 path ++ 0 :: be64 revision)) :=
  valid_path h

theorem pathVersionKey_order {fsid fsid' : UInt32} {path path' : Bytes}
    {revision revision' : UInt64} {key key' : Bytes}
    (h : pathVersionKey fsid path revision = some key)
    (h' : pathVersionKey fsid' path' revision' = some key') :
    (key < key' ↔ Prod.Lex (· < ·) (Prod.Lex (· < ·) (· < ·))
        (fsid, trimPrefix 47 path, revision) (fsid', trimPrefix 47 path', revision')) ∧
      (key = key' ↔
        (fsid, trimPrefix 47 path, revision) = (fsid', trimPrefix 47 path', revision')) := by
  obtain ⟨hzero, rfl⟩ := pathVersionKey_eq_some h
  obtain ⟨hzero', rfl⟩ := pathVersionKey_eq_some h'
  have hlength : (be32 fsid).length = (be32 fsid').length := by rw [length_be32, length_be32]
  constructor
  · rw [append_lt_append_left_iff, append_lt_append_iff hlength,
      terminated_lt_iff hzero hzero', be32_order.lt_iff, be64_order.lt_iff, Prod.lex_iff,
      Prod.lex_iff, be32_order.injective.eq_iff]
  · rw [List.append_cancel_left_eq, Prod.mk.injEq, Prod.mk.injEq]
    constructor
    · intro heq
      obtain ⟨hfsid, hrest⟩ := List.append_inj heq hlength
      obtain ⟨hpath, hrevision⟩ := (terminated_inj hzero hzero').mp hrest
      exact ⟨be32_order.injective hfsid, hpath, be64_order.injective hrevision⟩
    · intro heq
      rw [heq.1, heq.2.1, heq.2.2]

def pathVersionPrefix (fsid : UInt32) (path : Bytes) : Option Bytes :=
  let path := trimPrefix 47 path
  if path.isEmpty || path.length > maxPathIndexPathBytes || path.contains 0 then none
  else some (ascii "pv:" ++ (be32 fsid ++ (path ++ [0])))

def pathVersionSubtreePrefix (fsid : UInt32) (path : Bytes) : Option Bytes :=
  let path := trimPrefix 47 path
  if path.isEmpty || path.length ≥ maxPathIndexPathBytes || path.contains 0 then none
  else some (ascii "pv:" ++ (be32 fsid ++ (path ++ [47])))

theorem pathVersionPrefix_eq_some {path text : Bytes}
    (h : pathVersionPrefix fsid path = some text) :
    0 ∉ trimPrefix 47 path ∧
      text = ascii "pv:" ++ (be32 fsid ++ (trimPrefix 47 path ++ [0])) :=
  valid_path h

variable {parsed : ParsedKey}

/-- What an accepted path-version key consists of. -/
theorem parsePathVersionKey_eq_ok
    (htext : startsWith key "pv:" = true) (h : parsePathVersionKey key = .ok parsed) :
    parsed.kind = .pathVersion ∧ 0 ∉ parsed.path ∧
      key = ascii "pv:" ++ (be32 parsed.fsid ++ (parsed.path ++ 0 :: be64 parsed.revision)) := by
  have hrebuilds := rebuilds_pathVersion htext h
  unfold parsePathVersionKey at h
  split at h
  · cases h
  next index hindex =>
    dsimp only at h
    split_ifs at h with hplace hrevision
    · cases h
    · cases h
    obtain rfl := Except.ok.inj h
    refine ⟨rfl, ?_, (Option.some.inj hrebuilds.base).symm⟩
    -- the path ends before the first zero byte
    obtain ⟨hlt, -, hfirst⟩ := List.findIdx?_eq_some_iff_getElem.mp hindex
    intro hzero
    obtain ⟨i, hi, hget⟩ := List.getElem_of_mem hzero
    have hindex : i < index := lt_of_lt_of_le hi (List.length_take_le _ _)
    apply hfirst i hindex
    simp only [field, List.getElem_take] at hget ⊢
    rw [hget]
    rfl

/-- An accepted key that begins with `pv:` is read as a version of a path. -/
theorem parseKey_pathVersion {rest : Bytes} (h : parseKey (ascii "pv:" ++ rest) = .ok parsed) :
    parsePathVersionKey (ascii "pv:" ++ rest) = .ok parsed := by
  rw [parseKey_eq] at h
  have h : parsePackKey (ascii "pv:" ++ rest) = .ok parsed := h
  have hother : ∀ size text, startsWith (ascii "pv:" ++ rest) text = false →
      hasShape (ascii "pv:" ++ rest) size text ≠ true := by
    intro size text hfalse htrue
    have hstarts := (hasShape_iff.mp htrue).2
    rw [hfalse] at hstarts
    cases hstarts
  unfold parsePackKey at h
  split_ifs at h with hpack hhistory hbucket hplacement hpath heligibility
  · exact absurd hpack (hother 34 "p:" rfl)
  · exact absurd hhistory (hother 51 "ph:" rfl)
  · exact absurd hbucket (hother 21 "pb:" rfl)
  · exact absurd (Bool.and_eq_true_iff.mp hplacement).1 (hother 44 "pl:" rfl)
  · exact h
  · exact absurd heligibility (hother 35 "pe:" rfl)
  · cases h

/-- What a key behind a text that begins with `pv:` and a file system is a version of. -/
theorem parseKey_below {path key : Bytes}
    (hbegins : ascii "pv:" ++ (be32 fsid ++ path) <+: key) (h : parseKey key = .ok parsed) :
    parsed.kind = .pathVersion ∧ parsed.fsid = fsid ∧ 0 ∉ parsed.path ∧
      path <+: parsed.path ++ 0 :: be64 parsed.revision := by
  obtain ⟨rest, rfl⟩ := hbegins
  rw [List.append_assoc] at h
  have hparse := parseKey_pathVersion h
  obtain ⟨hkind, hzero, hkey⟩ := parsePathVersionKey_eq_ok rfl hparse
  have hkey := List.append_cancel_left hkey
  rw [List.append_assoc] at hkey
  obtain ⟨hfsid, hpath⟩ := List.append_inj hkey (by rw [length_be32, length_be32])
  exact ⟨hkind, (be32_order.injective hfsid).symm, hzero, rest, hpath⟩

/-- An accepted key behind the prefix of a path is a version of that path. -/
theorem version_of_pathVersionPrefix {path text key : Bytes}
    (htext : pathVersionPrefix fsid path = some text) (hbegins : text <+: key)
    (h : parseKey key = .ok parsed) :
    parsed.kind = .pathVersion ∧ parsed.fsid = fsid ∧ parsed.path = trimPrefix 47 path := by
  obtain ⟨hnozero, rfl⟩ := pathVersionPrefix_eq_some htext
  obtain ⟨hkind, hfsid, hzero, rest, hpath⟩ := parseKey_below hbegins h
  rw [List.append_assoc] at hpath
  exact ⟨hkind, hfsid, ((terminated_inj hnozero hzero).mp hpath).1.symm⟩

/-- An accepted key behind the prefix of a subtree is a version of a path in it. -/
theorem version_of_pathVersionSubtreePrefix {path text key : Bytes}
    (htext : pathVersionSubtreePrefix fsid path = some text) (hbegins : text <+: key)
    (h : parseKey key = .ok parsed) :
    parsed.kind = .pathVersion ∧ parsed.fsid = fsid ∧
      ∃ name, parsed.path = trimPrefix 47 path ++ 47 :: name := by
  obtain ⟨hnozero, rfl⟩ := valid_path htext
  obtain ⟨hkind, hfsid, hzero, rest, hpath⟩ := parseKey_below hbegins h
  refine ⟨hkind, hfsid, ?_⟩
  rcases List.append_eq_append_iff.mp hpath with ⟨name, hname, -⟩ | ⟨cut, hcut, hrest⟩
  · exact ⟨name, by rw [hname, List.append_assoc]; rfl⟩
  -- the text would reach beyond the zero byte that ends the path
  cases cut with
  | nil =>
    rw [List.append_nil] at hcut
    exact ⟨[], hcut.symm⟩
  | cons byte cut =>
    obtain ⟨rfl, -⟩ := List.cons.inj hrest
    have hmem : (0 : UInt8) ∈ trimPrefix 47 path ++ [47] := by
      rw [hcut]
      exact List.mem_append_right _ (.head _)
    rcases List.mem_append.mp hmem with hmem | hmem
    · exact absurd hmem hnozero
    · exact absurd (List.mem_singleton.mp hmem) (by decide)

/-! ## The order of the keys -/

/-- The keys are in the order of their tuples of fields, where the path of a path version is
taken without one leading slash; an accepted key behind the prefix of a path is a version of
that path, and behind the prefix of a subtree one of a path that continues the path with a
slash. -/
theorem keys_in_field_order :
    OrderEncodes (fun x : UInt64 × UInt64 × ID => packHistoryKey x.1 x.2.1 x.2.2)
      (Prod.Lex (· < ·) (Prod.Lex (· < ·) (· < ·))) 51 ∧
    OrderEncodes
      (fun x : UInt64 × UInt64 × ID × UInt64 => verificationEventKey x.1 x.2.1 x.2.2.1 x.2.2.2)
      (Prod.Lex (· < ·) (Prod.Lex (· < ·) (Prod.Lex (· < ·) (· < ·)))) 59 ∧
    OrderEncodes (fun x : UInt64 × ID => snapshotCommitKey x.1 x.2)
      (Prod.Lex (· < ·) (· < ·)) 44 ∧
    OrderEncodes (fun x : UInt32 × UInt64 × UInt64 => inodeRevisionKey x.1 x.2.1 x.2.2)
      (Prod.Lex (· < ·) (Prod.Lex (· < ·) (· < ·))) 23 ∧
    OrderEncodes (fun x : Time × ID × UInt64 => placementDeleteQueueKey x.1.val x.2.1 x.2.2)
      (Prod.Lex (· < ·) (Prod.Lex (· < ·) (· < ·))) 53 ∧
    (∀ (x y : AnalyticsGranularity × Int64 × PackTier) (key key' : Bytes),
      growthTimeKey x.1 x.2.1 x.2.2 = some key → growthTimeKey y.1 y.2.1 y.2.2 = some key' →
      (key < key' ↔ Prod.Lex (· < ·) (Prod.Lex (· < ·) (· < ·)) x y) ∧ (key = key' ↔ x = y)) ∧
    (∀ (fsid fsid' : UInt32) (path path' : Bytes) (revision revision' : UInt64)
      (key key' : Bytes), pathVersionKey fsid path revision = some key →
      pathVersionKey fsid' path' revision' = some key' →
      (key < key' ↔ Prod.Lex (· < ·) (Prod.Lex (· < ·) (· < ·))
          (fsid, trimPrefix 47 path, revision) (fsid', trimPrefix 47 path', revision')) ∧
        (key = key' ↔
          (fsid, trimPrefix 47 path, revision) = (fsid', trimPrefix 47 path', revision'))) ∧
    (∀ (fsid : UInt32) (path text key : Bytes) (parsed : ParsedKey),
      pathVersionPrefix fsid path = some text → text <+: key → parseKey key = .ok parsed →
      parsed.kind = .pathVersion ∧ parsed.fsid = fsid ∧ parsed.path = trimPrefix 47 path) ∧
    (∀ (fsid : UInt32) (path text key : Bytes) (parsed : ParsedKey),
      pathVersionSubtreePrefix fsid path = some text → text <+: key →
      parseKey key = .ok parsed →
      parsed.kind = .pathVersion ∧ parsed.fsid = fsid ∧
        ∃ name, parsed.path = trimPrefix 47 path ++ 47 :: name) :=
  ⟨(be64_order.append (be64_order.append idBytes_order)).text (ascii "ph:"),
    (be64_order.append (be64_order.append (idBytes_order.append be64_order))).text (ascii "ve:"),
    (be64_order.append (idBytes_order.text colon)).text (ascii "sc:"),
    (be32_order.append (be64_order.append be64_order)).text (ascii "iv:"),
    (time_order.append ((idBytes_order.append (be64_order.text colon)).text colon)).text
      (ascii "dq:"),
    fun _ _ _ _ hx hy => growthTimeKey_order hx hy,
    fun _ _ _ _ _ _ _ _ h h' => pathVersionKey_order h h',
    fun _ _ _ _ _ htext hbegins h => version_of_pathVersionPrefix htext hbegins h,
    fun _ _ _ _ _ htext hbegins h => version_of_pathVersionSubtreePrefix htext hbegins h⟩

/-- The path `/b` comes before `a`, but its key, which is that of `b`, comes after; and the
key of `a/`, which names no path below `a`, is behind the prefix of the subtree of `a`. -/
theorem pathVersionKey_ignores_slash :
    (∃ key key', pathVersionKey 1 (ascii "/b") 1 = some key ∧
      pathVersionKey 1 (ascii "a") 1 = some key' ∧ ascii "/b" < ascii "a" ∧ ¬ key < key') ∧
    ∃ key text, pathVersionKey 1 (ascii "a/") 1 = some key ∧
      pathVersionSubtreePrefix 1 (ascii "a") = some text ∧ text <+: key ∧
      parseKey key =
        .ok { kind := .pathVersion, fsid := 1, path := ascii "a/", revision := 1 } :=
  ⟨⟨_, _, rfl, rfl, by decide, by decide⟩, ⟨_, _, rfl, rfl, by decide, by decide +kernel⟩⟩

/-! ## Overflow records

A path above the limit is stored under the name that `overflowPath` makes of its hash, as the
versions of a path of that name would be. -/

theorem hexDigit_ne_zero {value : Nat} (h : value < 16) : hexDigit value ≠ 0 := by
  revert value
  decide

theorem zero_not_mem_overflowPath (sha256 : Bytes → ID) (path : Bytes) :
    0 ∉ overflowPath sha256 path := by
  intro hzero
  rcases List.mem_append.mp hzero with hzero | hzero
  · revert hzero
    decide
  obtain ⟨byte, -, hbyte⟩ := List.mem_flatMap.mp hzero
  have hlt := byte.toNat_lt
  simp only [List.mem_cons, List.not_mem_nil, or_false] at hbyte
  rcases hbyte with hbyte | hbyte
  · exact hexDigit_ne_zero (by omega) hbyte.symm
  · exact hexDigit_ne_zero (by omega) hbyte.symm

theorem length_overflowPath (sha256 : Bytes → ID) (path : Bytes) :
    (overflowPath sha256 path).length = 41 := by
  have htext : (ascii "overflow/").length = 9 := rfl
  simp [overflowPath, hexEncode, List.length_flatMap, htext]

/-- The name of a path's overflow records is a path within the limit. -/
theorem pathOverflowKey_eq_some (sha256 : Bytes → ID) (fsid : UInt32) (path : Bytes)
    (revision : UInt64) :
    pathOverflowKey sha256 fsid path revision = some (ascii "pv:" ++ (be32 fsid ++
      (overflowPath sha256 path ++ 0 :: be64 revision))) := by
  have htrim : trimPrefix 47 (overflowPath sha256 path) = overflowPath sha256 path := rfl
  have hlength := length_overflowPath sha256 path
  have hne : overflowPath sha256 path ≠ [] := List.length_pos_iff.mp (by omega)
  simp [pathOverflowKey, pathVersionKey, htrim, hlength, hne, maxPathIndexPathBytes,
    zero_not_mem_overflowPath]

/-- The overflow records of a path stay apart from the versions of another exactly if the
latter is not the name under which the former is stored. -/
theorem pathOverflowKey_apart_iff (sha256 : Bytes → ID) (path other : Bytes) :
    (∀ fsid fsid' revision key, pathOverflowKey sha256 fsid path revision = some key →
      (∀ revision', pathVersionKey fsid' other revision' ≠ some key) ∧
        ∀ text, pathVersionPrefix fsid' other = some text → ¬ text <+: key) ↔
      trimPrefix 47 other ≠ overflowPath sha256 path := by
  constructor
  · intro hapart hname
    apply (hapart 0 0 0 _ (pathOverflowKey_eq_some sha256 0 path 0)).1 0
    rw [← pathOverflowKey_eq_some, pathOverflowKey, pathVersionKey, hname]
    rfl
  · intro hname fsid fsid' revision key hkey
    constructor
    · intro revision' hversion
      have hfields := (pathVersionKey_order hversion hkey).2.mp rfl
      exact hname (Prod.mk.inj (Prod.mk.inj hfields).2).1
    · intro text htext hbegins
      obtain ⟨hzero, rfl⟩ := pathVersionPrefix_eq_some htext
      obtain ⟨hzero', rfl⟩ := pathVersionKey_eq_some hkey
      obtain ⟨rest, hrest⟩ := hbegins
      rw [List.append_assoc, List.append_assoc, List.append_assoc] at hrest
      have hpath := List.append_inj_right (List.append_cancel_left hrest)
        (by rw [length_be32, length_be32])
      exact hname ((terminated_inj hzero hzero').mp hpath).1

/-- Whatever the hash, some path above the limit shares its overflow key with one within it. -/
theorem pathOverflowKey_shared :
    ¬∃ sha256 : Bytes → ID, ∀ path other : Bytes, maxPathIndexPathBytes < path.length →
      other.length ≤ maxPathIndexPathBytes →
      pathOverflowKey sha256 0 path 1 ≠ pathVersionKey 0 other 1 := by
  rintro ⟨sha256, hapart⟩
  refine hapart (List.replicate 4097 97) (overflowPath sha256 (List.replicate 4097 97)) ?_ ?_ rfl
  · rw [List.length_replicate]
    decide
  · rw [length_overflowPath]
    decide

end Vaultic.Wire
