/-
  Lib/Codec.lean  —  writers and readers of byte strings, and what it means that one
  reads back what the other wrote.

  An `Encoder` appends to the bytes written so far; a `Decoder` takes bytes off the
  ones left.  Both may fail with a text.

  `RoundTrips rest write read value` is the relation the record proofs are made of:
  whenever `write` succeeds, `read` applied to what it wrote, with `rest` behind it,
  returns `value` and leaves exactly `rest`.  A field's rule holds for every `rest`, so
  rules compose along the sequence of fields (`RoundTrips.bind`); a reader that asks
  whether anything is left is only right with the `rest` it is used with.

  `Appends write size` says how much a writer appends.  A reader that checks a count
  against the length of its whole input needs it.
-/
import Vaultic.Lib.Bytes
import Vaultic.Lib.Result

set_option autoImplicit false

namespace Vaultic.Lib

abbrev Bytes := List UInt8

/-- Appends to the bytes written so far. -/
abbrev Encoder := StateT Bytes (Result) Unit

/-- Takes bytes off the ones left. -/
abbrev Decoder (α : Type) : Type := StateT Bytes (Result) α

variable {α β : Type}

/-- Go on if the check succeeded. -/
def check (result : Result Unit) : StateT Bytes (Result) Unit :=
  StateT.lift result

/-- Read with another text for a failure. -/
def named (text : String) (read : Decoder α) : Decoder α := fun bytes =>
  match read bytes with
  | .ok result => .ok result
  | .error _ => .error text

/-- Whether all bytes are read. -/
def atEnd : Decoder Bool := fun bytes => .ok (bytes.isEmpty, bytes)

/-- Read what may be missing at the end. -/
def orDefault (default : α) (read : Decoder α) : Decoder α := do
  let ended ← atEnd
  if ended then pure default else read

/-- Write each element, seeing the one before. -/
def writeChain (write : Option α → α → Encoder) : Option α → List α → Encoder
  | _, [] => pure ()
  | previous, x :: xs => do
    write previous x
    writeChain write (some x) xs

/-- Read `count` elements, seeing the one before. -/
def readChain (read : Option α → Decoder α) : Option α → Nat → Decoder (List α)
  | _, 0 => pure []
  | previous, count + 1 => do
    let x ← read previous
    let xs ← readChain read (some x) count
    pure (x :: xs)

def writeEach (write : α → Encoder) (xs : List α) : Encoder :=
  writeChain (fun _ => write) none xs

def readEach (read : Decoder α) (count : Nat) : Decoder (List α) :=
  readChain (fun _ => read) none count

theorem check_run_eq_ok {result : Result Unit} {bytes left : Bytes} {value : Unit}
    (h : (check result).run bytes = .ok (value, left)) : result = .ok () := by
  cases result with
  | error text => cases h
  | ok _ => rfl

/-- Every element is linked to the one before it, the first to `previous`. -/
def Linked (link : Option α → α → Prop) : Option α → List α → Prop
  | _, [] => True
  | previous, x :: xs => link previous x ∧ Linked link (some x) xs

variable {previous : Option α} {xs : List α}

theorem Linked.imp {link link' : Option α → α → Prop}
    (himp : ∀ previous x, link previous x → link' previous x) (h : Linked link previous xs) :
    Linked link' previous xs := by
  induction xs generalizing previous with
  | nil => trivial
  | cons x xs ih => exact ⟨himp previous x h.1, ih h.2⟩

theorem linked_mem (xs : List α) (previous : Option α) :
    Linked (fun _ x => x ∈ xs) previous xs := by
  induction xs generalizing previous with
  | nil => trivial
  | cons x xs ih =>
    exact ⟨.head _, (ih (some x)).imp fun _ _ => List.mem_cons_of_mem x⟩

/-- In a list ordered by `before`, every element is after the one before it. -/
theorem linked_of_pairwise {before : α → α → Prop} (h : xs.Pairwise before) :
    Linked (fun previous x => ∀ y ∈ previous, before y x) none xs := by
  suffices hall : ∀ previous : Option α, (previous.toList ++ xs).Pairwise before →
      Linked (fun previous x => ∀ y ∈ previous, before y x) previous xs from hall none h
  clear h
  induction xs with
  | nil => intro previous _; trivial
  | cons x xs ih =>
    intro previous hpairwise
    refine ⟨fun y hy => ?_, ih (some x) ?_⟩
    · rw [List.pairwise_append] at hpairwise
      exact hpairwise.2.2 y (Option.mem_toList.mpr hy) x (.head _)
    · exact (List.pairwise_append.mp hpairwise).2.1

theorem run_bind (first : StateT Bytes (Result) α)
    (next : α → StateT Bytes (Result) β) (bytes : Bytes) :
    (first >>= next).run bytes = first.run bytes >>= fun result =>
      (next result.1).run result.2 := rfl

theorem bind_run_eq_ok {first : StateT Bytes (Result) α}
    {next : α → StateT Bytes (Result) β} {bytes : Bytes} {result : β × Bytes}
    (h : (first >>= next).run bytes = .ok result) :
    ∃ value left, first.run bytes = .ok (value, left) ∧ (next value).run left = .ok result := by
  rw [run_bind] at h
  cases hfirst : first.run bytes with
  | error text => rw [hfirst] at h; cases h
  | ok pair => rw [hfirst] at h; exact ⟨pair.1, pair.2, rfl, h⟩

variable {link : Option α → α → Prop} {count : Nat}

/-- What a chain reader returns is linked as each read makes it, and as long as asked. -/
theorem linked_of_readChain {read : Option α → Decoder α}
    (hread : ∀ previous bytes x left, (read previous).run bytes = .ok (x, left) → link previous x)
    {bytes left : Bytes} (h : (readChain read previous count).run bytes = .ok (xs, left)) :
    Linked link previous xs ∧ xs.length = count := by
  induction count generalizing previous bytes left xs with
  | zero =>
    cases h
    exact ⟨trivial, rfl⟩
  | succ count ih =>
    obtain ⟨x, middle, hx, h⟩ := bind_run_eq_ok h
    obtain ⟨tail, _, htail, h⟩ := bind_run_eq_ok h
    obtain ⟨hlinked, hlength⟩ := ih htail
    cases h
    exact ⟨⟨hread _ _ _ _ hx, hlinked⟩, congrArg Nat.succ hlength⟩

/-! ## How much a writer appends -/

/-- `write` appends `size` bytes if it succeeds. -/
def Appends (write : Encoder) (size : Nat) : Prop :=
  ∀ before written : Bytes, write.run before = .ok ((), written) →
    written.length = before.length + size

variable {size : Nat}

namespace Appends

variable {write write' : Encoder} {size size' : Nat}

theorem pure : Appends (Pure.pure ()) 0 := by
  intro before written hrun
  cases hrun
  rfl

theorem bind (hfirst : Appends write size) (hnext : Appends write' size') :
    Appends (write >>= fun _ => write') (size + size') := by
  intro before written hrun
  obtain ⟨_, middle, hwrite, hwrite'⟩ := bind_run_eq_ok hrun
  rw [hnext middle written hwrite', hfirst before middle hwrite, Nat.add_assoc]

variable {result : Result Unit}

theorem checked (h : Appends write size) : Appends (check result >>= fun _ => write) size := by
  intro before written hrun
  cases result with
  | error text => cases hrun
  | ok _ => exact h before written hrun

theorem checkLast : Appends (check result) 0 := by
  intro before written hrun
  cases result with
  | error text => cases hrun
  | ok _ => cases hrun; rfl

variable {writeItem : Option α → α → Encoder} {sizeItem : α → Nat}

theorem chain (hitem : ∀ previous item, Appends (writeItem previous item) (sizeItem item))
    (items : List α) (previous : Option α) :
    Appends (writeChain writeItem previous items) (items.map sizeItem).sum := by
  induction items generalizing previous with
  | nil => exact pure
  | cons item items ih =>
    rw [List.map_cons, List.sum_cons]
    exact (hitem previous item).bind (ih (some item))

theorem each {writeItem : α → Encoder} (hitem : ∀ item, Appends (writeItem item) (sizeItem item))
    (items : List α) : Appends (writeEach writeItem items) (items.map sizeItem).sum :=
  chain (fun _ => hitem) items none

/-- Items of one size. -/
theorem chainOf (hitem : ∀ previous item, Appends (writeItem previous item) size)
    (items : List α) (previous : Option α) :
    Appends (writeChain writeItem previous items) (items.length * size) := by
  have h := @chain _ _ (fun _ => size) hitem items previous
  rwa [List.map_const', List.sum_replicate_nat] at h

theorem eachOf {writeItem : α → Encoder}
    (hitem : ∀ item, Appends (writeItem item) size) (items : List α) :
    Appends (writeEach writeItem items) (items.length * size) :=
  chainOf (fun _ => hitem) items none

end Appends

/-! ## Round trips -/

/-- What `write` appends, `read` takes off again as `value`, with `rest` behind it. -/
def RoundTrips (rest : Bytes) (write : Encoder) (read : Decoder α) (value : α) : Prop :=
  ∀ before written : Bytes, write.run before = .ok ((), written) →
    ∃ bytes, written = before ++ bytes ∧ read.run (bytes ++ rest) = .ok (value, rest)

namespace RoundTrips

variable {rest : Bytes} {write write' : Encoder} {read : Decoder α} {value : α} {value' : β}

theorem pure : RoundTrips rest (Pure.pure ()) (Pure.pure value) value := by
  intro before written h
  cases h
  exact ⟨[], (List.append_nil before).symm, rfl⟩

variable {next : α → Decoder β}

/-- One field after another. -/
theorem bind (hfirst : ∀ {rest}, RoundTrips rest write read value)
    (hnext : RoundTrips rest write' (next value) value') :
    RoundTrips rest (write >>= fun _ => write') (read >>= next) value' := by
  intro before written h
  obtain ⟨_, middle, hwrite, hwrite'⟩ := bind_run_eq_ok h
  obtain ⟨late, hlate, hread'⟩ := hnext middle written hwrite'
  obtain ⟨early, hearly, hread⟩ := @hfirst (late ++ rest) before middle hwrite
  refine ⟨early ++ late, ?_, ?_⟩
  · rw [hlate, hearly, List.append_assoc]
  · rw [List.append_assoc, run_bind, hread]
    exact hread'

/-- The last field of a writer, after which the reader only computes. -/
theorem last (hfirst : RoundTrips rest write read value)
    (hnext : RoundTrips rest (Pure.pure ()) (next value) value') :
    RoundTrips rest write (read >>= next) value' := by
  intro before written h
  obtain ⟨bytes, hbytes, hread⟩ := hfirst before written h
  obtain ⟨none, hnone, hread'⟩ := hnext [] [] rfl
  have hnil : none = [] := (List.nil_append none).symm.trans hnone.symm
  rw [hnil, List.nil_append] at hread'
  refine ⟨bytes, hbytes, ?_⟩
  rw [run_bind, hread]
  exact hread'

variable {result : Result Unit}

/-- What the writer checks may be used for the rest of it. -/
theorem checkWrite (h : result = .ok () → RoundTrips rest write read value) :
    RoundTrips rest (check result >>= fun _ => write) read value := by
  intro before written hrun
  cases hresult : result with
  | error text => rw [hresult] at hrun; cases hrun
  | ok _ => rw [hresult] at hrun; exact h hresult before written hrun

/-- A check that the writer ends with. -/
theorem checkLast (h : result = .ok () → RoundTrips rest (Pure.pure ()) read value) :
    RoundTrips rest (check result) read value := by
  rw [← bind_pure (check result)]
  exact checkWrite h

/-- What the reader checks must hold of what was written. -/
theorem checkRead (hresult : result = .ok ()) (h : RoundTrips rest write read value) :
    RoundTrips rest write (check result >>= fun _ => read) value := by
  rw [hresult]
  exact h

theorem named {text : String} (h : RoundTrips rest write read value) :
    RoundTrips rest write (Lib.named text read) value := by
  intro before written hrun
  obtain ⟨bytes, hbytes, hread⟩ := h before written hrun
  refine ⟨bytes, hbytes, ?_⟩
  change (match read (bytes ++ rest) with
    | .ok result => Except.ok result
    | .error _ => Except.error text) = _
  rw [show read (bytes ++ rest) = .ok (value, rest) from hread]

variable {writeItem : Option α → α → Encoder} {readItem : Option α → Decoder α} {items : List α}
  {previous : Option α}

theorem chain (hitem : ∀ previous item, link previous item → ∀ rest,
      RoundTrips rest (writeItem previous item) (readItem previous) item)
    (hlinked : Linked link previous items) :
    RoundTrips rest (writeChain writeItem previous items)
      (readChain readItem previous items.length) items := by
  induction items generalizing previous with
  | nil => exact RoundTrips.pure
  | cons item items ih =>
    refine bind (hitem previous item hlinked.1 _) ?_
    exact last (ih hlinked.2) RoundTrips.pure

theorem each {writeItem : α → Encoder} {readItem : Decoder α}
    (hitem : ∀ item ∈ items, ∀ rest, RoundTrips rest (writeItem item) readItem item) :
    RoundTrips rest (writeEach writeItem items) (readEach readItem items.length) items :=
  chain (fun _ item hmem => hitem item hmem) (linked_mem items none)

/-- As many items as a count says that was read before. -/
theorem counted {writeItem : α → Encoder} {readItem : Decoder α} (hcount : count = items.length)
    (hitem : ∀ item ∈ items, ∀ rest, RoundTrips rest (writeItem item) readItem item) :
    RoundTrips rest (writeEach writeItem items) (readEach readItem count) items := by
  rw [hcount]
  exact each hitem

/-- The same where writing or reading an item looks at the one before. -/
theorem countedChain (hcount : count = items.length) (hitem : ∀ previous item rest,
      RoundTrips rest (writeItem previous item) (readItem previous) item) :
    RoundTrips rest (writeChain writeItem previous items) (readChain readItem previous count)
      items := by
  rw [hcount]
  exact chain (fun previous item _ => hitem previous item) (linked_mem items previous)

/-- A reader that asks whether anything is left finds what the writer is to append. -/
theorem notAtEnd {next : Bool → Decoder α} (happends : Appends write size)
    (hpos : 0 < size) (h : RoundTrips rest write (next false) value) :
    RoundTrips rest write (atEnd >>= next) value := by
  intro before written hrun
  obtain ⟨bytes, rfl, hread⟩ := h before written hrun
  have hlength := happends before _ hrun
  rw [List.length_append] at hlength
  have hempty : (bytes ++ rest).isEmpty = false := by
    cases bytes with
    | nil => rw [List.length_nil] at hlength; omega
    | cons byte bytes => rfl
  refine ⟨bytes, rfl, ?_⟩
  change (next (bytes ++ rest).isEmpty).run (bytes ++ rest) = _
  rw [hempty]
  exact hread

/-- What a writer appends is not taken to be missing. -/
theorem orDefault {default : α} (happends : Appends write size) (hpos : 0 < size)
    (h : RoundTrips rest write read value) :
    RoundTrips rest write (Lib.orDefault default read) value :=
  notAtEnd happends hpos h

end RoundTrips

/-! ## Stored values -/

/-- A way to store the values of a type: every accepted value in scope is read back, up to a
normalisation. -/
structure ValueCodec (α : Type) where
  marshal : α → Result Bytes
  unmarshal : Bytes → Result α
  normalized : α → α
  InScope : α → Prop
  unmarshal_marshal : ∀ {value : α} {data : Bytes}, InScope value → marshal value = .ok data →
    unmarshal data = .ok (normalized value)

/-- Every accepted value is read back as it was. -/
def ReadsBack (marshal : α → Result Bytes) (unmarshal : Bytes → Result α) : Prop :=
  ∀ ⦃value : α⦄ ⦃data : Bytes⦄, marshal value = .ok data → unmarshal data = .ok value

/-- A codec for all values, which come back in their normal form. -/
def ValueCodec.upTo {marshal : α → Result Bytes} {unmarshal : Bytes → Result α}
    (normalized : α → α) (h : ∀ {value : α} {data : Bytes}, marshal value = .ok data →
      unmarshal data = .ok (normalized value)) : ValueCodec α where
  marshal := marshal
  unmarshal := unmarshal
  normalized := normalized
  InScope _ := True
  unmarshal_marshal _ hdata := h hdata

/-- A codec for all values, which come back as they are. -/
def ValueCodec.exact {marshal : α → Result Bytes} {unmarshal : Bytes → Result α}
    (h : ReadsBack marshal unmarshal) : ValueCodec α := upTo id fun hdata => h hdata

end Vaultic.Lib
