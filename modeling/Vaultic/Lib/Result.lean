/-
  Lib/Result.lean  —  computations that may fail.

  Inversion lemmas for `Except`: what is known about the parts of a computation
  that returned, and what a scan that decodes each entry has seen.
-/
import Vaultic.Lib.Table

set_option autoImplicit false

namespace Vaultic.Lib

/-- A value, or the text of an error. -/
abbrev Result : Type → Type := Except String

variable {ε α β : Type}

variable {x : Except ε α} {f : α → Except ε β} {b : β}

/-- A sequence of computations returned exactly when each of its parts did. -/
theorem bind_eq_ok : (x >>= f) = .ok b ↔ ∃ a, x = .ok a ∧ f a = .ok b := by
  cases x <;> simp [bind, Except.bind]

theorem of_bind {x : Except ε α} {f : α → Except ε β} (h : (x >>= f) = .ok b) :
    ∃ a, x = .ok a ∧ f a = .ok b := bind_eq_ok.mp h

theorem map_eq_ok {f : α → β} : x.map f = .ok b ↔ ∃ a, x = .ok a ∧ f a = b := by
  cases x <;> simp [Except.map]

variable {a : α}

theorem guard_eq_ok {c : Prop} [Decidable c] {e : ε} :
    (if c then .error e else x) = .ok a ↔ ¬c ∧ x = .ok a := by
  by_cases hc : c <;> simp [hc]

/-- A computation that went on behind a check. -/
theorem of_guard {c : Prop} [Decidable c] {e : ε}
    (h : (if c then .error e else x) = .ok a) : ¬c ∧ x = .ok a := guard_eq_ok.mp h

theorem map_bind {γ : Type} (x : Except ε α) (f : α → Except ε β) (g : β → γ) :
    (x >>= f).map g = x >>= fun a => (f a).map g := by
  cases x <;> rfl

/-- Two computations that agree up to a view go on alike if what follows respects the
view. -/
theorem bind_congr_of_map {α' γ δ : Type} {y : Except ε α'} {f : α → γ} {g : α' → γ}
    {k : α → Except ε δ} {l : α' → Except ε δ} (h : x.map f = y.map g)
    (hk : ∀ a b, f a = g b → k a = l b) : x >>= k = y >>= l := by
  cases x with
  | error e =>
    cases y with
    | error e' => exact congrArg Except.error (Except.error.inj h)
    | ok b => cases h
  | ok a =>
    cases y with
    | error e => cases h
    | ok b => exact hk a b (Except.ok.inj h)

variable {bs : List β}

/-- Running a list of results keeps the first failure. -/
theorem mapM_id_eq_ok {l : List (Except ε β)} : l.mapM id = .ok bs ↔ l = bs.map .ok := by
  induction l generalizing bs with
  | nil =>
    simp only [List.mapM_nil, pure, Except.pure, Except.ok.injEq]
    cases bs <;> simp
  | cons x rest ih =>
    rw [List.mapM_cons, bind_eq_ok]
    constructor
    · rintro ⟨b, hx, h⟩
      obtain ⟨cs, hrest, hcons⟩ := of_bind h
      simp only [pure, Except.pure, Except.ok.injEq] at hcons
      rw [← hcons, List.map_cons, ← ih.mp hrest]
      exact congrArg (· :: rest) hx
    · intro h
      cases bs with
      | nil => simp at h
      | cons b cs =>
        simp only [List.map_cons, List.cons.injEq] at h
        exact ⟨b, h.1, bind_eq_ok.mpr ⟨cs, ih.mpr h.2, rfl⟩⟩

variable {l : List α}

/-- What a fallible traversal collected. -/
theorem mem_of_mapM_map (h : (l.map f).mapM id = .ok bs) : b ∈ bs ↔ ∃ a ∈ l, f a = .ok b := by
  rw [mapM_id_eq_ok] at h
  constructor
  · intro hb
    have hmem : (Except.ok b : Except ε β) ∈ l.map f := h ▸ List.mem_map_of_mem hb
    exact List.mem_map.mp hmem
  · rintro ⟨a, ha, hfa⟩
    have hmem : f a ∈ bs.map Except.ok := h ▸ List.mem_map_of_mem ha
    obtain ⟨b', hb', hok⟩ := List.mem_map.mp hmem
    rw [hfa] at hok
    cases hok
    exact hb'

/-- A traversal that returned collected a result for each item. -/
theorem ok_of_mapM_map (h : (l.map f).mapM id = .ok bs) (ha : a ∈ l) : ∃ b ∈ bs, f a = .ok b := by
  rw [mapM_id_eq_ok] at h
  have hmem : f a ∈ bs.map Except.ok := h ▸ List.mem_map_of_mem ha
  obtain ⟨b, hb, hok⟩ := List.mem_map.mp hmem
  exact ⟨b, hb, hok.symm⟩

/-- A traversal whose items return known results. -/
theorem mapM_map_eq_map {g : α → β} (h : (l.map f).mapM id = .ok bs)
    (hg : ∀ a ∈ l, ∀ {b}, f a = .ok b → b = g a) : bs = l.map g := by
  rw [mapM_id_eq_ok] at h
  induction l generalizing bs with
  | nil => simpa using h
  | cons a l ih =>
    cases bs with
    | nil => cases h
    | cons b bs =>
      obtain ⟨hb, hbs⟩ := List.cons.inj h
      rw [List.map_cons, hg a (.head _) hb, ih hbs fun x hx => hg x (.tail _ hx)]

/-- A traversal returns when it does for each item. -/
theorem exists_mapM_map (h : ∀ a ∈ l, ∃ b, f a = .ok b) : ∃ bs, (l.map f).mapM id = .ok bs := by
  induction l with
  | nil => exact ⟨[], rfl⟩
  | cons a l ih =>
    obtain ⟨b, hb⟩ := h a (.head _)
    obtain ⟨bs, hbs⟩ := ih fun x hx => h x (.tail _ hx)
    refine ⟨b :: bs, mapM_id_eq_ok.mpr ?_⟩
    rw [List.map_cons, List.map_cons, hb, mapM_id_eq_ok.mp hbs]

/-- A traversal that succeeds on each item. -/
theorem mapM_eq_map {g : α → β} (h : ∀ a ∈ l, f a = .ok (g a)) : l.mapM f = .ok (l.map g) := by
  induction l with
  | nil => rfl
  | cons a l ih =>
    rw [List.mapM_cons, h a (.head _), ih fun x hx => h x (.tail _ hx)]
    rfl

/-- An invariant of the steps of a fallible fold holds of its result. -/
theorem foldlM_invariant {σ : Type} {step : σ → α → Except ε σ} (holds : σ → Prop)
    (hstep : ∀ {state item state'}, step state item = .ok state' → holds state → holds state')
    {items : List α} {state state' : σ} (h : items.foldlM step state = .ok state')
    (hstate : holds state) : holds state' := by
  induction items generalizing state with
  | nil =>
    cases h
    exact hstate
  | cons item rest ih =>
    obtain ⟨next, hnext, h⟩ := of_bind h
    exact ih h (hstep hnext hstate)

/-- A check of the value a computation returned; a failed computation does not pass. -/
def okAnd (r : Except ε α) (check : α → Bool) : Bool :=
  match r with
  | .ok a => check a
  | .error _ => false

theorem okAnd_eq_true {r : Except ε α} {check : α → Bool} :
    okAnd r check = true ↔ ∃ a, r = .ok a ∧ check a = true := by
  cases r <;> simp [okAnd]

namespace Table

variable {κ ν : Type} [DecidableEq κ]

/-- A scan whose visitor may fail: it returns what the visitor made of every
selected entry, or the first failure. -/
def collect (t : Table κ ν) (visit : κ → ν → Option (Except ε β)) : Except ε (List β) :=
  (t.scan visit).mapM id

variable {t : Table κ ν} {visit : κ → ν → Option (Except ε β)}

variable {bs : List β}

omit [DecidableEq κ] in
theorem collect_eq_ok : t.collect visit = .ok bs ↔ t.scan visit = bs.map .ok :=
  mapM_id_eq_ok

/-- What a scan that returned holds: the visits of the stored entries. -/
theorem mem_of_collect (h : t.collect visit = .ok bs) :
    b ∈ bs ↔ ∃ k v, t.lookup k = some v ∧ visit k v = some (.ok b) := by
  rw [collect_eq_ok] at h
  rw [← mem_scan, h]
  simp

/-- A scan that returned made no failing visit. -/
theorem visit_ok_of_collect (h : t.collect visit = .ok bs) {k : κ} {v : ν}
    {r : Except ε β} (hlook : t.lookup k = some v) (hvisit : visit k v = some r) :
    ∃ b ∈ bs, r = .ok b := by
  rw [collect_eq_ok] at h
  have hmem : r ∈ t.scan visit := mem_scan.mpr ⟨k, v, hlook, hvisit⟩
  rw [h] at hmem
  obtain ⟨b, hb, hr⟩ := List.mem_map.mp hmem
  exact ⟨b, hb, hr.symm⟩

/-- A scan of the entries whose key `select` accepts, each paired with its decoded
value. -/
def collectBy (t : Table κ ν) (select : κ → Option α) (decode : ν → Except ε β) :
    Except ε (List (α × β)) :=
  t.collect fun k v => (select k).map fun a => (decode v).map (a, ·)

variable {select : κ → Option α} {bs : List (α × β)} {decode : ν → Except ε β}

theorem mem_of_collectBy (h : t.collectBy select decode = .ok bs) :
    (a, b) ∈ bs ↔ ∃ k v, t.lookup k = some v ∧ select k = some a ∧ decode v = .ok b := by
  rw [mem_of_collect h]
  refine exists_congr fun k => exists_congr fun v => and_congr_right fun _ => ?_
  cases select k with
  | none => simp
  | some a' => cases hv : decode v <;> simp [Except.map]

/-- A scan that returned decoded every entry it selected. -/
theorem decode_ok_of_collectBy (h : t.collectBy select decode = .ok bs)
    {k : κ} {v : ν} (hlook : t.lookup k = some v) (hselect : select k = some a) :
    ∃ b, decode v = .ok b := by
  obtain ⟨pair, -, hpair⟩ := visit_ok_of_collect h hlook (by rw [hselect, Option.map_some])
  cases hv : decode v with
  | error e => simp [hv, Except.map] at hpair
  | ok b => exact ⟨b, rfl⟩

/-- A scan over one kind of key, whose values decode to what they wrap, collects
what the table has under the keys of that kind. -/
theorem mem_collectBy_iff (key : α → κ) {wrap : β → ν}
    (h : t.collectBy select decode = .ok bs) (hselect : ∀ k a, select k = some a ↔ k = key a)
    (hdecode : ∀ {v b}, decode v = .ok b → v = wrap b) (hwrap : Function.Injective wrap)
    : (a, b) ∈ bs ↔ t.lookup (key a) = some (wrap b) := by
  rw [mem_of_collectBy h]
  constructor
  · rintro ⟨k, v, hlook, hk, hv⟩
    rw [← (hselect k a).mp hk, ← hdecode hv]
    exact hlook
  · intro hlook
    have hk : select (key a) = some a := (hselect _ _).mpr rfl
    obtain ⟨decoded, hdecoded⟩ := decode_ok_of_collectBy h hlook hk
    obtain rfl := hwrap (hdecode hdecoded)
    exact ⟨_, _, hlook, hk, hdecoded⟩

end Table

end Vaultic.Lib
