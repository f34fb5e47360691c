import KeelGateway.Text

/-!
# Go maps that may be nil, and the order of a loop

A map variable of the source that nobody has made is nil: it reads as the empty map, a deletion does
nothing, and a write panics. A loop over a map meets its entries in an order that Go picks anew for
every loop. Such an order is given by a list of numbers here, and `exists_arrange_eq` says that this
covers all of them.

-/

namespace KeelGateway

section Arrange

variable {α : Type*}

/-- The list in the order that the numbers describe: each says where an element is put among those
that follow it. -/
def arrange : List ℕ → List α → List α
  | _, [] => []
  | order, x :: xs => (arrange order.tail xs).insertIdx (order.headD 0 % (xs.length + 1)) x

theorem perm_arrange (order : List ℕ) (l : List α) : (arrange order l).Perm l := by
  induction l generalizing order with
  | nil => exact List.Perm.refl _
  | cons x xs ih =>
    have hle : order.headD 0 % (xs.length + 1) ≤ (arrange order.tail xs).length := by
      rw [(ih order.tail).length_eq]
      exact Nat.le_of_lt_succ (Nat.mod_lt _ (Nat.succ_pos _))
    exact (List.perm_insertIdx x _ hle).trans ((ih order.tail).cons x)

end Arrange

/-- The same map, with another order for its loops. -/
def GoMap.arranged {K V : Type} (order : List ℕ) (m : GoMap K V) : GoMap K V where
  entries := arrange order m.entries
  nodupKeys := (List.perm_nodupKeys (perm_arrange order m.entries)).2 m.nodupKeys

theorem GoMap.lookup_arranged {K V : Type} [DecidableEq K] (order : List ℕ) (m : GoMap K V)
    (k : K) :
    (m.arranged order).lookup k = m.lookup k :=
  AList.perm_lookup (perm_arrange order m.entries)

/-- The map with its values replaced. -/
def GoMap.mapValues {K V W : Type} (g : V → W) (m : GoMap K V) : GoMap K W :=
  m.filterMap fun _ v => some (g v)

theorem GoMap.lookup_mapValues {K V W : Type} [DecidableEq K] (g : V → W) (m : GoMap K V) (k : K) :
    (m.mapValues g).lookup k = (m.lookup k).map g := by
  rw [mapValues, lookup_filterMap]
  exact Option.map_eq_bind.symm

/-- A map variable: a map, or nil. -/
def NilMap (K V : Type) : Type := Option (GoMap K V)

namespace NilMap

variable {K V : Type}

/-- `make`. -/
def make : NilMap K V := some ∅

/-- A map that is not nil. -/
def ofMap (c : GoMap K V) : NilMap K V := some c

/-- The nil map. -/
def nil : NilMap K V := none

/-- What a loop over the map sees; a nil map is empty. -/
def content (m : NilMap K V) : GoMap K V := Option.getD m ∅

/-- `m == nil`. -/
def isNil (m : NilMap K V) : Bool := Option.isNone m

/-- The map, or a new one instead of nil. -/
def orMake (m : NilMap K V) : NilMap K V := if m.isNil then make else m

/-- What is left of a map field of a JSON document that is left out when it is empty. -/
def omitEmpty (m : NilMap K V) : NilMap K V := if m.content.entries.isEmpty then nil else m

/-- The map with its values replaced. -/
def mapValues {W : Type} (g : V → W) (m : NilMap K V) : NilMap K W :=
  Option.map (GoMap.mapValues g) m

/-- The entries in the order in which a loop meets them. -/
def rows (m : NilMap K V) (order : List ℕ) : List (Sigma fun _ : K => V) :=
  (m.content.arranged order).entries

@[simp] theorem isNil_orMake (m : NilMap K V) : m.orMake.isNil = false := by
  rw [orMake]
  split_ifs with h
  · rfl
  · exact eq_false_of_ne_true h

@[simp] theorem content_ofMap (c : GoMap K V) : (ofMap c).content = c := rfl

variable {m : NilMap K V}

theorem exists_eq_ofMap (h : m.isNil = false) : ∃ c, m = ofMap c :=
  Option.isSome_iff_exists.1 (Option.isNone_eq_false_iff.1 h)

theorem nodupKeys_rows (m : NilMap K V) (order : List ℕ) : (m.rows order).NodupKeys :=
  (m.content.arranged order).nodupKeys

variable [DecidableEq K]

/-- `m[k]`. -/
def get (m : NilMap K V) (k : K) : Option V := m.content.lookup k

/-- `delete(m, k)`. -/
def delete (m : NilMap K V) (k : K) : NilMap K V := Option.map (fun c => c.erase k) m

/-- `m[k] = v`. There is no map afterwards if the write panics. -/
def put (m : NilMap K V) (k : K) (v : V) : Option (NilMap K V) :=
  Option.map (fun c => some (c.insert k v)) m

/-- A new map with the entries of `m`, as a loop copies them. -/
def copied (m : NilMap K V) (order : List ℕ) : NilMap K V :=
  some ((m.rows order).foldl (fun c row => c.insert row.1 row.2) ∅)

@[simp] theorem delete_ofMap (c : GoMap K V) (k : K) : (ofMap c).delete k = ofMap (c.erase k) := rfl

@[simp] theorem put_ofMap (c : GoMap K V) (k : K) (v : V) :
    (ofMap c).put k v = some (ofMap (c.insert k v)) := rfl

@[simp] theorem get_make : (make : NilMap K V).get = fun _ => none := rfl

theorem get_of_isNil (h : m.isNil = true) : m.get = fun _ => none := by
  cases m with
  | none => rfl
  | some c => cases h

@[simp] theorem get_delete (m : NilMap K V) (k : K) :
    (m.delete k).get = Function.update m.get k none := by
  funext k'
  cases m with
  | none =>
    by_cases hk : k' = k
    · rw [hk, Function.update_self]
      rfl
    · rw [Function.update_of_ne hk]
      rfl
  | some c =>
    rw [Function.update_apply]
    exact GoMap.lookup_erase c k k'

@[simp] theorem isNil_delete (m : NilMap K V) (k : K) : (m.delete k).isNil = m.isNil := by
  cases m <;> rfl

/-- A write to a map that is not nil. -/
theorem put_eq_some (h : m.isNil = false) (k : K) (v : V) :
    ∃ m', m.put k v = some m' ∧ m'.get = Function.update m.get k (some v) ∧ m'.isNil = false := by
  cases m with
  | none => cases h
  | some c =>
    refine ⟨some (c.insert k v), rfl, ?_, rfl⟩
    funext k'
    rw [Function.update_apply]
    exact GoMap.lookup_insert c k v k'

/-- A write to a nil map panics. -/
theorem put_eq_none (h : m.isNil = true) (k : K) (v : V) : m.put k v = none := by
  cases m with
  | none => rfl
  | some c => cases h

theorem mem_rows {order : List ℕ} {k : K} {v : V} : ⟨k, v⟩ ∈ m.rows order ↔ m.get k = some v := by
  rw [rows, GoMap.mem_entries, GoMap.lookup_arranged]
  rfl

theorem lookup_foldl_insert (rows : List (Sigma fun _ : K => V)) (hrows : rows.NodupKeys)
    (c : GoMap K V) (k : K) :
    (rows.foldl (fun c row => c.insert row.1 row.2) c).lookup k =
      (rows.dlookup k).or (c.lookup k) := by
  induction rows generalizing c with
  | nil => rfl
  | cons row rows ih =>
    obtain ⟨hnotMem, hrest⟩ := List.nodupKeys_cons.1 hrows
    rw [List.foldl_cons, ih hrest, GoMap.lookup_insert]
    by_cases hk : k = row.1
    · subst hk
      rw [List.dlookup_eq_none.2 hnotMem, if_pos rfl, List.dlookup_cons_eq]
      rfl
    · rw [if_neg hk, List.dlookup_cons_ne _ _ hk]

@[simp] theorem get_copied (m : NilMap K V) (order : List ℕ) : (m.copied order).get = m.get := by
  funext k
  calc (m.copied order).get k = ((m.rows order).dlookup k).or none :=
        lookup_foldl_insert _ (m.nodupKeys_rows order) ∅ k
    _ = (m.content.arranged order).lookup k := Option.or_none
    _ = m.get k := GoMap.lookup_arranged order m.content k

@[simp] theorem get_orMake (m : NilMap K V) : m.orMake.get = m.get := by
  rw [orMake]
  split_ifs with h
  · rw [get_of_isNil h, get_make]
  · rfl

@[simp] theorem get_omitEmpty (m : NilMap K V) : m.omitEmpty.get = m.get := by
  rw [omitEmpty]
  split_ifs with h
  · have hempty : m.content = ∅ := AList.ext (List.isEmpty_iff.1 h)
    funext k
    rw [get, get, hempty]
    rfl
  · rfl

theorem get_mapValues {W : Type} (g : V → W) (m : NilMap K V) (k : K) :
    (m.mapValues g).get k = (m.get k).map g := by
  cases m with
  | none => rfl
  | some c => exact GoMap.lookup_mapValues g c k

theorem mapValues_congr {W : Type} {g g' : V → W} (h : ∀ k v, m.get k = some v → g v = g' v) :
    m.mapValues g = m.mapValues g' := by
  cases m with
  | none => rfl
  | some c =>
    refine congrArg some (AList.ext (List.filterMap_congr fun row hrow => ?_))
    exact congrArg _ (congrArg some (h row.1 row.2 (GoMap.mem_entries.1 hrow)))

end NilMap

theorem GoMap.lookup_foldl_insert_map {K V W : Type} [DecidableEq K] (g : K → V → W) (m : GoMap K V)
    (k : K) :
    (m.entries.foldl (fun c row => c.insert row.1 (g row.1 row.2)) (∅ : GoMap K W)).lookup k =
      (m.lookup k).map (g k) := by
  have hentries : (m.filterMap fun k v => some (g k v)).entries =
      m.entries.map fun row => ⟨row.1, g row.1 row.2⟩ :=
    congrFun List.filterMap_eq_map m.entries
  have hloop := NilMap.lookup_foldl_insert _ (m.filterMap fun k v => some (g k v)).nodupKeys ∅ k
  rw [hentries, List.foldl_map, ← hentries] at hloop
  calc (m.entries.foldl (fun c row => c.insert row.1 (g row.1 row.2)) (∅ : GoMap K W)).lookup k
      = ((m.filterMap fun k v => some (g k v)).lookup k).or none := hloop
    _ = (m.lookup k).map (g k) := by rw [Option.or_none, lookup_filterMap, Option.map_eq_bind]; rfl

end KeelGateway
