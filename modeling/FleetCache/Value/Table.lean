import Std.Data.ExtTreeMap
import Std.Data.ExtTreeSet
import FleetCache.Value.Access

set_option autoImplicit false

namespace FleetCache

abbrev Table (α : Type) := Std.ExtTreeMap Atom α

abbrev AtomSet := Std.ExtTreeSet Atom

instance : Std.LawfulBEqOrd Atom where
  compare_eq_iff_beq {a b} := Atom.compare_eq_iff a b

namespace Table

variable {α : Type}

def put (table : Table α) (name : Atom) (a : α) : Table α :=
  table.insert (table.getKeyD name name) a

theorem compare_getKeyD (table : Table α) (name key : Atom) :
    (compare (table.getKeyD name name) key = .eq) = ((name == key) = true) := by
  have hform : compare (table.getKeyD name name) name = .eq := by
    by_cases h : name ∈ table
    · rw [← Std.ExtTreeMap.getKey_eq_getKeyD (h := h)]
      exact Std.ExtTreeMap.compare_getKey_self h
    · rw [Std.ExtTreeMap.getKeyD_eq_fallback h]
      exact Std.ReflCmp.compare_self
  rw [Std.TransCmp.congr_left hform, Atom.compare_eq_iff]

theorem getElem?_put (table : Table α) (name key : Atom) (a : α) :
    (table.put name a)[key]? = if name == key then some a else table[key]? := by
  simp only [put, Std.ExtTreeMap.getElem?_insert, compare_getKeyD]

theorem getKey?_put (table : Table α) (name key : Atom) (a : α) :
    (table.put name a).getKey? key =
      if name == key then some (table.getKeyD name name) else table.getKey? key := by
  simp only [put, Std.ExtTreeMap.getKey?_insert, compare_getKeyD]

theorem getElem?_congr (table : Table α) {a b : Atom} (h : (a == b) = true) : table[a]? = table[b]? :=
  Std.ExtTreeMap.getElem?_congr ((Atom.compare_eq_iff a b).2 h)

theorem getElem?_erase (table : Table α) (name key : Atom) :
    (table.erase name)[key]? = if name == key then none else table[key]? := by
  rw [Std.ExtTreeMap.getElem?_erase]
  simp only [Atom.compare_eq_iff]

theorem getKey?_erase (table : Table α) (name key : Atom) :
    (table.erase name).getKey? key = if name == key then none else table.getKey? key := by
  rw [Std.ExtTreeMap.getKey?_erase]
  simp only [Atom.compare_eq_iff]

theorem getElem?_map {β : Type} (table : Table α) (f : α → β) (key : Atom) :
    (table.map (fun _ a => f a))[key]? = table[key]?.map f := by
  rw [Std.ExtTreeMap.getElem?_map', Option.pmap_eq_map]

theorem mem_iff (table : Table α) (key : Atom) : key ∈ table ↔ ∃ a, table[key]? = some a := by
  rw [Std.ExtTreeMap.mem_iff_isSome_getElem?, Option.isSome_iff_exists]

theorem mem_put (table : Table α) (name key : Atom) (a : α) :
    key ∈ table.put name a ↔ (name == key) = true ∨ key ∈ table := by
  simp only [Std.ExtTreeMap.mem_iff_isSome_getElem?, getElem?_put]
  by_cases h : (name == key) = true <;> simp [h]

theorem mem_erase (table : Table α) (name key : Atom) :
    key ∈ table.erase name ↔ (name == key) = false ∧ key ∈ table := by
  simp only [Std.ExtTreeMap.mem_iff_isSome_getElem?, getElem?_erase]
  by_cases h : (name == key) = true <;> simp [h]

theorem mem_congr (table : Table α) {a b : Atom} (h : (a == b) = true) : a ∈ table ↔ b ∈ table :=
  Std.ExtTreeMap.mem_congr ((Atom.compare_eq_iff a b).2 h)

theorem eq_of_getKey?_of_getElem? {table other : Table α}
    (hkey : ∀ key, table.getKey? key = other.getKey? key) (h : ∀ key : Atom, table[key]? = other[key]?) :
    table = other := by
  refine Std.ExtTreeMap.ext_getKey_getElem? (fun key hk hk' => ?_) h
  exact Option.some.inj ((Std.ExtTreeMap.getKey?_eq_some_getKey hk).symm.trans
    ((hkey key).trans (Std.ExtTreeMap.getKey?_eq_some_getKey hk')))

theorem erase_of_not_mem {table : Table α} {name : Atom} (h : name ∉ table) : table.erase name = table := by
  have hnone (key : Atom) (hkey : (name == key) = true) : key ∉ table :=
    fun hmem => h ((mem_congr table hkey).2 hmem)
  refine eq_of_getKey?_of_getElem? (fun key => ?_) (fun key => ?_)
  · rw [getKey?_erase]
    split
    · rename_i hkey
      exact (Std.ExtTreeMap.getKey?_eq_none (hnone key hkey)).symm
    · rfl
  · rw [getElem?_erase]
    split
    · rename_i hkey
      exact (Std.ExtTreeMap.getElem?_eq_none (hnone key hkey)).symm
    · rfl

end Table

namespace AtomSet

def addAll (set : AtomSet) (more : List Atom) : AtomSet :=
  more.foldl (fun acc a => acc.insert a) set

def ofAtoms (items : List Atom) : AtomSet :=
  addAll ∅ items

theorem mem_insert (set : AtomSet) (a b : Atom) : b ∈ set.insert a ↔ (a == b) = true ∨ b ∈ set := by
  rw [Std.ExtTreeSet.mem_insert, Atom.compare_eq_iff]

theorem mem_erase (set : AtomSet) (a b : Atom) : b ∈ set.erase a ↔ (a == b) = false ∧ b ∈ set := by
  rw [Std.ExtTreeSet.mem_erase, ne_eq, Atom.compare_eq_iff, Bool.not_eq_true]

theorem mem_congr (set : AtomSet) {a b : Atom} (h : (a == b) = true) : a ∈ set ↔ b ∈ set :=
  Std.ExtTreeSet.mem_congr ((Atom.compare_eq_iff a b).2 h)

theorem get?_insert (set : AtomSet) (a b : Atom) :
    (set.insert a).get? b = if (a == b) = true ∧ a ∉ set then some a else set.get? b := by
  rw [Std.ExtTreeSet.get?_insert]
  simp only [Atom.compare_eq_iff]

theorem get?_erase (set : AtomSet) (a b : Atom) :
    (set.erase a).get? b = if a == b then none else set.get? b := by
  rw [Std.ExtTreeSet.get?_erase]
  simp only [Atom.compare_eq_iff]

theorem erase_of_not_mem {set : AtomSet} {a : Atom} (h : a ∉ set) : set.erase a = set := by
  refine Std.ExtTreeSet.ext_get? (fun b => ?_)
  rw [get?_erase]
  split
  · rename_i hb
    exact (Std.ExtTreeSet.get?_eq_none (fun hmem => h ((mem_congr set hb).2 hmem))).symm
  · rfl

theorem mem_addAll (set : AtomSet) (more : List Atom) (a : Atom) :
    a ∈ set.addAll more ↔ a ∈ set ∨ ∃ b ∈ more, (b == a) = true := by
  induction more generalizing set with
  | nil => simp [addAll]
  | cons head rest ih =>
    have : addAll set (head :: rest) = addAll (set.insert head) rest := rfl
    rw [this, ih]
    simp only [mem_insert, List.mem_cons, exists_eq_or_imp]
    constructor
    · rintro ((h | h) | h)
      · exact Or.inr (Or.inl h)
      · exact Or.inl h
      · exact Or.inr (Or.inr h)
    · rintro (h | h | h)
      · exact Or.inl (Or.inr h)
      · exact Or.inl (Or.inl h)
      · exact Or.inr h

theorem mem_ofAtoms (items : List Atom) (a : Atom) :
    a ∈ ofAtoms items ↔ ∃ b ∈ items, (b == a) = true := by
  simp [ofAtoms, mem_addAll]

end AtomSet

end FleetCache
