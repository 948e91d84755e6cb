import FleetCache.Proofs.PartitionWrites

set_option autoImplicit false

namespace FleetCache

inductive Operation where
  | upsert (ns : Atom) (entities : List Entity) (source : Atom) (authority : Authority)
  | replaceSource (ns source : Atom) (entities : List Entity) (authority : Authority)
  | evict (ns : Atom) (ids : List Atom)

namespace Operation

def ns : Operation → Atom
  | upsert ns _ _ _ => ns
  | replaceSource ns _ _ _ => ns
  | evict ns _ => ns

def onPart : Operation → Partition → Partition
  | upsert _ entities source authority, part => part.upsert source authority entities
  | replaceSource _ source entities authority, part => part.replaceSource source authority entities
  | evict _ ids, part => part.evict ids

def onKept (id : Atom) : Operation → Option Stored → Option Stored
  | upsert _ entities source authority, old =>
    Partition.storedAll source authority old (Partition.withId id entities)
  | replaceSource _ source entities authority, old =>
    Partition.replaced source authority old (Partition.withId id entities)
  | evict _ ids, old => if ids.contains id then none else old

def apply (store : Memory) : Operation → Memory
  | upsert ns entities source authority => store.upsert ns entities source authority
  | replaceSource ns source entities authority => store.replaceSource ns source entities authority
  | evict ns ids => store.evict ns ids

theorem apply_eq (store : Memory) (op : Operation) :
    op.apply store = store.setPart op.ns (op.onPart (store.part op.ns)) := by
  cases op <;> rfl

theorem onPart_sound (op : Operation) {part : Partition} (h : part.Sound) : (op.onPart part).Sound := by
  cases op with
  | upsert ns entities source authority => exact Partition.upsert_sound h source authority entities
  | replaceSource ns source entities authority => exact Partition.replaceSource_sound h source authority entities
  | evict ns ids => exact Partition.evict_sound h ids

theorem getElem?_onPart (op : Operation) {part : Partition} (h : part.Sound) (id : Atom) :
    (op.onPart part).table[id]? = op.onKept id part.table[id]? := by
  cases op with
  | upsert ns entities source authority => exact Partition.getElem?_upsert part source authority entities id
  | replaceSource ns source entities authority =>
    exact Partition.getElem?_replaceSource h source authority entities id
  | evict ns ids => exact Partition.getElem?_evict part ids id

end Operation

namespace Memory

def kept (store : Memory) (ns id : Atom) : Option Stored :=
  (store.part ns).table[id]?

def Sound (store : Memory) : Prop :=
  ∀ ns, (store.part ns).Sound

theorem get_eq (store : Memory) (ns id : Atom) :
    store.get ns id = (store.kept ns id).map (fun stored => stored.toEntity ns id) := rfl

theorem mem_identifiers (store : Memory) (ns id : Atom) :
    (∃ a ∈ store.identifiers ns, (a == id) = true) ↔ (store.get ns id).isSome = true := by
  rw [get_eq, Option.isSome_map, kept, ← Std.ExtTreeMap.mem_iff_isSome_getElem?,
    ← Std.ExtTreeMap.contains_iff_mem, ← Std.ExtTreeMap.contains_keys, List.contains_iff_exists_mem_beq]
  exact ⟨fun ⟨a, hmem, h⟩ => ⟨a, hmem, BEq.symm h⟩, fun ⟨a, hmem, h⟩ => ⟨a, hmem, BEq.symm h⟩⟩

theorem part_setPart (store : Memory) (ns other : Atom) (part : Partition) :
    (store.setPart ns part).part other = if ns == other then part else store.part other := by
  simp only [Memory.part, setPart, Std.ExtTreeMap.getD_eq_getD_getElem?, Table.getElem?_put]
  split <;> rfl

theorem part_congr (store : Memory) {ns other : Atom} (h : (ns == other) = true) :
    store.part ns = store.part other :=
  Std.ExtTreeMap.getD_congr ((Atom.compare_eq_iff _ _).2 h)

theorem kept_congr (store : Memory) {ns other : Atom} (h : (ns == other) = true) :
    store.kept ns = store.kept other := by
  funext id
  rw [kept, kept, part_congr store h]

theorem part_empty (ns : Atom) : empty.part ns = Partition.empty := by
  simp [Memory.part, empty]

theorem kept_empty (ns id : Atom) : empty.kept ns id = none := by
  rw [kept, part_empty]
  exact Std.ExtTreeMap.getElem?_empty

theorem empty_sound : empty.Sound :=
  fun ns => part_empty ns ▸ Partition.empty_sound

theorem Sound.kept {store : Memory} (h : store.Sound) {ns id : Atom} {stored : Stored}
    (hkept : store.kept ns id = some stored) : stored.Sound :=
  (h ns).kept id stored hkept

end Memory

namespace Operation

theorem part_apply (op : Operation) (store : Memory) (ns : Atom) :
    (op.apply store).part ns = if op.ns == ns then op.onPart (store.part ns) else store.part ns := by
  rw [apply_eq, Memory.part_setPart]
  split
  · rename_i h
    rw [Memory.part_congr store h]
  · rfl

theorem apply_sound (op : Operation) {store : Memory} (h : store.Sound) : (op.apply store).Sound := by
  intro ns
  rw [part_apply]
  split
  · exact op.onPart_sound (h ns)
  · exact h ns

theorem kept_apply (op : Operation) {store : Memory} (h : store.Sound) (ns id : Atom) :
    (op.apply store).kept ns id =
      if op.ns == ns then op.onKept id (store.kept ns id) else store.kept ns id := by
  rw [Memory.kept, part_apply]
  split
  · exact op.getElem?_onPart (h ns) id
  · rfl

end Operation

namespace Memory

def applyAll (store : Memory) (history : List Operation) : Memory :=
  history.foldl Operation.apply store

/-- The cache after a history of operations on the empty one. -/
def after (history : List Operation) : Memory :=
  empty.applyAll history

theorem applyAll_cons (store : Memory) (op : Operation) (rest : List Operation) :
    store.applyAll (op :: rest) = (op.apply store).applyAll rest := rfl

theorem foldl_applyAll {α : Type} {put : Memory → α → Memory} {ops : α → List Operation}
    (h : ∀ store a, put store a = store.applyAll (ops a)) (items : List α) (store : Memory) :
    items.foldl put store = store.applyAll (items.flatMap ops) := by
  rw [funext fun store => funext fun a => h store a, applyAll, List.foldl_flatMap]
  rfl

theorem after_concat (history : List Operation) (op : Operation) :
    after (history ++ [op]) = op.apply (after history) := by
  rw [after, applyAll, List.foldl_append]
  rfl

theorem applyAll_sound {store : Memory} (h : store.Sound) (history : List Operation) :
    (store.applyAll history).Sound := by
  induction history generalizing store with
  | nil => exact h
  | cons op rest ih => exact ih (op.apply_sound h)

theorem after_sound (history : List Operation) : (after history).Sound :=
  applyAll_sound empty_sound history

theorem kept_applyAll {store : Memory} (h : store.Sound) (history : List Operation) (ns id : Atom) :
    (store.applyAll history).kept ns id =
      (history.filter (fun op => op.ns == ns)).foldl (fun old op => op.onKept id old) (store.kept ns id) := by
  induction history generalizing store with
  | nil => rfl
  | cons op rest ih =>
    rw [applyAll_cons, ih (op.apply_sound h), op.kept_apply h, List.filter_cons]
    split <;> rfl

end Memory

end FleetCache
