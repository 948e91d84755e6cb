import Mathlib.Data.List.Induction
import FleetCache.Proofs.RefreshConvergence
/-!
Where attributes come from. An entity is created by a write that finds none, and its attributes are settled by
the writes to it since then, in order: a name has the value of the last authoritative write that set the
attributes, or else of the first write after it that knows the name.
-/
set_option autoImplicit false

namespace FleetCache

open FleetCache.Partition (withId)

theorem Attributes.lookup_fill (members : Attributes) (name : Atom) (value : Value) (key : Atom) :
    (members.fill name value).lookup key =
      (members.lookup key).or (if key == name then some value else none) := by
  have hsingle : List.lookup key [(name, value)] = if key == name then some value else none := by
    rw [List.lookup_cons]
    cases key == name <;> rfl
  unfold fill
  split
  · rename_i hhas
    by_cases hkey : (key == name) = true
    · rw [← has_congr members hkey, has, Option.isSome_iff_exists] at hhas
      obtain ⟨old, hold⟩ := hhas
      simp [hold]
    · simp [hkey]
  · rw [List.lookup_append, hsingle]

theorem Attributes.lookup_fillAll (members other : Attributes) (key : Atom) :
    (members.fillAll other).lookup key = (members.lookup key).or (other.lookup key) := by
  induction other generalizing members with
  | nil => simp [fillAll]
  | cons pair rest ih =>
    obtain ⟨name, value⟩ := pair
    change ((members.fill name value).fillAll rest).lookup key = _
    rw [ih, lookup_fill, Option.or_assoc, List.lookup_cons]
    cases key == name <;> simp

namespace Authority

/-- The writes that decide the value of a name: those from the last authoritative one on, or all of them when
none is authoritative. -/
def governing : List (Authority × Attributes) → List (Authority × Attributes)
  | [] => []
  | write :: rest => if rest.any (fun later => later.1 = authoritative) then governing rest else write :: rest

/-- The value that writes settle for a name: the one of the first governing write that has it. -/
def settledValue (writes : List (Authority × Attributes)) (key : Atom) : Option Value :=
  (governing writes).findSome? (fun write => write.2.lookup key)

theorem any_authoritative_eq_false {writes : List (Authority × Attributes)} :
    writes.any (fun write => write.1 = authoritative) = false ↔ ∀ write ∈ writes, write.1 = informative := by
  rw [List.any_eq_false]
  refine forall₂_congr fun write _ => ?_
  obtain ⟨authority, attributes⟩ := write
  cases authority <;> simp

theorem governing_of_informative {writes : List (Authority × Attributes)}
    (h : ∀ write ∈ writes, write.1 = informative) : governing writes = writes := by
  cases writes with
  | nil => rfl
  | cons write rest =>
    have hrest := any_authoritative_eq_false.2 (fun later hlater => h later (List.mem_cons_of_mem _ hlater))
    rw [governing, hrest]
    rfl

theorem governing_of_last (before : List (Authority × Attributes)) (new : Attributes)
    {later : List (Authority × Attributes)} (h : ∀ write ∈ later, write.1 = informative) :
    governing (before ++ (authoritative, new) :: later) = (authoritative, new) :: later := by
  induction before with
  | nil =>
    rw [List.nil_append, governing, any_authoritative_eq_false.2 h]
    rfl
  | cons write rest ih =>
    have hany : (rest ++ (authoritative, new) :: later).any (fun later => later.1 = authoritative) = true := by
      simp
    rw [List.cons_append, governing, if_pos hany, ih]

theorem lookup_settleAll_informative {writes : List (Authority × Attributes)}
    (h : ∀ write ∈ writes, write.1 = informative) (old : Attributes) (key : Atom) :
    (settleAll old writes).lookup key =
      (old.lookup key).or (writes.findSome? (fun write => write.2.lookup key)) := by
  induction writes generalizing old with
  | nil => simp [settleAll]
  | cons write rest ih =>
    obtain ⟨authority, new⟩ := write
    obtain rfl : authority = informative := h _ List.mem_cons_self
    change (settleAll (old.fillAll new) rest).lookup key = _
    rw [ih (fun write hwrite => h write (List.mem_cons_of_mem _ hwrite)), Attributes.lookup_fillAll,
      Option.or_assoc, List.findSome?_cons]
    cases new.lookup key <;> simp

theorem lookup_settleAll (old : Attributes) (writes : List (Authority × Attributes)) (key : Atom) :
    (settleAll old writes).lookup key =
      if writes.any (fun write => write.1 = authoritative) then settledValue writes key
      else (old.lookup key).or (settledValue writes key) := by
  induction writes generalizing old with
  | nil => simp [settleAll, settledValue, governing]
  | cons write rest ih =>
    obtain ⟨authority, new⟩ := write
    change (settleAll (authority.settle old new) rest).lookup key = _
    by_cases hrest : rest.any (fun later => later.1 = authoritative) = true
    · rw [ih, if_pos hrest, List.any_cons, hrest, Bool.or_true, if_pos rfl, settledValue, settledValue,
        governing, if_pos hrest]
    · have hinformative := any_authoritative_eq_false.1 (Bool.eq_false_iff.2 hrest)
      have hvalue : settledValue ((authority, new) :: rest) key =
          (new.lookup key).or (rest.findSome? (fun write => write.2.lookup key)) := by
        rw [settledValue, governing, if_neg hrest, List.findSome?_cons]
        cases new.lookup key <;> rfl
      rw [lookup_settleAll_informative hinformative, hvalue, List.any_cons, Bool.eq_false_iff.2 hrest]
      cases authority with
      | authoritative => simp [settle]
      | informative => simp [settle, Attributes.lookup_fillAll, Option.or_assoc]

theorem settle_self (authority : Authority) (new : Attributes) : authority.settle new new = new := by
  cases authority with
  | authoritative => rfl
  | informative =>
    refine Attributes.fillAll_of_has (fun pair hpair => ?_)
    exact (Attributes.has_iff _ _).2 ⟨pair, hpair, BEq.rfl⟩

def created : List (Authority × Attributes) → Option Attributes
  | [] => none
  | first :: later => some (settleAll first.2 later)

theorem created_concat (writes : List (Authority × Attributes)) (authority : Authority) (new : Attributes) :
    created (writes ++ [(authority, new)]) = some (authority.settle ((created writes).getD new) new) := by
  cases writes with
  | nil => exact congrArg some (settle_self authority new).symm
  | cons first later => simp [created, settleAll]

theorem lookup_created {writes : List (Authority × Attributes)} {attributes : Attributes}
    (h : created writes = some attributes) (key : Atom) : attributes.lookup key = settledValue writes key := by
  cases writes with
  | nil => cases h
  | cons first later =>
    obtain rfl : settleAll first.2 later = attributes := Option.some.inj h
    -- the creating write settles its own attributes once more without changing them
    have hagain : settleAll first.2 (first :: later) = settleAll first.2 later :=
      congrArg (fun old => settleAll old later) (settle_self first.1 first.2)
    rw [← hagain, lookup_settleAll]
    split
    · rfl
    · rename_i hnone
      have hinformative := any_authoritative_eq_false.1 (Bool.eq_false_iff.2 hnone)
      rw [settledValue, governing_of_informative hinformative, List.findSome?_cons]
      cases first.2.lookup key <;> rfl

end Authority

namespace Operation

def writesTo (ns id : Atom) : Operation → List (Authority × Attributes)
  | upsert ns' entities _ authority | replaceSource ns' _ entities authority =>
    if ns' == ns then (withId id entities).map (fun entity => (authority, entity.attributes)) else []
  | evict _ _ => []

/-- What the first write of an operation finds of an entity: a replacement has dropped its source by then. -/
def finds (ns id : Atom) (store : Memory) : Operation → Option Stored
  | upsert _ _ _ _ | evict _ _ => store.kept ns id
  | replaceSource ns' source entities _ =>
    if ns' == ns then
      ((store.part ns).dropSource source (AtomSet.ofAtoms (entities.map EntityOf.id))).table[id]?
    else store.kept ns id

def extendWrites (ns id : Atom) (store : Memory) (writes : List (Authority × Attributes)) (op : Operation) :
    List (Authority × Attributes) :=
  (if (op.finds ns id store).isSome then writes else []) ++ op.writesTo ns id

end Operation

/-- The writes to an entity since it was last created, in order. A write that finds no entity creates it. -/
def writesSinceCreation (ns id : Atom) (history : List Operation) : List (Authority × Attributes) :=
  (history.foldl (fun state op => (op.apply state.1, op.extendWrites ns id state.1 state.2))
    (Memory.empty, [])).2

theorem writesSinceCreation_concat (ns id : Atom) (history : List Operation) (op : Operation) :
    writesSinceCreation ns id (history ++ [op]) =
      op.extendWrites ns id (Memory.after history) (writesSinceCreation ns id history) := by
  have hstore (state : Memory × List (Authority × Attributes)) :
      (history.foldl (fun state op => (op.apply state.1, op.extendWrites ns id state.1 state.2)) state).1 =
        state.1.applyAll history := by
    induction history generalizing state with
    | nil => rfl
    | cons first rest ih => exact ih _
  rw [writesSinceCreation, List.foldl_append]
  change op.extendWrites ns id _ _ = _
  rw [hstore]
  rfl

namespace Stored

theorem attributesOf_storedAll_created {old : Option Stored} {writes : List (Authority × Attributes)}
    (h : attributesOf old = Authority.created writes) (source : Atom) (authority : Authority)
    (entities : List Entity) :
    attributesOf (Partition.storedAll source authority old entities) =
      Authority.created (writes ++ entities.map (fun entity => (authority, entity.attributes))) := by
  induction entities generalizing old writes with
  | nil =>
    rw [List.map_nil, List.append_nil]
    exact h
  | cons entity rest ih =>
    have hfirst : attributesOf (some (Partition.stored old entity source authority)) =
        Authority.created (writes ++ [(authority, entity.attributes)]) := by
      rw [attributesOf_stored, h, Authority.created_concat]
    have hrest := ih hfirst
    rw [List.append_assoc] at hrest
    exact hrest

theorem attributesOf_withoutSource {old : Option Stored} {writes : List (Authority × Attributes)}
    (h : attributesOf old = Authority.created (if old.isSome then writes else [])) (source : Atom)
    (returning : Bool) :
    attributesOf (old.bind (Partition.withoutSource source returning)) =
      Authority.created (if (old.bind (Partition.withoutSource source returning)).isSome then writes else []) := by
  cases hleft : old.bind (Partition.withoutSource source returning) with
  | none => rfl
  | some left =>
    obtain ⟨kept, rfl, hkept⟩ := Option.bind_eq_some_iff.1 hleft
    obtain ⟨-, -, rfl⟩ := Partition.withoutSource_eq_some.1 hkept
    exact h

end Stored

namespace Operation

theorem finds_isSome_of_ne {op : Operation} {ns : Atom} (h : (op.ns == ns) = false) (id : Atom) (store : Memory) :
    op.finds ns id store = store.kept ns id := by
  cases op with
  | upsert | evict => rfl
  | replaceSource ns' source entities authority =>
    change (ns' == ns) = false at h
    rw [finds, h]
    rfl

theorem writesTo_of_ne {op : Operation} {ns : Atom} (h : (op.ns == ns) = false) (id : Atom) :
    op.writesTo ns id = [] := by
  cases op with
  | evict => rfl
  | upsert ns' entities source authority | replaceSource ns' source entities authority =>
    change (ns' == ns) = false at h
    rw [writesTo, h]
    rfl

theorem attributesOf_onKept {op : Operation} {ns : Atom} (hns : (op.ns == ns) = true) {store : Memory}
    (hstore : store.Sound) (id : Atom) {writes : List (Authority × Attributes)}
    (h : Stored.attributesOf (store.kept ns id) =
      Authority.created (if (store.kept ns id).isSome then writes else [])) :
    Stored.attributesOf (op.onKept id (store.kept ns id)) = Authority.created
      (if (op.onKept id (store.kept ns id)).isSome then op.extendWrites ns id store writes else []) := by
  -- once the entity is gone there is nothing to compare, so only the writes to a stored one count
  have hsome (old : Option Stored) (more : List (Authority × Attributes))
      (hmore : Stored.attributesOf old = Authority.created more) :
      Stored.attributesOf old = Authority.created (if old.isSome then more else []) := by
    cases old with
    | none => rfl
    | some kept => exact hmore
  cases op with
  | upsert ns' entities source authority =>
    change (ns' == ns) = true at hns
    apply hsome
    rw [extendWrites, writesTo, if_pos hns]
    exact Stored.attributesOf_storedAll_created h source authority (withId id entities)
  | replaceSource ns' source entities authority =>
    change (ns' == ns) = true at hns
    have hdropped := Stored.attributesOf_withoutSource h source (!(withId id entities).isEmpty)
    apply hsome
    rw [extendWrites, writesTo, if_pos hns, finds, if_pos hns, Partition.getElem?_dropSource (hstore ns),
      Partition.contains_ofAtoms_ids]
    exact Stored.attributesOf_storedAll_created hdropped source authority (withId id entities)
  | evict ns' ids =>
    change Stored.attributesOf (if ids.contains id then none else store.kept ns id) = Authority.created
      (if (if ids.contains id then none else store.kept ns id).isSome then _ else [])
    split
    · rfl
    · rw [extendWrites, writesTo, List.append_nil]
      apply hsome
      exact h

end Operation

theorem attributesOf_after (history : List Operation) (ns id : Atom) :
    Stored.attributesOf ((Memory.after history).kept ns id) = Authority.created
      (if ((Memory.after history).kept ns id).isSome then writesSinceCreation ns id history else []) := by
  -- on the last operation, since it is the one that may create the entity anew
  induction history using List.reverseRecOn with
  | nil =>
    have hnone : (Memory.after []).kept ns id = none := Memory.kept_empty ns id
    rw [hnone]
    rfl
  | append_singleton history op ih =>
    have hsound := Memory.after_sound history
    rw [Memory.after_concat, writesSinceCreation_concat, op.kept_apply hsound]
    split
    · rename_i hns
      exact op.attributesOf_onKept hns hsound id ih
    · rename_i hns
      have hne : (op.ns == ns) = false := by simpa using hns
      rw [Operation.extendWrites, Operation.finds_isSome_of_ne hne, Operation.writesTo_of_ne hne, List.append_nil,
        ih]
      cases (Memory.after history).kept ns id <;> rfl

/-- The attributes of a stored entity are those that the writes since its last creation leave one after the
other. Each name has the value of the last authoritative write, if that has the name, and otherwise of the first
later write that has it; with no authoritative write all of them count. So no later informative write touches a
name of the last authoritative one. -/
theorem attributes_settled_since_creation {history : List Operation} {ns id : Atom} {found : Entity}
    (h : (Memory.after history).get ns id = some found) :
    (∃ first later, writesSinceCreation ns id history = first :: later ∧
      found.attributes = Authority.settleAll first.2 later) ∧
    (∀ key, found.attributes.lookup key = Authority.settledValue (writesSinceCreation ns id history) key) ∧
    ∀ before new later, writesSinceCreation ns id history = before ++ (.authoritative, new) :: later →
      (∀ write ∈ later, write.1 = .informative) →
        ∀ key value, new.lookup key = some value → found.attributes.lookup key = some value := by
  rw [Memory.get_eq, Option.map_eq_some_iff] at h
  obtain ⟨kept, hkept, rfl⟩ := h
  have hcreated : Authority.created (writesSinceCreation ns id history) = some kept.attributes := by
    have hafter := attributesOf_after history ns id
    rw [hkept] at hafter
    exact hafter.symm
  have hvalue (key : Atom) := Authority.lookup_created hcreated key
  refine ⟨?_, hvalue, fun before new later hwrites hlater key value hnew => ?_⟩
  · cases hwrites : writesSinceCreation ns id history with
    | nil =>
      rw [hwrites] at hcreated
      cases hcreated
    | cons first later =>
      rw [hwrites] at hcreated
      exact ⟨first, later, rfl, (Option.some.inj hcreated).symm⟩
  · refine (hvalue key).trans ?_
    rw [hwrites, Authority.settledValue, Authority.governing_of_last before new hlater]
    simp only [List.findSome?_cons, hnew]

/-- An image whose only source replaces it, and so creates it anew, before an owner and further hints come. -/
theorem attributes_settled_since_creation_anew :
    let image (attributes : Attributes) : Entity := ⟨"image", "ami-1", attributes, ∅⟩
    let history : List Operation :=
      [.replaceSource "image" "hints" [image [("name", "web"), ("zone", "a")]] .informative,
        .replaceSource "image" "hints" [image [("size", "1")], image [("size", "2"), ("kind", "x")]] .informative,
        .upsert "image" [image [("name", "api"), ("size", "3")]] "owner" .authoritative,
        .upsert "image" [image [("size", "4"), ("zone", "b")], image [("zone", "c")]] "hints" .informative]
    ∃ found, (Memory.after history).get "image" "ami-1" = some found ∧
      (found.attributes.lookup (.str "size")).bind Value.string? = some "3" ∧
      (found.attributes.lookup (.str "zone")).bind Value.string? = some "b" ∧
      found.attributes.has (.str "kind") = false := by
  intro image history
  have hstored : ((Memory.after history).get "image" "ami-1").isSome = true := by decide +kernel
  obtain ⟨found, hfound⟩ := Option.isSome_iff_exists.1 hstored
  obtain ⟨-, hvalue, -⟩ := attributes_settled_since_creation hfound
  refine ⟨found, hfound, ?_, ?_, ?_⟩
  · rw [hvalue]
    decide +kernel
  · rw [hvalue]
    decide +kernel
  · rw [Attributes.has, hvalue]
    decide +kernel

end FleetCache
