import FleetCache.Value.Table

set_option autoImplicit false

namespace FleetCache

abbrev Relations := Table AtomSet

namespace Relations

def related (relations : Relations) (ns : Atom) : AtomSet :=
  relations.getD ns ∅

def relate (relations : Relations) (ns : Atom) (ids : List Atom) : Relations :=
  relations.put ns ((relations.related ns).addAll ids)

def relateAll (relations : Relations) (groups : List (Atom × List Atom)) : Relations :=
  groups.foldl (fun acc (ns, ids) => acc.relate ns ids) relations

def groups (relations : Relations) : List (Atom × List Atom) :=
  relations.toList.map (fun (ns, ids) => (ns, ids.toList))

def union (relations other : Relations) : Relations :=
  relations.relateAll other.groups

def ofGroups (groups : List (Atom × List Atom)) : Relations :=
  relateAll ∅ groups

def toValue (relations : Relations) : Except Fault Value := do
  let sorted ← sortMembers relations.groups
  let members ← sorted.mapM (fun (ns, ids) => do
    return (ns, Value.list (← sortAtoms ids)))
  return .object members

def groupsOf (v : Value) : Except Fault (List (Atom × List Atom)) := do
  (← v.namedItems).mapM (fun (ns, ids) => do
    return (ns, ← ids.toSet))

theorem mem_related_relate (relations : Relations) (ns : Atom) (ids : List Atom) (other id : Atom) :
    id ∈ (relations.relate ns ids).related other ↔
      id ∈ relations.related other ∨ ((ns == other) = true ∧ ∃ a ∈ ids, (a == id) = true) := by
  have hget : (relations.relate ns ids).related other =
      if ns == other then (relations.related ns).addAll ids else relations.related other := by
    simp only [related, relate, Std.ExtTreeMap.getD_eq_getD_getElem?, Table.getElem?_put]
    by_cases h : (ns == other) = true <;> simp [h]
  rw [hget]
  by_cases h : (ns == other) = true
  · have hc : relations.related ns = relations.related other :=
      Std.ExtTreeMap.getD_congr ((Atom.compare_eq_iff _ _).2 h)
    simp [h, AtomSet.mem_addAll, hc]
  · simp [h]

theorem mem_related_relateAll (relations : Relations) (groups : List (Atom × List Atom))
    (ns id : Atom) :
    id ∈ (relations.relateAll groups).related ns ↔
      id ∈ relations.related ns ∨
        ∃ group ∈ groups, (group.1 == ns) = true ∧ ∃ a ∈ group.2, (a == id) = true := by
  induction groups generalizing relations with
  | nil => simp [relateAll]
  | cons group rest ih =>
    obtain ⟨head, ids⟩ := group
    have : relateAll relations ((head, ids) :: rest) = relateAll (relations.relate head ids) rest := rfl
    rw [this, ih, mem_related_relate]
    simp only [List.mem_cons, exists_eq_or_imp, or_assoc]

end Relations

/-- An entity whose namespace and id are of some kind. -/
structure EntityOf (ι : Type) where
  ns : ι
  id : ι
  attributes : Attributes
  relations : Relations

abbrev Entity := EntityOf Atom

/-- An entity as it is described from outside. -/
abbrev Draft := EntityOf Value

namespace EntityOf

variable {ι : Type}

def related (entity : EntityOf ι) (ns : Atom) : AtomSet :=
  entity.relations.related ns

def relate (entity : EntityOf ι) (ns : Atom) (ids : List Atom) : EntityOf ι :=
  { entity with relations := entity.relations.relate ns ids }

def relateAll (entity : EntityOf ι) (groups : List (Atom × List Atom)) : EntityOf ι :=
  { entity with relations := entity.relations.relateAll groups }

def update (entity : EntityOf ι) (attributes : Attributes) : EntityOf ι :=
  { entity with attributes := entity.attributes.update attributes }

def describe (draft : EntityOf Value) : Except Fault Value := do
  let relations ← draft.relations.toValue
  return .object [("namespace", draft.ns), ("id", draft.id), ("attributes", .object draft.attributes),
    ("relationships", relations)]

def toValue (entity : EntityOf Atom) : Except Fault Value :=
  describe ⟨.atom entity.ns, .atom entity.id, entity.attributes, entity.relations⟩

def optionalMembers (v : Value) : Except Fault Attributes :=
  if v.truthy then v.toMembers else .ok []

/-- The draft that a record describes; a present namespace given from outside wins over the one of the
record. -/
def ofValue (data ns : Value) : Except Fault (EntityOf Value) := do
  let ns ← if ns.truthy then pure ns else data.required "namespace"
  let id ← data.required "id"
  let attributes ← optionalMembers (← data.member "attributes")
  let relationships ← data.member "relationships"
  let groups ← if relationships.truthy then Relations.groupsOf relationships else pure []
  return ⟨ns, id, attributes, Relations.ofGroups groups⟩

def toEntity (draft : EntityOf Value) : Except Fault (EntityOf Atom) := do
  return ⟨← draft.ns.toAtom, ← draft.id.toAtom, draft.attributes, draft.relations⟩

/-- The entities of a namespace that drafts describe, up to the first one whose id can be none, and the
fault of that one. -/
def front (ns : Atom) (drafts : List (EntityOf Value)) : List (EntityOf Atom) × Option Fault :=
  let (ids, fault) := frontAtoms (drafts.map EntityOf.id)
  ((drafts.zip ids).map (fun (draft, id) => ⟨ns, id, draft.attributes, draft.relations⟩), fault)

end EntityOf

/-- The place in a list that a value names; places before zero are counted from the end. -/
def Value.place (length : Nat) (v : Value) : Except Fault Nat := do
  let index ←
    match v with
    | .int n => pure n
    | .bool b => pure b.toInt
    | other => throw (.wrongType ("list indices must be integers or slices, not " ++ other.typeName))
  let place := if index < 0 then index + length else index
  if 0 ≤ place ∧ place < length then return place.toNat
  else throw (.outOfRange "list index out of range")

def Value.assign (new : Value) : List Value → Value → Except Fault Value
  | [], _ => .error (.outOfRange "list index out of range")
  | [last], .object members => do
    return .object (Attributes.put members (← last.toAtom) new)
  | [last], .list items => do
    return .list (items.set (← last.place items.length) new)
  | [_], other =>
    .error (.wrongType ("'" ++ other.typeName ++ "' object does not support item assignment"))
  | step :: next :: rest, .object members => do
    let name ← step.toAtom
    match members.lookup name with
    | none => throw (.missingKey name)
    | some old => return .object (Attributes.put members name (← assign new (next :: rest) old))
  | step :: next :: rest, .list items => do
    let place ← step.place items.length
    match items[place]? with
    | none => throw (.outOfRange "list index out of range")
    | some old => return .list (items.set place (← assign new (next :: rest) old))
  | step :: next :: rest, .str s => do
    let place ← step.place s.length
    assign new (next :: rest) (.str (String.ofList ((s.toList.drop place).take 1)))
  | _ :: _ :: _, other => .error (.wrongType ("'" ++ other.typeName ++ "' object is not subscriptable"))

def Attributes.assign (members : Attributes) (path : List Value) (new : Value) :
    Except Fault Attributes := do
  (← Value.assign new path (.object members)).members

end FleetCache
