import FleetCache.Cache.Report
/-!
Collecting the entities of one agent run. Many records lead to the same parent entity, so every
contribution is folded into one entity for each namespace and id: of the values for an attribute the
last one counts, and edges are only added. Entities keep the order in which they were first met.
-/
set_option autoImplicit false

namespace FleetCache

structure ReportBuilder where
  namespaces : List (Atom × List (Atom × Entity))

namespace ReportBuilder

def empty : ReportBuilder :=
  ⟨[]⟩

def adjust {α : Type} (name : Atom) (change : Option α → α) : List (Atom × α) → List (Atom × α)
  | [] => [(name, change none)]
  | (key, old) :: rest =>
    if name == key then (key, change (some old)) :: rest else (key, old) :: adjust name change rest

def contribute (ns id : Atom) (attributes : Attributes) (groups : List (Atom × List Atom))
    (old : Option Entity) : Entity :=
  ((old.getD ⟨ns, id, [], ∅⟩).update attributes).relateAll groups

def merge (builder : ReportBuilder) (ns id : Atom) (attributes : Attributes)
    (groups : List (Atom × List Atom)) : ReportBuilder :=
  ⟨adjust ns (fun entities => adjust id (contribute ns id attributes groups) (entities.getD []))
    builder.namespaces⟩

def mergeValues (builder : ReportBuilder) (ns id : Atom) (attributes relationships : Value) :
    Except Fault ReportBuilder := do
  let attributes ← EntityOf.optionalMembers attributes
  let groups ← if relationships.truthy then Relations.groupsOf relationships else pure []
  return builder.merge ns id attributes groups

def get (builder : ReportBuilder) (ns id : Atom) : Option Entity :=
  (builder.namespaces.lookup ns).bind (fun entities => entities.lookup id)

def contains (builder : ReportBuilder) (ns id : Atom) : Bool :=
  (builder.get ns id).isSome

/-- The report so far; every declared namespace is in it, empty if nothing was collected for it. -/
def build (builder : ReportBuilder) (types : List DataType) (incremental : Bool) : Report :=
  let start := (declared types).map (fun dt => (dt.ns, ([] : List Entity)))
  ⟨builder.namespaces.foldl (fun acc (ns, entities) =>
      adjust ns (fun _ => entities.map (·.2)) acc) start, incremental⟩

theorem lookup_adjust {α : Type} (name key : Atom) (change : Option α → α)
    (items : List (Atom × α)) :
    (adjust name change items).lookup key =
      if key == name then some (change (items.lookup name)) else items.lookup key := by
  induction items with
  | nil => cases h : key == name <;> simp [adjust, List.lookup_cons, h]
  | cons head rest ih =>
    obtain ⟨other, old⟩ := head
    cases ho : name == other with
    | true =>
      have : (key == other) = (key == name) := (BEq.congr_right ho).symm
      cases h : key == name <;> simp [adjust, List.lookup_cons, ho, h, this]
    | false =>
      cases hk : key == other with
      | true =>
        have : (key == name) = false := by
          cases hn : key == name with
          | false => rfl
          | true => simp [BEq.trans (BEq.symm hn) hk] at ho
        simp [adjust, List.lookup_cons, ho, hk, this]
      | false => simp [adjust, List.lookup_cons, ho, hk, ih]

end ReportBuilder

end FleetCache
