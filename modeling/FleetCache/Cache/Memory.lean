import FleetCache.Cache.Report
import FleetCache.Glob
/-!
The cache in memory, partitioned by namespace. Each partition keeps, for every id, the attributes, the
edges that each source contributed, and the sources that wrote the attributes with authority; an index
lists the ids that each source wrote. Replacing what a source contributed removes the entities that no
source contributes to any more, and those whose last owner no longer reports them.
-/
set_option autoImplicit false

namespace FleetCache

/-- The edges of an entity by the source that contributed them. -/
abbrev Contributions := Table Relations

namespace Contributions

def contribute (contributions : Contributions) (source : Atom) (relations : Relations) :
    Contributions :=
  contributions.put source ((contributions.getD source ∅).union relations)

def merged (contributions : Contributions) : Relations :=
  contributions.foldl (fun acc _ relations => acc.union relations) ∅

end Contributions

/-- What is kept of one entity. -/
structure Stored where
  attributes : Attributes
  contributions : Contributions
  owners : AtomSet

structure Partition where
  table : Table Stored
  bySource : Table AtomSet

namespace Partition

def empty : Partition :=
  ⟨∅, ∅⟩

/-- What is kept of an entity after a write: with authority the attributes are replaced, otherwise only
missing ones are added. -/
def stored (old : Option Stored) (entity : Entity) (source : Atom) (authority : Authority) : Stored :=
  let base := old.getD ⟨entity.attributes, ∅, ∅⟩
  let attributes :=
    match authority with
    | .authoritative => entity.attributes
    | .informative => base.attributes.fillAll entity.attributes
  let owners :=
    match authority with
    | .authoritative => base.owners.insert source
    | .informative => base.owners
  ⟨attributes, base.contributions.contribute source entity.relations, owners⟩

def write (part : Partition) (source : Atom) (authority : Authority) (entity : Entity) : Partition :=
  ⟨part.table.put entity.id (stored part.table[entity.id]? entity source authority),
    part.bySource.put source ((part.bySource.getD source ∅).insert entity.id)⟩

/-- What remains of an entity when a source is dropped; an owner's entity stays without another owner
only if it is about to be written again. -/
def withoutSource (source : Atom) (returning : Bool) (stored : Stored) : Option Stored :=
  let contributions := stored.contributions.erase source
  let owners := stored.owners.erase source
  if contributions.isEmpty || (stored.owners.contains source && owners.isEmpty && !returning) then none
  else some ⟨stored.attributes, contributions, owners⟩

def dropOne (source : Atom) (returning : AtomSet) (table : Table Stored) (id : Atom) : Table Stored :=
  match table[id]? with
  | none => table
  | some old =>
    match withoutSource source (returning.contains id) old with
    | none => table.erase id
    | some kept => table.put id kept

def dropSource (part : Partition) (source : Atom) (returning : AtomSet) : Partition :=
  ⟨(part.bySource.getD source ∅).toList.foldl (dropOne source returning) part.table,
    part.bySource.erase source⟩

def upsert (part : Partition) (source : Atom) (authority : Authority) (entities : List Entity) :
    Partition :=
  entities.foldl (fun acc entity => acc.write source authority entity) part

def replaceSource (part : Partition) (source : Atom) (authority : Authority)
    (entities : List Entity) : Partition :=
  (part.dropSource source (AtomSet.ofAtoms (entities.map EntityOf.id))).upsert source authority entities

def evictOne (part : Partition) (id : Atom) : Partition :=
  if part.table.contains id then
    ⟨part.table.erase id, part.bySource.map (fun _ ids => ids.erase id)⟩
  else part

def evict (part : Partition) (ids : List Atom) : Partition :=
  ids.foldl evictOne part

end Partition

def Stored.toEntity (stored : Stored) (ns id : Atom) : Entity :=
  ⟨ns, id, stored.attributes, stored.contributions.merged⟩

structure Memory where
  parts : Table Partition

namespace Memory

def empty : Memory :=
  ⟨∅⟩

def part (store : Memory) (ns : Atom) : Partition :=
  store.parts.getD ns Partition.empty

def setPart (store : Memory) (ns : Atom) (part : Partition) : Memory :=
  ⟨store.parts.put ns part⟩

def upsert (store : Memory) (ns : Atom) (entities : List Entity) (source : Atom)
    (authority : Authority) : Memory :=
  store.setPart ns ((store.part ns).upsert source authority entities)

def replaceSource (store : Memory) (ns source : Atom) (entities : List Entity)
    (authority : Authority) : Memory :=
  store.setPart ns ((store.part ns).replaceSource source authority entities)

def evict (store : Memory) (ns : Atom) (ids : List Atom) : Memory :=
  store.setPart ns ((store.part ns).evict ids)

def size (store : Memory) (ns : Atom) : Nat :=
  (store.part ns).table.size

def get (store : Memory) (ns id : Atom) : Option Entity :=
  (store.part ns).table[id]?.map (fun stored => stored.toEntity ns id)

def getAll (store : Memory) (ns : Atom) (ids : List Atom) : List Entity :=
  ids.eraseDups.filterMap (store.get ns)

def identifiers (store : Memory) (ns : Atom) : List Atom :=
  (store.part ns).table.keys

/-- The ids of a namespace that match a pattern, in ascending order; all ids there have to be texts. -/
def matching (store : Memory) (ns : Atom) (pattern : String) : Except Fault (List String) :=
  (requireTexts (store.identifiers ns)).map (Glob.filter pattern)

def stats (store : Memory) : List (Atom × Nat) :=
  (store.parts.toList.map (fun (ns, part) => (ns, part.table.size))).filter (fun (_, n) => n != 0)

end Memory

end FleetCache
