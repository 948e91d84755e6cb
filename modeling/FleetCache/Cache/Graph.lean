import FleetCache.Cache.Memory
import FleetCache.Change
import FleetCache.Json.Parse
import FleetCache.Json.Render
/-!
The cache in a graph database. Every entity is a node with the attributes and the contributed edges as
JSON text, and two lists: the sources that contributed to it and those that own its attributes. Nodes
are listed in the order of their creation. Writes run in transactions, which are counted; a write that
fails leaves what was written before it. No session can be opened while the connection is broken.
-/
set_option autoImplicit false

namespace FleetCache

structure Node where
  ns : Atom
  id : Atom
  attributes : String
  contributions : String
  sources : List Atom
  owners : List Atom

structure Graph where
  nodes : List Node
  batchSize : Int
  broken : Bool
  transactions : Nat

def Contributions.toValue (contributions : Contributions) : Except Fault Value := do
  let members ← contributions.toList.mapM (fun (source, relations) => do
    return (source, ← relations.toValue))
  return .object members

def Contributions.ofValue (v : Value) : Except Fault Contributions := do
  let sources ← (← v.namedItems).mapM (fun (source, relations) => do
    return (source, Relations.ofGroups (← Relations.groupsOf relations)))
  return sources.foldl (fun acc (source, relations) => acc.put source relations) ∅

def mergeWrite {ι : Type} (attributes : Attributes) (contributions : Contributions)
    (entity : EntityOf ι) (source : Atom) (authority : Authority) : Attributes × Contributions :=
  let merged :=
    if authority = .authoritative ∨ attributes.isEmpty then entity.attributes
    else attributes.fillAll entity.attributes
  (merged, contributions.contribute source entity.relations)

/-- The pieces of a list of a given size, the last one possibly smaller; there are none of a size below
zero. -/
def chunks {α : Type} (size : Int) (items : List α) : List (List α) :=
  let size := size.toNat
  let count := (items.length + size - 1) / size
  (List.range count).map (fun n => (items.drop (n * size)).take size)

def ascending (items : List Atom) : Except Fault (List Atom) :=
  sortBy? Atom.less items

namespace Node

def blank (ns id : Atom) : Node :=
  ⟨ns, id, "\x7b\x7d", "\x7b\x7d", [], []⟩

def is (node : Node) (ns id : Atom) : Bool :=
  node.ns == ns && node.id == id

def readAttributes (node : Node) : Except Fault Attributes :=
  (Json.parseText node.attributes).bind Value.members

def readContributions (node : Node) : Except Fault Contributions :=
  (Json.parseText node.contributions).bind Contributions.ofValue

def withContributions (node : Node) (contributions : Contributions) (owners : AtomSet) :
    Except Fault Node := do
  return { node with
    contributions := ← Json.dumpStrict (← contributions.toValue)
    sources := ← ascending contributions.keys
    owners := ← ascending owners.toList }

def write (node : Node) (entity : Entity) (source : Atom) (authority : Authority) :
    Except Fault Node := do
  let attributes ← node.readAttributes
  let contributions ← node.readContributions
  let (attributes, contributions) := mergeWrite attributes contributions entity source authority
  let owners := AtomSet.ofAtoms node.owners
  let owners := if authority = .authoritative then owners.insert source else owners
  let text ← Json.dumpOrdered (.object attributes)
  return { ← node.withContributions contributions owners with attributes := text }

def withoutSource (node : Node) (source : Atom) (returning : List Atom) :
    Except Fault (Option Node) := do
  let contributions := (← node.readContributions).erase source
  let owned := node.owners.contains source
  let owners := (AtomSet.ofAtoms node.owners).erase source
  if contributions.isEmpty || (owned && owners.isEmpty && !returning.contains node.id) then return none
  else return some (← node.withContributions contributions owners)

def toEntity (node : Node) (ns : Atom) : Except Fault Entity := do
  let attributes ← node.readAttributes
  let contributions ← node.readContributions
  return ⟨ns, node.id, attributes, contributions.merged⟩

def toValue (node : Node) : Except Fault Value := do
  let attributes ← Json.parseText node.attributes
  let contributions ← Json.parseText node.contributions
  return .object [("namespace", .atom node.ns), ("id", .atom node.id), ("attributes", attributes),
    ("contributions", contributions), ("sources", .atoms node.sources), ("owners", .atoms node.owners)]

end Node

namespace Graph

def empty (batchSize : Int) : Graph :=
  ⟨[], batchSize, false, 0⟩

def session (graph : Graph) : Except Fault Unit :=
  if graph.broken then .error (.unavailable "connection refused") else .ok ()

def inSession {α : Type} (x : Change Graph α) : Change Graph α := fun graph =>
  match graph.session with
  | .ok _ => x graph
  | .error fault => (Traced.fail fault, graph)

def begin : Change Graph Unit :=
  Change.update (fun graph => { graph with transactions := graph.transactions + 1 })

def ensureNode (nodes : List Node) (ns id : Atom) : List Node :=
  if nodes.any (fun node => node.is ns id) then nodes else nodes ++ [Node.blank ns id]

def writeNodes (ns source : Atom) (authority : Authority) (nodes : List Node) (entity : Entity) :
    Except Fault Unit × List Node :=
  let nodes := ensureNode nodes ns entity.id
  match nodes.mapM (fun node =>
    if node.is ns entity.id then node.write entity source authority else .ok node) with
  | .ok written => (.ok (), written)
  | .error fault => (.error fault, nodes)

def writeEntity (ns source : Atom) (authority : Authority) (entity : Entity) : Change Graph Unit :=
  fun graph =>
    let (result, nodes) := writeNodes ns source authority graph.nodes entity
    (Traced.ofExcept result, { graph with nodes := nodes })

def writeEntities (ns source : Atom) (authority : Authority) (entities : List Entity) :
    Change Graph Unit :=
  entities.forM (writeEntity ns source authority)

def dropSource (nodes : List Node) (ns source : Atom) (returning : List Atom) :
    Except Fault (List Node) := do
  let kept ← nodes.mapM (fun node =>
    if node.ns == ns && node.sources.contains source then node.withoutSource source returning
    else pure (some node))
  return kept.filterMap id

def writeBatch (ns source : Atom) (authority : Authority) (entities : List Entity) :
    Change Graph Unit := do
  begin
  writeEntities ns source authority entities

def inBatches {α : Type} (write : List α → Change Graph Unit) (items : List α) : Change Graph Unit :=
  inSession (fun graph =>
    if graph.batchSize = 0 then (Traced.fail .zeroStep, graph)
    else
      let batches : Change Graph Unit := (chunks graph.batchSize items).forM write
      batches graph)

def upsert (ns : Atom) (entities : List Entity) (source : Atom) (authority : Authority) :
    Change Graph Unit :=
  inBatches (writeBatch ns source authority) entities

def writeDrafts (ns source : Atom) (authority : Authority) (drafts : List Draft) :
    Change Graph Unit := do
  let (entities, fault) := EntityOf.front ns drafts
  writeBatch ns source authority entities
  Traced.failIf fault

def upsertDrafts (ns : Atom) (drafts : List Draft) (source : Atom) (authority : Authority) :
    Change Graph Unit :=
  inBatches (writeDrafts ns source authority) drafts

def dropContributions (ns source : Atom) (returning : List Atom) : Change Graph Nat := fun graph =>
  match dropSource graph.nodes ns source returning with
  | .error fault => (Traced.fail fault, graph)
  | .ok kept => (pure (graph.nodes.length - kept.length), { graph with nodes := kept })

/-- Replaces everything that a source contributed to a namespace, in one transaction; the number tells
how many nodes were removed at first. -/
def replaceSource (ns source : Atom) (entities : List Entity) (authority : Authority) :
    Change Graph Nat :=
  inSession (do
    begin
    let dropped ← dropContributions ns source (entities.map EntityOf.id)
    writeEntities ns source authority entities
    return dropped)

def evict (ns : Atom) (ids : List Value) : Change Graph Nat :=
  inSession (fun graph =>
    let kept := graph.nodes.filter (fun node =>
      !(node.ns == ns && ids.any (fun id => id == .atom node.id)))
    (pure (graph.nodes.length - kept.length), { graph with nodes := kept }))

def nodesOf (graph : Graph) (ns : Atom) : List Node :=
  graph.nodes.filter (fun node => node.ns == ns)

def get (graph : Graph) (ns id : Atom) : Except Fault (Option Entity) := do
  graph.session
  match graph.nodes.find? (fun node => node.is ns id) with
  | none => return none
  | some node => return some (← node.toEntity ns)

/-- The stored ones of several entities, each once, in the order asked for; asking for none needs no
session. -/
def getAll (graph : Graph) (ns : Atom) (ids : List Atom) : Except Fault (List Entity) := do
  if ids.isEmpty then return []
  else
    graph.session
    let found := ids.eraseDups.filterMap (fun id => (graph.nodesOf ns).find? (fun node => node.id == id))
    found.mapM (fun node => node.toEntity ns)

def identifiers (graph : Graph) (ns : Atom) : Except Fault (List Atom) := do
  graph.session
  return (graph.nodesOf ns).map Node.id

/-- The ids of a namespace that match a pattern to the last character, in ascending order; all ids there
have to be texts. -/
def matching (graph : Graph) (ns : Atom) (pattern : String) : Except Fault (List String) := do
  let ids ← requireTexts (← graph.identifiers ns)
  return distinctSorted (ids.filter (Glob.isExactMatch pattern))

def stats (graph : Graph) : Except Fault (List (Atom × Nat)) := do
  graph.session
  let names := (graph.nodes.map Node.ns).eraseDups
  return names.map (fun ns => (ns, (graph.nodesOf ns).length))

def nodeLess (a b : Node) : Except Fault Bool :=
  if a.ns == b.ns then a.id.less b.id else a.ns.less b.ns

def listing (graph : Graph) : Except Fault Value := do
  let nodes ← (← sortBy? nodeLess graph.nodes).mapM Node.toValue
  return .list (nodes ++ [.object [("transactions", .ofNat graph.transactions)]])

end Graph

end FleetCache
