import FleetCache.Cache.Graph

set_option autoImplicit false

namespace FleetCache

open FleetCache.Text

def defaultSource : Atom := "default"

/-- A cache of entities by namespace and id. Of drafts those before the first one whose id can be none are
written. -/
class CacheStore (σ : Type) where
  upsert : Atom → List Entity → Atom → Authority → Change σ Unit
  upsertDrafts : Atom → List Draft → Atom → Authority → Change σ Unit
  replaceSource : Atom → Atom → List Entity → Authority → Change σ Unit
  evict : Atom → List Value → Change σ Nat
  get : σ → Atom → Atom → Traced (Option Entity)
  getAll : σ → Atom → List Atom → Traced (List Entity)
  identifiers : σ → Atom → Traced (List Atom)
  matching : σ → Atom → String → Traced (List String)
  stats : σ → Traced (List (Atom × Nat))
  healthy : σ → Traced Bool

/-- Removes entities of a namespace and counts them. A value that cannot be an id ends the removal, unless
nothing is left to remove. -/
def Memory.evictValues (ns : Atom) (ids : List Value) : Change Memory Nat := fun store =>
  let (front, fault) := frontAtoms ids
  let after := store.evict ns front
  match fault with
  | some fault =>
    if after.size ns = 0 then (pure (store.size ns), after) else (Traced.fail fault, after)
  | none => (pure (store.size ns - after.size ns), after)

instance : CacheStore Memory where
  upsert ns entities source authority :=
    Change.update (fun store => store.upsert ns entities source authority)
  upsertDrafts ns drafts source authority := fun store =>
    let (entities, fault) := EntityOf.front ns drafts
    (Traced.failIf fault, store.upsert ns entities source authority)
  replaceSource ns source entities authority := fun store =>
    (Traced.debug ("Replaced " ++ source.text ++ " contribution to " ++ ns.text ++ ": "
        ++ natText entities.length ++ " entities written, " ++ natText (store.size ns) ++ " before"),
      store.replaceSource ns source entities authority)
  evict ns ids := Memory.evictValues ns ids
  get store ns id := pure (store.get ns id)
  getAll store ns ids := pure (store.getAll ns ids)
  identifiers store ns := pure (store.identifiers ns)
  matching store ns pattern := store.matching ns pattern
  stats store := pure store.stats
  healthy _ := pure true

def Graph.checkHealth (graph : Graph) : Traced Bool :=
  match graph.session with
  | .ok _ => pure true
  | .error fault => do
    Traced.warn ("Neo4j health check failed: " ++ fault.message)
    return false

instance : CacheStore Graph where
  upsert ns entities source authority := Graph.upsert ns entities source authority
  upsertDrafts ns drafts source authority := Graph.upsertDrafts ns drafts source authority
  replaceSource ns source entities authority := do
    let dropped ← Graph.replaceSource ns source entities authority
    Traced.debug ("Replaced " ++ source.text ++ " in " ++ ns.text ++ ": dropped " ++ natText dropped
      ++ ", wrote " ++ natText entities.length)
  evict ns ids := Graph.evict ns ids
  get graph ns id := graph.get ns id
  getAll graph ns ids := graph.getAll ns ids
  identifiers graph ns := graph.identifiers ns
  matching graph ns pattern := graph.matching ns pattern
  stats graph := graph.stats
  healthy graph := graph.checkHealth

namespace CacheStore

variable {σ : Type} [CacheStore σ]

def sortedIdentifiers (store : σ) (ns : Atom) : Traced (List Atom) := do
  ascending (← identifiers store ns)

def contents (store : σ) (ns : Atom) : Traced (List Entity) := do
  getAll store ns (← sortedIdentifiers store ns)

def putNamespace (agent : Atom) (report : Report) (dt : DataType) : Change σ Unit :=
  let entities := report.entities dt.ns
  if report.incremental then upsert dt.ns entities agent dt.authority
  else replaceSource dt.ns agent entities dt.authority

def warnUndeclared (agent : Atom) (types : List DataType) (report : Report) : Traced Unit :=
  report.results.forM (fun (ns, _) =>
    if types.any (fun dt => dt.ns == ns) then pure ()
    else
      Traced.warn (agent.text ++ " produced undeclared namespace " ++ ns.text ++ "; ignoring it"))

def putReport (agent : Atom) (types : List DataType) (report : Report) :
    Change σ (List (Atom × Nat)) := do
  let types := declared types
  warnUndeclared agent types report
  types.forM (putNamespace agent report)
  let written := types.map (fun dt => (dt.ns, (report.entities dt.ns).length))
  Traced.debug (agent.text ++ " wrote " ++ shownCounts written)
  return written

end CacheStore

end FleetCache
