import FleetCache.Cache.Store

set_option autoImplicit false

namespace FleetCache

inductive Backend where
  | memory
  | graph
  deriving DecidableEq

def Backend.name : Backend → String
  | .memory => "memory"
  | .graph => "neo4j"

inductive AnyStore where
  | memory (store : Memory)
  | graph (store : Graph)

namespace AnyStore

def graphBatchSize : Int := 500

def empty : Backend → AnyStore
  | .memory => .memory Memory.empty
  | .graph => .graph (Graph.empty graphBatchSize)

def nodeCount : AnyStore → Nat
  | .memory _ => 0
  | .graph store => store.nodes.length

def ask {α : Type} (x : AnyStore) (question : {σ : Type} → [CacheStore σ] → σ → Traced α) : Traced α :=
  match x with
  | .memory store => question store
  | .graph store => question store

def change {α : Type} (work : {σ : Type} → [CacheStore σ] → Change σ α) : Change AnyStore α := fun x =>
  match x with
  | .memory store =>
    let (done, after) := work store
    (done, .memory after)
  | .graph store =>
    let (done, after) := work store
    (done, .graph after)

end AnyStore

instance : CacheStore AnyStore where
  upsert ns entities source authority :=
    AnyStore.change (CacheStore.upsert ns entities source authority)
  upsertDrafts ns drafts source authority :=
    AnyStore.change (CacheStore.upsertDrafts ns drafts source authority)
  replaceSource ns source entities authority :=
    AnyStore.change (CacheStore.replaceSource ns source entities authority)
  evict ns ids := AnyStore.change (CacheStore.evict ns ids)
  get x ns id := x.ask (fun store => CacheStore.get store ns id)
  getAll x ns ids := x.ask (fun store => CacheStore.getAll store ns ids)
  identifiers x ns := x.ask (fun store => CacheStore.identifiers store ns)
  matching x ns pattern := x.ask (fun store => CacheStore.matching store ns pattern)
  stats x := x.ask (fun store => CacheStore.stats store)
  healthy x := x.ask (fun store => CacheStore.healthy store)

end FleetCache
