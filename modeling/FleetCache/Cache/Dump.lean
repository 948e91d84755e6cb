import FleetCache.Cache.Store
import FleetCache.Text.Blank

set_option autoImplicit false

namespace FleetCache

open FleetCache.Text FleetCache.CacheStore

namespace Dump

def writeRecords (records : List Value) : Except Fault String := do
  let lines ← records.mapM Json.dump
  return String.join (lines.map (· ++ "\n"))

def recordLines (text : List Char) : List (List Char) :=
  ((splitAt '\n' (unifyLines text)).map trim).filter (fun line => !line.isEmpty)

def readRecords (text : String) : Except Fault (List Value) :=
  (recordLines text.toList).mapM Json.parse

def fileName (ns : Namespace) : String :=
  ns.name ++ ".jsonl"

variable {σ : Type} [CacheStore σ]

def writeNamespace (store : σ) (ns : Namespace) : Traced (Nat × String) := do
  let entities ← contents store ns.name
  let records ← (entities.mapM EntityOf.toValue : Except Fault (List Value))
  let text ← writeRecords records
  return (entities.length, text)

def write (store : σ) (directory : String) : Traced (List (Namespace × Nat × String)) := do
  let files ← Namespace.all.mapM (fun ns => do
    let (count, text) ← writeNamespace store ns
    pure (ns, count, text))
  let total := files.foldl (fun total (_, count, _) => total + count) 0
  Traced.info ("Dumped " ++ natText total ++ " entities to " ++ directory)
  return files

def readEntities (ns : Namespace) (text : String) : Except Fault (List Entity) := do
  let drafts ← (recordLines text.toList).mapM (fun line => do
    EntityOf.ofValue (← Json.parse line) (.str ns.name))
  drafts.mapM EntityOf.toEntity

def loadNamespace (ns : Namespace) (text : String) : Change σ Nat := do
  let entities ← (readEntities ns text : Except Fault (List Entity))
  upsert ns.name entities defaultSource .authoritative
  return entities.length

/-- Loads the files of a dump; namespaces without a file are left out. -/
def load (files : List (String × String)) : Change σ (List (Atom × Nat)) := do
  let counts ← Namespace.all.mapM (fun ns =>
    match files.lookup (fileName ns) with
    | none => pure none
    | some text => do
      let count ← loadNamespace ns text
      pure (some (Atom.str ns.name, count)))
  return counts.filterMap id

end Dump

end FleetCache
