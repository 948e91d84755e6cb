import FleetCache.Views.Assemble

set_option autoImplicit false

namespace FleetCache.Views

open FleetCache.CacheStore

variable {σ : Type} [CacheStore σ]

def imageResult (entity : Entity) : Traced (Option ImageResult) := do
  let attributes ← checkedAttributes Schema.Image.check entity
  return attributes.map (fun a => ⟨a.imageName, entity.attributes⟩)

def searchText (v : Value) : Except Fault String :=
  match v.orElse (.str "") with
  | .str s => .ok (s ++ "*")
  | other => .error (.wrongType ("can only concatenate " ++ other.typeName ++ " to " ++ other.typeName))

def findImages (store : σ) (text account region : Value) : Traced (List ImageResult) := do
  let glob ← searchText text
  let imagePattern ← liftKey (Key.searchPattern .images [account.field?, region.field?, some glob])
  let imageIds ← matching store Namespace.images.name imagePattern
  let namedPattern ← liftKey (Key.searchPattern .namedImages [account.field?, some glob])
  let namedIds ← matching store Namespace.namedImages.name namedPattern
  let images ← getAll store Namespace.images.name (imageIds.map .str)
  let named ← getAll store Namespace.namedImages.name (namedIds.map .str)
  let results ← (images ++ named).mapM imageResult
  return results.filterMap id

end FleetCache.Views
