import FleetCache.Traced

set_option autoImplicit false

namespace FleetCache

/-- The items of a listing with the trace before them and the work that ends it. -/
structure Listing (α : Type) where
  opening : List Event
  items : List α
  ending : Traced Unit

namespace Listing

variable {α β γ : Type}

def ofList (items : List α) : Listing α :=
  ⟨[], items, pure ()⟩

def failed (opening : List Event) (fault : Fault) : Listing α :=
  ⟨opening, [], Traced.fail fault⟩

def takeGood (f : α → Except Fault (List β)) : List α → List β × Option Fault
  | [] => ([], none)
  | item :: rest =>
    match f item with
    | .error fault => ([], some fault)
    | .ok good =>
      let (more, fault) := takeGood f rest
      (good ++ more, fault)

/-- Every item turned into further ones; a fault there ends the listing. -/
def expand (f : α → Except Fault (List β)) (listing : Listing α) : Listing β :=
  match takeGood f listing.items with
  | (good, none) => ⟨listing.opening, good, listing.ending⟩
  | (good, some fault) => ⟨listing.opening, good, Traced.fail fault⟩

def convert (f : α → Except Fault β) (listing : Listing α) : Listing β :=
  listing.expand (fun item => (f item).map (fun b => [b]))

def run (listing : Listing α) (start : β) (step : β → α → Traced β) : Traced β := do
  (⟨.ok (), listing.opening⟩ : Traced Unit)
  let result ← listing.items.foldlM step start
  listing.ending
  return result

def collect (listing : Listing α) : Traced (List α) := do
  (⟨.ok (), listing.opening⟩ : Traced Unit)
  listing.ending
  return listing.items

end Listing

end FleetCache
