import Folio.Access.Basic

/-!
# Finding locations

A search scans the keys of a schema and keeps the locations that match a pattern
segment by segment.  A store may list a key several times; each location is found
once, where it comes first.
-/

namespace Folio.Find

variable {σ : Type}

def locationOf? (schema : Schema) (key : String) : Option Location :=
  match schema.keyStart.toList.isPrefixOf? key.toList with
  | none => none
  | some rest => (Location.ofText (String.ofList rest)).toOption

/-- The items of a list without those seen before. -/
def distinct {α : Type} [DecidableEq α] (seen : List α) : List α → List α
  | [] => []
  | item :: rest =>
      if item ∈ seen then distinct seen rest else item :: distinct (item :: seen) rest

def locations (schema : Schema) (pattern : LocationPattern) (keys : List String) :
    List Location :=
  distinct [] ((keys.filterMap (locationOf? schema)).filter pattern.isMatch)

def reader (schema : Schema) (pattern : LocationPattern) (readKeys : σ → Listing String × σ) :
    σ → Listing Location × σ := fun state =>
  let (listing, state) := readKeys state
  (⟨locations schema pattern listing.found, listing.failure⟩, state)

def prepare (schema : String) (pattern : Location) :
    Except Failure (Schema × LocationPattern) := do
  let schema ← checkSchema schema
  let compiled ← (LocationPattern.compile pattern).mapError Failure.ofPattern
  .ok (schema, compiled)

/-- Begin a search; the answer reads what it finds. -/
def start (access : Access σ) (schema : String) (pattern : Location) :
    Action σ (σ → Listing Location × σ) :=
  .checked (prepare schema pattern) fun (schema, compiled) world =>
    let (readKeys, store) := access.store.scan (schema.scanText pattern) world.store
    (.ok (reader schema compiled readKeys), { world with store := store })

end Folio.Find
