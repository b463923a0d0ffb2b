import Folio.Proofs.Access.History
import Folio.Proofs.Location
import Folio.Proofs.Location.Pattern
import Folio.Proofs.SortedMap

/-!
# What a search finds

A search lists the keys that count at its moment and match the pattern of the scan.
The scan may list too many keys but never too few; among the listed keys the search
keeps those of its schema whose location matches segment by segment.
-/

namespace Folio

/-! ## Keys that a scan lists -/

/-- A scan of a sound store lists the keys that count and match. -/
theorem Memory.listKeys_keyText {memory : Memory} (sound : memory.poisoned = false) (now : Nat)
    (pattern : List (Option Char)) :
    ∃ keys, memory.listKeys now (String.ofList (pattern.flatMap keyText)) = ⟨keys, none⟩ ∧
      ∀ key, key ∈ keys ↔ (memory.live? now key).isSome = true ∧ StarMatch pattern key.toList := by
  rw [listKeys, KeyPattern.compile_keyText]
  dsimp only
  rw [sound, if_neg Bool.false_ne_true]
  refine ⟨_, rfl, fun key => ?_⟩
  rw [SortedMap.mem_keys_iff, SortedMap.get?_filter, ← KeyPattern.isMatch_keyText, live?]
  cases held : memory.entries.get? key with
  | none => simp
  | some entry => simp [Option.filter_some]

/-! ## Locations among keys -/

namespace Find

variable {schema : Schema} {location : Location}

theorem toOption_ofText_iff {text : String} :
    (Location.ofText text).toOption = some location ↔ text ≠ "" ∧ location.render = text := by
  rw [← Location.ofText_eq_ok_iff]
  cases Location.ofText text with
  | error misuse => simp [Except.toOption]
  | ok found => simp [Except.toOption]

/-- A key is read as the location that it was made of, unless nothing follows the schema. -/
theorem locationOf?_eq_some_iff {key : String} :
    locationOf? schema key = some location ↔
      location.render ≠ "" ∧ key = schema.key location := by
  have toList : ∀ rest, schema.keyStart.toList ++ rest = key.toList ↔
      key = schema.keyStart ++ String.ofList rest := by
    intro rest
    rw [← String.toList_inj, String.toList_append, String.toList_ofList]
    exact eq_comm
  unfold locationOf?
  cases start : schema.keyStart.toList.isPrefixOf? key.toList with
  | none =>
      constructor
      · rintro ⟨⟩
      · rintro ⟨-, rfl⟩
        have found := List.isPrefixOf?_eq_some_iff_append_eq.2
          ((toList location.render.toList).2 (by rw [String.ofList_toList]; rfl))
        rw [start] at found
        cases found
  | some rest =>
      have cut := (toList rest).1 (List.isPrefixOf?_eq_some_iff_append_eq.1 start)
      dsimp only
      rw [toOption_ofText_iff, cut, Schema.key]
      constructor
      · rintro ⟨nonempty, rendered⟩
        rw [rendered]
        exact ⟨nonempty, rfl⟩
      · rintro ⟨nonempty, same⟩
        have rendered := (String.append_right_inj schema.keyStart).1 same
        rw [rendered]
        exact ⟨nonempty, rfl⟩

theorem mem_distinct {α : Type} [DecidableEq α] (seen items : List α) (item : α) :
    item ∈ distinct seen items ↔ item ∈ items ∧ item ∉ seen := by
  induction items generalizing seen with
  | nil => simp [distinct]
  | cons first rest ih =>
      rw [distinct]
      by_cases known : first ∈ seen
      · rw [if_pos known, ih]
        grind
      · rw [if_neg known, List.mem_cons, ih]
        grind

theorem nodup_distinct {α : Type} [DecidableEq α] (seen items : List α) :
    (distinct seen items).Nodup := by
  induction items generalizing seen with
  | nil => exact List.nodup_nil
  | cons first rest ih =>
      rw [distinct]
      by_cases known : first ∈ seen
      · rw [if_pos known]
        exact ih seen
      · rw [if_neg known, List.nodup_cons]
        have fresh : first ∉ distinct (first :: seen) rest := fun mem =>
          ((mem_distinct _ rest first).1 mem).2 List.mem_cons_self
        exact ⟨fresh, ih (first :: seen)⟩

/-- A location is among those of some keys if its key is and the pattern matches it. -/
theorem mem_locations {compiled : LocationPattern} {keys : List String} :
    location ∈ locations schema compiled keys ↔
      location.render ≠ "" ∧ schema.key location ∈ keys ∧ compiled.isMatch location = true := by
  rw [locations, mem_distinct, List.mem_filter, List.mem_filterMap]
  constructor
  · rintro ⟨⟨⟨key, listed, read⟩, matched⟩, -⟩
    obtain ⟨nonempty, rfl⟩ := locationOf?_eq_some_iff.1 read
    exact ⟨nonempty, listed, matched⟩
  · rintro ⟨nonempty, listed, matched⟩
    have read : locationOf? schema (schema.key location) = some location :=
      locationOf?_eq_some_iff.2 ⟨nonempty, rfl⟩
    exact ⟨⟨⟨_, listed, read⟩, matched⟩, List.not_mem_nil⟩

theorem prepare_name (schema : Schema) (pattern : Location) :
    prepare schema.name pattern = .ok (schema, ⟨pattern.segments.map compiledSegment⟩) := by
  rw [prepare, checkSchema_eq_ok_iff.2 rfl, compile_location]
  rfl

/-! ## The listing of a search -/

def listing (memory : Memory) (now : Nat) (schema : Schema) (pattern : Location) :
    Listing Location :=
  let keys := memory.listKeys now (schema.scanText pattern)
  ⟨locations schema ⟨pattern.segments.map compiledSegment⟩ keys.found, keys.failure⟩

/-- A search answers with its listing of the moment, however the store is changed until it is read. -/
theorem run_find (client : Client) (now : Nat) (schema : Schema) (pattern : Location)
    (memory : Memory) :
    client.run now (.find schema.name pattern) memory =
      (.ok fun later => (listing memory now schema pattern, later), memory) := by
  rw [Client.run, Operation.act, start, prepare_name]
  rfl

/-- Whether a listing has exactly the locations whose keys count and that match, each once. -/
structure Exact (memory : Memory) (now : Nat) (schema : Schema) (pattern : Location)
    (listing : Listing Location) : Prop where
  complete : listing.failure = none
  nodup : listing.found.Nodup
  mem_iff : ∀ location, location ∈ listing.found ↔
    location.render ≠ "" ∧ (memory.live? now (schema.key location)).isSome = true ∧
      pattern.Matches location
  own : ∀ location ∈ listing.found, ∀ (other : Schema) (place : Location),
    other.key place = schema.key location → other = schema

theorem exact_listing {memory : Memory} (sound : memory.poisoned = false) (now : Nat)
    (schema : Schema) (pattern : Location) :
    Exact memory now schema pattern (listing memory now schema pattern) := by
  obtain ⟨keys, listed, mem_keys⟩ :=
    Memory.listKeys_keyText sound now (scanTokens schema pattern)
  have found : listing memory now schema pattern =
      ⟨locations schema ⟨pattern.segments.map compiledSegment⟩ keys, none⟩ := by
    rw [listing, scanText_eq, listed]
  rw [found]
  refine ⟨rfl, nodup_distinct _ _, fun location => ?_, fun _ _ _ _ same => (Schema.key_inj same).1⟩
  dsimp only
  rw [mem_locations, mem_keys, isMatch_location]
  constructor
  · rintro ⟨nonempty, ⟨counts, -⟩, matched⟩
    exact ⟨nonempty, counts, matched⟩
  · rintro ⟨nonempty, counts, matched⟩
    exact ⟨nonempty, ⟨counts, starMatch_key schema matched⟩, matched⟩

theorem listing_poisoned {memory : Memory} (poisoned : memory.poisoned = true) (now : Nat)
    (schema : Schema) (pattern : Location) :
    listing memory now schema pattern = ⟨[], some Memory.lockPoisoned⟩ := by
  rw [listing, scanText_eq, Memory.listKeys, KeyPattern.compile_keyText]
  dsimp only
  rw [if_pos poisoned]
  rfl

end Find

/--
In every state of a store a search succeeds without changing the store, and what it
yields is settled at its moment: exactly the locations whose keys count and that match
the pattern, unless the store is broken.  Neither a history nor a mixture of steps of
clients and direct calls breaks a store, if all deadlines are on the clock.
-/
theorem find_exact (memory : Memory) (client : Client) (now : Nat) (schema : Schema)
    (pattern : Location) :
    (∀ history : History, history.OnClock → history.after.Reached) ∧
    (memory.Reached → memory.poisoned = false) ∧
    ∃ reader listing,
      client.run now (.find schema.name pattern) memory = (.ok reader, memory) ∧
      (∀ later, reader later = (listing, later)) ∧
      if memory.poisoned then listing = ⟨[], some Memory.lockPoisoned⟩
      else Find.Exact memory now schema pattern listing := by
  refine ⟨fun history => History.reached_after, Memory.Reached.sound, _, _,
    Find.run_find client now schema pattern memory, fun later => rfl, ?_⟩
  cases state : memory.poisoned with
  | true =>
      rw [if_pos rfl]
      exact Find.listing_poisoned state now schema pattern
  | false =>
      rw [if_neg Bool.false_ne_true]
      exact Find.exact_listing state now schema pattern

/-- A search is not exact once a deadline beyond the clock has broken the store. -/
theorem find_not_exact :
    ¬ ∀ (history : History) (client : Client) (now : Nat) (schema : Schema) (pattern : Location),
      ∃ reader listing,
        client.run now (.find schema.name pattern) history.after = (.ok reader, history.after) ∧
        (∀ later, reader later = (listing, later)) ∧
        Find.Exact history.after now schema pattern listing := by
  intro exact
  let client : Client := ⟨RetryPolicy.usual, none, 0, .exact⟩
  let schema : Schema := ⟨"s", by decide, by decide⟩
  let pattern : Location := ⟨["*"], by decide, by decide⟩
  let history : History := [⟨0, client, .acquire "l" "t" (.ofSeconds 0xffffffffffffffff)⟩]
  have poisoned : history.after.poisoned = true := by decide +kernel
  obtain ⟨reader, listing, ran, settled, found⟩ := exact history client 0 schema pattern
  rw [Find.run_find, Find.listing_poisoned poisoned] at ran
  cases ran
  cases (settled .empty)
  cases found.complete

end Folio
