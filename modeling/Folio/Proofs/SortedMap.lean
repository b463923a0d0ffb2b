import Mathlib.Data.Set.Card
import Folio.Proofs.Text.Order
import Folio.SortedMap

/-!
# Laws of sorted maps

A map is the map of its own entries, and an entry is the value that its key holds.
So a map is told by what its keys hold, writing entries a second time changes
nothing, and the size is the number of keys that hold something.  A list of entries
with distinct keys is, up to its order, the list of the entries of its map.
-/

namespace Folio.SortedMap

variable {α : Type}

/-- The entries stand in the order of the bytes of their keys. -/
theorem entries_inOrder (map : SortedMap α) :
    map.entries.Pairwise fun a b => Text.utf8 a.1 < Text.utf8 b.1 :=
  map.sorted.imp Text.utf8_lt_utf8_iff.2

/-- An entry whose key is above all others goes to the end. -/
theorem insertIn_of_forall_lt {key : String} (value : α) {entries : List (String × α)}
    (above : ∀ entry ∈ entries, entry.1 < key) :
    insertIn key value entries = entries ++ [(key, value)] := by
  induction entries with
  | nil => rfl
  | cons head rest ih =>
      obtain ⟨k, old⟩ := head
      have below : k < key := above (k, old) List.mem_cons_self
      have notAbove : ¬ key < k := String.lt_asymm below
      have distinct : key ≠ k := by
        rintro rfl
        exact String.lt_irrefl key below
      rw [insertIn, if_neg notAbove, if_neg distinct,
        ih fun entry mem => above entry (List.mem_cons_of_mem _ mem)]
      rfl

theorem entries_insertMany (map : SortedMap α) (back : List (String × α))
    (sorted : (map.entries ++ back).Pairwise (fun a b => a.1 < b.1)) :
    (map.insertMany back).entries = map.entries ++ back := by
  induction back generalizing map with
  | nil => rw [List.append_nil]; rfl
  | cons entry rest ih =>
      have above : ∀ other ∈ map.entries, other.1 < entry.1 := fun other mem =>
        (List.pairwise_append.1 sorted).2.2 other mem entry List.mem_cons_self
      have inserted : (map.insert entry.1 entry.2).entries = map.entries ++ [entry] :=
        insertIn_of_forall_lt entry.2 above
      have tail := ih (map.insert entry.1 entry.2)
        (by rwa [inserted, List.append_assoc, List.singleton_append])
      rw [inserted, List.append_assoc, List.singleton_append] at tail
      exact tail

/-- A map is the map of its entries. -/
@[simp] theorem ofList_entries (map : SortedMap α) : ofList map.entries = map :=
  SortedMap.ext (entries_insertMany empty map.entries map.sorted)

theorem lookupIn_eq_some_iff {entries : List (String × α)}
    (sorted : entries.Pairwise (fun a b => a.1 < b.1)) (key : String) (value : α) :
    lookupIn key entries = some value ↔ (key, value) ∈ entries := by
  induction entries with
  | nil => simp [lookupIn]
  | cons head rest ih =>
      obtain ⟨k, old⟩ := head
      obtain ⟨above, tail⟩ := List.pairwise_cons.1 sorted
      rw [lookupIn, List.mem_cons, Prod.mk.injEq]
      by_cases same : k = key
      · subst same
        have absent : (k, value) ∉ rest := fun mem => String.lt_irrefl k (above (k, value) mem)
        rw [if_pos rfl, Option.some.injEq]
        constructor
        · rintro rfl
          exact Or.inl ⟨rfl, rfl⟩
        · rintro (⟨-, rfl⟩ | mem)
          · rfl
          · exact absurd mem absent
      · rw [if_neg same, ih tail]
        constructor
        · exact Or.inr
        · rintro (⟨rfl, -⟩ | mem)
          · exact absurd rfl same
          · exact mem

/-- A key holds a value iff the two are an entry. -/
theorem get?_eq_some_iff (map : SortedMap α) (key : String) (value : α) :
    map.get? key = some value ↔ (key, value) ∈ map.entries :=
  lookupIn_eq_some_iff map.sorted key value

theorem mem_keys_iff (map : SortedMap α) (key : String) :
    key ∈ map.keys ↔ (map.get? key).isSome = true := by
  rw [keys, List.mem_map, Option.isSome_iff_exists]
  constructor
  · rintro ⟨⟨_, value⟩, mem, rfl⟩
    exact ⟨value, (map.get?_eq_some_iff _ value).2 mem⟩
  · rintro ⟨value, held⟩
    exact ⟨(key, value), (map.get?_eq_some_iff key value).1 held, rfl⟩

theorem mem_of_mem_insertMany {map : SortedMap α} {entries : List (String × α)}
    {entry : String × α} (mem : entry ∈ (map.insertMany entries).entries) :
    entry ∈ entries ∨ entry ∈ map.entries := by
  induction entries generalizing map with
  | nil => exact .inr mem
  | cons first rest ih =>
      obtain later | before := ih mem
      · exact .inl (List.mem_cons_of_mem first later)
      · obtain rfl | older := mem_insertIn before
        · exact .inl List.mem_cons_self
        · exact .inr older

/-- The map of a list has no entries but those of the list. -/
theorem mem_of_mem_ofList {entries : List (String × α)} {entry : String × α}
    (mem : entry ∈ (ofList entries).entries) : entry ∈ entries :=
  (mem_of_mem_insertMany mem).resolve_right List.not_mem_nil

theorem isEmpty_insert (map : SortedMap α) (key : String) (value : α) :
    (map.insert key value).isEmpty = false := by
  change (insertIn key value map.entries).isEmpty = false
  cases map.entries with
  | nil => rfl
  | cons head rest =>
      rw [insertIn]
      split
      · rfl
      · split <;> rfl

/-- A map is empty after entries were written iff it was and there were none. -/
theorem isEmpty_insertMany (map : SortedMap α) (entries : List (String × α)) :
    (map.insertMany entries).isEmpty = (map.isEmpty && entries.isEmpty) := by
  induction entries generalizing map with
  | nil => exact (Bool.and_true _).symm
  | cons entry rest ih =>
      have tail := ih (map.insert entry.1 entry.2)
      rw [isEmpty_insert, Bool.false_and] at tail
      rw [List.isEmpty_cons, Bool.and_false]
      exact tail

/-- The size of a map is the number of keys that hold something. -/
theorem size_eq_ncard (map : SortedMap α) :
    map.size = {key | (map.get? key).isSome = true}.ncard := by
  have distinct : map.keys.Nodup :=
    List.pairwise_map.2 (map.sorted.imp fun {a b} below (same : a.1 = b.1) =>
      String.lt_irrefl b.1 (same ▸ below))
  have members : {key | (map.get? key).isSome = true} = ↑map.keys.toFinset := by
    ext key
    rw [Finset.mem_coe, List.mem_toFinset, mem_keys_iff, Set.mem_ofPred_eq]
  rw [members, Set.ncard_coe_finset, List.toFinset_card_of_nodup distinct]
  exact (List.length_map _).symm

/-! ## Maps that hold the same -/

theorem nodup_entries (map : SortedMap α) : map.entries.Nodup :=
  map.sorted.imp fun {a b} below (same : a = b) => String.lt_irrefl b.1 (same ▸ below)

/-- Two maps are the same if every key holds the same in both. -/
theorem ext_get? {a b : SortedMap α} (same : ∀ key, a.get? key = b.get? key) : a = b := by
  have members : ∀ entry, entry ∈ a.entries ↔ entry ∈ b.entries := by
    rintro ⟨key, value⟩
    rw [← get?_eq_some_iff, ← get?_eq_some_iff, same key]
  have permuted := (List.perm_ext_iff_of_nodup a.nodup_entries b.nodup_entries).2 members
  refine SortedMap.ext (permuted.eq_of_pairwise ?_ a.sorted b.sorted)
  intro left right _ _ below above
  exact absurd above (String.lt_asymm below)

theorem insert_insert (map : SortedMap α) (key : String) (first second : α) :
    (map.insert key first).insert key second = map.insert key second := by
  refine ext_get? fun other => ?_
  rw [get?_insert, get?_insert, get?_insert]
  split <;> rfl

/-- A key that is written holds what it is written last, and another one what it held. -/
theorem get?_insertMany (map : SortedMap α) (entries : List (String × α)) (key : String) :
    (map.insertMany entries).get? key = ((ofList entries).get? key).or (map.get? key) := by
  induction entries generalizing map with
  | nil => rfl
  | cons entry rest ih =>
      have here := ih (map.insert entry.1 entry.2)
      have alone := ih (empty.insert entry.1 entry.2)
      change ((map.insert entry.1 entry.2).insertMany rest).get? key =
        (((empty.insert entry.1 entry.2).insertMany rest).get? key).or _
      rw [here, alone, Option.or_assoc, get?_insert, get?_insert, get?_empty]
      split <;> rfl

theorem insertMany_insertMany (map : SortedMap α) (entries : List (String × α)) :
    (map.insertMany entries).insertMany entries = map.insertMany entries := by
  refine ext_get? fun key => ?_
  rw [get?_insertMany, get?_insertMany, ← Option.or_assoc, Option.or_self]

/-- Of the entries of another map, each takes the place of what its key held. -/
theorem get?_insertMany_entries (map other : SortedMap α) (key : String) :
    (map.insertMany other.entries).get? key = (other.get? key).or (map.get? key) := by
  rw [get?_insertMany, ofList_entries]

/-! ## Maps of distinct keys -/

/-- The map of a list with distinct keys has the entries of the list. -/
theorem mem_ofList_iff {entries : List (String × α)} (distinct : (entries.map (·.1)).Nodup)
    (entry : String × α) : entry ∈ (ofList entries).entries ↔ entry ∈ entries := by
  refine ⟨mem_of_mem_ofList, fun mem => ?_⟩
  obtain ⟨key, value⟩ := entry
  rw [← get?_eq_some_iff]
  induction entries with
  | nil => cases mem
  | cons first rest ih =>
      obtain ⟨fresh, others⟩ := List.nodup_cons.1 distinct
      have held : (ofList (first :: rest)).get? key =
          ((ofList rest).get? key).or (if first.1 = key then some first.2 else none) :=
        (get?_insertMany (empty.insert first.1 first.2) rest key).trans
          (by rw [get?_insert, get?_empty])
      rw [held]
      obtain rfl | later := List.mem_cons.1 mem
      · have absent : (ofList rest).get? key = none := by
          rw [Option.eq_none_iff_forall_not_mem]
          intro other found
          have mem := mem_of_mem_ofList ((get?_eq_some_iff _ _ _).1 found)
          exact fresh (List.mem_map.2 ⟨(key, other), mem, rfl⟩)
        rw [absent, if_pos rfl]
        rfl
      · rw [ih others later]
        rfl

theorem ofList_perm {entries : List (String × α)} (distinct : (entries.map (·.1)).Nodup) :
    (ofList entries).entries.Perm entries :=
  (List.perm_ext_iff_of_nodup (nodup_entries _) distinct.of_map).2 (mem_ofList_iff distinct)

/-- A map with the entries of a list is the map of the list. -/
theorem eq_ofList {map : SortedMap α} {entries : List (String × α)}
    (distinct : (entries.map (·.1)).Nodup) (same : ∀ entry, entry ∈ map.entries ↔ entry ∈ entries) :
    map = ofList entries := by
  refine ext_get? fun key => Option.ext fun value => ?_
  rw [get?_eq_some_iff, get?_eq_some_iff, same, mem_ofList_iff distinct]

end Folio.SortedMap
