/-!
# Maps sorted by key

A map from text to values is the list of its entries in strictly increasing key
order.  The order is part of the type, so two maps with the same contents are
the same map, and listing the entries needs no further sorting.  Keys compare by
code point, which is also the order of their UTF-8 bytes.
-/

namespace Folio

/-- A map from text to `α`, as its entries in strictly increasing key order. -/
@[ext] structure SortedMap (α : Type) where
  /-- The entries, smallest key first. -/
  entries : List (String × α)
  sorted : entries.Pairwise (fun a b => a.1 < b.1)

namespace SortedMap

variable {α : Type}

def lookupIn (key : String) : List (String × α) → Option α
  | [] => none
  | (k, value) :: rest => if k = key then some value else lookupIn key rest

/-- Put an entry at its place in a sorted list, replacing an entry with its key. -/
def insertIn (key : String) (value : α) : List (String × α) → List (String × α)
  | [] => [(key, value)]
  | (k, old) :: rest =>
      if key < k then (key, value) :: (k, old) :: rest
      else if key = k then (key, value) :: rest
      else (k, old) :: insertIn key value rest

theorem mem_insertIn {key : String} {value : α} {entry : String × α}
    {entries : List (String × α)} (h : entry ∈ insertIn key value entries) :
    entry = (key, value) ∨ entry ∈ entries := by
  induction entries with
  | nil => simpa [insertIn] using h
  | cons head rest ih =>
      obtain ⟨k, old⟩ := head
      grind [insertIn]

theorem insertIn_sorted (key : String) (value : α) {entries : List (String × α)}
    (h : entries.Pairwise (fun a b => a.1 < b.1)) :
    (insertIn key value entries).Pairwise (fun a b => a.1 < b.1) := by
  induction entries with
  | nil => simp [insertIn]
  | cons head rest ih =>
      obtain ⟨k, old⟩ := head
      rw [List.pairwise_cons] at h
      rw [insertIn]
      split
      · rename_i lt
        refine List.pairwise_cons.2 ⟨fun entry mem => ?_, List.pairwise_cons.2 h⟩
        rcases List.mem_cons.1 mem with rfl | mem
        · exact lt
        · exact String.lt_trans lt (h.1 entry mem)
      · split
        · rename_i eq
          subst eq
          exact List.pairwise_cons.2 h
        · rename_i nlt ne
          have above : k < key := by grind
          refine List.pairwise_cons.2 ⟨fun entry mem => ?_, ih h.2⟩
          rcases mem_insertIn mem with rfl | mem
          · exact above
          · exact h.1 entry mem

def empty : SortedMap α := ⟨[], .nil⟩

instance : Inhabited (SortedMap α) := ⟨empty⟩

instance [DecidableEq α] : DecidableEq (SortedMap α) := fun a b =>
  if h : a.entries = b.entries then isTrue (SortedMap.ext h)
  else isFalse fun eq => h (congrArg entries eq)

def get? (map : SortedMap α) (key : String) : Option α := lookupIn key map.entries

def contains (map : SortedMap α) (key : String) : Bool := (map.get? key).isSome

/-- Store a value under a key, replacing what the key held. -/
def insert (map : SortedMap α) (key : String) (value : α) : SortedMap α :=
  ⟨insertIn key value map.entries, insertIn_sorted key value map.sorted⟩

def filter (map : SortedMap α) (keep : String → α → Bool) : SortedMap α :=
  ⟨map.entries.filter (fun entry => keep entry.1 entry.2), map.sorted.filter _⟩

def erase (map : SortedMap α) (key : String) : SortedMap α :=
  map.filter (fun k _ => k ≠ key)

/-- Store several entries in order, so the last entry of a key stays. -/
def insertMany (map : SortedMap α) (entries : List (String × α)) : SortedMap α :=
  entries.foldl (fun map entry => map.insert entry.1 entry.2) map

/-- The map of a list of entries, in which the last entry of a key counts. -/
def ofList (entries : List (String × α)) : SortedMap α := empty.insertMany entries

def keys (map : SortedMap α) : List String := map.entries.map (·.1)

def values (map : SortedMap α) : List α := map.entries.map (·.2)

def size (map : SortedMap α) : Nat := map.entries.length

def isEmpty (map : SortedMap α) : Bool := map.entries.isEmpty

theorem lookupIn_eq_none {key : String} {entries : List (String × α)}
    (h : ∀ entry ∈ entries, entry.1 ≠ key) : lookupIn key entries = none := by
  induction entries with
  | nil => rfl
  | cons head rest ih => grind [lookupIn]

theorem lookupIn_insertIn (key other : String) (value : α) {entries : List (String × α)}
    (h : entries.Pairwise (fun a b => a.1 < b.1)) :
    lookupIn other (insertIn key value entries) =
      if key = other then some value else lookupIn other entries := by
  induction entries with
  | nil => simp [insertIn, lookupIn]
  | cons head rest ih =>
      obtain ⟨k, old⟩ := head
      rw [List.pairwise_cons] at h
      have := ih h.2
      grind [insertIn, lookupIn]

@[simp] theorem get?_empty (key : String) : (empty : SortedMap α).get? key = none := rfl

@[simp] theorem get?_insert (map : SortedMap α) (key other : String) (value : α) :
    (map.insert key value).get? other = if key = other then some value else map.get? other :=
  lookupIn_insertIn key other value map.sorted

theorem lookupIn_filter (keep : String → α → Bool) (key : String) {entries : List (String × α)}
    (h : entries.Pairwise (fun a b => a.1 < b.1)) :
    lookupIn key (entries.filter (fun entry => keep entry.1 entry.2)) =
      (lookupIn key entries).filter (keep key) := by
  induction entries with
  | nil => rfl
  | cons head rest ih =>
      obtain ⟨k, value⟩ := head
      rw [List.pairwise_cons] at h
      have tail := ih h.2
      by_cases hk : k = key
      · subst hk
        have none_left : lookupIn k rest = none :=
          lookupIn_eq_none fun entry mem eq => by
            have := h.1 entry mem
            grind
        by_cases keepIt : keep k value <;> simp_all [lookupIn, Option.filter]
      · by_cases keepIt : keep k value <;> simp_all [lookupIn]

@[simp] theorem get?_filter (map : SortedMap α) (keep : String → α → Bool) (key : String) :
    (map.filter keep).get? key = (map.get? key).filter (keep key) :=
  lookupIn_filter keep key map.sorted

@[simp] theorem get?_erase (map : SortedMap α) (key other : String) :
    (map.erase key).get? other = if key = other then none else map.get? other := by
  rw [erase, get?_filter]
  by_cases h : key = other
  · subst h
    cases map.get? key <;> simp
  · have ne : other ≠ key := fun eq => h eq.symm
    cases map.get? other <;> simp [h, ne]

end SortedMap

end Folio
