import Folio.Value

/-!
# Nesting and finiteness of values

A value has an encoded form exactly when all its doubles are numbers and its
sequences are nested no deeper than the limit.
-/

namespace Folio.Value

mutual

def nesting : Value → Nat
  | sequence items => itemsNesting items + 1
  | boolean _ | integer _ | float _ | string _ => 0

def itemsNesting : List Value → Nat
  | [] => 0
  | item :: rest => max (nesting item) (itemsNesting rest)

end

mutual

def isFinite : Value → Bool
  | float value => value.isFinite
  | sequence items => itemsFinite items
  | boolean _ | integer _ | string _ => true

def itemsFinite : List Value → Bool
  | [] => true
  | item :: rest => isFinite item && itemsFinite rest

end

mutual

theorem obstacle?_eq_none_iff (value : Value) {depth : Nat} (within : depth ≤ maxNesting) :
    obstacle? depth value = none ↔
      isFinite value = true ∧ depth + nesting value ≤ maxNesting := by
  cases value with
  | boolean _ => simp [obstacle?, isFinite, nesting, within]
  | integer _ => simp [obstacle?, isFinite, nesting, within]
  | string _ => simp [obstacle?, isFinite, nesting, within]
  | float value => cases finite : value.isFinite <;> simp [obstacle?, isFinite, nesting, within, finite]
  | sequence items =>
      rw [obstacle?, isFinite, nesting]
      by_cases atLimit : maxNesting ≤ depth
      · rw [if_pos atLimit]
        constructor
        · intro impossible
          cases impossible
        · rintro ⟨-, bound⟩
          omega
      · have inside : depth + 1 + itemsNesting items = depth + (itemsNesting items + 1) := by omega
        rw [if_neg atLimit, itemsObstacle?_eq_none_iff items (Nat.lt_of_not_le atLimit), inside]

theorem itemsObstacle?_eq_none_iff (items : List Value) {depth : Nat} (within : depth ≤ maxNesting) :
    itemsObstacle? depth items = none ↔
      itemsFinite items = true ∧ depth + itemsNesting items ≤ maxNesting := by
  cases items with
  | nil => simp [itemsObstacle?, itemsFinite, itemsNesting, within]
  | cons item rest =>
      have head := obstacle?_eq_none_iff item within
      have tail := itemsObstacle?_eq_none_iff rest within
      have deepest : depth + max (nesting item) (itemsNesting rest) ≤ maxNesting ↔
          depth + nesting item ≤ maxNesting ∧ depth + itemsNesting rest ≤ maxNesting := by omega
      rw [itemsObstacle?, Option.or_eq_none_iff, head, tail, itemsFinite, itemsNesting,
        Bool.and_eq_true, deepest, and_and_and_comm]

end

/-- Each item of a list has no obstacle iff the list has none. -/
theorem itemsObstacle?_eq_none_iff_forall (items : List Value) (depth : Nat) :
    itemsObstacle? depth items = none ↔ ∀ item ∈ items, obstacle? depth item = none := by
  induction items with
  | nil => simp [itemsObstacle?]
  | cons item rest ih => simp [itemsObstacle?, ih]

theorem itemsNesting_le_iff {items : List Value} {depth : Nat} :
    itemsNesting items ≤ depth ↔ ∀ item ∈ items, nesting item ≤ depth := by
  induction items with
  | nil => simp [itemsNesting]
  | cons item rest ih => rw [itemsNesting, Nat.max_le, ih, List.forall_mem_cons]

theorem itemsFinite_iff {items : List Value} :
    itemsFinite items = true ↔ ∀ item ∈ items, isFinite item = true := by
  induction items with
  | nil => simp [itemsFinite]
  | cons item rest ih => rw [itemsFinite, Bool.and_eq_true, ih, List.forall_mem_cons]

mutual

/-- Where all doubles are numbers, only depth is an obstacle. -/
theorem eq_tooDeep_of_obstacle? (value : Value) {depth : Nat} (finite : isFinite value = true)
    {obstacle : Unencodable} (found : obstacle? depth value = some obstacle) :
    obstacle = .tooDeep := by
  cases value with
  | boolean _ | integer _ | string _ => cases found
  | float value =>
      rw [isFinite] at finite
      rw [obstacle?, if_pos finite] at found
      cases found
  | sequence items =>
      rw [obstacle?] at found
      split at found
      · cases found
        rfl
      · exact eq_tooDeep_of_itemsObstacle? items finite found

theorem eq_tooDeep_of_itemsObstacle? (items : List Value) {depth : Nat}
    (finite : itemsFinite items = true) {obstacle : Unencodable}
    (found : itemsObstacle? depth items = some obstacle) : obstacle = .tooDeep := by
  cases items with
  | nil => cases found
  | cons item rest =>
      rw [itemsFinite, Bool.and_eq_true] at finite
      rw [itemsObstacle?] at found
      obtain here | ⟨-, later⟩ := Option.or_eq_some_iff.1 found
      · exact eq_tooDeep_of_obstacle? item finite.1 here
      · exact eq_tooDeep_of_itemsObstacle? rest finite.2 later

end

end Folio.Value
