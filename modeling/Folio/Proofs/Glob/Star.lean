import Folio.Proofs.Text.Utf8

/-!
# Matching with stars

A pattern of stars and items matches a list if the list is a row of elements that the
items accept, in their order, with any runs in place of the stars.  Several stars in a
row are one.  Where each item accepts one element only, the items stand for themselves.
-/

namespace Folio

variable {α τ : Type}

/--
Whether a pattern matches a list; `none` is a star and `some` an item, which stands for one element
that it accepts.
-/
inductive ItemMatch (accepts : τ → α → Prop) : List (Option τ) → List α → Prop
  | nil : ItemMatch accepts [] []
  | item {pattern : List (Option τ)} {list : List α} {t : τ} {a : α} (accepted : accepts t a)
      (rest : ItemMatch accepts pattern list) : ItemMatch accepts (some t :: pattern) (a :: list)
  | star {pattern : List (Option τ)} {list : List α} (run : List α)
      (rest : ItemMatch accepts pattern list) : ItemMatch accepts (none :: pattern) (run ++ list)

namespace ItemMatch

variable {accepts : τ → α → Prop} {pattern : List (Option τ)} {list : List α}

theorem nil_iff : ItemMatch accepts [] list ↔ list = [] := by
  constructor
  · rintro ⟨⟩
    rfl
  · rintro rfl
    exact nil

theorem item_iff {t : τ} :
    ItemMatch accepts (some t :: pattern) list ↔
      ∃ a rest, list = a :: rest ∧ accepts t a ∧ ItemMatch accepts pattern rest := by
  constructor
  · intro found
    cases found with
    | item accepted rest => exact ⟨_, _, rfl, accepted, rest⟩
  · rintro ⟨a, rest, rfl, accepted, found⟩
    exact item accepted found

theorem star_iff :
    ItemMatch accepts (none :: pattern) list ↔
      ∃ run rest, list = run ++ rest ∧ ItemMatch accepts pattern rest := by
  constructor
  · intro found
    cases found with
    | star run rest => exact ⟨run, _, rfl, rest⟩
  · rintro ⟨run, rest, rfl, found⟩
    exact star run found

/-- A star behind a star matches nothing more. -/
theorem star_star_iff :
    ItemMatch accepts (none :: none :: pattern) list ↔ ItemMatch accepts (none :: pattern) list := by
  constructor
  · intro both
    obtain ⟨run, _, rfl, second⟩ := star_iff.1 both
    obtain ⟨more, rest, rfl, found⟩ := star_iff.1 second
    rw [← List.append_assoc]
    exact star (run ++ more) found
  · exact star []

theorem congr {other : τ → α → Prop} (same : ∀ t a, accepts t a ↔ other t a) :
    ItemMatch accepts pattern list ↔ ItemMatch other pattern list := by
  have equal : accepts = other := funext fun t => funext fun a => propext (same t a)
  rw [equal]

/-- Whether elements match does not change if they are exchanged for ones accepted alike. -/
theorem map_iff {β : Type} {accepts' : τ → β → Prop} (f : α → β)
    (same : ∀ t, some t ∈ pattern → ∀ a ∈ list, accepts' t (f a) ↔ accepts t a) :
    ItemMatch accepts' pattern (list.map f) ↔ ItemMatch accepts pattern list := by
  induction pattern generalizing list with
  | nil => rw [nil_iff, nil_iff, List.map_eq_nil_iff]
  | cons token rest ih =>
      have behind : ∀ {more : List α}, more ⊆ list →
          (ItemMatch accepts' rest (more.map f) ↔ ItemMatch accepts rest more) := fun subset =>
        ih fun t mem a here => same t (List.mem_cons_of_mem token mem) a (subset here)
      cases token with
      | some t =>
          rw [item_iff, item_iff]
          constructor
          · rintro ⟨_, _, mapped, accepted, found⟩
            obtain ⟨a, more, rfl, rfl, rfl⟩ := List.map_eq_cons_iff.1 mapped
            exact ⟨a, more, rfl, (same t List.mem_cons_self a List.mem_cons_self).1 accepted,
              (behind (List.subset_cons_self a more)).1 found⟩
          · rintro ⟨a, more, rfl, accepted, found⟩
            exact ⟨f a, more.map f, rfl, (same t List.mem_cons_self a List.mem_cons_self).2 accepted,
              (behind (List.subset_cons_self a more)).2 found⟩
      | none =>
          rw [star_iff, star_iff]
          constructor
          · rintro ⟨_, _, mapped, found⟩
            obtain ⟨run, more, rfl, rfl, rfl⟩ := List.map_eq_append_iff.1 mapped
            exact ⟨run, more, rfl, (behind (List.subset_append_right run more)).1 found⟩
          · rintro ⟨run, more, rfl, found⟩
            exact ⟨run.map f, more.map f, List.map_append,
              (behind (List.subset_append_right run more)).2 found⟩

theorem map_pattern_iff {υ : Type} {accepts : υ → α → Prop} (f : τ → υ) :
    ItemMatch accepts (pattern.map (Option.map f)) list ↔
      ItemMatch (fun t a => accepts (f t) a) pattern list := by
  induction pattern generalizing list with
  | nil => rw [List.map_nil, nil_iff, nil_iff]
  | cons token rest ih =>
      cases token with
      | none =>
          rw [List.map_cons, Option.map_none, star_iff, star_iff]
          simp only [ih]
      | some t =>
          rw [List.map_cons, Option.map_some, item_iff, item_iff]
          simp only [ih]

end ItemMatch

/-- Whether a pattern matches a list; `none` is a star and `some` an item that stands for itself. -/
inductive StarMatch : List (Option α) → List α → Prop
  | nil : StarMatch [] []
  | item {pattern : List (Option α)} {list : List α} (a : α) (rest : StarMatch pattern list) :
      StarMatch (some a :: pattern) (a :: list)
  | star {pattern : List (Option α)} {list : List α} (run : List α)
      (rest : StarMatch pattern list) : StarMatch (none :: pattern) (run ++ list)

namespace StarMatch

variable {pattern other : List (Option α)} {list : List α}

theorem nil_iff : StarMatch [] list ↔ list = [] := by
  constructor
  · rintro ⟨⟩
    rfl
  · rintro rfl
    exact nil

theorem item_iff {a : α} :
    StarMatch (some a :: pattern) list ↔ ∃ rest, list = a :: rest ∧ StarMatch pattern rest := by
  constructor
  · intro found
    cases found with
    | item _ rest => exact ⟨_, rfl, rest⟩
  · rintro ⟨rest, rfl, found⟩
    exact item a found

theorem star_iff :
    StarMatch (none :: pattern) list ↔ ∃ run rest, list = run ++ rest ∧ StarMatch pattern rest := by
  constructor
  · intro found
    cases found with
    | star run rest => exact ⟨run, _, rfl, rest⟩
  · rintro ⟨run, rest, rfl, found⟩
    exact star run found

/-- Items match themselves. -/
theorem items (list : List α) : StarMatch (list.map some) list := by
  induction list with
  | nil => exact nil
  | cons a rest ih => exact item a ih

theorem append {first : List α} (found : StarMatch pattern first) (rest : StarMatch other list) :
    StarMatch (pattern ++ other) (first ++ list) := by
  induction found with
  | nil => exact rest
  | item a _ ih => exact item a ih
  | star run _ ih =>
      rw [List.append_assoc]
      exact star run ih

/-- Items in front of a pattern stand in front of what it matches. -/
theorem items_append_iff {front : List α} :
    StarMatch (front.map some ++ pattern) list ↔
      ∃ rest, list = front ++ rest ∧ StarMatch pattern rest := by
  induction front generalizing list with
  | nil => simp
  | cons a more ih =>
      rw [List.map_cons, List.cons_append, item_iff]
      constructor
      · rintro ⟨_, rfl, behind⟩
        obtain ⟨rest, rfl, found⟩ := ih.1 behind
        exact ⟨rest, rfl, found⟩
      · rintro ⟨rest, rfl, found⟩
        exact ⟨more ++ rest, rfl, ih.2 ⟨rest, rfl, found⟩⟩

/-- Items that stand for themselves accept themselves only. -/
theorem iff_itemMatch : StarMatch pattern list ↔ ItemMatch Eq pattern list := by
  constructor
  · intro found
    induction found with
    | nil => exact .nil
    | item a _ ih => exact .item rfl ih
    | star run _ ih => exact .star run ih
  · intro found
    induction found with
    | nil => exact nil
    | item accepted _ ih =>
        cases accepted
        exact item _ ih
    | star run _ ih => exact star run ih

end StarMatch

/-! ## One star for several -/

/-- A pattern with one star in place of several, given whether a star stands in front of it. -/
def collapse (afterStar : Bool) : List (Option α) → List (Option α)
  | [] => []
  | some a :: rest => some a :: collapse false rest
  | none :: rest => if afterStar then collapse true rest else none :: collapse true rest

theorem itemMatch_collapse_behind (accepts : τ → α → Prop) (pattern : List (Option τ))
    (list : List α) :
    (ItemMatch accepts (collapse false pattern) list ↔ ItemMatch accepts pattern list) ∧
      (ItemMatch accepts (none :: collapse true pattern) list ↔
        ItemMatch accepts (none :: pattern) list) := by
  induction pattern generalizing list with
  | nil => exact ⟨Iff.rfl, Iff.rfl⟩
  | cons token rest ih =>
      cases token with
      | some t =>
          have here : ∀ list, ItemMatch accepts (some t :: collapse false rest) list ↔
              ItemMatch accepts (some t :: rest) list := by
            intro list
            rw [ItemMatch.item_iff, ItemMatch.item_iff]
            exact exists_congr fun a => exists_congr fun rest => and_congr_right fun _ =>
              and_congr_right fun _ => (ih rest).1
          refine ⟨here list, ?_⟩
          rw [ItemMatch.star_iff, ItemMatch.star_iff]
          exact exists_congr fun run => exists_congr fun rest => and_congr_right fun _ => here rest
      | none =>
          refine ⟨(ih list).2, ?_⟩
          rw [ItemMatch.star_star_iff]
          exact (ih list).2

/-- One star matches what several match. -/
theorem itemMatch_collapse (accepts : τ → α → Prop) (pattern : List (Option τ)) (list : List α) :
    ItemMatch accepts (collapse false pattern) list ↔ ItemMatch accepts pattern list :=
  (itemMatch_collapse_behind accepts pattern list).1

theorem starMatch_collapse (pattern : List (Option α)) (list : List α) :
    StarMatch (collapse false pattern) list ↔ StarMatch pattern list := by
  rw [StarMatch.iff_itemMatch, StarMatch.iff_itemMatch, itemMatch_collapse]

/-- What an item of a pattern is written out as, given what stands for each item; stars are kept. -/
def expand {υ : Type} (items : τ → List υ) : Option τ → List (Option υ)
  | none => [none]
  | some t => (items t).map some

/-- Items between stars are written out one by one, so stars can be joined before or after that. -/
theorem collapse_flatMap_expand {υ : Type} {items : τ → List υ} (nonempty : ∀ t, items t ≠ [])
    (afterStar : Bool) (pattern : List (Option τ)) :
    collapse afterStar (pattern.flatMap (expand items)) =
      (collapse afterStar pattern).flatMap (expand items) := by
  have row : ∀ (list : List υ) (rest : List (Option υ)),
      collapse false (list.map some ++ rest) = list.map some ++ collapse false rest := by
    intro list rest
    induction list with
    | nil => rfl
    | cons u more ih => exact congrArg (some u :: ·) ih
  induction pattern generalizing afterStar with
  | nil => rfl
  | cons token rest ih =>
      cases token with
      | none =>
          rw [List.flatMap_cons, expand, List.singleton_append, collapse, collapse, ih true]
          cases afterStar <;> rfl
      | some t =>
          obtain ⟨u, more, made⟩ := List.exists_cons_of_ne_nil (nonempty t)
          rw [List.flatMap_cons, collapse, List.flatMap_cons, expand, made, List.map_cons,
            List.cons_append, collapse, row, ih false]
          rfl

/-- Several stars in a row are joined wherever they stand. -/
theorem collapse_replicate (afterStar : Bool) (stars : Nat) (front back : List (Option α)) :
    collapse afterStar (front ++ (List.replicate (stars + 1) none ++ back)) =
      collapse afterStar (front ++ none :: back) := by
  have behind : collapse true (List.replicate stars none ++ back) = collapse true back := by
    induction stars with
    | zero => rfl
    | succ stars ih => exact ih
  induction front generalizing afterStar with
  | nil =>
      rw [List.replicate_succ, List.nil_append, List.nil_append, List.cons_append, collapse, collapse,
        behind]
  | cons token more ih =>
      cases token with
      | none => rw [List.cons_append, List.cons_append, collapse, collapse, ih true]
      | some a => rw [List.cons_append, List.cons_append, collapse, collapse, ih false]

theorem head?_collapse_true (pattern : List (Option α)) :
    (collapse true pattern).head? ≠ some none := by
  induction pattern with
  | nil => rintro ⟨⟩
  | cons token rest ih =>
      cases token with
      | some a => rintro ⟨⟩
      | none => exact ih

end Folio
