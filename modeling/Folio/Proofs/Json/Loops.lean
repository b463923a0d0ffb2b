import Folio.Proofs.Json.Accepted
import Folio.Proofs.Json.Number

/-!
# Items and members

The items of an array are written with commas between them and perhaps blank space
around them.  A reader that reads what is written for each item also reads the items in
order: neither blank space nor a comma nor a closing bracket can continue a number.  And
if all that it takes is written for items, all that the loop takes is written for a list
of items.  The length of the text always is enough fuel.
-/

namespace Folio.Json

open Text

variable {α β : Type} {readItem : Bytes → Except Fault (α × Bytes)} {toItem : β → α}
  {Item : List Char → β → Prop}

/-- Whether a reader takes a value off the front of its text, up to what cannot continue it. -/
def Reads (readItem : Bytes → Except Fault (α × Bytes)) (text : Bytes) (value : α) : Prop :=
  ∀ rest, EndsNumber rest → readItem (text ++ rest) = .ok (value, rest)

/-- Whether all that a reader takes is written for its result, with blank space in front. -/
def TakesWritten (readItem : Bytes → Except Fault (α × Bytes)) (toItem : β → α)
    (Item : List Char → β → Prop) : Prop :=
  ∀ {chars item rest}, readItem (encode chars) = .ok (toItem item, rest) →
    ∃ front body back, chars = front ++ (body ++ back) ∧ Blank front ∧ Item body item ∧
      rest = encode back

theorem endsNumber_nil : EndsNumber [] := by
  rintro b ⟨⟩

theorem endsNumber_comma (rest : Bytes) : EndsNumber (ascii ',' :: rest) := by
  rintro b ⟨⟩
  decide

theorem endsNumber_bracket (rest : Bytes) : EndsNumber (ascii ']' :: rest) := by
  rintro b ⟨⟩
  decide

theorem endsNumber_brace (rest : Bytes) : EndsNumber (ascii '}' :: rest) := by
  rintro b ⟨⟩
  decide

/-- Blank space does not continue a number. -/
theorem EndsNumber.blank {rest : Bytes} (ends : EndsNumber rest) {gap : List Char}
    (blank : Blank gap) : EndsNumber (encode gap ++ rest) := by
  cases gap with
  | nil => exact ends
  | cons c more =>
      have first := blank c List.mem_cons_self
      simp only [List.mem_cons, List.not_mem_nil, or_false] at first
      rcases first with rfl | rfl | rfl | rfl <;>
      · rintro b ⟨⟩
        decide

/-! ## Arrays -/

inductive ItemsText (Item : List Char → β → Prop) : List Char → List β → Prop where
  | last {front body back : List Char} {item : β} (before : Blank front) (written : Item body item)
      (after : Blank back) : ItemsText Item (front ++ (body ++ back)) [item]
  | more {front body back rest : List Char} {item : β} {items : List β} (before : Blank front)
      (written : Item body item) (after : Blank back) (others : ItemsText Item rest items) :
      ItemsText Item (front ++ (body ++ (back ++ ',' :: rest))) (item :: items)

inductive ArrayText (Item : List Char → β → Prop) : List Char → List β → Prop where
  | empty {inside : List Char} (blank : Blank inside) :
      ArrayText Item ('[' :: (inside ++ [']'])) []
  | items {inside : List Char} {items : List β} (written : ItemsText Item inside items) :
      ArrayText Item ('[' :: (inside ++ [']'])) items

/-- There are no more items than commas, apart from the last one. -/
theorem ItemsText.length_le {chars : List Char} {items : List β}
    (written : ItemsText Item chars items) : items.length ≤ (encode chars).length + 1 := by
  induction written with
  | last => exact Nat.succ_le_succ (Nat.zero_le _)
  | @more front body back rest item items before written after others ih =>
      rw [encode_append, encode_append, encode_append, encode_cons_of_ascii (by decide)]
      simp only [List.length_append, List.length_cons]
      omega

section Weaker

variable {chars : List Char} {items : List β} {Other : List Char → β → Prop} {P : β → Prop}

theorem ItemsText.imp (weaker : ∀ chars item, Item chars item → Other chars item)
    (written : ItemsText Item chars items) : ItemsText Other chars items := by
  induction written with
  | last before written after => exact .last before (weaker _ _ written) after
  | more before written after _ ih => exact .more before (weaker _ _ written) after ih

theorem ItemsText.forall_mem (each : ∀ chars item, Item chars item → P item)
    (written : ItemsText Item chars items) : ∀ item ∈ items, P item := by
  induction written with
  | last _ written _ => exact List.forall_mem_singleton.2 (each _ _ written)
  | more _ written _ _ ih => exact List.forall_mem_cons.2 ⟨each _ _ written, ih⟩

theorem ArrayText.imp (weaker : ∀ chars item, Item chars item → Other chars item)
    (written : ArrayText Item chars items) : ArrayText Other chars items := by
  cases written with
  | empty blank => exact .empty blank
  | items written => exact .items (written.imp weaker)

theorem ArrayText.forall_mem (each : ∀ chars item, Item chars item → P item)
    (written : ArrayText Item chars items) : ∀ item ∈ items, P item := by
  cases written with
  | empty => exact List.forall_mem_nil _
  | items written => exact written.forall_mem each

end Weaker

/-- A reader of items skips blank space, and neither nothing nor a closing bracket is an item. -/
structure ReadsBehindBlank (readItem : Bytes → Except Fault (α × Bytes)) : Prop where
  skips : ∀ bytes, readItem (skipBlank bytes) = readItem bytes
  starts : ∀ {bytes result}, readItem bytes = .ok result →
    ∃ b more, skipBlank bytes = b :: more ∧ b ≠ ascii ']'

namespace ReadsBehindBlank

variable (reader : ReadsBehindBlank readItem)

include reader

theorem readItem_blank {front : List Char} (blank : Blank front) (bytes : Bytes) :
    readItem (encode front ++ bytes) = readItem bytes := by
  rw [← reader.skips, skipBlank_append blank, reader.skips]

theorem readItems_skipBlank (fuel : Nat) (bytes : Bytes) :
    readItems readItem fuel (skipBlank bytes) = readItems readItem fuel bytes := by
  cases fuel with
  | zero => rfl
  | succ fuel => rw [readItems, readItems, reader.skips]

/-- Items begin with what an item begins with. -/
theorem starts_of_readItems {fuel : Nat} {bytes : Bytes} {result : List α × Bytes}
    (read : readItems readItem fuel bytes = .ok result) :
    ∃ b more, skipBlank bytes = b :: more ∧ b ≠ ascii ']' := by
  cases fuel with
  | zero => cases read
  | succ fuel =>
      obtain ⟨_, first, _⟩ := bind_eq_ok_iff.1 read
      exact reader.starts first

theorem readItems_last {front back : List Char} (before : Blank front) (after : Blank back)
    {text : Bytes} {item : α} (reads : Reads readItem text item) (fuel : Nat) (rest : Bytes) :
    readItems readItem (fuel + 1) (encode front ++ (text ++ (encode back ++ ascii ']' :: rest))) =
      .ok ([item], rest) := by
  have ends := (endsNumber_bracket rest).blank after
  have bracket : skipBlank (encode back ++ ascii ']' :: rest) = ascii ']' :: rest :=
    skipBlank_append after _
  rw [readItems, reader.readItem_blank before, reads _ ends]
  simp only [bind, Except.bind, bracket]
  rfl

theorem readItems_more {front back : List Char} (before : Blank front) (after : Blank back)
    {text : Bytes} {item : α} (reads : Reads readItem text item) {fuel : Nat} {bytes rest : Bytes}
    {items : List α} (others : readItems readItem fuel bytes = .ok (items, rest)) :
    readItems readItem (fuel + 1) (encode front ++ (text ++ (encode back ++ ascii ',' :: bytes))) =
      .ok (item :: items, rest) := by
  have ends := (endsNumber_comma bytes).blank after
  have comma : skipBlank (encode back ++ ascii ',' :: bytes) = ascii ',' :: bytes :=
    skipBlank_append after _
  rw [readItems, reader.readItem_blank before, reads _ ends]
  simp only [bind, Except.bind, comma]
  rw [if_neg (by decide), if_pos trivial, others]

/-- Written items are read in order. -/
theorem readItems_written {chars : List Char} {items : List β}
    (written : ItemsText Item chars items)
    (reads : ∀ item ∈ items, ∀ chars, Item chars item → Reads readItem (encode chars) (toItem item))
    (rest : Bytes) {fuel : Nat} (enough : items.length ≤ fuel) :
    readItems readItem fuel (encode chars ++ ascii ']' :: rest) =
      .ok (items.map toItem, rest) := by
  induction written generalizing fuel with
  | @last front body back item before written after =>
      cases fuel with
      | zero => exact absurd enough (Nat.not_succ_le_zero _)
      | succ fuel =>
          have first := reads item List.mem_cons_self body written
          rw [encode_append, encode_append, List.append_assoc, List.append_assoc]
          exact reader.readItems_last before after first fuel rest
  | @more front body back chars item items before written after others ih =>
      cases fuel with
      | zero => exact absurd enough (Nat.not_succ_le_zero _)
      | succ fuel =>
          have first := reads item List.mem_cons_self body written
          have behind := ih (fun other mem => reads other (List.mem_cons_of_mem item mem))
            (Nat.le_of_succ_le_succ enough)
          rw [encode_append, encode_append, encode_append, encode_cons_of_ascii (by decide),
            List.append_assoc, List.append_assoc, List.append_assoc]
          exact reader.readItems_more before after first behind

/-- A written array is read behind its opening bracket. -/
theorem readArray_written {chars : List Char} {items : List β}
    (written : ArrayText Item chars items)
    (reads : ∀ item ∈ items, ∀ chars, Item chars item → Reads readItem (encode chars) (toItem item))
    (rest : Bytes) :
    ∃ bytes, encode chars ++ rest = ascii '[' :: bytes ∧
      readArray readItem bytes.length bytes = .ok (items.map toItem, rest) := by
  have brackets : ∀ inside, encode ('[' :: (inside ++ [']'])) ++ rest =
      ascii '[' :: (encode inside ++ ascii ']' :: rest) := by
    intro inside
    rw [encode_cons_of_ascii (by decide), encode_append, List.cons_append, List.append_assoc]
    rfl
  cases written with
  | @empty inside blank =>
      refine ⟨_, brackets inside, ?_⟩
      rw [readArray, skipBlank_append blank]
      rfl
  | @items inside _ written =>
      refine ⟨_, brackets inside, ?_⟩
      have enough : items.length ≤ (encode inside ++ ascii ']' :: rest).length := by
        have commas := written.length_le
        rw [List.length_append, List.length_cons]
        omega
      have loop := reader.readItems_written written reads rest enough
      obtain ⟨b, more, first, notBracket⟩ := reader.starts_of_readItems loop
      rw [← reader.readItems_skipBlank, first] at loop
      rw [readArray, first]
      dsimp only
      rw [if_neg notBracket, loop]

end ReadsBehindBlank

/-! ## What the loop takes -/

/-- Behind an item there is a closing bracket, or a comma and more items. -/
theorem readItems_cases {fuel : Nat} {bytes rest : Bytes} {items : List α}
    (read : readItems readItem (fuel + 1) bytes = .ok (items, rest)) :
    ∃ first behind, readItem bytes = .ok (first, behind) ∧
      (skipBlank behind = ascii ']' :: rest ∧ items = [first] ∨
        ∃ more others, skipBlank behind = ascii ',' :: more ∧
          readItems readItem fuel more = .ok (others, rest) ∧ items = first :: others) := by
  obtain ⟨⟨first, behind⟩, firstRead, read⟩ := bind_eq_ok_iff.1 read
  refine ⟨first, behind, firstRead, ?_⟩
  dsimp only at read
  split at read
  · cases read
  · rename_i b more bytes
    split at read
    · rename_i bracket
      cases read
      exact .inl ⟨by rw [bytes, bracket], rfl⟩
    · split at read
      · rename_i comma
        obtain ⟨⟨others, rest'⟩, othersRead, ⟨⟩⟩ := bind_eq_ok_iff.1 read
        exact .inr ⟨more, others, by rw [bytes, comma], othersRead, rfl⟩
      · cases read

/-- An item is written in front of the next character that is not blank. -/
theorem TakesWritten.exists_gap (takes : TakesWritten readItem toItem Item) {chars : List Char}
    {item : β} {behind more : Bytes} (read : readItem (encode chars) = .ok (toItem item, behind))
    {c : Char} (small : c.toNat < 0x80) (next : skipBlank behind = ascii c :: more) :
    ∃ front body back tail, chars = front ++ (body ++ (back ++ c :: tail)) ∧ Blank front ∧
      Item body item ∧ Blank back ∧ more = encode tail := by
  obtain ⟨front, body, after, rfl, before, written, rfl⟩ := takes read
  obtain ⟨back, tail, rfl, blank, skipped⟩ := exists_skipBlank after
  rw [skipped] at next
  obtain ⟨tail, rfl, rfl⟩ := eq_cons_of_encode_eq small next
  exact ⟨front, body, back, tail, rfl, before, written, blank, rfl⟩

/-- All that the loop takes is written for items, up to a closing bracket. -/
theorem of_readItems (takes : TakesWritten readItem toItem Item) {fuel : Nat} {chars : List Char}
    {items : List β} {rest : Bytes}
    (read : readItems readItem fuel (encode chars) = .ok (items.map toItem, rest)) :
    ∃ inside back, chars = inside ++ ']' :: back ∧ ItemsText Item inside items ∧
      rest = encode back := by
  induction fuel generalizing chars items with
  | zero => cases read
  | succ fuel ih =>
      obtain ⟨first, behind, firstRead, ⟨bracket, last⟩ | ⟨more, others, comma, othersRead, list⟩⟩ :=
        readItems_cases read
      · obtain ⟨item, rfl, rfl⟩ := List.map_eq_singleton_iff.1 last
        obtain ⟨front, body, back, tail, rfl, before, written, after, rfl⟩ :=
          takes.exists_gap firstRead (by decide) bracket
        exact ⟨front ++ (body ++ back), tail, by simp only [List.append_assoc],
          .last before written after, rfl⟩
      · obtain ⟨item, items, rfl, rfl, rfl⟩ := List.map_eq_cons_iff.1 list
        obtain ⟨front, body, back, tail, rfl, before, written, after, rfl⟩ :=
          takes.exists_gap firstRead (by decide) comma
        obtain ⟨inside, tail, rfl, othersWritten, rfl⟩ := ih othersRead
        exact ⟨front ++ (body ++ (back ++ ',' :: inside)), tail,
          by simp only [List.append_assoc, List.cons_append],
          .more before written after othersWritten, rfl⟩

/-- All that is read of an array behind its opening bracket is written for its items. -/
theorem of_readArray (reader : ReadsBehindBlank readItem) (takes : TakesWritten readItem toItem Item)
    {fuel : Nat} {chars : List Char} {items : List β} {rest : Bytes}
    (read : readArray readItem fuel (encode chars) = .ok (items.map toItem, rest)) :
    ∃ body back, '[' :: chars = body ++ back ∧ ArrayText Item body items ∧ rest = encode back := by
  have brackets : ∀ inside back : List Char,
      '[' :: (inside ++ ']' :: back) = '[' :: (inside ++ [']']) ++ back := by simp
  unfold readArray at read
  split at read
  · cases read
  · rename_i b more bytes
    split at read
    · rename_i bracket
      obtain ⟨same, rfl⟩ := Prod.mk.inj (Except.ok.inj read)
      obtain rfl := List.map_eq_nil_iff.1 same.symm
      obtain ⟨front, tail, rfl, blank, skipped⟩ := exists_skipBlank chars
      rw [skipped, bracket] at bytes
      obtain ⟨back, rfl, rfl⟩ := eq_cons_of_encode_eq (by decide) bytes
      exact ⟨_, back, brackets front back, .empty blank, rfl⟩
    · rw [← bytes, reader.readItems_skipBlank] at read
      obtain ⟨inside, back, rfl, written, rfl⟩ := of_readItems takes read
      exact ⟨_, back, brackets inside back, .items written, rfl⟩

/-! ## Objects -/

theorem readKey_encode (key : String) (rest : Bytes) :
    readKey (encode (stringChars key) ++ rest) = .ok (key, rest) := by
  rw [stringChars, encode_cons_of_ascii (by decide)]
  exact readString_literal key rest

theorem readColon_cons (rest : Bytes) : readColon (ascii ':' :: rest) = .ok rest := rfl

/-- The text of one member: its key, a colon and its value. -/
def memberText (key : String) (value : Json) : Bytes :=
  encode (stringChars key) ++ ascii ':' :: encode value.chars

theorem length_memberText_pos (key : String) (value : Json) : 0 < (memberText key value).length := by
  rw [memberText, List.length_append, List.length_cons]
  omega

theorem readMembers_last {key : String} {value : Json} {item : α} {rest : Bytes}
    (reads : Reads readItem (encode value.chars) item) (fuel : Nat) :
    readMembers readKey readItem (fuel + 1) (memberText key value ++ ascii '}' :: rest) =
      .ok ([(key, item)], rest) := by
  rw [readMembers, memberText, List.append_assoc, List.cons_append, readKey_encode]
  simp only [bind, Except.bind, readColon_cons, reads _ (endsNumber_brace rest)]
  rfl

theorem readMembers_more {key : String} {value : Json} {item : α} {bytes rest : Bytes}
    {items : List (String × α)} {fuel : Nat} (reads : Reads readItem (encode value.chars) item)
    (more : readMembers readKey readItem fuel bytes = .ok (items, rest)) :
    readMembers readKey readItem (fuel + 1) (memberText key value ++ ascii ',' :: bytes) =
      .ok ((key, item) :: items, rest) := by
  have comma : skipBlank (ascii ',' :: bytes) = ascii ',' :: bytes := rfl
  rw [readMembers, memberText, List.append_assoc, List.cons_append, readKey_encode]
  simp only [bind, Except.bind, readColon_cons, reads _ (endsNumber_comma bytes), comma]
  rw [if_neg (by decide), if_pos trivial, more]

theorem encode_memberChars_single (key : String) (value : Json) :
    encode (memberChars [(key, value)]) = memberText key value := by
  rw [memberChars, encode_append, encode_cons_of_ascii (by decide), memberText]

theorem encode_memberChars_cons (key : String) (value : Json) (next : String × Json)
    (rest : List (String × Json)) :
    encode (memberChars ((key, value) :: next :: rest)) =
      memberText key value ++ ascii ',' :: encode (memberChars (next :: rest)) := by
  rw [memberChars, encode_append, encode_cons_of_ascii (by decide), encode_append,
    encode_cons_of_ascii (by decide), memberText, List.append_assoc, List.cons_append]
  simp

/-- The members of an object are read back in order. -/
theorem readMembers_encode {toJson : α → Json} {members : List (String × α)}
    (nonempty : members ≠ [])
    (reads : ∀ member ∈ members, Reads readItem (encode (toJson member.2).chars) member.2)
    (rest : Bytes) {fuel : Nat} (enough : members.length ≤ fuel) :
    readMembers readKey readItem fuel
        (encode (memberChars (members.map fun (key, value) => (key, toJson value))) ++
          ascii '}' :: rest) =
      .ok (members, rest) := by
  induction members generalizing fuel with
  | nil => exact absurd rfl nonempty
  | cons member more ih =>
      cases fuel with
      | zero => exact absurd enough (Nat.not_succ_le_zero _)
      | succ fuel =>
          have first := reads member List.mem_cons_self
          cases more with
          | nil =>
              rw [List.map_cons, List.map_nil, encode_memberChars_single]
              exact readMembers_last first fuel
          | cons next others =>
              have rest := ih (List.cons_ne_nil next others)
                (fun other mem => reads other (List.mem_cons_of_mem member mem))
                (Nat.le_of_succ_le_succ enough)
              rw [List.map_cons, List.map_cons, encode_memberChars_cons, List.append_assoc,
                List.cons_append]
              exact readMembers_more first rest

theorem length_le_encode_memberChars (members : List (String × Json)) :
    members.length ≤ (encode (memberChars members)).length := by
  induction members with
  | nil => exact Nat.zero_le _
  | cons member more ih =>
      obtain ⟨key, value⟩ := member
      have first := length_memberText_pos key value
      cases more with
      | nil =>
          rw [encode_memberChars_single]
          exact first
      | cons next others =>
          rw [encode_memberChars_cons, List.length_append, List.length_cons, List.length_cons]
          rw [List.length_cons] at ih ⊢
          omega

theorem exists_cons_memberChars {members : List (String × Json)} (nonempty : members ≠ []) :
    ∃ more, encode (memberChars members) = ascii '"' :: more := by
  match members, nonempty with
  | [(key, value)], _ =>
      rw [encode_memberChars_single, memberText, stringChars, encode_cons_of_ascii (by decide)]
      exact ⟨_, rfl⟩
  | (key, value) :: next :: rest, _ =>
      rw [encode_memberChars_cons, memberText, stringChars, encode_cons_of_ascii (by decide)]
      exact ⟨_, rfl⟩

/-- An object is read back behind its opening brace. -/
theorem readObject_encode {toJson : α → Json} {members : List (String × α)}
    (reads : ∀ member ∈ members, Reads readItem (encode (toJson member.2).chars) member.2)
    (rest : Bytes) {fuel : Nat}
    (enough : (encode (memberChars (members.map fun (key, value) => (key, toJson value)))).length
      ≤ fuel) :
    readObject readKey readItem fuel
        (encode (memberChars (members.map fun (key, value) => (key, toJson value))) ++
          ascii '}' :: rest) =
      .ok (members, rest) := by
  by_cases empty : members = []
  · subst empty
    rfl
  · have count := length_le_encode_memberChars (members.map fun (key, value) => (key, toJson value))
    rw [List.length_map] at count
    have loop := readMembers_encode empty reads rest (Nat.le_trans count enough)
    have nonempty : members.map (fun (key, value) => (key, toJson value)) ≠ [] := fun nil =>
      empty (List.map_eq_nil_iff.1 nil)
    obtain ⟨more, bytes⟩ := exists_cons_memberChars nonempty
    rw [bytes, List.cons_append] at loop ⊢
    exact loop

/-! ## What all results have -/

section Yields

variable {κ : Type} {readKey : Bytes → Except Fault (κ × Bytes)} {P : α → Prop} {fuel : Nat}
  {bytes rest : Bytes}

/-- What every item has that is read, all items of a list have. -/
theorem forall_of_readItems
    (each : ∀ {bytes item rest}, readItem bytes = .ok (item, rest) → P item) {items : List α}
    (read : readItems readItem fuel bytes = .ok (items, rest)) : ∀ item ∈ items, P item := by
  induction fuel generalizing bytes items with
  | zero => cases read
  | succ fuel ih =>
      obtain ⟨first, behind, firstRead, ⟨-, rfl⟩ | ⟨more, others, -, othersRead, rfl⟩⟩ :=
        readItems_cases read
      · exact List.forall_mem_singleton.2 (each firstRead)
      · exact List.forall_mem_cons.2 ⟨each firstRead, ih othersRead⟩

theorem forall_of_readArray
    (each : ∀ {bytes item rest}, readItem bytes = .ok (item, rest) → P item) {items : List α}
    (read : readArray readItem fuel bytes = .ok (items, rest)) : ∀ item ∈ items, P item := by
  unfold readArray at read
  split at read
  · cases read
  · split at read
    · cases read
      exact List.forall_mem_nil P
    · exact forall_of_readItems each read

/-- What every value has that is read behind a key, the values of all members have. -/
theorem forall_of_readMembers
    (each : ∀ {bytes item rest}, readItem bytes = .ok (item, rest) → P item)
    {members : List (κ × α)} (read : readMembers readKey readItem fuel bytes = .ok (members, rest)) :
    ∀ member ∈ members, P member.2 := by
  induction fuel generalizing bytes members with
  | zero => cases read
  | succ fuel ih =>
      obtain ⟨⟨key, _⟩, -, read⟩ := bind_eq_ok_iff.1 read
      obtain ⟨_, -, read⟩ := bind_eq_ok_iff.1 read
      obtain ⟨⟨item, behind⟩, itemRead, read⟩ := bind_eq_ok_iff.1 read
      have here : P item := each itemRead
      dsimp only at read
      split at read
      · cases read
      · split at read
        · cases read
          exact List.forall_mem_singleton.2 here
        · split at read
          · obtain ⟨⟨others, _⟩, othersRead, ⟨⟩⟩ := bind_eq_ok_iff.1 read
            exact List.forall_mem_cons.2 ⟨here, ih othersRead⟩
          · cases read

theorem forall_of_readObject
    (each : ∀ {bytes item rest}, readItem bytes = .ok (item, rest) → P item)
    {members : List (κ × α)} (read : readObject readKey readItem fuel bytes = .ok (members, rest)) :
    ∀ member ∈ members, P member.2 := by
  unfold readObject at read
  split at read
  · cases read
  · split at read
    · cases read
      exact List.forall_mem_nil fun member : κ × α => P member.2
    · exact forall_of_readMembers each read

end Yields

end Folio.Json
