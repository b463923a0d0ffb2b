import Mathlib.Data.List.DropRight
import Folio.Proofs.Json.Loops
import Folio.Proofs.Value.Nesting
import Folio.Proofs.Value.Number

/-!
# What is written for a value

A value is written as a word, a number, a literal or an array of values.  A text denotes
a value if it holds what is written for the value, nested no deeper than the reader goes,
and apart from that only blank space around it.  The reader finds exactly the value that
a text denotes: what is written for a value is read as the value, and all that the reader
takes is written for what it returns.
-/

namespace Folio

open Json Text

namespace Value

/-! ## The grammar -/

/-- What may be written for a value.  Nothing is written for it with `null` or an object inside. -/
inductive Writes : List Char → Value → Prop where
  | yes : Writes ['t', 'r', 'u', 'e'] (.boolean true)
  | no : Writes ['f', 'a', 'l', 's', 'e'] (.boolean false)
  | number {number : WrittenNumber} {value : Value} (denotes : number.Denotes value) :
      Writes number.chars value
  | string {body : List Char} {text : String} (written : LiteralText body text.toList) :
      Writes ('"' :: (body ++ ['"'])) (.string text)
  | sequence {chars : List Char} {items : List Value} (written : ArrayText Writes chars items) :
      Writes chars (.sequence items)

/-- Whether a text holds what is written for a value, and nothing else but blank space. -/
def Denotes (text : String) (value : Value) : Prop :=
  ∃ front body back, text.toList = front ++ (body ++ back) ∧ Blank front ∧ Blank back ∧
    Writes body value ∧ value.nesting ≤ maxOpen

/-! ## From and to JSON forms -/

mutual

/-- Every value is the value of its JSON form. -/
@[simp] theorem ofJson?_toJson (value : Value) : ofJson? value.toJson = some value := by
  cases value with
  | boolean _ => rw [toJson, ofJson?]
  | integer _ => rw [toJson, ofJson?]
  | float _ => rw [toJson, ofJson?]
  | string _ => rw [toJson, ofJson?]
  | sequence items => rw [toJson, ofJson?, itemsOfJson?_itemsToJson items, Option.map_some]

@[simp] theorem itemsOfJson?_itemsToJson (items : List Value) :
    itemsOfJson? (itemsToJson items) = some items := by
  cases items with
  | nil => rw [itemsToJson, itemsOfJson?]
  | cons item rest =>
      rw [itemsToJson, itemsOfJson?, ofJson?_toJson item, itemsOfJson?_itemsToJson rest]

end

mutual

/-- No other JSON form has the value. -/
theorem eq_toJson_of_ofJson? (json : Json) {value : Value} (known : ofJson? json = some value) :
    json = value.toJson := by
  cases json with
  | null => cases known
  | boolean _ | integer _ | float _ | string _ =>
      rw [ofJson?] at known
      cases known
      rw [toJson]
  | object _ => cases known
  | array items =>
      rw [ofJson?] at known
      obtain ⟨values, inside, rfl⟩ := Option.map_eq_some_iff.1 known
      rw [toJson, eq_itemsToJson_of_itemsOfJson? items inside]

theorem eq_itemsToJson_of_itemsOfJson? (items : List Json) {values : List Value}
    (known : itemsOfJson? items = some values) : items = itemsToJson values := by
  cases items with
  | nil =>
      rw [itemsOfJson?] at known
      cases known
      rw [itemsToJson]
  | cons item rest =>
      rw [itemsOfJson?] at known
      split at known
      · rename_i first others
        cases known
        rw [itemsToJson, eq_toJson_of_ofJson? item first, eq_itemsToJson_of_itemsOfJson? rest others]
      · cases known

end

theorem ofJson?_eq_some_iff {json : Json} {value : Value} :
    ofJson? json = some value ↔ json = value.toJson := by
  constructor
  · exact eq_toJson_of_ofJson? json
  · rintro rfl
    exact ofJson?_toJson value

theorem itemsToJson_eq_map (items : List Value) : itemsToJson items = items.map toJson := by
  induction items with
  | nil => rw [itemsToJson, List.map_nil]
  | cons item rest ih => rw [itemsToJson, List.map_cons, ih]

end Value

/-! ## Reading what is written -/

namespace Json

/-- The reader of values skips blank space, and nothing or a bracket is no value. -/
theorem readsBehindBlank_readValue (depth : Nat) : ReadsBehindBlank (readValue depth) where
  skips bytes := by
    have twice : skipBlank (skipBlank bytes) = skipBlank bytes := List.dropWhile_idempotent _ _
    rw [readValue, readValue, twice]
  starts := by
    intro bytes result read
    rw [readValue] at read
    split at read
    · cases read
    · rename_i b more first
      refine ⟨b, more, first, ?_⟩
      rintro rfl
      cases read

theorem readValue_quote (depth : Nat) {bytes rest : Bytes} {text : String}
    (read : readString bytes = .ok (text, rest)) :
    readValue depth (ascii '"' :: bytes) = .ok (.string text, rest) := by
  have quote : skipBlank (ascii '"' :: bytes) = ascii '"' :: bytes := rfl
  rw [readValue, quote]
  dsimp only
  rw [if_neg (by decide), if_neg (by decide), if_neg (by decide), if_neg (by decide), if_pos rfl,
    read]
  rfl

theorem readValue_bracket {depth : Nat} {bytes rest : Bytes} {items : List Json}
    (read : readArray (readValue depth) bytes.length bytes = .ok (items, rest)) :
    readValue (depth + 1) (ascii '[' :: bytes) = .ok (.array items, rest) := by
  have bracket : skipBlank (ascii '[' :: bytes) = ascii '[' :: bytes := rfl
  rw [readValue, bracket]
  dsimp only
  rw [if_neg (by decide), if_neg (by decide), if_neg (by decide), if_neg (by decide),
    if_neg (by decide), if_pos rfl, read]
  rfl

/-- How a value goes on behind its first byte, if it is read up to some rest. -/
inductive ValueRead (depth : Nat) (more rest : Bytes) : UInt8 → Json → Prop where
  | null : ValueRead depth more rest (ascii 'n') .null
  | yes (read : readWord ['r', 'u', 'e'] more = .ok rest) :
      ValueRead depth more rest (ascii 't') (.boolean true)
  | no (read : readWord ['a', 'l', 's', 'e'] more = .ok rest) :
      ValueRead depth more rest (ascii 'f') (.boolean false)
  | number {b : UInt8} {numeral : Numeral} {json : Json}
      (read : readNumeral (b :: more) = .ok (numeral, rest)) (known : numeral.toJson? = some json) :
      ValueRead depth more rest b json
  | string {text : String} (read : readString more = .ok (text, rest)) :
      ValueRead depth more rest (ascii '"') (.string text)
  | array {inner : Nat} {items : List Json} (deeper : depth = inner + 1)
      (read : readArray (readValue inner) more.length more = .ok (items, rest)) :
      ValueRead depth more rest (ascii '[') (.array items)
  | object {members : List (String × Json)} : ValueRead depth more rest (ascii '{') (.object members)

/-- The first byte tells how a value is read. -/
theorem of_readValue {depth : Nat} {bytes rest : Bytes} {json : Json}
    (read : readValue depth bytes = .ok (json, rest)) :
    ∃ b more, skipBlank bytes = b :: more ∧ ValueRead depth more rest b json := by
  rw [readValue] at read
  split at read
  · cases read
  rename_i b more first
  refine ⟨b, more, first, ?_⟩
  -- The cases are those of the first byte, in the order in which the reader looks at them.
  split at read
  · rename_i letter
    obtain ⟨_, _, ⟨⟩⟩ := bind_eq_ok_iff.1 read
    exact letter ▸ .null
  split at read
  · rename_i letter
    obtain ⟨_, word, ⟨⟩⟩ := bind_eq_ok_iff.1 read
    exact letter ▸ .yes word
  split at read
  · rename_i letter
    obtain ⟨_, word, ⟨⟩⟩ := bind_eq_ok_iff.1 read
    exact letter ▸ .no word
  split at read
  · obtain ⟨⟨numeral, rest'⟩, number, read⟩ := bind_eq_ok_iff.1 read
    dsimp only at read
    split at read
    · rename_i known
      cases read
      exact .number number known
    · cases read
  split at read
  · rename_i quote
    obtain ⟨⟨text, rest'⟩, literal, ⟨⟩⟩ := bind_eq_ok_iff.1 read
    exact quote ▸ .string literal
  split at read
  · rename_i bracket
    split at read
    · cases read
    · obtain ⟨⟨items, rest'⟩, array, ⟨⟩⟩ := bind_eq_ok_iff.1 read
      exact bracket ▸ .array rfl array
  split at read
  · rename_i brace
    split at read
    · cases read
    · obtain ⟨⟨members, rest'⟩, _, ⟨⟩⟩ := bind_eq_ok_iff.1 read
      exact brace ▸ .object
  · cases read

end Json

namespace Value

/-- What is written for a value is read as the value, if the reader goes as deep. -/
theorem reads_of_writes {chars : List Char} {value : Value} (written : Writes chars value)
    {depth : Nat} (within : value.nesting ≤ depth) :
    Reads (readValue depth) (encode chars) value.toJson := by
  induction depth using Nat.strongRecOn generalizing chars value with
  | ind depth ih =>
      intro rest ends
      cases written with
      | yes =>
          rw [readValue, toJson]
          rfl
      | no =>
          rw [readValue, toJson]
          rfl
      | number denotes =>
          exact readValue_writtenNumber ((WrittenNumber.toJson?_numeral_eq_some_iff _ value).2 denotes)
            depth ends
      | string written =>
          rw [encode_cons_of_ascii (by decide), toJson]
          exact readValue_quote depth (readString_written written rest)
      | @sequence _ items written =>
          rw [nesting] at within
          obtain ⟨depth, rfl⟩ := Nat.exists_eq_add_one_of_ne_zero (by omega : depth ≠ 0)
          have reads : ∀ item ∈ items, ∀ chars, Writes chars item →
              Reads (readValue depth) (encode chars) item.toJson := fun item mem chars written =>
            ih depth (Nat.lt_succ_self depth) written
              (itemsNesting_le_iff.1 (Nat.le_of_succ_le_succ within) item mem)
          obtain ⟨bytes, bracket, array⟩ :=
            (readsBehindBlank_readValue depth).readArray_written written reads rest
          rw [bracket, toJson, itemsToJson_eq_map]
          exact readValue_bracket array

/-! ## Writing what is read -/

/-- All that the reader takes for a value is written for it, nested no deeper than the reader goes. -/
theorem takesWritten_readValue (depth : Nat) :
    TakesWritten (readValue depth) toJson
      (fun chars value => Writes chars value ∧ value.nesting ≤ depth) := by
  induction depth using Nat.strongRecOn with
  | ind depth ih =>
      intro chars value rest read
      obtain ⟨front, chars, rfl, blank, skipped⟩ := exists_skipBlank chars
      -- The blank space in front is no part of what is written, whatever the value is.
      have behind : ∀ {body back : List Char}, chars = body ++ back → Writes body value →
          value.nesting ≤ depth → rest = encode back →
          ∃ front' body back, front ++ chars = front' ++ (body ++ back) ∧ Blank front' ∧
            (Writes body value ∧ value.nesting ≤ depth) ∧ rest = encode back := by
        rintro body back rfl written within rfl
        exact ⟨front, body, back, rfl, blank, ⟨written, within⟩, rfl⟩
      obtain ⟨b, more, first, valueRead⟩ := of_readValue read
      rw [skipped] at first
      generalize form : value.toJson = json at valueRead
      have known := ofJson?_eq_some_iff.2 form.symm
      cases valueRead with
      | null | object => cases known
      | yes word =>
          rw [ofJson?] at known
          cases known
          obtain ⟨chars, rfl, rfl⟩ := eq_cons_of_encode_eq (by decide) first
          obtain ⟨back, rfl, rfl⟩ := of_readWord (by simp) word
          exact behind rfl .yes (Nat.zero_le _) rfl
      | no word =>
          rw [ofJson?] at known
          cases known
          obtain ⟨chars, rfl, rfl⟩ := eq_cons_of_encode_eq (by decide) first
          obtain ⟨back, rfl, rfl⟩ := of_readWord (by simp) word
          exact behind rfl .no (Nat.zero_le _) rfl
      | number numeral toJson =>
          rw [← first] at numeral
          obtain ⟨number, back, rfl, rfl, rfl⟩ := of_readNumeral numeral
          rw [← form] at toJson
          have denotes := (number.toJson?_numeral_eq_some_iff value).1 toJson
          refine behind rfl (.number denotes) ?_ rfl
          cases denotes with
          | integer | float => exact Nat.zero_le depth
      | string literal =>
          rw [ofJson?] at known
          cases known
          obtain ⟨chars, rfl, rfl⟩ := eq_cons_of_encode_eq (by decide) first
          obtain ⟨body, back, rfl, written, rfl⟩ := of_readString literal
          exact behind (by simp) (.string written) (Nat.zero_le _) rfl
      | @array inner items deeper array =>
          subst deeper
          rw [ofJson?] at known
          obtain ⟨items, inside, rfl⟩ := Option.map_eq_some_iff.1 known
          obtain ⟨chars, rfl, rfl⟩ := eq_cons_of_encode_eq (by decide) first
          rw [eq_itemsToJson_of_itemsOfJson? _ inside, itemsToJson_eq_map] at array
          obtain ⟨body, back, cut, written, rfl⟩ :=
            of_readArray (readsBehindBlank_readValue inner) (ih inner (Nat.lt_succ_self inner)) array
          refine behind cut (.sequence (written.imp fun _ _ => And.left)) ?_ rfl
          rw [nesting]
          exact Nat.succ_le_succ (itemsNesting_le_iff.2 (written.forall_mem fun _ _ => And.right))

/-! ## Denoted values -/

theorem finish_eq_ok_iff {α : Type} {reading : Except Fault (α × Bytes)} {value : α} :
    finish reading = .ok value ↔ ∃ rest, reading = .ok (value, rest) ∧ skipBlank rest = [] := by
  rw [finish, bind_eq_ok_iff]
  constructor
  · rintro ⟨⟨value, rest⟩, read, whole⟩
    dsimp only at whole
    split at whole
    · cases whole
      exact ⟨rest, read, ‹_›⟩
    · cases whole
  · rintro ⟨rest, read, nothing⟩
    exact ⟨(value, rest), read, by dsimp only; rw [nothing]⟩

theorem read_eq_ok_iff {depth : Nat} {bytes rest : Bytes} {value : Value} :
    read depth bytes = .ok (value, rest) ↔ readValue depth bytes = .ok (value.toJson, rest) := by
  rw [read, bind_eq_ok_iff]
  constructor
  · rintro ⟨⟨json, rest⟩, read, known⟩
    dsimp only at known
    split at known
    · rename_i same
      cases known
      rw [read, ofJson?_eq_some_iff.1 same]
    · cases known
  · intro read
    exact ⟨(value.toJson, rest), read, by dsimp only; rw [ofJson?_toJson]⟩

theorem parse?_eq_some_iff_read {text : String} {value : Value} :
    parse? text = some value ↔
      ∃ rest, readValue maxOpen (utf8 text) = .ok (value.toJson, rest) ∧ skipBlank rest = [] := by
  simp only [parse?, toOption_eq_some_iff, finish_eq_ok_iff, read_eq_ok_iff]

/-- A text is parsed as a value iff it denotes the value. -/
theorem parse?_eq_some_iff {text : String} {value : Value} :
    parse? text = some value ↔ Denotes text value := by
  rw [parse?_eq_some_iff_read, ← encode_toList]
  constructor
  · rintro ⟨rest, read, nothing⟩
    obtain ⟨front, body, back, text, before, ⟨written, within⟩, rfl⟩ :=
      takesWritten_readValue maxOpen read
    obtain ⟨gap, none, rfl, after, skipped⟩ := exists_skipBlank back
    obtain rfl : none = [] := encode_injective (skipped.symm.trans nothing)
    rw [List.append_nil] at text
    exact ⟨front, body, gap, text, before, after, written, within⟩
  · rintro ⟨front, body, back, text, before, after, written, within⟩
    have ends := endsNumber_nil.blank after
    rw [List.append_nil] at ends
    have nothing := skipBlank_append after []
    rw [List.append_nil] at nothing
    refine ⟨encode back, ?_, nothing⟩
    rw [text, encode_append, (readsBehindBlank_readValue maxOpen).readItem_blank before, encode_append]
    exact reads_of_writes written within _ ends

/-- No text denotes itself, since the quotes of a literal do not belong to its text. -/
theorem not_denotes_string_self (text : String) : ¬Denotes text (string text) := by
  rintro ⟨front, body, back, cut, -, -, written, -⟩
  cases written with
  | number denotes => cases denotes
  | @string inside _ literal =>
      have short := literal.length_le
      rw [cut] at short
      simp only [List.length_append, List.length_cons] at short
      omega

end Value

end Folio
