import Folio.Json.Token

/-!
# Reading JSON text

The reader takes a value from the front of a byte sequence.  Arrays and objects
may nest only so deep: the reader is told how many more it may open, and
recursion goes down on that number.  The item and member loops are shared by all
readers of arrays and objects; their fuel is a bound on the number of items,
which the length of the text always is.
-/

namespace Folio.Json

/-- How many arrays and objects may be open at once. -/
def maxOpen : Nat := 127

def readKey (bytes : Bytes) : Except Fault (String × Bytes) :=
  match skipBlank bytes with
  | [] => .error .endOfText
  | b :: rest => if b = ascii '"' then readString rest else .error .malformed

def readColon (bytes : Bytes) : Except Fault Bytes :=
  match skipBlank bytes with
  | [] => .error .endOfText
  | b :: rest => if b = ascii ':' then .ok rest else .error .malformed

section Loops

variable {κ α : Type} (readKey : Bytes → Except Fault (κ × Bytes))
  (readItem : Bytes → Except Fault (α × Bytes))

/-- Read items up to the closing bracket, at a place where an item has to stand. -/
def readItems : (fuel : Nat) → Bytes → Except Fault (List α × Bytes)
  | 0, _ => .error .endOfText
  | fuel + 1, bytes => do
      let (item, rest) ← readItem bytes
      match skipBlank rest with
      | [] => .error .endOfText
      | b :: rest =>
          if b = ascii ']' then .ok ([item], rest)
          else if b = ascii ',' then do
            let (items, rest) ← readItems fuel rest
            .ok (item :: items, rest)
          else .error .malformed

def readArray (fuel : Nat) (bytes : Bytes) : Except Fault (List α × Bytes) :=
  match skipBlank bytes with
  | [] => .error .endOfText
  | b :: rest =>
      if b = ascii ']' then .ok ([], rest)
      else readItems readItem fuel (b :: rest)

def readMembers : (fuel : Nat) → Bytes → Except Fault (List (κ × α) × Bytes)
  | 0, _ => .error .endOfText
  | fuel + 1, bytes => do
      let (key, rest) ← readKey bytes
      let rest ← readColon rest
      let (value, rest) ← readItem rest
      match skipBlank rest with
      | [] => .error .endOfText
      | b :: rest =>
          if b = ascii '}' then .ok ([(key, value)], rest)
          else if b = ascii ',' then do
            let (members, rest) ← readMembers fuel rest
            .ok ((key, value) :: members, rest)
          else .error .malformed

def readObject (fuel : Nat) (bytes : Bytes) : Except Fault (List (κ × α) × Bytes) :=
  match skipBlank bytes with
  | [] => .error .endOfText
  | b :: rest =>
      if b = ascii '}' then .ok ([], rest)
      else readMembers readKey readItem fuel (b :: rest)

end Loops

def readNumber (bytes : Bytes) : Except Fault (Json × Bytes) := do
  let (numeral, rest) ← readNumeral bytes
  match numeral.toJson? with
  | some value => .ok (value, rest)
  | none => .error .malformed

/-- Read a value in which at most `depth` arrays and objects are open at once. -/
def readValue : (depth : Nat) → Bytes → Except Fault (Json × Bytes)
  | depth, bytes =>
      match skipBlank bytes with
      | [] => .error .endOfText
      | b :: rest =>
          if b = ascii 'n' then do .ok (null, ← readWord ['u', 'l', 'l'] rest)
          else if b = ascii 't' then do .ok (boolean true, ← readWord ['r', 'u', 'e'] rest)
          else if b = ascii 'f' then do
            .ok (boolean false, ← readWord ['a', 'l', 's', 'e'] rest)
          else if b = ascii '-' ∨ isDigit b then readNumber (b :: rest)
          else if b = ascii '"' then do
            let (value, rest) ← readString rest
            .ok (string value, rest)
          else if b = ascii '[' then
            match depth with
            | 0 => .error .malformed
            | depth + 1 => do
                let (items, rest) ← readArray (readValue depth) rest.length rest
                .ok (array items, rest)
          else if b = ascii '{' then
            match depth with
            | 0 => .error .malformed
            | depth + 1 => do
                let (members, rest) ← readObject readKey (readValue depth) rest.length rest
                .ok (object members, rest)
          else .error .malformed

/--
The fault of a value that is of a wrong kind.  Arrays and objects are refused where
they begin, and a scalar once it has been read.
-/
def refusal (bytes : Bytes) : Fault :=
  match skipBlank bytes with
  | [] => .endOfText
  | b :: rest =>
      if b = ascii '[' ∨ b = ascii '{' then .wrongKind
      else
        match readValue 0 (b :: rest) with
        | .ok _ => .wrongKind
        | .error fault => fault

/-- Only blank space may stand behind the value of a text. -/
def finish {α : Type} (reading : Except Fault (α × Bytes)) : Except Fault α := do
  let (value, rest) ← reading
  match skipBlank rest with
  | [] => .ok value
  | _ :: _ => .error .malformed

/-- The value of a text that holds nothing else. -/
def parse (bytes : Bytes) : Except Fault Json := finish (readValue maxOpen bytes)

end Folio.Json
