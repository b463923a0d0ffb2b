import Folio.Json.Reader

/-!
# Passing over JSON values

A value that nobody asked for is passed over.  It has to be well formed, but it
may nest to any depth, its numbers may have any size, and its strings are not
decoded: half of a surrogate pair and bytes that are not UTF-8 do no harm.
-/

namespace Folio.Json

def skipString : Bytes → Except Fault (Unit × Bytes)
  | [] => .error .endOfText
  | b :: rest =>
      if b = ascii '"' then .ok ((), rest)
      else if b = ascii '\\' then
        match rest with
        | [] => .error .endOfText
        | e :: rest =>
            if e = ascii 'u' then
              match rest with
              | h₁ :: h₂ :: h₃ :: h₄ :: rest =>
                  if (hexUnit? h₁ h₂ h₃ h₄).isSome then skipString rest
                  else .error .malformed
              | _ => .error .endOfText
            else if (shortEscape? e).isSome then skipString rest
            else .error .malformed
      else if b < 0x20 then .error .malformed
      else skipString rest

def skipKey (bytes : Bytes) : Except Fault (Unit × Bytes) :=
  match skipBlank bytes with
  | [] => .error .endOfText
  | b :: rest => if b = ascii '"' then skipString rest else .error .malformed

/-- Pass over a number; one that breaks off is malformed. -/
def skipNumber (bytes : Bytes) : Except Fault (Unit × Bytes) :=
  match readNumeral bytes with
  | .ok (_, rest) => .ok ((), rest)
  | .error _ => .error .malformed

def skipWord (word : List Char) (bytes : Bytes) : Except Fault (Unit × Bytes) :=
  (readWord word bytes).map fun rest => ((), rest)

/--
Pass over a value.  The number `depth` bounds the bytes, and so the arrays and objects
that are open at once as well as the items of each.
-/
def skipWithin : (depth : Nat) → Bytes → Except Fault (Unit × Bytes)
  | depth, bytes =>
      match skipBlank bytes with
      | [] => .error .endOfText
      | b :: rest =>
          if b = ascii 'n' then skipWord ['u', 'l', 'l'] rest
          else if b = ascii 't' then skipWord ['r', 'u', 'e'] rest
          else if b = ascii 'f' then skipWord ['a', 'l', 's', 'e'] rest
          else if b = ascii '-' ∨ isDigit b then skipNumber (b :: rest)
          else if b = ascii '"' then skipString rest
          else if b = ascii '[' then
            match depth with
            | 0 => .error .endOfText
            | depth + 1 => (readArray (skipWithin depth) depth rest).map fun (_, rest) => ((), rest)
          else if b = ascii '{' then
            match depth with
            | 0 => .error .endOfText
            | depth + 1 =>
                (readObject skipKey (skipWithin depth) depth rest).map fun (_, rest) => ((), rest)
          else .error .malformed

/-- Pass over a value; a text cannot nest deeper, nor have more items, than it is long. -/
def skipValue (bytes : Bytes) : Except Fault Bytes :=
  (skipWithin bytes.length bytes).map Prod.snd

end Folio.Json
