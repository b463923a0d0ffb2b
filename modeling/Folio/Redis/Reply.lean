import Folio.Redis.Fault
import Folio.Text.Integer

/-!
# Replies of a Redis server

Each command has one reply, from which a client reads a value of the type it
expects.  An error anywhere in a reply is the fault of the command, and a reply
of another type is a fault that describes what came.
-/

namespace Folio.Redis

inductive Reply where
  | simple (text : String)
  | error (line : String)
  | integer (value : Int)
  | bulk (value : Bytes)
  | array (items : List Reply)
  | nil
  deriving Inhabited

namespace Reply

mutual

/-- The first error inside a reply. -/
def fault? : Reply → Option Fault
  | error line => some (.ofServer line)
  | array items => itemsFault? items
  | simple _ | integer _ | bulk _ | nil => none

def itemsFault? : List Reply → Option Fault
  | [] => none
  | item :: rest => (fault? item).or (itemsFault? rest)

end

mutual

def describe : Reply → String
  | simple text => if text = "OK" then "ok" else "simple-string(" ++ Text.quoted text ++ ")"
  | error line => "server-error(" ++ Text.quoted line ++ ")"
  | integer value => "int(" ++ Text.integer value ++ ")"
  | bulk value =>
      match Text.ofUtf8? value with
      | some text => "bulk-string('" ++ Text.quoted text ++ "')"
      | none =>
          "binary-data([" ++
            String.intercalate ", " (value.map fun b => Text.integer b.toNat) ++ "])"
  | array items => "array([" ++ String.intercalate ", " (describeItems items) ++ "])"
  | nil => "nil"

def describeItems : List Reply → List String
  | [] => []
  | item :: rest => describe item :: describeItems rest

end

/-- The fault of a reply that is not of the expected type. -/
def mismatch {α : Type} (expected : String) (reply : Reply) : Except Fault α :=
  .error (.ofKind "TypeError" "Response was of incompatible type"
    (some (Text.quoted expected ++ " (response was " ++ reply.describe ++ ")")))

def toText (reply : Reply) : Except Fault String :=
  match reply with
  | bulk value =>
      match Text.ofUtf8? value with
      | some text => .ok text
      | none => .error .notText
  | simple text => .ok text
  | integer value => .ok (Text.integer value)
  | reply => mismatch "Response type not string compatible." reply

def toText? (reply : Reply) : Except Fault (Option String) :=
  match reply with
  | nil => .ok none
  | reply => reply.toText.map some

/--
Read a number.  A server may send it as an integer or as a text in decimal; an
acknowledgement is no number.
-/
def toNumber {α : Type} (ofInt : Int → α) (ofText : List Char → Option α) (reply : Reply) :
    Except Fault α :=
  let read (text : String) : Except Fault α :=
    match ofText text.toList with
    | some n => .ok n
    | none => mismatch "Could not convert from string." reply
  match reply with
  | integer value => .ok (ofInt value)
  | bulk value =>
      match Text.ofUtf8? value with
      | some text => read text
      | none => .error .notDigits
  | simple text =>
      if text = "OK" then mismatch "Response type not convertible to numeric." reply
      else read text
  | reply => mismatch "Response type not convertible to numeric." reply

/-- Read a count, which has sixty-four bits and a sign. -/
def toCount : Reply → Except Fault Int :=
  toNumber id fun text => (Text.integer? text).filter Text.isInt64

/-- Read a number below a limit; an integer that does not fit wraps around. -/
def toUnsigned (limit : Nat) : Reply → Except Fault Nat :=
  toNumber (fun n => (n % limit).toNat) fun text => (Text.unsigned? text).filter (· < limit)

def toCursor : Reply → Except Fault Nat := toUnsigned 0x10000000000000000

def readAll {α : Type} (read : Reply → Except Fault α) : List Reply → Except Fault (List α)
  | [] => .ok []
  | item :: rest => do
      let first ← read item
      let others ← readAll read rest
      .ok (first :: others)

/-- Read bytes that may be absent; a list of numbers counts as bytes. -/
def toBytes? (reply : Reply) : Except Fault (Option Bytes) :=
  match reply with
  | nil => .ok none
  | bulk value => .ok (some value)
  | array items =>
      (readAll (toUnsigned 256) items).map fun bytes => some (bytes.map Nat.toUInt8)
  | reply => mismatch "Response type not vector compatible." reply

/-- Read a list; one bulk reply counts as its only item. -/
def toList {α : Type} (read : Reply → Except Fault α) (reply : Reply) : Except Fault (List α) :=
  match reply with
  | array items => readAll read items
  | nil => .ok []
  | bulk value => readAll read [bulk value]
  | reply => mismatch "Response type not vector compatible." reply

def notPairs {α : Type} : Reply → Except Fault α := mismatch "Response type not map compatible"

def readPairs : List Reply → Except Fault (List (String × String))
  | [] => .ok []
  | [item] => notPairs item
  | key :: value :: rest => do
      let key ← key.toText
      let value ← value.toText
      let others ← readPairs rest
      .ok ((key, value) :: others)

def toPairs (reply : Reply) : Except Fault (List (String × String)) :=
  match reply with
  | nil => .ok []
  | array items =>
      if items.length % 2 = 0 then readPairs items else notPairs reply
  | reply => notPairs reply

/-- Read one page of a scan: the next cursor and some keys. -/
def toPage (reply : Reply) : Except Fault (Nat × List String) :=
  match reply with
  | array [cursor, keys] => do
      let cursor ← cursor.toCursor
      let keys ← keys.toList toText
      .ok (cursor, keys)
  | array _ => mismatch "Array response of wrong dimension" reply
  | reply => mismatch "Not a Array response" reply

end Reply

end Folio.Redis
