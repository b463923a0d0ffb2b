import Folio.Config.Basic
import Folio.Json.Skip

/-!
# Settings as JSON

Settings are an object whose members may be left out, or an array of their values
in order, of which the last ones may be left out.  Other members of the object are
passed over.  The text is read from left to right and the first fault counts.
-/

namespace Folio.Config

open Folio.Json

inductive Setting where
  | connection
  | attempts
  | delays
  | scanCount
  deriving DecidableEq

/-- The settings in the order of an array. -/
def Setting.all : List Setting := [connection, attempts, delays, scanCount]

def Setting.name : Setting → String
  | connection => "connection_string"
  | attempts => "retry_attempts"
  | delays => "retry_delays_ms"
  | scanCount => "scan_count"

def Setting.named? (name : String) : Option Setting :=
  Setting.all.find? fun setting => setting.name = name

structure Draft where
  connection : Option String
  attempts : Option UInt32
  delays : Option (List UInt64)
  scanCount : Option UInt64

namespace Draft

def empty : Draft := ⟨none, none, none, none⟩

def has (draft : Draft) : Setting → Bool
  | .connection => draft.connection.isSome
  | .attempts => draft.attempts.isSome
  | .delays => draft.delays.isSome
  | .scanCount => draft.scanCount.isSome

/-- The settings, where those not read are as usual. -/
def complete (draft : Draft) : Config where
  connection := draft.connection.getD usual.connection
  attempts := draft.attempts.getD usual.attempts
  delayMillis := draft.delays.getD usual.delayMillis
  scanCount := draft.scanCount.getD usual.scanCount

end Draft

def readText (bytes : Bytes) : Except Fault (String × Bytes) :=
  match skipBlank bytes with
  | [] => .error .endOfText
  | b :: rest =>
      if b = ascii '"' then readString rest else .error (refusal (b :: rest))

/-- Read a whole number from zero up to a limit. -/
def readNatural (limit : Nat) (bytes : Bytes) : Except Fault (Nat × Bytes) :=
  match skipBlank bytes with
  | [] => .error .endOfText
  | b :: rest =>
      if b = ascii '-' ∨ isDigit b then do
        let (numeral, rest) ← readNumeral (b :: rest)
        match numeral.toJson?, numeral.toInt? with
        | none, _ => .error .malformed
        | some _, some (.ofNat n) => if n ≤ limit then .ok (n, rest) else .error .wrongKind
        | some _, _ => .error .wrongKind
      else .error (refusal (b :: rest))

def readDelays (bytes : Bytes) : Except Fault (List UInt64 × Bytes) :=
  match skipBlank bytes with
  | [] => .error .endOfText
  | b :: rest =>
      if b = ascii '[' then do
        let (delays, rest) ← readArray (readNatural 0xFFFFFFFFFFFFFFFF) rest.length rest
        .ok (delays.map Nat.toUInt64, rest)
      else .error (refusal (b :: rest))

def readSetting (draft : Draft) (setting : Setting) (bytes : Bytes) :
    Except Fault (Draft × Bytes) :=
  match setting with
  | .connection => do
      let (connection, rest) ← readText bytes
      .ok ({ draft with connection := some connection }, rest)
  | .attempts => do
      let (attempts, rest) ← readNatural 0xFFFFFFFF bytes
      .ok ({ draft with attempts := some attempts.toUInt32 }, rest)
  | .delays => do
      let (delays, rest) ← readDelays bytes
      .ok ({ draft with delays := some delays }, rest)
  | .scanCount => do
      let (scanCount, rest) ← readNatural 0xFFFFFFFFFFFFFFFF bytes
      .ok ({ draft with scanCount := some scanCount.toUInt64 }, rest)

/-- Read the value behind a key; a setting may not be given twice. -/
def readNamed (draft : Draft) (key : String) (bytes : Bytes) : Except Fault (Draft × Bytes) :=
  match Setting.named? key with
  | some setting =>
      if draft.has setting then .error .wrongKind
      else do
        let rest ← readColon bytes
        readSetting draft setting rest
  | none => do
      let rest ← readColon bytes
      let rest ← skipValue rest
      .ok (draft, rest)

/-- Read members up to the closing brace, at a place where a key has to stand. -/
def readNamedSettings : (fuel : Nat) → Draft → Bytes → Except Fault (Draft × Bytes)
  | 0, _, _ => .error .endOfText
  | fuel + 1, draft, bytes => do
      let (key, rest) ← readKey bytes
      let (draft, rest) ← readNamed draft key rest
      match skipBlank rest with
      | [] => .error .endOfText
      | b :: rest =>
          if b = ascii '}' then .ok (draft, rest)
          else if b = ascii ',' then readNamedSettings fuel draft rest
          else .error .malformed

/-- Read values in order up to the closing bracket, behind the value in front. -/
def readFurtherSettings : List Setting → Draft → Bytes → Except Fault (Draft × Bytes)
  | settings, draft, bytes =>
      match skipBlank bytes with
      | [] => .error .endOfText
      | b :: rest =>
          if b = ascii ']' then .ok (draft, rest)
          else if b = ascii ',' then
            match settings with
            | [] => .error .malformed
            | setting :: settings => do
                let (draft, rest) ← readSetting draft setting rest
                readFurtherSettings settings draft rest
          else .error .malformed

def read (bytes : Bytes) : Except Fault (Draft × Bytes) :=
  match skipBlank bytes with
  | [] => .error .endOfText
  | b :: rest =>
      if b = ascii '{' then
        match skipBlank rest with
        | [] => .error .endOfText
        | b :: rest =>
            if b = ascii '}' then .ok (.empty, rest)
            else readNamedSettings (b :: rest).length .empty (b :: rest)
      else if b = ascii '[' then
        match skipBlank rest with
        | [] => .error .endOfText
        | b :: rest =>
            if b = ascii ']' then .ok (.empty, rest)
            else do
              let (draft, rest) ← readSetting .empty .connection (b :: rest)
              readFurtherSettings Setting.all.tail draft rest
      else .error (refusal (b :: rest))

def ofJson (text : String) : Except Fault Config :=
  (finish (read (Text.utf8 text))).map Draft.complete

end Folio.Config
