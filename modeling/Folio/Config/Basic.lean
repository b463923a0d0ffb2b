import Folio.Retry.Policy
import Folio.Text.Blank

/-!
# Settings

The settings of a connection: where the server is, how to retry, and how many
keys to ask for in one page of a scan.  Where the server is may be said by a URL
or by `host:port` and options behind commas, which are ignored.
-/

namespace Folio

structure Config where
  connection : String
  attempts : UInt32
  delayMillis : List UInt64
  scanCount : UInt64
  deriving DecidableEq

namespace Config

def usual : Config where
  connection := "localhost:6379"
  attempts := RetryPolicy.usualAttempts
  delayMillis := RetryPolicy.usualDelayMillis.map Nat.toUInt64
  scanCount := 100

def schemes : List String := ["redis://", "rediss://", "redis+unix://"]

def isUrl (text : List Char) : Bool := schemes.any fun scheme => scheme.toList.isPrefixOf text

/-- The URL of the server that a connection string names. -/
def urlOf (connection : String) : Except Misuse String :=
  let raw := Text.trimChars connection.toList
  if isUrl raw then .ok (String.ofList raw)
  else
    let endpoint := Text.trimChars (raw.takeWhile (· ≠ ','))
    if endpoint.isEmpty ∨ '=' ∈ endpoint then .error (.noEndpoint (String.ofList raw))
    else .ok ("redis://" ++ String.ofList endpoint)

def url (config : Config) : Except Misuse String := urlOf config.connection

def retryPolicy (config : Config) : Except Misuse RetryPolicy :=
  RetryPolicy.make config.attempts (config.delayMillis.map fun millis => .ofMillis millis.toNat)

/--
The settings for the value of the environment variable that names the server.  A
value that is not text counts as unset, and so does blank space.
-/
def ofVariable (value : Option Bytes) : Except Misuse Config :=
  match (value.bind Text.ofUtf8?).filter fun text => !(Text.trimChars text.toList).isEmpty with
  | some connection => .ok { usual with connection }
  | none => .error .noConnectionString

end Config

end Folio
