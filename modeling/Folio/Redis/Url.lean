import Folio.Redis.Reply
import Folio.Redis.Url.Basic
import Folio.Redis.Url.Query

/-!
# Checking the URL of a server

A URL is checked before a connection is opened.  A server in the network has to have
a host, and its database is the number in the path; encrypted connections are not
available.  A server behind a socket has to have a path, and its database is an
option in the query.  The version of the protocol is always an option.
-/

namespace Folio.Redis

def badSettings (description : String) (detail : Option String) : Fault :=
  .ofKind "InvalidClientConfig" description detail

namespace Url

def require (condition : Bool) (description : String) : Except Fault Unit :=
  if condition then .ok () else .error (badSettings description none)

def isDatabase (text : List Char) : Bool := (Text.integer? text).any Text.isInt64

/-- Whether a text with percent signs is a text without them. -/
def isDecodable (text : List Char) : Bool :=
  (Text.ofUtf8? (percentDecoded (Text.utf8 (String.ofList text)))).isSome

def protocols : List String := ["2", "resp2", "3", "resp3"]

def checkProtocol (url : Url) : Except Fault Unit :=
  match queryValue? url.query "protocol" with
  | none => .ok ()
  | some version =>
      if protocols.contains version then .ok ()
      else .error (badSettings "Invalid protocol version" (some version))

def checkNetwork (url : Url) : Except Fault Unit := do
  require (!url.host.isEmpty) "Missing hostname"
  require (url.scheme ≠ .encrypted) "can't connect with TLS, the feature is not enabled"
  let database := Text.stripChars (· = '/') url.path
  require (database.isEmpty || isDatabase database) "Invalid database number"
  require (isDecodable (url.credentials.takeWhile (· ≠ ':'))) "Username is not valid UTF-8 string"
  require (isDecodable (url.credentials.dropWhile (· ≠ ':'))) "Password is not valid UTF-8 string"
  url.checkProtocol

/-- Check the URL of a server behind a socket, which is on the same machine. -/
def checkSocket (url : Url) : Except Fault Unit := do
  require (url.host.isEmpty || url.host = "localhost".toList) "Missing path"
  require (!url.path.isEmpty) "Missing path"
  require ((queryValue? url.query "db").all fun db => isDatabase db.toList)
    "Invalid database number"
  url.checkProtocol

def check (url : Url) : Except Fault Unit :=
  match url.scheme with
  | .network | .encrypted => url.checkNetwork
  | .socket => url.checkSocket

end Url

def checkUrl (text : String) : Except Fault Unit :=
  match Url.ofText? text with
  | some url => url.check
  | none => .error (badSettings "Redis URL did not parse" none)

end Folio.Redis
