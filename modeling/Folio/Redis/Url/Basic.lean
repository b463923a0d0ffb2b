import Folio.Redis.Url.Host
import Folio.Redis.Url.Path
import Folio.Text.Blank

/-!
# URLs of servers

A URL is a scheme, an authority, a path, a query and a fragment.  The authority is a
host, perhaps with a user in front of an `@` and a port behind a colon.  It reaches
to the next slash, question mark or number sign; a backslash ends only a port and
then begins the path.  Control characters and spaces around a URL do not belong to
it, and tabs and line ends do not belong to it anywhere.
-/

namespace Folio.Redis

inductive Scheme where
  /-- Through the network. -/
  | network
  /-- Through the network, with encryption. -/
  | encrypted
  /-- Through a socket in the file system. -/
  | socket
  deriving DecidableEq

structure Url where
  scheme : Scheme
  /-- The user and, behind a colon, the password. -/
  credentials : List Char
  host : List Char
  path : List Char
  query : List Char
  deriving DecidableEq

namespace Url

def schemes : List (String × Scheme) :=
  [("redis://", .network), ("rediss://", .encrypted), ("redis+unix://", .socket)]

def significant (text : String) : List Char :=
  (Text.stripChars (· ≤ ' ') text.toList).filter fun c => c ≠ '\t' && c ≠ '\n' && c ≠ '\r'

def isAuthority (c : Char) : Bool := c ≠ '/' && c ≠ '?' && c ≠ '#'

def isPath (c : Char) : Bool := c ≠ '?' && c ≠ '#'

/-- What stands in front of the last `@`, if there is one, and what stands behind it. -/
def splitCredentials (authority : List Char) : Option (List Char) × List Char :=
  let reversed := authority.reverse
  let address := (reversed.takeWhile (· ≠ '@')).reverse
  match reversed.dropWhile (· ≠ '@') with
  | [] => (none, address)
  | _ :: credentials => (some credentials.reverse, address)

/-- Split a host from what is behind its colon; a colon in brackets belongs to the host. -/
def splitPort (inBrackets : Bool) : List Char → List Char × Option (List Char)
  | [] => ([], none)
  | c :: rest =>
      if c = ':' ∧ !inBrackets then ([], some rest)
      else
        let (host, port) := splitPort (c = '[' || (inBrackets && c ≠ ']')) rest
        (c :: host, port)

/-- Whether a port is empty or a number of sixteen bits. -/
def isPort (port : List Char) : Bool :=
  port.isEmpty || (Text.natural? port).any (· < 0x10000)

/-- Whether credentials name nobody: there is neither a user nor a password. -/
def isNobody (credentials : List Char) : Bool := credentials = [] || credentials = [':']

/--
Read what is behind a scheme.  A host may be absent, but not when there is a port or
somebody to log in, nor when only an `@` stands in front of what follows.
-/
def ofRest? (scheme : Scheme) (rest : List Char) : Option Url :=
  let authority := rest.takeWhile isAuthority
  let tail := rest.dropWhile isAuthority
  let (credentials, address) := splitCredentials authority
  let (host, port) := splitPort false address
  let number := (port.getD []).takeWhile (· ≠ '\\')
  let behind := (port.getD []).dropWhile (· ≠ '\\') ++ tail
  let path := behind.takeWhile isPath
  let query := (behind.dropWhile isPath).takeWhile (· ≠ '#')
  if !isHost host || !isPort number then none
  else if host.isEmpty && (port.isSome || !isNobody (credentials.getD [])) then none
  else if host.isEmpty && credentials = some [] && !tail.isEmpty then none
  else
    some {
      scheme
      credentials := credentials.getD []
      host
      path := resolvePath (if path.head? = some '\\' then '/' :: path else path)
      query := query.drop 1 }

def ofText? (text : String) : Option Url :=
  schemes.findSome? fun (mark, scheme) =>
    (mark.toList.isPrefixOf? (significant text)).bind (ofRest? scheme)

end Url

end Folio.Redis
