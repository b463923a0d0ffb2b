import Folio.Failure

/-!
# Faults of a Redis connection

A fault has a kind, and some kinds pass by themselves: the server is loading, a
slot is moving, a replica has taken over.  Operations that meet such a fault fail
transiently.  A server reports an error as a code and a detail; codes without a
kind of their own are reported as they are.  A client that is promised more results
than it gets breaks the call off.
-/

namespace Folio.Redis

inductive Fault where
  /-- A fault of a kind, with what happened and perhaps a detail. -/
  | ofKind (kind description : String) (detail : Option String)
  /-- An error code of the server that has no kind. -/
  | ofCode (code : String) (detail : Option String)
  /-- The connection itself failed. -/
  | io (description : String)
  /-- A transaction ended with fewer results than it has commands. -/
  | missingResults
  deriving DecidableEq

def passingKinds : List String :=
  ["IoError", "TryAgain", "BusyLoadingError", "ClusterDown", "MasterDown", "ReadOnly"]

def codeKinds : List (String × String) :=
  [("ERR", "ResponseError"), ("EXECABORT", "ExecAbortError"), ("LOADING", "BusyLoadingError"),
    ("NOSCRIPT", "NoScriptError"), ("MOVED", "Moved"), ("ASK", "Ask"), ("TRYAGAIN", "TryAgain"),
    ("CLUSTERDOWN", "ClusterDown"), ("CROSSSLOT", "CrossSlot"), ("MASTERDOWN", "MasterDown"),
    ("READONLY", "ReadOnly"), ("NOTBUSY", "NotBusy"), ("NOSUB", "NoSub")]

namespace Fault

def message : Fault → String
  | ofKind kind description none => description ++ "- " ++ kind
  | ofKind kind description (some detail) => description ++ " - " ++ kind ++ ": " ++ detail
  | ofCode code detail => code ++ ": " ++ detail.getD "Unknown extension error encountered"
  | io description => description
  | missingResults => Failure.missingResults.message

def isPassing : Fault → Bool
  | ofKind kind _ _ => passingKinds.contains kind
  | ofCode _ _ => false
  | io _ => true
  | missingResults => false

def toFailure : Fault → Failure
  | missingResults => .missingResults
  | fault => if fault.isPassing then .transient fault.message else .rejected fault.message

def ofServer (line : String) : Fault :=
  let code := String.ofList (line.toList.takeWhile (· ≠ ' '))
  let detail :=
    match line.toList.dropWhile (· ≠ ' ') with
    | [] => none
    | _ :: detail => some (String.ofList detail)
  match codeKinds.lookup code with
  | some kind => ofKind kind "An error was signalled by the server" detail
  | none => ofCode code detail

def isMissingScript : Fault → Bool
  | ofKind kind _ _ => kind == "NoScriptError"
  | _ => false

def notText : Fault := ofKind "TypeError" "Cannot convert from UTF-8" none

/-- The bytes of a reply are no text, so no number is written in them. -/
def notDigits : Fault := ofKind "TypeError" "Invalid UTF-8" none

/-- A transaction did not end with its results. -/
def badTransaction : Fault :=
  ofKind "ResponseError" "Invalid response when parsing multi response" none

end Fault

end Folio.Redis
