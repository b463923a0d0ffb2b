import Folio.Misuse
import Folio.Value

/-!
# Failures

Every way in which an operation can fail.  Only transient failures are worth
another attempt.
-/

namespace Folio

inductive Failure where
  /-- An argument was refused before any store was called. -/
  | misuse (cause : Misuse)
  /-- The store could not be reached or was not ready. -/
  | transient (reason : String)
  /-- The store refused the operation. -/
  | rejected (reason : String)
  /-- A document has no encoded form. -/
  | unencodable (obstacle : Unencodable)
  /-- A stored blob holds no document. -/
  | undecodable (fault : Json.Fault)
  /-- Another failure to encode or decode. -/
  | encoding (description : String)
  | cancelled
  | io (description : String)
  /-- All attempts failed, the last one so. -/
  | exhausted (attempts : Nat) (last : Failure)
  /-- A deadline lies beyond the end of the clock; the call is broken off. -/
  | deadlineOverflow
  /-- A transaction ended with fewer results than it has commands; the call is broken off. -/
  | missingResults
  /-- A key pattern nests too deep as an expression; compiling is broken off. -/
  | patternTooDeep (expression : String)
  deriving DecidableEq, Inhabited

def Json.Fault.message : Json.Fault → String
  | .endOfText => "unexpected end of text"
  | .wrongKind => "unexpected kind of value"
  | .malformed => "malformed text"

namespace Failure

/-- Whether another attempt may help. -/
def isTransient : Failure → Bool
  | transient _ => true
  | _ => false

/-- Whether the call was broken off instead of being answered with an error. -/
def isBreakOff : Failure → Bool
  | deadlineOverflow | missingResults | patternTooDeep _ => true
  | _ => false

def ofPattern : PatternFault → Failure
  | .bad bad => misuse (.badPattern bad)
  | .tooDeep expression => patternTooDeep expression

def message : Failure → String
  | misuse cause => "invalid argument: " ++ cause.message
  | transient reason => "transient store error: " ++ reason
  | rejected reason => "store error: " ++ reason
  | unencodable obstacle => "document encoding error: " ++ obstacle.message
  | undecodable fault => "document encoding error: " ++ fault.message
  | encoding description => "document encoding error: " ++ description
  | cancelled => "operation cancelled"
  | io description => "I/O error: " ++ description
  | exhausted attempts last => s!"gave up after {attempts} attempts: " ++ last.message
  | deadlineOverflow => "overflow when adding duration to instant"
  | missingResults => "capacity overflow"
  | patternTooDeep expression =>
      "regex compilation shouldn't fail: Error \x7b glob: Some(" ++ Text.quoted expression ++
        "), kind: Regex(\"error parsing pattern 0\") \x7d"

/-- The description of what a failure was caused by, if it has a cause of its own. -/
def source? : Failure → Option String
  | unencodable obstacle => some obstacle.message
  | undecodable fault => some fault.message
  | encoding description => some description
  | io description => some description
  | exhausted _ last => some last.message
  | _ => none

end Failure

end Folio
