import Folio.KeyPattern

/-!
# Misuse by the caller

The ways in which an argument is refused before any store is called.
-/

namespace Folio

inductive Misuse where
  | noSegments
  | segmentWithColon (segment : String)
  | emptyLocation
  | emptySchema
  | schemaWithColon (schema : String)
  | badPattern (bad : BadPattern)
  | zeroTtl
  | emptyLockKey
  | zeroLockTtl
  | noAttempts
  | noDelays
  | noScanCount
  | noConnectionString
  | noEndpoint (connection : String)
  /-- A refusal that another layer describes. -/
  | described (text : String)
  deriving DecidableEq

def Misuse.message : Misuse → String
  | noSegments => "location needs at least one segment"
  | segmentWithColon segment => "location segment " ++ Text.quoted segment ++ " contains ':'"
  | emptyLocation => "location string is empty"
  | emptySchema => "schema id is empty"
  | schemaWithColon schema => "schema id " ++ Text.quoted schema ++ " contains ':'"
  | badPattern bad => bad.message
  | zeroTtl => "ttl must be positive"
  | emptyLockKey => "lock key is empty"
  | zeroLockTtl => "lock ttl must be positive"
  | noAttempts => "retry attempts must be at least 1"
  | noDelays => "retry delay schedule is empty"
  | noScanCount => "scan_count must be at least 1"
  | noConnectionString => "connection_string is not set"
  | noEndpoint connection => "connection string " ++ Text.quoted connection ++ " has no endpoint"
  | described text => text

end Folio
