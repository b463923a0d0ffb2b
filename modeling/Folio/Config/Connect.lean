import Folio.Config.Basic
import Folio.Redis.Url

/-!
# Opening a connection

Settings are checked before a server is reached.  An opening tells what came of it
and whether a server was asked at all.  The retry policy matters only to those who
use it, and they look at it once the connection is open.
-/

namespace Folio

structure Opening (α : Type) where
  result : Except Failure α
  /-- Whether a server was asked. -/
  reached : Bool

namespace Config

variable {σ : Type}

def checkedUrl (config : Config) : Except Failure String := do
  if config.scanCount = 0 then .error (.misuse .noScanCount)
  else
    let url ← config.url.mapError Failure.misuse
    (Redis.checkUrl url).mapError Redis.Fault.toFailure
    .ok url

/-- Open a connection; `reach` asks the server. -/
def connect (config : Config) (reach : String → Except Failure σ) : Opening σ :=
  match config.checkedUrl with
  | .error failure => ⟨.error failure, false⟩
  | .ok url => ⟨reach url, true⟩

def connectRetrying (config : Config) (reach : String → Except Failure σ) :
    Opening (σ × RetryPolicy) :=
  let opening := config.connect reach
  ⟨do
    let connection ← opening.result
    let policy ← config.retryPolicy.mapError Failure.misuse
    .ok (connection, policy), opening.reached⟩

end Config

end Folio
