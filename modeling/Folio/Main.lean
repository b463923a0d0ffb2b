import Folio.Demo
import Folio.Redis.Store

/-!
# The demonstration program

The program takes its arguments and one environment variable, prints the report
and ends with its exit code.  No server can be reached from here.
-/

namespace Folio

/-- The answer of a program without a network. -/
def unreachable (url : String) : Except Failure Redis.Peer :=
  .error (.transient ("no network to reach " ++ url))

end Folio

def main (arguments : List String) : IO UInt32 := do
  let connection ← IO.getEnv "connection_string"
  let now ← IO.monoNanosNow
  let token := String.ofList (((Nat.toDigits 16 now).reverse ++ List.replicate 16 '0').take 16)
  let report := Folio.Demo.run arguments (connection.map Folio.Text.utf8) now .exact token
    (Folio.Redis.store 100) Folio.unreachable
  for line in report.output do
    IO.println line
  for line in report.errors do
    IO.eprintln line
  return report.exitCode.toUInt32
