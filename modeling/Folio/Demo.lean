import Folio.Access.ByField
import Folio.Access.Lock
import Folio.Access.Whole
import Folio.Config.Connect
import Folio.Store.Memory

/-!
# The demonstration

A short tour: a document is stored whole and by field, read back, and a lock is
taken, extended and released.  The tour runs on a store in memory, or on a server
that an environment variable names.
-/

namespace Folio.Demo

/-- What the demonstration prints, message after message, and how it ends. -/
structure Report where
  exitCode : Nat
  output : List String
  errors : List String
  deriving DecidableEq

/-- The lines in which messages appear that are printed one below the other. -/
def linesOf (messages : List String) : List String := messages.flatMap Text.lines

def schema : String := "demo"

def lockKey : String := schema ++ "-lock"

def sample : Document :=
  ((Document.empty.set "name" (.string "Bob")).set "age" (.integer 42)).addAll "items"
    [.integer 1, .integer 2, .integer 3, .string "fast", .string "slow",
      .float (.ofBits 0x4056933333333333), .boolean true, .boolean false]

/-- The state of a tour: the world it acts on and the lines printed so far. -/
abbrev Tour (σ : Type) := ExceptT Failure (StateM (World σ × List String))

variable {σ : Type}

def act {α : Type} (action : Action σ α) : Tour σ α := fun (world, lines) =>
  let (result, world) := action world
  (result, (world, lines))

def say (line : String) : Tour σ Unit := fun (world, lines) => (.ok (), (world, lines ++ [line]))

def place (location : Except Misuse Location) : Tour σ Location :=
  ExceptT.mk (pure (location.mapError .misuse))

def truth (b : Bool) : String := if b then "true" else "false"

def tour (access : Access σ) (token : String) : Tour σ Unit := do
  let city ← place (Location.ofSegments ["United States", "NY", "Rochester"])
  act (Whole.put access schema city sample (some (.ofSeconds 600)))
  let whole ← act (Whole.get access schema city)
  say ("string mode, whole document: " ++ whole.display)
  let cell ← place (Location.ofIndices [0, 1])
  act (ByField.put access schema cell sample none)
  let fields ← act (ByField.get access schema cell)
  say ("hash mode, whole document: " ++ fields.display)
  let part ← act (ByField.getFields access schema cell ["name", "items"])
  say ("hash mode, name and items: " ++ part.display)
  let age ← act (ByField.getField access schema cell "age")
  say ("hash mode, age: " ++ age.getD "")
  let ttl := Duration.ofSeconds 30
  let acquired ← act (Lock.acquire access lockKey token ttl)
  say (s!"acquire {lockKey}: " ++ truth acquired)
  let extended ← act (Lock.extend access lockKey token ttl)
  say (s!"extend {lockKey}: " ++ truth extended)
  let released ← act (Lock.release access lockKey token)
  say (s!"release {lockKey}: " ++ truth released)
  let _ ← act (Whole.delete access schema city)
  let _ ← act (ByField.delete access schema cell)

/-- A failure as it is reported at the end of a program: its kind and its description. -/
def inspect : Failure → String
  | .misuse cause => "InvalidArgument(" ++ Text.quoted cause.message ++ ")"
  | .transient reason => "Transient(" ++ Text.quoted reason ++ ")"
  | .rejected reason => "NonTransient(" ++ Text.quoted reason ++ ")"
  | .exhausted attempts last =>
      s!"RetriesExhausted \x7b attempts: {attempts}, last: " ++ inspect last ++ " \x7d"
  | .cancelled => "Cancelled"
  | failure => failure.message

def failed (failure : Failure) (lines : List String) : Report :=
  ⟨1, lines, ["Error: " ++ inspect failure]⟩

def visit (store : Store σ) (state : σ) (retry : RetryPolicy) (wait : Wait)
    (token : String) : Report :=
  match tour ⟨store, retry, none, wait⟩ token (⟨0, state⟩, []) with
  | (.ok (), (_, lines)) => ⟨0, lines, []⟩
  | (.error failure, (_, lines)) => failed failure lines

/--
The report for a list of arguments, of which the first one names the store.  The
setting is the value of the variable that names a server, and `reach` asks a server.
-/
def run (arguments : List String) (setting : Option Bytes) (now : Nat) (wait : Wait)
    (token : String) (server : Store σ) (reach : String → Except Failure σ) : Report :=
  match arguments.headD "memory" with
  | "memory" => visit (Memory.store now) Memory.empty .usual wait token
  | "redis" =>
      match (Config.ofVariable setting).mapError Failure.misuse with
      | .error failure => failed failure []
      | .ok config =>
          match (config.connectRetrying reach).result with
          | .error failure => failed failure []
          | .ok (state, retry) => visit server state retry wait token
  | other => ⟨2, [], ["Unknown mode: " ++ other, "Usage: doc-store-demo [memory|redis]"]⟩

end Folio.Demo
