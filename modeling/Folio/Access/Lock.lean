import Folio.Access.Basic

/-!
# Locks

A lock is a key that holds the token of its owner and expires.  Lock operations
are not retried: their answer tells what the store did.
-/

namespace Folio.Lock

variable {σ : Type}

/-- A lock needs a key. -/
def checkKey (key : String) : Except Failure Unit :=
  if key.isEmpty then .error (.misuse .emptyLockKey) else .ok ()

/-- A lock needs a key and a positive time to live. -/
def check (key : String) (ttl : Duration) : Except Failure Unit := do
  checkKey key
  if ttl.isZero then .error (.misuse .zeroLockTtl) else .ok ()

/-- Take a lock if nobody holds it. -/
def acquire (access : Access σ) (key token : String) (ttl : Duration) : Action σ Bool :=
  .checked (check key ttl) fun _ => access.once (.setIfAbsent key token ttl)

/-- Hold a lock for longer if the token still holds it. -/
def extend (access : Access σ) (key token : String) (ttl : Duration) : Action σ Bool :=
  .checked (check key ttl) fun _ => access.once (.expireIfEqual key token ttl)

/-- Give a lock back if the token holds it. -/
def release (access : Access σ) (key token : String) : Action σ Bool :=
  .checked (checkKey key) fun _ => access.once (.deleteIfEqual key token)

end Folio.Lock
