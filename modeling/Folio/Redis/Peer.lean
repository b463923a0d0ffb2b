import Folio.Redis.Reply

/-!
# The other end of a Redis connection

The other end is a list of replies, one per command, and the list of commands it
was sent.  When the replies have run out it answers every command with an error,
so a client always gets a reply.
-/

namespace Folio.Redis

/-- A command as the list of its arguments. -/
abbrev Command := List Bytes

structure Peer where
  /-- The replies to the next commands. -/
  replies : List Reply
  /-- The commands received, the latest first. -/
  received : List Command

namespace Peer

/-- The reply when there is none left. -/
def exhausted : Reply := .error "ERR no scripted reply"

/-- Send a command and take its reply as it is. -/
def exchange (command : Command) (peer : Peer) : Reply × Peer :=
  match peer.replies with
  | [] => (exhausted, ⟨[], command :: peer.received⟩)
  | reply :: replies => (reply, ⟨replies, command :: peer.received⟩)

def ask {α : Type} (command : Command) (read : Reply → Except Fault α) (peer : Peer) :
    Except Fault α × Peer :=
  let (reply, peer) := peer.exchange command
  match reply.fault? with
  | some fault => (.error fault, peer)
  | none => (read reply, peer)

end Peer

end Folio.Redis
