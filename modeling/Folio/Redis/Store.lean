import Folio.Redis.Peer
import Folio.SortedMap
import Folio.Store.Call

/-!
# The store on a Redis server

Each call is one command, apart from three: merging a hash is a transaction, a
conditional lock call is a script that is loaded when the server does not know
it, and a scan asks for page after page until the cursor comes back as zero.
Times to live are sent in whole milliseconds.
-/

namespace Folio.Redis

abbrev word (text : String) : Bytes := Text.utf8 text

def number (n : Nat) : Bytes := Text.utf8 (Text.integer n)

def millis (ttl : Duration) : Bytes := number ttl.wholeMillis

structure Script where
  text : String
  /-- The name under which a server knows the script once it is loaded. -/
  digest : String

def extendScript : Script where
  text := "\nif redis.call(\"GET\", KEYS[1]) == ARGV[1] then\n" ++
    "    return redis.call(\"PEXPIRE\", KEYS[1], ARGV[2])\nend\nreturn 0\n"
  digest := "0a4bbf2a369cf24c12e3ffb1a04bcc8a7a3f6ab3"

def releaseScript : Script where
  text := "\nif redis.call(\"GET\", KEYS[1]) == ARGV[1] then\n" ++
    "    return redis.call(\"DEL\", KEYS[1])\nend\nreturn 0\n"
  digest := "fcd526719eedd0c5f180a5c65b23dd95ec369d85"

def runCommand (script : Script) (key : String) (arguments : List Bytes) : Command :=
  word "EVALSHA" :: word script.digest :: word "1" :: word key :: arguments

/-- Run a script on a key; if the server does not know it, load it and try again. -/
def runScript (script : Script) (key : String) (arguments : List Bytes) (peer : Peer) :
    Except Fault Int × Peer :=
  match peer.ask (runCommand script key arguments) Reply.toCount with
  | (.error fault, peer) =>
      if fault.isMissingScript then
        match peer.ask [word "SCRIPT", word "LOAD", word script.text] (fun _ => .ok ()) with
        | (.error fault, peer) => (.error fault, peer)
        | (.ok (), peer) => peer.ask (runCommand script key arguments) Reply.toCount
      else (.error fault, peer)
  | (.ok n, peer) => (.ok n, peer)

/-- The outcome of a transaction of `count` commands by the reply to its last one. -/
def transactionOutcome (count : Nat) : Reply → Except Fault Unit
  | .nil => .ok ()
  | .array items =>
      match Reply.itemsFault? items with
      | some fault => .error fault
      | none => if items.length < count then .error .missingResults else .ok ()
  | _ => .error .badTransaction

def sendAll : List Command → Peer → List Reply × Peer
  | [], peer => ([], peer)
  | command :: rest, peer =>
      let (reply, peer) := peer.exchange command
      let (replies, peer) := sendAll rest peer
      (reply :: replies, peer)

/--
Send commands as one transaction.  All of them are sent, whatever is replied; a
command that was refused is the fault of the transaction.
-/
def transaction (commands : List Command) (peer : Peer) : Except Fault Unit × Peer :=
  let (replies, peer) := sendAll ([word "MULTI"] :: commands) peer
  let (last, peer) := peer.exchange [word "EXEC"]
  match Reply.itemsFault? replies with
  | some fault => (.error fault, peer)
  | none => (transactionOutcome commands.length last, peer)

def fieldArguments (fields : List (String × String)) : List Bytes :=
  fields.flatMap fun (field, text) => [word field, word text]

def mergeCommands (key : String) (fields : List (String × String)) (ttl : Option Duration) :
    List Command :=
  (word "HSET" :: word key :: fieldArguments fields) ::
    match ttl with
    | some ttl => [[word "PEXPIRE", word key, millis ttl]]
    | none => []

def perform : (call : Call) → Peer → Except Fault call.Answer × Peer
  | .get key, peer => peer.ask [word "GET", word key] Reply.toBytes?
  | .set key value none, peer => peer.ask [word "SET", word key, value] fun _ => .ok ()
  | .set key value (some ttl), peer =>
      peer.ask [word "SET", word key, value, word "PX", millis ttl] fun _ => .ok ()
  | .setMany entries, peer =>
      if entries.isEmpty then (.ok (), peer)
      else
        peer.ask (word "MSET" :: entries.flatMap fun (key, value) => [word key, value])
          fun _ => .ok ()
  | .hashSet key fields ttl, peer =>
      if fields.isEmpty then (.ok (), peer) else transaction (mergeCommands key fields ttl) peer
  | .hashGetAll key, peer =>
      peer.ask [word "HGETALL", word key] fun reply =>
        reply.toPairs.map fun pairs => (SortedMap.ofList pairs).entries
  | .hashGetMany key fields, peer =>
      if fields.isEmpty then (.ok [], peer)
      else peer.ask (word "HMGET" :: word key :: fields.map word) (Reply.toList Reply.toText?)
  | .hashGet key field, peer => peer.ask [word "HGET", word key, word field] Reply.toText?
  | .delete key, peer =>
      peer.ask [word "UNLINK", word key] fun reply => reply.toCount.map fun n => decide (0 < n)
  | .setIfAbsent key token ttl, peer =>
      peer.ask [word "SET", word key, word token, word "NX", word "PX", millis ttl]
        fun reply => reply.toText?.map Option.isSome
  | .expireIfEqual key token ttl, peer =>
      let (count, peer) := runScript extendScript key [word token, millis ttl] peer
      (count.map (· == 1), peer)
  | .deleteIfEqual key token, peer =>
      let (count, peer) := runScript releaseScript key [word token] peer
      (count.map (· == 1), peer)

def scanCommand (count : Nat) (pattern : String) (cursor : Nat) : Command :=
  [word "SCAN", number cursor, word "MATCH", word pattern, word "COUNT", number count]

/--
Read a scan from a cursor on.  Every page uses up a reply, and without replies the
next page is an error, so the number of replies bounds the number of pages.
-/
def readPages (count : Nat) (pattern : String) : (fuel cursor : Nat) → Peer →
    Listing String × Peer
  | fuel, cursor, peer =>
      match peer.ask (scanCommand count pattern cursor) Reply.toPage with
      | (.error fault, peer) => (⟨[], some fault.toFailure⟩, peer)
      | (.ok (next, keys), peer) =>
          if next = 0 then (⟨keys, none⟩, peer)
          else
            match fuel with
            | 0 => (⟨keys, none⟩, peer)
            | fuel + 1 =>
                let (later, peer) := readPages count pattern fuel next peer
                (⟨keys ++ later.found, later.failure⟩, peer)

/-- The store behind a connection; pages of a scan are asked for with a size hint. -/
def store (count : Nat) : Store Peer where
  perform := fun call peer =>
    let (result, peer) := perform call peer
    (result.mapError Fault.toFailure, peer)
  scan := fun pattern peer =>
    (fun later => readPages count pattern later.replies.length 0 later, peer)

end Folio.Redis
