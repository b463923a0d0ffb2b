import Folio.Proofs.Access.Attempts
import Folio.Redis.Store

/-!
# Times to live on a server

A time to live is sent to a server in whole milliseconds, rounded down.  Every operation
with one sends it, in each attempt, and sends no other.  What is positive but shorter
than a millisecond is accepted and sent as zero.
-/

namespace Folio

/-! ## Whole milliseconds -/

namespace Duration

variable (d : Duration)

/-- The whole milliseconds of a duration are as many as fit in it and in sixty-four bits. -/
theorem le_wholeMillis_iff (n : Nat) :
    n ≤ d.wholeMillis ↔ n < 2 ^ 64 ∧ n * nanosPerMilli ≤ d.nanos := by
  have positive : 0 < nanosPerMilli := by decide
  rw [wholeMillis, Nat.le_min, Nat.le_div_iff_mul_le positive, and_comm]
  exact and_congr_left fun _ => Nat.lt_succ_iff.symm

theorem wholeMillis_mono {d longer : Duration} (le : d.nanos ≤ longer.nanos) :
    d.wholeMillis ≤ longer.wholeMillis := by
  obtain ⟨bounded, fits⟩ := (d.le_wholeMillis_iff d.wholeMillis).1 (Nat.le_refl _)
  exact (longer.le_wholeMillis_iff _).2 ⟨bounded, fits.trans le⟩

/-- A duration has a whole millisecond iff it is not shorter than one. -/
theorem one_le_wholeMillis_iff : 1 ≤ d.wholeMillis ↔ nanosPerMilli ≤ d.nanos := by
  rw [le_wholeMillis_iff, Nat.one_mul]
  exact and_iff_right (by decide)

end Duration

namespace Redis

/-! ## Commands with a time to live -/

/-- Whether a command asks for a key to expire after `n` milliseconds. -/
inductive Command.Expires : Command → Nat → Prop where
  | set (key : String) (value : Bytes) (n : Nat) :
      Expires [word "SET", word key, value, word "PX", number n] n
  | setNew (key token : String) (n : Nat) :
      Expires [word "SET", word key, word token, word "NX", word "PX", number n] n
  | expire (key : String) (n : Nat) : Expires [word "PEXPIRE", word key, number n] n
  | extend (key token : String) (n : Nat) :
      Expires (runCommand extendScript key [word token, number n]) n

theorem number_injective {n m : Nat} (same : number n = number m) : n = m := by
  have texts := Lease.utf8_injective same
  have digits := String.ofList_injective texts
  rw [Text.integerChars, Text.integerChars, if_neg (by omega), if_neg (by omega),
    Int.natAbs_natCast, Int.natAbs_natCast] at digits
  rw [← Text.digitsNumber_toDigits n, digits, Text.digitsNumber_toDigits]

namespace Command.Expires

variable {command : Command} {n m : Nat}

/-- The time to live is the last argument of the command. -/
theorem getLast? (expires : Expires command n) : command.getLast? = some (number n) := by
  cases expires <;> rfl

theorem head? (expires : Expires command n) :
    command.head? = some (word "SET") ∨ command.head? = some (word "PEXPIRE") ∨
      command.head? = some (word "EVALSHA") := by
  cases expires with
  | set | setNew => exact .inl rfl
  | expire => exact .inr (.inl rfl)
  | extend => exact .inr (.inr rfl)

/-- A command has at most one time to live. -/
theorem unique (one : Expires command n) (other : Expires command m) : n = m := by
  have lasts := one.getLast?.symm.trans other.getLast?
  exact number_injective (Option.some.inj lasts)

/-- Other commands than those to set a value, to set a time and to run a script have none. -/
theorem not_of_head? {verb : String} (head : command.head? = some (word verb))
    (other : verb ∉ ["SET", "PEXPIRE", "EVALSHA"]) : ¬Expires command n := by
  intro expires
  have named : ∀ known, command.head? = some (word known) → verb = known := fun known same =>
    Lease.utf8_injective (Option.some.inj (head.symm.trans same))
  obtain same | same | same := expires.head? <;> rw [named _ same] at other <;> simp at other

end Command.Expires

/-! ## What a server is told -/

/--
Whether every time to live that a server receives between two of its states is `n` milliseconds,
and whether it receives one, if that is sure.
-/
def Peer.Told (n : Nat) (sure : Prop) (peer after : Peer) : Prop :=
  ∃ sent, after.received = sent ++ peer.received ∧
    (∀ command ∈ sent, ∀ m, command.Expires m → m = n) ∧
    (sure → ∃ command ∈ sent, command.Expires n)

namespace Peer.Told

variable {α : Type} {n : Nat} {sure more : Prop} {first second third : Peer}

theorem refl (peer : Peer) : Told n False peer peer :=
  ⟨[], rfl, fun _ => nofun, False.elim⟩

theorem mono (told : Told n sure first second) (fewer : more → sure) : Told n more first second :=
  let ⟨sent, received, only, one⟩ := told
  ⟨sent, received, only, fun holds => one (fewer holds)⟩

theorem trans (told : Told n sure first second) (next : Told n more second third) :
    Told n (sure ∨ more) first third := by
  obtain ⟨sent, received, only, one⟩ := told
  obtain ⟨later, receivedLater, onlyLater, oneLater⟩ := next
  refine ⟨later ++ sent, by rw [receivedLater, received, List.append_assoc], ?_, ?_⟩
  · intro command mem
    obtain mem | mem := List.mem_append.1 mem
    · exact onlyLater command mem
    · exact only command mem
  · rintro (holds | holds)
    · obtain ⟨command, mem, expires⟩ := one holds
      exact ⟨command, List.mem_append_right later mem, expires⟩
    · obtain ⟨command, mem, expires⟩ := oneLater holds
      exact ⟨command, List.mem_append_left sent mem, expires⟩

theorem exchange {command : Command} (only : ∀ m, command.Expires m → m = n) (peer : Peer) :
    Told n (command.Expires n) peer (peer.exchange command).2 := by
  refine ⟨[command], ?_, ?_, fun expires => ⟨command, List.mem_singleton_self command, expires⟩⟩
  · unfold Peer.exchange
    split <;> rfl
  · intro other mem
    rw [List.mem_singleton.1 mem]
    exact only

theorem ask {command : Command} (only : ∀ m, command.Expires m → m = n)
    (read : Reply → Except Fault α) (peer : Peer) :
    Told n (command.Expires n) peer (peer.ask command read).2 := by
  have after : (peer.ask command read).2 = (peer.exchange command).2 := by
    unfold Peer.ask
    dsimp only
    split <;> rfl
  rw [after]
  exact exchange only peer

/-- A command with a time to live tells it. -/
theorem ask_expiring {command : Command} (expires : command.Expires n)
    (read : Reply → Except Fault α) (peer : Peer) : Told n True peer (peer.ask command read).2 :=
  (ask (fun _ other => other.unique expires) read peer).mono fun _ => expires

theorem sendAll {commands : List Command}
    (only : ∀ command ∈ commands, ∀ m, command.Expires m → m = n) (peer : Peer) :
    Told n (∃ command ∈ commands, command.Expires n) peer (sendAll commands peer).2 := by
  induction commands generalizing peer with
  | nil => exact (refl peer).mono fun ⟨_, mem, _⟩ => absurd mem List.not_mem_nil
  | cons command rest ih =>
      obtain ⟨here, later⟩ := List.forall_mem_cons.1 only
      refine ((exchange here peer).trans (ih later _)).mono ?_
      rintro ⟨other, mem, expires⟩
      obtain rfl | mem := List.mem_cons.1 mem
      · exact .inl expires
      · exact .inr ⟨other, mem, expires⟩

theorem transaction {commands : List Command}
    (only : ∀ command ∈ commands, ∀ m, command.Expires m → m = n) (peer : Peer) :
    Told n (∃ command ∈ commands, command.Expires n) peer (transaction commands peer).2 := by
  have multi : ∀ m, ¬Command.Expires [word "MULTI"] m := fun m =>
    Command.Expires.not_of_head? rfl (by decide)
  have exec : ∀ m, ¬Command.Expires [word "EXEC"] m := fun m =>
    Command.Expires.not_of_head? rfl (by decide)
  have all : ∀ command ∈ [word "MULTI"] :: commands, ∀ m, Command.Expires command m → m = n :=
    List.forall_mem_cons.2 ⟨fun m expires => absurd expires (multi m), only⟩
  have told := (sendAll all peer).trans
    (exchange (fun m expires => absurd expires (exec m)) _)
  have after : (Redis.transaction commands peer).2 =
      ((Redis.sendAll ([word "MULTI"] :: commands) peer).2.exchange [word "EXEC"]).2 := by
    unfold Redis.transaction
    dsimp only
    split <;> rfl
  rw [after]
  exact told.mono fun ⟨command, mem, expires⟩ =>
    .inl ⟨command, List.mem_cons_of_mem _ mem, expires⟩

/-- A script that a server does not know is run a second time, with the same arguments. -/
theorem runScript {script : Script} {key : String} {arguments : List Bytes}
    (expires : (runCommand script key arguments).Expires n) (peer : Peer) :
    Told n True peer (runScript script key arguments peer).2 := by
  have load : ∀ m, ¬Command.Expires [word "SCRIPT", word "LOAD", word script.text] m := fun m =>
    Command.Expires.not_of_head? rfl (by decide)
  have first := ask_expiring expires Reply.toCount peer
  unfold Redis.runScript
  split
  · rename_i fault behind asked
    rw [asked] at first
    split
    · have loaded := first.trans (ask (fun m expires => absurd expires (load m))
        (fun _ => .ok ()) behind)
      split
      · rename_i stopped
        rw [stopped] at loaded
        exact loaded.mono fun _ => .inl trivial
      · rename_i done
        rw [done] at loaded
        exact (loaded.trans (ask_expiring expires _ _)).mono fun _ => .inr trivial
    · exact first
  · rename_i asked
    rw [asked] at first
    exact first

/-- A call with a time to live tells it, unless it has nothing to write. -/
theorem perform {call : Call} {ttl : Duration} (asked : call.ttl? = some ttl)
    (filled : ∀ key ttl, call ≠ .hashSet key [] ttl) (peer : Peer) :
    Told ttl.wholeMillis True peer (Redis.perform call peer).2 := by
  cases call with
  | set key value expiry =>
      cases (asked : expiry = some ttl)
      exact ask_expiring (.set key value ttl.wholeMillis) _ peer
  | hashSet key fields expiry =>
      cases (asked : expiry = some ttl)
      cases fields with
      | nil => exact absurd rfl (filled key (some ttl))
      | cons field fields =>
          let merge : Command := word "HSET" :: word key :: fieldArguments (field :: fields)
          let expire : Command := [word "PEXPIRE", word key, millis ttl]
          have silent : ∀ m, ¬merge.Expires m := fun m =>
            Command.Expires.not_of_head? rfl (by decide)
          have expires : expire.Expires ttl.wholeMillis := .expire key ttl.wholeMillis
          have only : ∀ command ∈ [merge, expire], ∀ m,
              Command.Expires command m → m = ttl.wholeMillis := by
            refine List.forall_mem_cons.2 ⟨fun m other => absurd other (silent m), ?_⟩
            exact List.forall_mem_singleton.2 fun m other => other.unique expires
          have told := transaction only peer
          exact told.mono fun _ => ⟨expire, List.mem_cons_of_mem _ List.mem_cons_self, expires⟩
  | setIfAbsent key token expiry =>
      cases asked
      exact ask_expiring (.setNew key token ttl.wholeMillis) _ peer
  | expireIfEqual key token expiry =>
      cases asked
      exact runScript (.extend key token ttl.wholeMillis) peer
  | get | setMany | hashGetAll | hashGetMany | hashGet | delete | deleteIfEqual => cases asked

end Peer.Told

end Redis

/-! ## What operations tell a server -/

open Redis

/-- Whether an errand asks for a time to live, if it asks for anything. -/
def Errand.Asks {σ α : Type} (ttl : Duration) : Errand σ α → Prop
  | nothing _ => True
  | retried call _ | once call _ =>
      call.ttl? = some ttl ∧ ∀ key ttl, call ≠ .hashSet key [] ttl
  | scan _ _ => False

theorem Operation.asks_errand {σ : Type} {operation : Operation} {ttl : Duration}
    (asked : operation.ttl? = some ttl) {errand : Errand σ (operation.AnswerOn σ)}
    (wanted : operation.errand σ = .ok errand) : errand.Asks ttl := by
  cases operation with
  | put schema location doc expiry =>
      obtain ⟨written, -, rfl⟩ := map_eq_ok_iff.1 wanted
      exact ⟨asked, nofun⟩
  | putFields schema location doc expiry =>
      obtain ⟨⟨key, fields⟩, -, rfl⟩ := map_eq_ok_iff.1 wanted
      cases fields with
      | nil => trivial
      | cons field fields => exact ⟨asked, nofun⟩
  | acquire key token expiry | extend key token expiry =>
      obtain ⟨_, -, rfl⟩ := map_eq_ok_iff.1 wanted
      exact ⟨asked, nofun⟩
  | _ => cases asked

/-- An errand tells a server its time to live, in the first attempt if not only then. -/
theorem Errand.told_act {α : Type} (count : Nat) (retry : RetryPolicy) (cancelAt : Option Nat)
    (wait : Wait)
    {ttl : Duration} {errand : Errand Peer α} (asks : errand.Asks ttl) (clock : Nat)
    (peer : Peer) :
    Peer.Told ttl.wholeMillis
      (errand.dealing ≠ .nothing ∧ (errand.dealing = .once ∨ cancelledBy cancelAt clock = false))
      peer (errand.act ⟨store count, retry, cancelAt, wait⟩ ⟨clock, peer⟩).2.store := by
  cases errand with
  | nothing answer => exact (Peer.Told.refl peer).mono fun sure => sure.1 rfl
  | scan pattern read => cases asks
  | once call read => exact (Peer.Told.perform asks.1 asks.2 peer).mono fun _ => trivial
  | retried call read =>
      let attempt := (⟨store count, retry, cancelAt, wait⟩ : Access Peer).attempt call
      have each : ∀ state, Peer.Told ttl.wholeMillis True state (attempt state).state := fun state =>
        Peer.Told.perform asks.1 asks.2 state
      cases cancelled : cancelledBy cancelAt clock with
      | false =>
          have told : Peer.Told ttl.wholeMillis True peer
              (retry.run wait cancelAt attempt clock peer).state :=
            retry.preserved_run wait (fun state before => (before.trans (each state)).mono .inl)
              cancelled (each peer)
          exact told.mono fun _ => trivial
      | true =>
          have told : Peer.Told ttl.wholeMillis False peer
              (retry.run wait cancelAt attempt clock peer).state :=
            retry.preserved_runFrom wait cancelAt
              (fun state before => (before.trans (each state)).mono .inl) _ _ _ (.refl peer)
          refine told.mono ?_
          rintro ⟨-, once | running⟩
          · cases once
          · cases running

/--
An operation with a time to live sends a server that many whole milliseconds in every command with a
time to live, and sends such a command if its arguments are valid, there is something to write and
it is not cancelled before its first attempt.  The whole milliseconds are as many as fit in the time
to live and in sixty-four bits, so a longer one has no fewer, and there is one at least iff the time
to live is not shorter than a millisecond.
-/
theorem expiry_in_whole_millis (count : Nat) (retry : RetryPolicy) (cancelAt : Option Nat)
    (wait : Wait)
    {operation : Operation} {ttl : Duration} (asked : operation.ttl? = some ttl) (clock : Nat)
    (peer : Peer) :
    Peer.Told ttl.wholeMillis
      (operation.Valid ∧ operation.dealing ≠ .nothing ∧
        (operation.dealing = .once ∨ cancelledBy cancelAt clock = false))
      peer (operation.actOn ⟨store count, retry, cancelAt, wait⟩ ⟨clock, peer⟩).2.store ∧
    (∀ n, n ≤ ttl.wholeMillis ↔ n < 2 ^ 64 ∧ n * nanosPerMilli ≤ ttl.nanos) ∧
    (∀ longer : Duration, ttl.nanos ≤ longer.nanos → ttl.wholeMillis ≤ longer.wholeMillis) ∧
    (1 ≤ ttl.wholeMillis ↔ nanosPerMilli ≤ ttl.nanos) := by
  refine ⟨?_, ttl.le_wholeMillis_iff, fun longer => Duration.wholeMillis_mono,
    ttl.one_le_wholeMillis_iff⟩
  rw [operation.actOn_eq]
  cases wanted : operation.errand Peer with
  | error failure =>
      refine (Peer.Told.refl peer).mono fun sure => ?_
      obtain ⟨errand, made⟩ := (operation.guards_errand Peer).passes.2 sure.1
      rw [wanted] at made
      cases made
  | ok errand =>
      have told := Errand.told_act count retry cancelAt wait (Operation.asks_errand asked wanted)
        clock peer
      rw [Operation.dealing_errand wanted] at told
      exact told.mono And.right

/-- A script that has to be loaded first: almost two milliseconds are told as one, twice. -/
theorem expiry_in_whole_millis_example :
    let ttl : Duration := ⟨1999999, by decide⟩
    let extend : Operation := .extend "l" "t" ttl
    let peer : Peer := ⟨[.error "NOSCRIPT No matching script", .simple "loaded", .integer 1], []⟩
    let done := extend.actOn ⟨store 100, .usual, none, .exact⟩ ⟨0, peer⟩
    extend.ttl? = some ttl ∧ extend.Valid ∧ done.1 = .ok true ∧ done.2.store.received.length = 3 ∧
      Peer.Told 1 True peer done.2.store ∧ 1 ≤ ttl.wholeMillis := by
  intro ttl extend peer done
  have valid : extend.Valid := ⟨by decide, by decide⟩
  obtain ⟨told, -, -, positive⟩ :=
    @expiry_in_whole_millis 100 .usual none .exact extend ttl rfl 0 peer
  have millis : ttl.wholeMillis = 1 := by decide
  rw [millis] at told
  exact ⟨rfl, valid, by decide +kernel, by decide +kernel,
    told.mono fun _ => ⟨valid, nofun, .inl rfl⟩, positive.2 (by decide)⟩

/-- A lock is extended by less than a millisecond: the server is told to let it expire at once. -/
theorem expiry_of_zero_millis :
    ¬ ∀ (operation : Operation) (ttl : Duration) (peer : Peer), operation.Valid →
      operation.ttl? = some ttl →
      ∀ command ∈ (operation.actOn ⟨store 100, .usual, none, .exact⟩ ⟨0, peer⟩).2.store.received,
        command ∉ peer.received → ∀ n, Command.Expires command n → 1 ≤ n := by
  intro positive
  let ttl : Duration := ⟨999999, by decide⟩
  let extend : Operation := .extend "l" "t" ttl
  let peer : Peer := ⟨[.integer 1], []⟩
  let command : Command := runCommand extendScript "l" [word "t", number 0]
  have sent : (extend.actOn ⟨store 100, .usual, none, .exact⟩ ⟨0, peer⟩).2.store.received =
      [command] := by
    decide +kernel
  have valid : extend.Valid := ⟨by decide, by decide⟩
  have one := positive extend ttl peer valid rfl command
    (by rw [sent]; exact List.mem_singleton_self command) List.not_mem_nil 0 (.extend "l" "t" 0)
  cases one

end Folio
