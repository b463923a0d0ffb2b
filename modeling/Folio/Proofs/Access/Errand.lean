import Folio.Proofs.Access.Operation

/-!
# What operations want from a store

An operation checks its arguments first.  With arguments that it accepts it wants one
thing from the store: a call under the retry policy, a call that is made once, a scan,
or nothing.  This holds for every store, so what follows from it does too.
-/

namespace Folio

variable {σ α β : Type}

/-! ## Operations on any store -/

namespace Operation

abbrev AnswerOn (σ : Type) : Operation → Type
  | put _ _ _ _ | putMany _ _ | putFields _ _ _ _ => Unit
  | get _ _ | getAllFields _ _ | getFields _ _ _ => Document
  | getField _ _ _ => Option String
  | find _ _ => σ → Listing Location × σ
  | delete _ _ | deleteFields _ _ | acquire _ _ _ | extend _ _ _ | release _ _ => Bool

def actOn (access : Access σ) : (operation : Operation) → Action σ (operation.AnswerOn σ)
  | put schema location doc ttl => Whole.put access schema location doc ttl
  | putMany schema docs => Whole.putMany access schema docs
  | get schema location => Whole.get access schema location
  | delete schema location => Whole.delete access schema location
  | find schema pattern => Find.start access schema pattern
  | putFields schema location doc ttl => ByField.put access schema location doc ttl
  | getAllFields schema location => ByField.get access schema location
  | getFields schema location fields => ByField.getFields access schema location fields
  | getField schema location field => ByField.getField access schema location field
  | deleteFields schema location => ByField.delete access schema location
  | acquire key token ttl => Lock.acquire access key token ttl
  | extend key token ttl => Lock.extend access key token ttl
  | release key token => Lock.release access key token

theorem act_eq_actOn (access : Access Memory) (operation : Operation) :
    operation.act access = operation.actOn access := by
  cases operation <;> rfl

end Operation

/-! ## Errands -/

/-- What an operation with accepted arguments wants from a store. -/
inductive Errand (σ α : Type) where
  | nothing (answer : α)
  | retried (call : Call) (read : call.Answer → Except Failure α)
  | once (call : Call) (read : call.Answer → α)
  | scan (pattern : String) (read : (σ → Listing String × σ) → α)

namespace Errand

def act (access : Access σ) : Errand σ α → Action σ α
  | nothing answer => .answer answer
  | retried call read => .reading (access.retried call) read
  | once call read => .reading (access.once call) fun told => .ok (read told)
  | scan pattern read => fun world =>
      let (readKeys, store) := access.store.scan pattern world.store
      (.ok (read readKeys), { world with store := store })

end Errand

namespace Operation

def errand (σ : Type) : (operation : Operation) → Except Failure (Errand σ (operation.AnswerOn σ))
  | put schema location doc ttl =>
      (Whole.preparePut schema location doc ttl).map fun (key, blob) =>
        .retried (.set key blob ttl) .ok
  | putMany schema docs =>
      (Whole.preparePutMany schema docs).map fun entries =>
        if entries.isEmpty then .nothing () else .retried (.setMany entries) .ok
  | get schema location =>
      (documentKey schema location).map fun key => .retried (.get key) Whole.decode
  | delete schema location =>
      (documentKey schema location).map fun key => .retried (.delete key) .ok
  | find schema pattern =>
      (Find.prepare schema pattern).map fun (schema, compiled) =>
        .scan (schema.scanText pattern) (Find.reader schema compiled)
  | putFields schema location doc ttl =>
      (ByField.preparePut schema location doc ttl).map fun (key, fields) =>
        if fields.isEmpty then .nothing () else .retried (.hashSet key fields ttl) .ok
  | getAllFields schema location =>
      (documentKey schema location).map fun key =>
        .retried (.hashGetAll key) fun entries => .ok (Document.ofFieldTable entries)
  | getFields schema location fields =>
      (documentKey schema location).map fun key =>
        .retried (.hashGetMany key fields) fun texts =>
          .ok (Document.ofFieldTable (ByField.foundFields fields texts))
  | getField schema location field =>
      (documentKey schema location).map fun key => .retried (.hashGet key field) .ok
  | deleteFields schema location =>
      (documentKey schema location).map fun key => .retried (.delete key) .ok
  | acquire key token ttl =>
      (Lock.check key ttl).map fun _ => .once (.setIfAbsent key token ttl) id
  | extend key token ttl =>
      (Lock.check key ttl).map fun _ => .once (.expireIfEqual key token ttl) id
  | release key token => (Lock.checkKey key).map fun _ => .once (.deleteIfEqual key token) id

end Operation

namespace Action

theorem checked_map {γ : Type} (check : Except Failure γ) (f : γ → β) (next : β → Action σ α) :
    checked (check.map f) next = checked check fun c => next (f c) := by
  cases check <;> rfl

/-- An answer that is read as it is stays as it is. -/
theorem reading_ok (action : Action σ α) : reading action .ok = action := by
  funext world
  unfold reading
  cases told : action world with
  | mk result behind => cases result <;> rfl

end Action

/-- An operation checks its arguments and does its errand. -/
theorem Operation.actOn_eq (access : Access σ) (operation : Operation) :
    operation.actOn access = .checked (operation.errand σ) fun errand => errand.act access := by
  cases operation with
  | put schema location doc ttl =>
      simp only [actOn, errand, Whole.put, Action.checked_map, Errand.act, Action.reading_ok]
  | putMany schema docs =>
      simp only [actOn, errand, Whole.putMany, Action.checked_map]
      refine congrArg _ (funext fun entries => ?_)
      cases entries.isEmpty with
      | true => rfl
      | false => exact (Action.reading_ok _).symm
  | putFields schema location doc ttl =>
      simp only [actOn, errand, ByField.put, Action.checked_map]
      refine congrArg _ (funext fun written => ?_)
      cases written.2.isEmpty with
      | true => rfl
      | false => exact (Action.reading_ok _).symm
  | get schema location => simp only [actOn, errand, Whole.get, Action.checked_map, Errand.act]
  | delete schema location =>
      simp only [actOn, errand, Whole.delete, Action.checked_map, Errand.act, Action.reading_ok]
  | find schema pattern =>
      simp only [actOn, errand, Find.start, Action.checked_map, Errand.act]
  | getAllFields schema location =>
      simp only [actOn, errand, ByField.get, Action.checked_map, Errand.act]
  | getFields schema location fields =>
      simp only [actOn, errand, ByField.getFields, Action.checked_map, Errand.act]
  | getField schema location field =>
      simp only [actOn, errand, ByField.getField, Action.checked_map, Errand.act, Action.reading_ok]
  | deleteFields schema location =>
      simp only [actOn, errand, ByField.delete, Action.checked_map, Errand.act, Action.reading_ok]
  | acquire key token ttl =>
      simp only [actOn, errand, Lock.acquire, Action.checked_map, Errand.act]
      exact congrArg _ (funext fun _ => (Action.reading_ok _).symm)
  | extend key token ttl =>
      simp only [actOn, errand, Lock.extend, Action.checked_map, Errand.act]
      exact congrArg _ (funext fun _ => (Action.reading_ok _).symm)
  | release key token =>
      simp only [actOn, errand, Lock.release, Action.checked_map, Errand.act]
      exact congrArg _ (funext fun _ => (Action.reading_ok _).symm)

/-- What a client gets to an operation is what comes of its errand, or the failure of its checks. -/
theorem Client.run_eq_errand (client : Client) (now : Nat) (operation : Operation)
    (memory : Memory) :
    client.run now operation memory =
      match operation.errand Memory with
      | .ok errand =>
          let (answer, world) := errand.act (client.access now) ⟨client.clock, memory⟩
          (answer, world.store)
      | .error failure => (.error failure, memory) := by
  have acts := (operation.act_eq_actOn (client.access now)).trans (operation.actOn_eq _)
  unfold Client.run
  rw [acts]
  unfold Action.checked
  cases operation.errand Memory <;> rfl

end Folio
