import Folio.Config.Connect
import Folio.Proofs.Except

/-!
# Checks before a server is asked

A server is asked iff the scan count is positive, the connection string has a URL and
the client accepts the URL.  Other settings are refused with the first of these faults,
and the answer is the same whatever the server would do.  The retry policy comes too
late for that: if it is the only fault, a server is asked all the same, and a server
that cannot be reached hides the fault.
-/

namespace Folio

namespace Redis

/-! ## URLs that are refused -/

/-- Whether all faults of a check are bad settings. -/
def BlamesSettings {α : Type} (check : Except Fault α) : Prop :=
  ∀ fault, check = .error fault → ∃ description detail, fault = badSettings description detail

namespace BlamesSettings

theorem ok {α : Type} (a : α) : BlamesSettings (.ok a) := nofun

theorem error {α : Type} (description : String) (detail : Option String) :
    BlamesSettings (.error (badSettings description detail) : Except Fault α) := by
  rintro _ ⟨⟩
  exact ⟨description, detail, rfl⟩

theorem require (condition : Bool) (description : String) :
    BlamesSettings (Url.require condition description) := by
  cases condition with
  | true => exact ok ()
  | false => exact error description none

theorem bind {α β : Type} {check : Except Fault α} {next : α → Except Fault β}
    (first : BlamesSettings check) (second : ∀ a, BlamesSettings (next a)) :
    BlamesSettings (check >>= next) := by
  intro fault failed
  rcases bind_eq_error_iff.1 failed with here | ⟨a, -, later⟩
  · exact first fault here
  · exact second a fault later

theorem checkProtocol (url : Url) : BlamesSettings url.checkProtocol := by
  unfold Url.checkProtocol
  split
  · exact ok ()
  · split
    · exact ok ()
    · exact error _ _

theorem checkNetwork (url : Url) : BlamesSettings url.checkNetwork :=
  (require _ _).bind fun _ => (require _ _).bind fun _ => (require _ _).bind fun _ =>
    (require _ _).bind fun _ => (require _ _).bind fun _ => checkProtocol url

theorem checkSocket (url : Url) : BlamesSettings url.checkSocket :=
  (require _ _).bind fun _ => (require _ _).bind fun _ => (require _ _).bind fun _ =>
    checkProtocol url

theorem check (url : Url) : BlamesSettings url.check := by
  unfold Url.check
  split
  · exact checkNetwork url
  · exact checkNetwork url
  · exact checkSocket url

theorem checkUrl (text : String) : BlamesSettings (Redis.checkUrl text) := by
  unfold Redis.checkUrl
  split
  · exact check _
  · exact error _ _

end BlamesSettings

end Redis

/-- Whether a failure blames settings: they are misuse, or no client opens their URL. -/
def Failure.BlamesSettings (failure : Failure) : Prop :=
  (∃ cause, failure = misuse cause) ∨
    ∃ description detail, failure = rejected (Redis.badSettings description detail).message

namespace Config

variable {σ : Type} (config : Config)

/-- Whether settings are such that a client opens a URL. -/
structure Opens (url : String) : Prop where
  scans : config.scanCount ≠ 0
  named : config.url = .ok url
  accepted : Redis.checkUrl url = .ok ()

/-- The failure that settings are refused with, which is the first one in this order. -/
inductive Refuses : Failure → Prop where
  | scanCount : config.scanCount = 0 → Refuses (.misuse .noScanCount)
  | connection {cause : Misuse} : config.scanCount ≠ 0 → config.url = .error cause →
      Refuses (.misuse cause)
  | url {url : String} {fault : Redis.Fault} : config.scanCount ≠ 0 → config.url = .ok url →
      Redis.checkUrl url = .error fault → Refuses fault.toFailure

/-- Whether every part of the settings is valid. -/
structure Valid : Prop where
  opens : ∃ url, config.Opens url
  retries : ∃ policy, config.retryPolicy = .ok policy

/-- Whether a server is asked for valid settings only and matters to no answer to others. -/
structure ChecksFirst : Prop where
  asks : ∀ {σ : Type} (reach : String → Except Failure σ),
    (config.connectRetrying reach).reached = true → config.Valid
  refuses : ¬config.Valid → ∃ failure : Failure, failure.BlamesSettings ∧
    ∀ {σ : Type} (reach : String → Except Failure σ),
      config.connectRetrying reach = ⟨.error failure, false⟩

variable {config}

theorem Refuses.blamesSettings {failure : Failure} (refuses : config.Refuses failure) :
    failure.BlamesSettings := by
  cases refuses with
  | scanCount | connection => exact .inl ⟨_, rfl⟩
  | url _ _ faulty =>
      obtain ⟨description, detail, rfl⟩ := Redis.BlamesSettings.checkUrl _ _ faulty
      exact .inr ⟨description, detail, rfl⟩

/-- What the check makes of settings whose scan count is positive and whose URL is known. -/
theorem checkedUrl_of_url {url : String} (scans : config.scanCount ≠ 0)
    (named : config.url = .ok url) : config.checkedUrl =
      (Redis.checkUrl url).mapError Redis.Fault.toFailure >>= fun _ => .ok url := by
  rw [checkedUrl, if_neg scans, named]
  rfl

theorem Opens.checkedUrl_eq {url : String} (opens : config.Opens url) :
    config.checkedUrl = .ok url := by
  rw [checkedUrl_of_url opens.scans opens.named, opens.accepted]
  rfl

theorem Refuses.checkedUrl_eq {failure : Failure} (refuses : config.Refuses failure) :
    config.checkedUrl = .error failure := by
  cases refuses with
  | scanCount zero => exact if_pos zero
  | connection scans unnamed =>
      rw [checkedUrl, if_neg scans, unnamed]
      rfl
  | url scans named faulty =>
      rw [checkedUrl_of_url scans named, faulty]
      rfl

theorem opens_or_refuses (config : Config) :
    (∃ url, config.Opens url) ∨ ∃ failure, config.Refuses failure := by
  by_cases zero : config.scanCount = 0
  · exact .inr ⟨_, .scanCount zero⟩
  · cases named : config.url with
    | error cause => exact .inr ⟨_, .connection zero named⟩
    | ok url =>
        cases checked : Redis.checkUrl url with
        | error fault => exact .inr ⟨_, .url zero named checked⟩
        | ok => exact .inl ⟨url, zero, named, checked⟩

theorem Refuses.not_opens {failure : Failure} (refuses : config.Refuses failure) :
    ¬∃ url, config.Opens url := by
  rintro ⟨url, opens⟩
  have both := refuses.checkedUrl_eq.symm.trans opens.checkedUrl_eq
  cases both

/-! ## Openings -/

/-- Settings that are refused are not taken to any server. -/
theorem Refuses.connectRetrying_eq {failure : Failure} (refuses : config.Refuses failure)
    (reach : String → Except Failure σ) :
    config.connectRetrying reach = ⟨.error failure, false⟩ := by
  rw [connectRetrying, connect, refuses.checkedUrl_eq]
  rfl

/-- The policy is looked at once the server was reached. -/
theorem Opens.connectRetrying_eq {url : String} (opens : config.Opens url)
    (reach : String → Except Failure σ) :
    config.connectRetrying reach =
      ⟨(reach url).bind fun connection =>
        (config.retryPolicy.mapError Failure.misuse).map fun policy => (connection, policy),
        true⟩ := by
  rw [connectRetrying, connect, opens.checkedUrl_eq]
  cases config.retryPolicy <;> rfl

theorem reached_connectRetrying_iff (reach : String → Except Failure σ) :
    (config.connectRetrying reach).reached = true ↔ ∃ url, config.Opens url := by
  rcases config.opens_or_refuses with ⟨url, opens⟩ | ⟨failure, refuses⟩
  · rw [opens.connectRetrying_eq]
    exact ⟨fun _ => ⟨url, opens⟩, fun _ => rfl⟩
  · rw [refuses.connectRetrying_eq]
    exact ⟨nofun, fun opens => absurd opens refuses.not_opens⟩

/-- Checks come first unless the policy is the only fault. -/
theorem checksFirst_iff :
    config.ChecksFirst ↔
      ((∃ url, config.Opens url) → ∃ policy, config.retryPolicy = .ok policy) := by
  constructor
  · intro first opens
    -- any server will do, for all that matters is that it is asked
    let reach : String → Except Failure Unit := fun _ => .ok ()
    exact (first.asks reach ((reached_connectRetrying_iff reach).2 opens)).retries
  · intro retries
    refine ⟨fun reach asked => ?_, fun invalid => ?_⟩
    · have opens := (reached_connectRetrying_iff reach).1 asked
      exact ⟨opens, retries opens⟩
    · rcases config.opens_or_refuses with opens | ⟨failure, refuses⟩
      · exact absurd ⟨opens, retries opens⟩ invalid
      · exact ⟨failure, refuses.blamesSettings, fun reach => refuses.connectRetrying_eq reach⟩

/--
A server is asked exactly if the scan count is positive, the connection string has a URL and the
client accepts it.  Settings that fall short of this are refused with the first fault, which blames
the settings, whatever the server would do.  So all checks come before the server unless the policy
is the only fault; then the server is asked, and its failure is reported in place of the fault.
-/
theorem settings_checked_before_server (config : Config) :
    (∀ {σ : Type} (reach : String → Except Failure σ),
      (config.connectRetrying reach).reached = true ↔ ∃ url, config.Opens url) ∧
    (∀ failure, config.Refuses failure → failure.BlamesSettings ∧
      ∀ {σ : Type} (reach : String → Except Failure σ),
        config.connectRetrying reach = ⟨.error failure, false⟩) ∧
    (config.ChecksFirst ↔
      ((∃ url, config.Opens url) → ∃ policy, config.retryPolicy = .ok policy)) ∧
    ∀ url cause, config.Opens url → config.retryPolicy = .error cause →
      ∀ {σ : Type} (reach : String → Except Failure σ),
        config.connectRetrying reach =
          ⟨(reach url).bind fun _ => .error (.misuse cause), true⟩ := by
  refine ⟨fun reach => reached_connectRetrying_iff reach, fun failure refuses =>
    ⟨refuses.blamesSettings, fun reach => refuses.connectRetrying_eq reach⟩, checksFirst_iff,
    fun url cause opens faulty σ reach => ?_⟩
  rw [opens.connectRetrying_eq, faulty]
  rfl

/-- Settings whose only fault is that they allow no attempt; their server is behind a socket. -/
def attemptless : Config :=
  { usual with connection := "redis+unix:///nonexistent/redis.sock", attempts := 0 }

/-- Settings that allow no attempt are taken to a server, and blamed only if it can be reached. -/
theorem policy_checked_after_server :
    attemptless.retryPolicy = .error .noAttempts ∧
      (∀ failure, attemptless.connectRetrying (fun _ => (.error failure : Except Failure Unit)) =
        ⟨.error failure, true⟩) ∧
      attemptless.connectRetrying (fun _ => (.ok () : Except Failure Unit)) =
        ⟨.error (.misuse .noAttempts), true⟩ ∧
      ¬∀ config : Config, config.ChecksFirst := by
  have opens : attemptless.Opens "redis+unix:///nonexistent/redis.sock" := ⟨by decide, rfl, rfl⟩
  refine ⟨rfl, fun failure => opens.connectRetrying_eq _, opens.connectRetrying_eq _,
    fun first => ?_⟩
  obtain ⟨policy, made⟩ := checksFirst_iff.1 (first attemptless) ⟨_, opens⟩
  cases made

end Config

end Folio
