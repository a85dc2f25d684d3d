import Mathlib.Data.List.Induction
import Mathlib.Data.String.Basic

/-! The configuration and the options it is built with. Every option runs, also after one that
failed, and the errors of all are returned together.
-/

namespace GoFire.Config

structure StorageDriver where
  value : Int
  deriving DecidableEq

structure MessageQueueDriver where
  value : Int
  deriving DecidableEq

namespace StorageDriver

def postgres : StorageDriver := ⟨1⟩

/-- The method String. -/
def text (d : StorageDriver) : String := if d = postgres then "postgres" else "unknown"

end StorageDriver

namespace MessageQueueDriver

def unset : MessageQueueDriver := ⟨0⟩

def rabbitMQ : MessageQueueDriver := ⟨1⟩

end MessageQueueDriver

structure PostgresConfig where
  connectionUrl : String := ""

structure RabbitMQConfig where
  url : String := ""
  exchange : String := ""
  queue : String := ""
  routingKey : String := ""
  contentType : String := ""

def defaultWorkerCount : Int := 5

def defaultEnqueueInterval : Int := 15

def defaultStorageDriver : StorageDriver := .postgres

def defaultBatchSize : Int := 100

def defaultCronJobInterval : Int := 60

/-- The fields of the configuration that the options read or set. -/
structure GofireConfig where
  instanceName : String
  dashboardPort : Nat := 0
  dashboardUserName : String := ""
  dashboardPassword : String := ""
  secretKey : String := ""
  dashboardAuthEnabled : Bool := false
  storageDriver : StorageDriver := defaultStorageDriver
  workerCount : Int := defaultWorkerCount
  enqueueInterval : Int := defaultEnqueueInterval
  scheduleInterval : Int := defaultCronJobInterval
  batchSize : Int := defaultBatchSize
  postgresConfig : PostgresConfig := {}
  useQueueWriter : Bool := false
  mqDriver : MessageQueueDriver := .unset
  rabbitMQConfig : RabbitMQConfig := {}

/-- An option changes the configuration and may return an error. -/
abbrev ContainerOption := GofireConfig → GofireConfig × Option String

structure ValidationError where
  errors : List String := []

namespace ValidationError

def add (c : ValidationError) (err : String) : ValidationError := ⟨c.errors ++ [err]⟩

def hasError (c : ValidationError) : Bool := 0 < c.errors.length

/-- The method Error; joined errors stand on lines of their own. -/
def error (c : ValidationError) : String :=
  if c.errors.length = 0 then "" else "\n".intercalate c.errors

end ValidationError

-----------------------------------------------------------------------------------------
-- The options
-----------------------------------------------------------------------------------------

def withAdminDashboardConfig (username password secretKey : String) (port : Nat)
    : ContainerOption := fun c =>
  if username = "" ∨ password = "" ∨ secretKey = "" ∨ port = 0 then
    (c, some "admin dashboard client: username, password, secretKey, and port are required")
  else
    ({ c with dashboardAuthEnabled := true, dashboardUserName := username,
              dashboardPassword := password, secretKey, dashboardPort := port }, none)

def withPostgresConfig (pg : PostgresConfig) : ContainerOption := fun c =>
  if c.storageDriver ≠ .postgres then
    (c, some ("cannot set Postgres client when driver is " ++ c.storageDriver.text))
  else if pg.connectionUrl = "" then (c, some "postgres client: connection URL is required")
  else ({ c with storageDriver := .postgres, postgresConfig := pg }, none)

/-- The options that set a number refuse one below 1. -/
def withPositive (n : Int) (err : String) (set : GofireConfig → GofireConfig)
    : ContainerOption := fun c =>
  if n < 1 then (c, some err) else (set c, none)

def withWorkerCount (n : Int) : ContainerOption :=
  withPositive n "worker count must be positive" fun c => { c with workerCount := n }

def withEnqueueInterval (seconds : Int) : ContainerOption :=
  withPositive seconds "enqueue interval must be positive" fun c =>
    { c with enqueueInterval := seconds }

def withScheduleInterval (seconds : Int) : ContainerOption :=
  withPositive seconds "schedule interval must be positive" fun c =>
    { c with scheduleInterval := seconds }

def withBatchSize (batchSize : Int) : ContainerOption :=
  withPositive batchSize "batch size must be positive" fun c => { c with batchSize }

/-- The flag is set whatever the URL is. -/
def useRabbitMQueueWriter (writeToQueue : Bool) : ContainerOption := fun c =>
  ({ c with useQueueWriter := writeToQueue,
            mqDriver := if writeToQueue then .rabbitMQ else c.mqDriver }, none)

def withRabbitMQConfig (cfg : RabbitMQConfig) : ContainerOption := fun c =>
  if cfg.url = "" then (c, some "rabbitmq client: URL is required")
  else ({ c with rabbitMQConfig := cfg, useQueueWriter := true, mqDriver := .rabbitMQ }, none)

/-- The loop over the options. -/
def applyOptions (opts : List ContainerOption) (cfg : GofireConfig)
    : GofireConfig × ValidationError :=
  opts.foldl
    (fun (cfg, validationErrs) opt =>
      let (cfg, err) := opt cfg
      (cfg, err.elim validationErrs validationErrs.add))
    (cfg, {})

def newGofireConfig (instanceName : String) (opts : List ContainerOption)
    : Except ValidationError GofireConfig :=
  let (cfg, validationErrs) := applyOptions opts { instanceName }
  if validationErrs.hasError then .error validationErrs else .ok cfg

/-- A call of one of the constructors of options. -/
inductive OptionCall where
  | adminDashboardConfig (username password secretKey : String) (port : Nat)
  | postgresConfig (pg : PostgresConfig)
  | workerCount (n : Int)
  | enqueueInterval (seconds : Int)
  | scheduleInterval (seconds : Int)
  | batchSize (size : Int)
  | rabbitMQueueWriter (writeToQueue : Bool)
  | rabbitMQConfig (cfg : RabbitMQConfig)

namespace OptionCall

def option : OptionCall → ContainerOption
  | adminDashboardConfig username password secretKey port =>
      withAdminDashboardConfig username password secretKey port
  | postgresConfig pg => withPostgresConfig pg
  | workerCount n => withWorkerCount n
  | enqueueInterval seconds => withEnqueueInterval seconds
  | scheduleInterval seconds => withScheduleInterval seconds
  | batchSize size => withBatchSize size
  | rabbitMQueueWriter writeToQueue => useRabbitMQueueWriter writeToQueue
  | rabbitMQConfig cfg => withRabbitMQConfig cfg

/-- The error of the option on a new configuration. -/
def failure (call : OptionCall) : Option String := (call.option { instanceName := "" }).2

def writeToQueue : OptionCall → Option Bool
  | rabbitMQueueWriter writeToQueue => some writeToQueue
  | _ => none

end OptionCall

-----------------------------------------------------------------------------------------
-- What holds after every list of options
-----------------------------------------------------------------------------------------

theorem applyOptions_concat (opts : List ContainerOption) (opt : ContainerOption)
    (cfg : GofireConfig)
    : applyOptions (opts ++ [opt]) cfg
      = ((opt (applyOptions opts cfg).1).1,
          (opt (applyOptions opts cfg).1).2.elim (applyOptions opts cfg).2
            (applyOptions opts cfg).2.add) := by
  rw [applyOptions, List.foldl_append]
  rfl

/-- The numbers are positive, and an enabled dashboard has its credentials and its port. -/
structure GofireConfig.WellFormed (c : GofireConfig) : Prop where
  workerCount : 1 ≤ c.workerCount
  enqueueInterval : 1 ≤ c.enqueueInterval
  scheduleInterval : 1 ≤ c.scheduleInterval
  batchSize : 1 ≤ c.batchSize
  dashboard : c.dashboardAuthEnabled = true
    → c.dashboardUserName ≠ "" ∧ c.dashboardPassword ≠ "" ∧ c.secretKey ≠ ""
      ∧ c.dashboardPort ≠ 0

/-- Every default passes the check of its option. -/
theorem wellFormed_initial (instanceName : String)
    : GofireConfig.WellFormed { instanceName } where
  workerCount := show 1 ≤ defaultWorkerCount by decide
  enqueueInterval := show 1 ≤ defaultEnqueueInterval by decide
  scheduleInterval := show 1 ≤ defaultCronJobInterval by decide
  batchSize := show 1 ≤ defaultBatchSize by decide
  dashboard := Bool.noConfusion

namespace OptionCall

/-- What an option that does not fail sets. -/
inductive Sets (c : GofireConfig) : OptionCall → GofireConfig → Prop where
  | adminDashboardConfig {username password secretKey : String} {port : Nat}
      (complete : ¬ (username = "" ∨ password = "" ∨ secretKey = "" ∨ port = 0))
      : Sets c (.adminDashboardConfig username password secretKey port)
          { c with dashboardAuthEnabled := true, dashboardUserName := username,
                   dashboardPassword := password, secretKey, dashboardPort := port }
  | postgresConfig {pg : PostgresConfig}
      : Sets c (.postgresConfig pg) { c with storageDriver := .postgres, postgresConfig := pg }
  | workerCount {n : Int} (positive : 1 ≤ n)
      : Sets c (.workerCount n) { c with workerCount := n }
  | enqueueInterval {seconds : Int} (positive : 1 ≤ seconds)
      : Sets c (.enqueueInterval seconds) { c with enqueueInterval := seconds }
  | scheduleInterval {seconds : Int} (positive : 1 ≤ seconds)
      : Sets c (.scheduleInterval seconds) { c with scheduleInterval := seconds }
  | batchSize {size : Int} (positive : 1 ≤ size)
      : Sets c (.batchSize size) { c with batchSize := size }
  | rabbitMQueueWriter {writeToQueue : Bool}
      : Sets c (.rabbitMQueueWriter writeToQueue)
          { c with useQueueWriter := writeToQueue,
                   mqDriver := if writeToQueue then .rabbitMQ else c.mqDriver }
  | rabbitMQConfig {cfg : RabbitMQConfig} (url : cfg.url ≠ "")
      : Sets c (.rabbitMQConfig cfg)
          { c with rabbitMQConfig := cfg, useQueueWriter := true, mqDriver := .rabbitMQ }

/-- The options that set a number fail or set it. -/
theorem positive_cases {n : Int} {call : OptionCall} {c : GofireConfig} {err : String}
    {set : GofireConfig → GofireConfig} (same : call.option = withPositive n err set)
    (sets : 1 ≤ n → Sets c call (set c))
    : (∃ err, call.failure = some err ∧ call.option c = (c, some err))
      ∨ (call.failure = none ∧ ∃ c', call.option c = (c', none) ∧ Sets c call c') := by
  rw [failure, same]
  by_cases small : n < 1
  · exact Or.inl ⟨err, by rw [withPositive, if_pos small], if_pos small⟩
  · exact Or.inr ⟨by rw [withPositive, if_neg small], set c, if_neg small,
      sets (Int.not_lt.mp small)⟩

/-- An option fails on every configuration alike and then leaves it as it is. Only
WithPostgresConfig looks at the configuration, at its storage driver.
-/
theorem option_cases (call : OptionCall) {c : GofireConfig} (driver : c.storageDriver = .postgres)
    : (∃ err, call.failure = some err ∧ call.option c = (c, some err))
      ∨ (call.failure = none ∧ ∃ c', call.option c = (c', none) ∧ Sets c call c') := by
  cases call with
  | adminDashboardConfig username password secretKey port =>
      by_cases incomplete : username = "" ∨ password = "" ∨ secretKey = "" ∨ port = 0
      · exact Or.inl ⟨_, by rw [failure, option, withAdminDashboardConfig, if_pos incomplete],
          if_pos incomplete⟩
      · exact Or.inr ⟨by rw [failure, option, withAdminDashboardConfig, if_neg incomplete], _,
          if_neg incomplete, .adminDashboardConfig incomplete⟩
  | postgresConfig pg =>
      have known : ¬ c.storageDriver ≠ .postgres := not_not.mpr driver
      by_cases missing : pg.connectionUrl = ""
      · refine Or.inl ⟨_, ?_, (if_neg known).trans (if_pos missing)⟩
        simp [failure, option, withPostgresConfig, defaultStorageDriver, missing]
      · refine Or.inr ⟨?_, _, (if_neg known).trans (if_neg missing), .postgresConfig⟩
        simp [failure, option, withPostgresConfig, defaultStorageDriver, missing]
  | workerCount n => exact positive_cases rfl fun positive => .workerCount positive
  | enqueueInterval seconds => exact positive_cases rfl fun positive => .enqueueInterval positive
  | scheduleInterval seconds => exact positive_cases rfl fun positive => .scheduleInterval positive
  | batchSize size => exact positive_cases rfl fun positive => .batchSize positive
  | rabbitMQueueWriter writeToQueue => exact Or.inr ⟨rfl, _, rfl, .rabbitMQueueWriter⟩
  | rabbitMQConfig cfg =>
      by_cases missing : cfg.url = ""
      · exact Or.inl ⟨_, by rw [failure, option, withRabbitMQConfig, if_pos missing],
          if_pos missing⟩
      · exact Or.inr ⟨by rw [failure, option, withRabbitMQConfig, if_neg missing], _,
          if_neg missing, .rabbitMQConfig missing⟩

theorem Sets.driver {c c' : GofireConfig} {call : OptionCall} (sets : Sets c call c')
    (driver : c.storageDriver = .postgres)
    : c'.storageDriver = .postgres := by
  cases sets with
  | postgresConfig => rfl
  | _ => exact driver

theorem Sets.wellFormed {c c' : GofireConfig} {call : OptionCall} (sets : Sets c call c')
    (formed : c.WellFormed)
    : c'.WellFormed := by
  obtain ⟨workers, enqueue, schedule, batch, dashboard⟩ := formed
  cases sets with
  | adminDashboardConfig complete =>
      simp only [not_or] at complete
      exact ⟨workers, enqueue, schedule, batch, fun _ => complete⟩
  | workerCount positive => exact ⟨positive, enqueue, schedule, batch, dashboard⟩
  | enqueueInterval positive => exact ⟨workers, positive, schedule, batch, dashboard⟩
  | scheduleInterval positive => exact ⟨workers, enqueue, positive, batch, dashboard⟩
  | batchSize positive => exact ⟨workers, enqueue, schedule, positive, dashboard⟩
  | _ => exact ⟨workers, enqueue, schedule, batch, dashboard⟩

end OptionCall

open OptionCall

/-- Some WithRabbitMQConfig of the list has a URL. -/
def GivesURL (calls : List OptionCall) : Prop :=
  ∃ cfg, .rabbitMQConfig cfg ∈ calls ∧ cfg.url ≠ ""

theorem givesURL_concat {calls : List OptionCall} {call : OptionCall}
    : GivesURL (calls ++ [call])
      ↔ GivesURL calls ∨ ∃ cfg, call = .rabbitMQConfig cfg ∧ cfg.url ≠ "" := by
  simp only [GivesURL, List.mem_append, List.mem_singleton, or_and_right, exists_or, eq_comm]

/-- The last call of UseRabbitMQueueWriter in the list. -/
def lastWriter (calls : List OptionCall) : Option Bool := (calls.filterMap writeToQueue).getLast?

theorem lastWriter_concat (calls : List OptionCall) (call : OptionCall)
    : lastWriter (calls ++ [call]) = call.writeToQueue.or (lastWriter calls) := by
  unfold lastWriter
  cases written : call.writeToQueue with
  | none => simp [List.filterMap_append, written]
  | some value => simp [List.filterMap_append, written]

/-- An option that fails gives no URL and does not touch the flag. -/
theorem failing_neutral {call : OptionCall} {err : String} (fails : call.failure = some err)
    : (¬ ∃ cfg, call = .rabbitMQConfig cfg ∧ cfg.url ≠ "") ∧ call.writeToQueue = none := by
  cases call with
  | rabbitMQueueWriter => cases fails
  | rabbitMQConfig cfg =>
      refine ⟨fun h => ?_, rfl⟩
      obtain ⟨cfg', same, url⟩ := h
      cases same
      rw [OptionCall.failure, OptionCall.option, withRabbitMQConfig, if_neg url] at fails
      cases fails
  | _ => exact ⟨fun h => OptionCall.noConfusion h.choose_spec.1, rfl⟩

/-- Where no option fails, every WithRabbitMQConfig has a URL. -/
theorem givesURL_iff_of_passing {calls : List OptionCall}
    (passing : calls.filterMap OptionCall.failure = [])
    : GivesURL calls ↔ ∃ cfg, .rabbitMQConfig cfg ∈ calls := by
  refine exists_congr fun cfg => and_iff_left_of_imp fun mem missing => ?_
  have fails : OptionCall.failure (.rabbitMQConfig cfg)
      = some "rabbitmq client: URL is required" := by
    rw [OptionCall.failure, OptionCall.option, withRabbitMQConfig, if_pos missing]
  have listed := List.mem_filterMap.mpr ⟨_, mem, fails⟩
  rw [passing] at listed
  cases listed

/-- The configuration and the errors after a list of options. -/
structure Built (calls : List OptionCall) (built : GofireConfig × ValidationError) : Prop where
  driver : built.1.storageDriver = .postgres
  errors : built.2.errors = calls.filterMap failure
  wellFormed : built.1.WellFormed
  url : built.1.rabbitMQConfig.url ≠ "" ↔ GivesURL calls
  writer : ¬ GivesURL calls → (built.1.useQueueWriter = true ↔ lastWriter calls = some true)

/-- By induction on the list from its end: an option that fails adds its error, and one that does
not keeps the linked fields together.
-/
theorem built_applyOptions (calls : List OptionCall) (instanceName : String)
    : Built calls (applyOptions (calls.map option) { instanceName }) := by
  induction calls using List.reverseRecOn with
  | nil =>
      refine ⟨rfl, rfl, wellFormed_initial instanceName, ?_, fun _ => ?_⟩
      · simp [applyOptions, GivesURL]
      · simp [applyOptions, lastWriter]
  | append_singleton calls call ih =>
      obtain ⟨driver, errors, wellFormed, url, writer⟩ := ih
      rw [List.map_append, List.map_cons, List.map_nil, applyOptions_concat]
      generalize applyOptions (calls.map option) { instanceName } = built
        at driver errors wellFormed url writer ⊢
      rcases call.option_cases driver with ⟨err, fails, applied⟩ | ⟨succeeds, c', applied, sets⟩
      · obtain ⟨noURL, noWriter⟩ := failing_neutral fails
        have sameURL : GivesURL (calls ++ [call]) ↔ GivesURL calls :=
          givesURL_concat.trans (or_iff_left noURL)
        rw [applied]
        refine ⟨driver, ?_, wellFormed, url.trans sameURL.symm, fun missing => ?_⟩
        · simp [ValidationError.add, errors, List.filterMap_append, fails]
        · rw [lastWriter_concat, noWriter, Option.none_or]
          exact writer fun given => missing (sameURL.mpr given)
      · rw [applied]
        refine ⟨sets.driver driver, ?_, sets.wellFormed wellFormed, ?_, fun missing => ?_⟩
        · simp [errors, List.filterMap_append, succeeds]
        · rw [givesURL_concat]
          cases sets with
          | rabbitMQConfig given => exact iff_of_true given (Or.inr ⟨_, rfl, given⟩)
          | _ => simpa using url
        · rw [givesURL_concat, not_or] at missing
          rw [lastWriter_concat]
          cases sets with
          | rabbitMQConfig given => exact absurd ⟨_, rfl, given⟩ missing.2
          | rabbitMQueueWriter => simp [writeToQueue]
          | _ => exact writer missing.1

/-- The configuration is well-formed, and with the queue writer it has a URL. -/
structure GofireConfig.Valid (c : GofireConfig) : Prop extends c.WellFormed where
  queue : c.useQueueWriter = true → c.rabbitMQConfig.url ≠ ""

/-- NewGofireConfig returns the errors of the options that fail, in their order, or a valid
configuration when none fails.
-/
def Sound (instanceName : String) (calls : List OptionCall) : Prop :=
  (calls.filterMap OptionCall.failure ≠ []
    → ∃ errs, newGofireConfig instanceName (calls.map option) = .error errs
      ∧ errs.errors = calls.filterMap OptionCall.failure
      ∧ errs.error = "\n".intercalate (calls.filterMap OptionCall.failure))
  ∧ (calls.filterMap OptionCall.failure = []
    → ∃ cfg, newGofireConfig instanceName (calls.map option) = .ok cfg ∧ cfg.Valid)

/-- It does exactly when some option fails, some option is a WithRabbitMQConfig, or the last
UseRabbitMQueueWriter, if there is one, turns the queue writer off.
-/
theorem newGofireConfig_sound_iff (instanceName : String) (calls : List OptionCall)
    : Sound instanceName calls
      ↔ calls.filterMap OptionCall.failure ≠ [] ∨ (∃ cfg, .rabbitMQConfig cfg ∈ calls)
        ∨ lastWriter calls ≠ some true := by
  have built := built_applyOptions calls instanceName
  unfold Sound newGofireConfig
  generalize applyOptions (calls.map option) { instanceName } = result at built ⊢
  by_cases failing : calls.filterMap OptionCall.failure = []
  case neg =>
    have many : result.2.errors.length ≠ 0 := by
      rw [built.errors]
      exact fun none => failing (List.length_eq_zero_iff.mp none)
    have returned : result.2.hasError = true := decide_eq_true (Nat.pos_of_ne_zero many)
    refine iff_of_true ⟨fun _ => ⟨result.2, if_pos returned, built.errors, ?_⟩,
      fun none => absurd none failing⟩ (Or.inl failing)
    rw [ValidationError.error, if_neg many, built.errors]
  case pos =>
    have returned : result.2.hasError = false := by
      rw [ValidationError.hasError, built.errors, failing]
      rfl
    have given := givesURL_iff_of_passing failing
    simp only [failing, ne_eq, not_true_eq_false, false_imp_iff, true_and, forall_const, returned,
      Bool.false_eq_true, if_false, false_or, Except.ok.injEq, exists_eq_left', ← given]
    constructor
    · intro valid
      by_contra unset
      rw [not_or, not_not] at unset
      have written := (built.writer unset.1).mpr unset.2
      exact unset.1 (built.url.mp (valid.queue written))
    · intro condition
      refine ⟨built.wellFormed, fun written => built.url.mpr ?_⟩
      rcases condition with url | off
      · exact url
      · by_contra missing
        exact off ((built.writer missing).mp written)

/-- The queue writer is turned on without a URL. -/
theorem queue_writer_without_url
    : ∃ cfg, newGofireConfig "a" [useRabbitMQueueWriter true] = .ok cfg
        ∧ cfg.useQueueWriter = true ∧ cfg.rabbitMQConfig.url = ""
        ∧ ¬ Sound "a" [.rabbitMQueueWriter true] := by
  refine ⟨_, rfl, rfl, rfl, fun sound => ?_⟩
  obtain ⟨cfg, built, valid⟩ := sound.2 rfl
  cases built
  exact valid.queue rfl rfl

end GoFire.Config
