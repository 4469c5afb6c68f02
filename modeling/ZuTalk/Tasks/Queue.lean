/-
# The task queue

`crates/vt-pipeline/src/task_queue.rs`: the table `tasks` and every statement that is
run on it.  A row has no column for its worker; a step of a run says who took it, and
`holder` who claimed a task last, but no statement reads either.

How a payload is written as JSON and read back is given from outside (`Codec`), as is
the clock.
-/

import ZuTalk.Library.Table
import ZuTalk.Library.Text

namespace ZuTalk
namespace Tasks

/-- `RemoteTaskAuthorization`. -/
structure RemoteTaskAuthorization where
  schema : String
  provider : String
  dataClass : String
  purpose : String
  authorized : Bool
  authorizedAtMs : ℤ
  deriving DecidableEq, Repr

/-- `TaskPayload::Transcribe`. -/
structure TaskPayload where
  sessionId : String
  languageHint : Option String
  remoteAuthorization : Option RemoteTaskAuthorization
  deriving DecidableEq, Repr

/-- `TaskStatus`. -/
inductive TaskStatus
  | pending | running | completed | failed
  deriving DecidableEq, Repr

/-- `TaskQueueError`. -/
inductive TaskQueueError
  | serializeError (message : String)
  | notFound (taskId : String)
  | validationFailed (message : String)
  deriving DecidableEq, Repr

/-- What an error says. -/
def TaskQueueError.message : TaskQueueError → String
  | .serializeError message => "serialization error: " ++ message
  | .notFound taskId => "task not found: " ++ taskId
  | .validationFailed message => "validation error: " ++ message

/-- `RemoteTaskAuthorization::validate`. -/
def RemoteTaskAuthorization.validate (authorization : RemoteTaskAuthorization) :
    Except TaskQueueError Unit :=
  if authorization.schema = "zutalk.remote_processing_authorization.v1" ∧
      authorization.provider = "soniox" ∧ authorization.dataClass = "recorded_audio" ∧
      authorization.purpose = "post_recording_transcription" ∧
      authorization.authorized = true ∧ 0 < authorization.authorizedAtMs then .ok ()
  else .error (.validationFailed ("remote_authorization_invalid: transcription requires an " ++
    "explicit Soniox authorization snapshot"))

/-- `validate_payload`. -/
def validatePayload (payload : TaskPayload) : Except TaskQueueError Unit :=
  if Text.trimStr payload.sessionId = "" then
    .error (.validationFailed "transcribe session_id must not be empty")
  else
    match payload.remoteAuthorization with
    | none => .error (.validationFailed ("remote_authorization_required: transcription requires " ++
        "explicit authorization"))
    | some authorization => authorization.validate

/-- How a payload is written and read. -/
structure Codec where
  toJson : TaskPayload → String
  fromJson : String → Except String TaskPayload

/-- A row of `tasks`. -/
structure TaskRow where
  id : String
  payload : String
  status : TaskStatus
  priority : ℤ
  retryCount : ℕ
  maxRetries : ℕ
  leaseExpiresAtMs : Option ℤ
  lastHeartbeatAtMs : Option ℤ
  errorMsg : Option String
  createdAt : ℤ
  updatedAt : ℤ
  deriving DecidableEq, Repr

namespace TaskRow

variable (row : TaskRow)

/-- `status = 'pending' OR (status = 'running' AND lease_expires_at_ms <= ?)`. -/
def claimable (nowMs : ℤ) : Bool :=
  row.status = .pending || (row.status = .running && row.leaseExpiresAtMs.any (· ≤ nowMs))

/-- The columns that every statement but a claim and a heartbeat clears. -/
def unleased (status : TaskStatus) (nowMs : ℤ) : TaskRow :=
  { row with
    status := status
    leaseExpiresAtMs := none
    lastHeartbeatAtMs := none
    updatedAt := nowMs / 1000 }

/-- The columns a claim and a heartbeat set. -/
def leased (leaseSeconds : ℕ) (nowMs : ℤ) : TaskRow :=
  { row with
    status := .running
    leaseExpiresAtMs := some (nowMs + leaseSeconds * 1000)
    lastHeartbeatAtMs := some nowMs
    updatedAt := nowMs / 1000 }

/-- The columns a failure sets. -/
def failedWith (status : TaskStatus) (errorMsg : String) (nowMs : ℤ) : TaskRow :=
  { row.unleased status nowMs with
    retryCount := row.retryCount + 1
    errorMsg := some errorMsg }

end TaskRow

section Statements

variable (codec : Codec) (rows : List TaskRow)

/-- The row of an id. -/
def findTask (taskId : String) : Option TaskRow := rows.find? fun row => row.id = taskId

/-- `require_updated`. -/
def requireUpdated (taskId : String) (selects : TaskRow → Bool) (action : String) :
    Except TaskQueueError Unit :=
  if rows.countP selects = 1 then .ok ()
  else if (findTask rows taskId).isSome then
    .error (.validationFailed ("task " ++ taskId ++ " cannot " ++ action ++
      " from its current state"))
  else .error (.notFound taskId)

/-- A statement on the row of an id, if it has a status, and its check. -/
def updateTask (taskId : String) (selects : TaskRow → Bool) (set : TaskRow → TaskRow)
    (action : String) : Except TaskQueueError Unit × List TaskRow :=
  let selects := fun row : TaskRow => decide (row.id = taskId) && selects row
  (requireUpdated rows taskId selects action, Table.update selects set rows)

/-- Whether a row is running. -/
def isRunning (row : TaskRow) : Bool := row.status = .running

/-- `recover_abandoned_tasks`. -/
def recoverAbandonedTasks (nowMs : ℤ) : List TaskRow :=
  Table.update isRunning (fun row => row.unleased .pending nowMs) rows

/-- `enqueue_with_stable_id_and_max_retries`. -/
def enqueueWithStableIdAndMaxRetries (stableId : String) (payload : TaskPayload) (priority : ℤ)
    (maxRetries : ℕ) (nowMs : ℤ) : Except TaskQueueError (String × Bool) × List TaskRow :=
  let stableId := Text.trimStr stableId
  if stableId = "" then (.error (.validationFailed "stable task id must not be empty"), rows)
  else if maxRetries < 1 ∨ 20 < maxRetries then
    (.error (.validationFailed "max retries must be between 1 and 20"), rows)
  else
    match validatePayload payload with
    | .error error => (.error error, rows)
    | .ok () =>
        let row : TaskRow :=
          { id := stableId, payload := codec.toJson payload, status := .pending
            priority := priority, retryCount := 0, maxRetries := maxRetries
            leaseExpiresAtMs := none, lastHeartbeatAtMs := none, errorMsg := none
            createdAt := nowMs / 1000, updatedAt := nowMs / 1000 }
        match findTask rows stableId with
        | none => (.ok (stableId, true), Table.insert (·.id) row rows)
        | some existing =>
            if existing.payload ≠ row.payload ∨ existing.maxRetries ≠ maxRetries then
              (.error (.validationFailed ("stable task id " ++ stableId ++
                " is already bound to another payload or retry policy")), rows)
            else (.ok (stableId, false), rows)

/-- `serde_json::from_str` and `validate_payload`. -/
def readPayload (payload : String) : Except TaskQueueError TaskPayload :=
  match codec.fromJson payload with
  | .error message => .error (.serializeError message)
  | .ok payload =>
      match validatePayload payload with
      | .error error => .error error
      | .ok () => .ok payload

/-- `ORDER BY priority DESC, created_at ASC LIMIT 1`. -/
def nextTask (nowMs : ℤ) : Option TaskRow :=
  (rows.filter fun row => row.claimable nowMs).foldl (fun best row =>
    match best with
    | none => some row
    | some chosen =>
        if chosen.priority < row.priority ∨
            (chosen.priority = row.priority ∧ row.createdAt < chosen.createdAt) then some row
        else best) none

/-- A task whose payload cannot be read is failed. -/
def failUnsupported (taskId : String) (error : TaskQueueError) (nowMs : ℤ) : List TaskRow :=
  Table.update (fun row => decide (row.id = taskId))
    (fun row => row.failedWith .failed ("unsupported_task_payload: " ++ error.message) nowMs) rows

/-- The statement of a claim. -/
def claimTask (taskId : String) (leaseSeconds : ℕ) (nowMs : ℤ) : List TaskRow :=
  Table.update (fun row => decide (row.id = taskId) && row.claimable nowMs)
    (fun row => row.leased leaseSeconds nowMs) rows

/-- `claim_next`, once a permit is there: the clock is read in every round.  A round fails
a task or ends the loop, so as many rounds as there are tasks are enough
(`claimNext_rounds`). -/
def claimNext (clock : ℕ → ℤ) (leaseSeconds : ℕ) : ℕ → List TaskRow → Option TaskRow × List TaskRow
  | 0, rows => (none, rows)
  | rounds + 1, rows =>
      match nextTask rows (clock rounds) with
      | none => (none, rows)
      | some row =>
          match readPayload codec row.payload with
          | .error error =>
              claimNext clock leaseSeconds rounds (failUnsupported rows row.id error (clock rounds))
          | .ok _ => (some row, claimTask rows row.id leaseSeconds (clock rounds))

/-- `claim_by_id`, once a permit is there. -/
def claimById (taskId : String) (leaseSeconds : ℕ) (nowMs : ℤ) :
    Except TaskQueueError (Option TaskRow) × List TaskRow :=
  match rows.find? fun row => decide (row.id = taskId) && row.claimable nowMs with
  | none => (.ok none, rows)
  | some row =>
      match readPayload codec row.payload with
      | .error error => (.error error, rows)
      | .ok _ => (.ok (some row), claimTask rows row.id leaseSeconds nowMs)

/-- `heartbeat`. -/
def heartbeat (taskId : String) (leaseSeconds : ℕ) (nowMs : ℤ) :
    Except TaskQueueError Unit × List TaskRow :=
  updateTask rows taskId isRunning (fun row => row.leased leaseSeconds nowMs) "heartbeat"

/-- `complete`. -/
def complete (taskId : String) (nowMs : ℤ) : Except TaskQueueError Unit × List TaskRow :=
  updateTask rows taskId isRunning
    (fun row => { row.unleased .completed nowMs with errorMsg := none }) "complete"

/-- `complete_from_durable_provider_receipt`. -/
def completeFromDurableProviderReceipt (taskId : String) (nowMs : ℤ) :
    Except TaskQueueError Unit × List TaskRow :=
  let selects := fun row : TaskRow => decide (row.id = taskId) && decide (row.status ≠ .completed)
  let answer : Except TaskQueueError Unit :=
    if (findTask rows taskId).isSome then .ok () else .error (.notFound taskId)
  (answer, Table.update selects
    (fun row => { row.unleased .completed nowMs with errorMsg := none }) rows)

/-- `release_without_retry`. -/
def releaseWithoutRetry (taskId : String) (nowMs : ℤ) : Except TaskQueueError Unit × List TaskRow :=
  updateTask rows taskId isRunning (fun row => row.unleased .pending nowMs) "release without retry"

/-- `fail`. -/
def fail (taskId error : String) (nowMs : ℤ) : Except TaskQueueError Unit × List TaskRow :=
  match findTask rows taskId with
  | none => (.error (.notFound taskId), rows)
  | some row =>
      let status := if row.maxRetries ≤ row.retryCount + 1 then TaskStatus.failed else .pending
      updateTask rows taskId isRunning (fun row => row.failedWith status error nowMs) "fail"

/-- `fail_terminal`. -/
def failTerminal (taskId error : String) (nowMs : ℤ) : Except TaskQueueError Unit × List TaskRow :=
  updateTask rows taskId (fun _ => true) (fun row => row.failedWith .failed error nowMs)
    "fail terminal"

/-- `fail_local_preflight`. -/
def failLocalPreflight (taskId error : String) (nowMs : ℤ) :
    Except TaskQueueError Unit × List TaskRow :=
  updateTask rows taskId isRunning
    (fun row => { row.unleased .failed nowMs with errorMsg := some error }) "fail local preflight"

/-- `purge_task`. -/
def purgeTask (taskId : String) : List TaskRow :=
  Table.delete (fun row => decide (row.id = taskId)) rows

/-- `matching_task_ids`. -/
def matchingTaskIds (sessionId : String) : Except TaskQueueError (List String) :=
  rows.foldlM (fun matching row =>
    match codec.fromJson row.payload with
    | .error message => .error (.serializeError ("cannot audit task " ++ row.id ++
        " during session purge: " ++ message))
    | .ok payload =>
        .ok (if payload.sessionId = sessionId then matching ++ [row.id] else matching)) []

/-- `purge_session`. -/
def purgeSession (sessionId : String) : Except TaskQueueError ℕ × List TaskRow :=
  match matchingTaskIds codec rows sessionId with
  | .error error => (.error error, rows)
  | .ok taskIds => (.ok taskIds.length, Table.delete (fun row => taskIds.contains row.id) rows)

end Statements

/-! ### Runs -/

/-- A worker, or any other caller. -/
abbrev Worker := ℕ

/-- An operation of the queue. -/
inductive TaskOp
  | enqueue (stableId : String) (payload : TaskPayload) (priority : ℤ) (maxRetries : ℕ)
  | claimNext (permit : Bool) (clock : ℕ → ℤ) (leaseSeconds : ℕ)
  | claimById (permit : Bool) (taskId : String) (leaseSeconds : ℕ)
  | heartbeat (taskId : String) (leaseSeconds : ℕ)
  | complete (taskId : String)
  | completeFromDurableProviderReceipt (taskId : String)
  | releaseWithoutRetry (taskId : String)
  | fail (taskId error : String)
  | failTerminal (taskId error : String)
  | failLocalPreflight (taskId error : String)
  | recoverAbandonedTasks
  | purgeTask (taskId : String)
  | purgeSession (sessionId : String)

/-- An operation, who calls it and when. -/
structure TaskStep where
  worker : Worker
  nowMs : ℤ
  op : TaskOp

/-- The table, and who claimed a task last. -/
structure TaskWorld where
  rows : List TaskRow
  holder : String → Option Worker

/-- What an operation makes of the table, and the task it claims. -/
def act (codec : Codec) (nowMs : ℤ) (rows : List TaskRow) :
    TaskOp → List TaskRow × Option String
  | .enqueue stableId payload priority maxRetries =>
      ((enqueueWithStableIdAndMaxRetries codec rows stableId payload priority maxRetries nowMs).2,
        none)
  | .claimNext permit clock leaseSeconds =>
      if permit then
        let claimed := claimNext codec clock leaseSeconds (rows.length + 1) rows
        (claimed.2, claimed.1.map (·.id))
      else (rows, none)
  | .claimById permit taskId leaseSeconds =>
      if permit then
        let claimed := claimById codec rows taskId leaseSeconds nowMs
        (claimed.2, (claimed.1.toOption.join).map (·.id))
      else (rows, none)
  | .heartbeat taskId leaseSeconds => ((heartbeat rows taskId leaseSeconds nowMs).2, none)
  | .complete taskId => ((complete rows taskId nowMs).2, none)
  | .completeFromDurableProviderReceipt taskId =>
      ((completeFromDurableProviderReceipt rows taskId nowMs).2, none)
  | .releaseWithoutRetry taskId => ((releaseWithoutRetry rows taskId nowMs).2, none)
  | .fail taskId error => ((fail rows taskId error nowMs).2, none)
  | .failTerminal taskId error => ((failTerminal rows taskId error nowMs).2, none)
  | .failLocalPreflight taskId error => ((failLocalPreflight rows taskId error nowMs).2, none)
  | .recoverAbandonedTasks => (recoverAbandonedTasks rows nowMs, none)
  | .purgeTask taskId => (purgeTask rows taskId, none)
  | .purgeSession sessionId => ((purgeSession codec rows sessionId).2, none)

/-- One step. -/
def TaskWorld.step (codec : Codec) (world : TaskWorld) (s : TaskStep) : TaskWorld :=
  let acted := act codec s.nowMs world.rows s.op
  { rows := acted.1
    holder := fun taskId => if acted.2 = some taskId then some s.worker else world.holder taskId }

/-- An empty queue. -/
def TaskWorld.empty : TaskWorld := ⟨[], fun _ => none⟩

/-- A run of the queue. -/
def TaskWorld.run (codec : Codec) (steps : List TaskStep) : TaskWorld :=
  steps.foldl (TaskWorld.step codec) .empty

end Tasks
end ZuTalk
