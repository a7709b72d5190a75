import NewApi.Billing.Funding

/-!
# Tasks

The row of `model/task.go`. `UpdateWithStatus` is a compare-and-swap on the status column that
writes the whole row; `Task.Update` writes the whole row whatever is stored.
-/

namespace NewApi.Tasks

open Core Billing

/-! ## The row -/

def statusTexts : List String :=
  ["NOT_START", "SUBMITTED", "QUEUED", "IN_PROGRESS", "FAILURE", "SUCCESS", "UNKNOWN"]

inductive TaskStatus where
  | notStart
  | submitted
  | queued
  | inProgress
  | failure
  | success
  | unknown
  | other (text : String) (new : text ∉ statusTexts)
  deriving DecidableEq

def TaskStatus.empty : TaskStatus := .other "" (by decide)

/-- `FAILURE` and `SUCCESS` are the statuses that the pollers do not leave. -/
def TaskStatus.Done (status : TaskStatus) : Prop := status = .failure ∨ status = .success

instance (status : TaskStatus) : Decidable status.Done := by
  unfold TaskStatus.Done; infer_instance

/-- `constant.TaskPlatform`: the three named platforms, or the number of a channel type. -/
inductive Platform where
  | suno
  | midjourney
  | asyncTask
  | video (channelType : String)
  deriving DecidableEq

/-- The columns that are read or written; `upstreamTaskID` to `tokenId` are private data. -/
structure Task where
  id : Int
  taskID : String
  platform : Platform
  userId : Int
  channelId : Int
  quota : Int
  status : TaskStatus
  failReason : String
  submitTime : Int
  startTime : Int
  finishTime : Int
  progress : String
  upstreamTaskID : String
  resultURL : String
  billingSource : Option BillingSource
  subscriptionId : Int
  tokenId : Int
  data : String
  deriving DecidableEq

instance : Row Task := ⟨Task.id⟩

@[simp] theorem key_task (t : Task) : Row.key t = t.id := rfl

/-- The configuration, and the `upstream_task_id` that a JSON text holds. -/
structure Settings where
  taskTimeoutMinutes : Int
  taskQueryLimit : Nat
  serverAddress : String
  upstreamTaskIDIn : String → String

def Task.getUpstreamTaskID (cfg : Settings) (t : Task) : String :=
  if t.upstreamTaskID ≠ "" then t.upstreamTaskID
  else if Go.trimSpace (cfg.upstreamTaskIDIn t.data) ≠ "" then
    Go.trimSpace (cfg.upstreamTaskIDIn t.data)
  else t.taskID

structure NewTask where
  taskID : String
  platform : Platform
  userId : Int
  channelId : Int
  quota : Int
  upstreamTaskID : String
  billingSource : Option BillingSource
  subscriptionId : Int
  tokenId : Int
  data : String

def initTask (new : NewTask) (now id : Int) : Task where
  id := id
  taskID := new.taskID
  platform := new.platform
  userId := new.userId
  channelId := new.channelId
  quota := new.quota
  status := .notStart
  failReason := ""
  submitTime := now
  startTime := 0
  finishTime := 0
  progress := "0%"
  upstreamTaskID := new.upstreamTaskID
  resultURL := ""
  billingSource := new.billingSource
  subscriptionId := new.subscriptionId
  tokenId := new.tokenId
  data := new.data

theorem key_initTask (new : NewTask) (now id : Int) : Row.key (initTask new now id) = id := rfl

/-! ## Refunds -/

inductive FundingSource where
  | wallet (userId : Int)
  | subscription (id : Int)
  deriving DecidableEq

def Task.fundingSource (t : Task) : FundingSource :=
  if t.billingSource = some .subscription ∧ 0 < t.subscriptionId then
    .subscription t.subscriptionId
  else .wallet t.userId

structure Refund where
  taskId : Int
  source : FundingSource
  token : Option Int
  amount : Int
  deriving DecidableEq

def refundTaskQuota (t : Task) : Option Refund :=
  if t.quota = 0 then none
  else some {
    taskId := t.id
    source := t.fundingSource
    token := if t.tokenId ≤ 0 then none else some t.tokenId
    amount := t.quota }

theorem refundTaskQuota_of_ne {t : Task} (h : t.quota ≠ 0) :
    ∃ r, refundTaskQuota t = some r ∧ r.taskId = t.id :=
  ⟨_, if_neg h, rfl⟩

/-! ## Queries -/

def Task.Unfinished (t : Task) : Prop :=
  t.progress ≠ "100%" ∧ t.status ≠ .failure ∧ t.status ≠ .success

instance (t : Task) : Decidable t.Unfinished := by
  unfold Task.Unfinished; infer_instance

theorem Task.Unfinished.not_done {t : Task} (h : t.Unfinished) : ¬ t.status.Done :=
  fun hDone => hDone.elim h.2.1 h.2.2

def getAllUnFinishSyncTasks (tasks : Table Task) (limit : Nat) : List Task :=
  ((tasks.rows.filter fun t => t.Unfinished).insertionSort fun a b => a.id ≤ b.id).take limit

def getTimedOutUnfinishedTasks (tasks : Table Task) (cutoff : Int) (limit : Nat) : List Task :=
  ((tasks.rows.filter fun t => t.Unfinished ∧ t.submitTime < cutoff).insertionSort
    fun a b => a.submitTime ≤ b.submitTime).take limit

theorem mem_getAllUnFinishSyncTasks {tasks : Table Task} {limit : Nat} {t : Task}
    (h : t ∈ getAllUnFinishSyncTasks tasks limit) : t ∈ tasks.rows ∧ t.Unfinished := by
  have hFilter := (List.mem_insertionSort _).mp (List.mem_of_mem_take h)
  simpa using List.mem_filter.mp hFilter

theorem mem_getTimedOutUnfinishedTasks {tasks : Table Task} {cutoff : Int} {limit : Nat} {t : Task}
    (h : t ∈ getTimedOutUnfinishedTasks tasks cutoff limit) : t ∈ tasks.rows ∧ t.Unfinished := by
  have hFilter := (List.mem_insertionSort _).mp (List.mem_of_mem_take h)
  have hBoth : t ∈ tasks.rows ∧ t.Unfinished ∧ t.submitTime < cutoff := by
    simpa using List.mem_filter.mp hFilter
  exact ⟨hBoth.1, hBoth.2.1⟩

/-! ## Statements -/

def statusOf (tasks : Table Task) (k : Int) : Option TaskStatus :=
  (tasks.find? k).map Task.status

def updateWithStatus (tasks : Table Task) (t : Task) (fromStatus : TaskStatus) :
    Table Task × Bool :=
  if statusOf tasks t.id = some fromStatus then (tasks.save t, true) else (tasks, false)

def taskBulkUpdateByID (tasks : Table Task) (ids : List Int) (failReason : Option String) :
    Table Task :=
  tasks.modify (fun t => decide (t.id ∈ ids))
    (fun t => { t with
      status := .failure
      progress := "100%"
      failReason := failReason.getD t.failReason })
    fun _ => rfl

section Statements

variable {tasks : Table Task} {t : Task} {k : Int}

theorem find?_save_of_ne_id (h : t.id ≠ k) : (tasks.save t).find? k = tasks.find? k :=
  Table.find?_save_of_ne h

theorem find?_save_of_isSome (h : (tasks.find? t.id).isSome) :
    (tasks.save t).find? t.id = some t := by
  obtain ⟨old, hOld⟩ := Option.isSome_iff_exists.mp h
  exact Table.find?_save_self hOld

theorem statusOf_eq_some {status : TaskStatus} :
    statusOf tasks k = some status ↔ ∃ r, tasks.find? k = some r ∧ r.status = status := by
  unfold statusOf
  rw [Option.map_eq_some_iff]

/-- **A compare-and-swap** won against the status it names, or it changed nothing. -/
theorem updateWithStatus_cases (tasks : Table Task) (t : Task) (fromStatus : TaskStatus) :
    (statusOf tasks t.id = some fromStatus ∧
        updateWithStatus tasks t fromStatus = (tasks.save t, true)) ∨
      (statusOf tasks t.id ≠ some fromStatus ∧
        updateWithStatus tasks t fromStatus = (tasks, false)) := by
  by_cases h : statusOf tasks t.id = some fromStatus
  · exact .inl ⟨h, if_pos h⟩
  · exact .inr ⟨h, if_neg h⟩

theorem find?_taskBulkUpdateByID {r : Task} (ids : List Int) (reason : Option String)
    (h : tasks.find? k = some r) :
    ∃ new, (taskBulkUpdateByID tasks ids reason).find? k = some new ∧
      new.platform = r.platform ∧ (new = r ∨ new.status = .failure) := by
  by_cases hIn : r.id ∈ ids <;> simp [taskBulkUpdateByID, Table.find?_modify, h, hIn]

end Statements

end NewApi.Tasks
