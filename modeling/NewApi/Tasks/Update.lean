import NewApi.Tasks.Basic

/-!
# What a poll does to a task in memory

The sweep, a video poll, an item of a Suno answer and a client's fetch take what the upstream
answered and return the changed task; a video poll also which write it issues and what it means to
bill.
-/

namespace NewApi.Tasks

open Core Billing

structure Charge where
  id : Int
  platform : Platform
  userId : Int
  quota : Int
  billingSource : Option BillingSource
  subscriptionId : Int
  tokenId : Int
  deriving DecidableEq

def Task.charge (t : Task) : Charge where
  id := t.id
  platform := t.platform
  userId := t.userId
  quota := t.quota
  billingSource := t.billingSource
  subscriptionId := t.subscriptionId
  tokenId := t.tokenId

variable {t u : Task}

section

variable (h : t.charge = u.charge)
include h

theorem Task.id_eq_of_charge : t.id = u.id :=
  congrArg Charge.id h

theorem Task.platform_eq_of_charge : t.platform = u.platform :=
  congrArg Charge.platform h

theorem Task.quota_eq_of_charge : t.quota = u.quota :=
  congrArg Charge.quota h

theorem refundTaskQuota_congr :
    refundTaskQuota t = refundTaskQuota u := by
  have hSource : t.billingSource = u.billingSource := congrArg Charge.billingSource h
  have hSub : t.subscriptionId = u.subscriptionId := congrArg Charge.subscriptionId h
  have hUser : t.userId = u.userId := congrArg Charge.userId h
  have hToken : t.tokenId = u.tokenId := congrArg Charge.tokenId h
  unfold refundTaskQuota Task.fundingSource
  rw [Task.quota_eq_of_charge h, Task.id_eq_of_charge h, hSource, hSub, hUser, hToken]

end

/-! ## The timeout sweep -/

def legacyTaskCutoff : Int := 1740182400

def Task.isLegacy (t : Task) : Bool := decide (0 < t.submitTime ∧ t.submitTime < legacyTaskCutoff)

def Task.timedOut (cfg : Settings) (now : Int) (t : Task) : Task :=
  { t with
    status := .failure
    progress := "100%"
    finishTime := now
    failReason :=
      if t.isLegacy then "任务超时（旧系统遗留任务，不进行退款，请联系管理员）"
      else s!"任务超时（{cfg.taskTimeoutMinutes}分钟）" }

/-! ## A video poll -/

structure TaskInfo where
  status : TaskStatus
  reason : String := ""
  url : String := ""
  progress : String := ""

def failTaskInfo (reason : String) : TaskInfo where
  status := .failure
  reason := reason

/-- The answer of an upstream as an error message, when it has no status. -/
inductive ErrorBody where
  | unreadable
  | rateLimited
  | openaiError
  | unrecognized

/-- No answer that can be read, or the task's data with what they say about the task. -/
inductive VideoReply where
  | failed
  | parsed (data : String) (info : TaskInfo) (error : ErrorBody)

/-- The answer after the case of the empty status; `none` is the return on code 429. -/
def TaskInfo.orError (info : TaskInfo) (error : ErrorBody) : Option TaskInfo :=
  if info.status = .empty then
    match error with
    | .unreadable => some info
    | .rateLimited => none
    | .openaiError => some (failTaskInfo "upstream returned error")
    | .unrecognized => some (failTaskInfo "upstream returned unrecognized message")
  else some info

def buildProxyURL (cfg : Settings) (taskID : String) : String :=
  cfg.serverAddress ++ "/v1/videos/" ++ taskID ++ "/content"

def isDataURL (url : String) : Bool := "data:".toList.isPrefixOf url.toList

/-- The columns that polling can change, `taskSnapshot`. -/
structure TaskSnapshot where
  status : TaskStatus
  progress : String
  startTime : Int
  finishTime : Int
  failReason : String
  resultURL : String
  data : String
  deriving DecidableEq

def Task.snapshot (t : Task) : TaskSnapshot where
  status := t.status
  progress := t.progress
  startTime := t.startTime
  finishTime := t.finishTime
  failReason := t.failReason
  resultURL := t.resultURL
  data := t.data

/-- The switch over the upstream's status; `none` is the return on an unknown one. -/
def Task.withInfo (cfg : Settings) (now : Int) (info : TaskInfo) (t : Task) : Option Task :=
  let orElse (progress : String) : String := if info.progress ≠ "" then info.progress else progress
  match info.status with
  | .submitted => some { t with status := .submitted, progress := orElse "10%" }
  | .queued => some { t with status := .queued, progress := orElse "20%" }
  | .inProgress =>
    some { t with
      status := .inProgress
      progress := orElse "30%"
      startTime := if t.startTime = 0 then now else t.startTime }
  | .success =>
    some { t with
      status := .success
      progress := orElse "100%"
      finishTime := if t.finishTime = 0 then now else t.finishTime
      resultURL :=
        if isDataURL info.url then buildProxyURL cfg t.taskID
        else if info.url ≠ "" then info.url
        else buildProxyURL cfg t.taskID }
  | .failure =>
    -- the progress of the answer is overwritten as well
    some { t with
      status := .failure
      progress := "100%"
      finishTime := if t.finishTime = 0 then now else t.finishTime
      failReason := info.reason }
  | _ => none

/-- A compare-and-swap that the billing waits for, one that is not looked at, or none. -/
inductive PollWrite where
  | decisive
  | update
  | skip
  deriving DecidableEq

structure VideoUpdate where
  task : Task
  write : PollWrite
  shouldRefund : Bool
  shouldSettle : Bool

def updateVideoSingleTask (cfg : Settings) (now : Int) (reply : VideoReply) (t : Task) :
    VideoUpdate :=
  match reply with
  | .failed => ⟨t, .skip, false, false⟩
  | .parsed data info error =>
    let fetched := { t with data := data }
    match info.orError error with
    | none => ⟨fetched, .skip, false, false⟩
    | some info =>
      match fetched.withInfo cfg now info with
      | none => ⟨{ fetched with status := info.status }, .skip, false, false⟩
      | some new =>
        { task := new
          write :=
            if new.status.Done ∧ t.status ≠ new.status then .decisive
            else if t.snapshot ≠ new.snapshot then .update
            else .skip
          shouldRefund := decide (new.status = .failure ∧ t.quota ≠ 0)
          shouldSettle := decide (new.status = .success) }

section Video

variable (cfg : Settings) (now : Int) (t : Task)

theorem withInfo_charge {info : TaskInfo} {new : Task}
    (h : t.withInfo cfg now info = some new) : new.charge = t.charge := by
  unfold Task.withInfo at h
  dsimp only at h
  split at h <;> cases h <;> rfl

section

variable (reply : VideoReply)
include reply

theorem updateVideoSingleTask_cases :
    (∃ new, new.charge = t.charge ∧
        updateVideoSingleTask cfg now reply t = ⟨new, .skip, false, false⟩) ∨
      ∃ new, new.charge = t.charge ∧
        updateVideoSingleTask cfg now reply t =
          { task := new
            write :=
              if new.status.Done ∧ t.status ≠ new.status then .decisive
              else if t.snapshot ≠ new.snapshot then .update
              else .skip
            shouldRefund := decide (new.status = .failure ∧ t.quota ≠ 0)
            shouldSettle := decide (new.status = .success) } := by
  unfold updateVideoSingleTask
  split
  · exact .inl ⟨t, rfl, rfl⟩
  dsimp only
  split
  · refine .inl ⟨_, ?_, rfl⟩
    rfl
  split
  · refine .inl ⟨_, ?_, rfl⟩
    rfl
  · next new hNew =>
    have hCharge := withInfo_charge cfg now _ hNew
    exact .inr ⟨new, hCharge, rfl⟩

theorem updateVideoSingleTask_charge :
    (updateVideoSingleTask cfg now reply t).task.charge = t.charge := by
  rcases updateVideoSingleTask_cases cfg now t reply with ⟨new, hCharge, h⟩ | ⟨new, hCharge, h⟩
  · rw [h]; exact hCharge
  · rw [h]; exact hCharge

theorem updateVideoSingleTask_id :
    (updateVideoSingleTask cfg now reply t).task.id = t.id :=
  Task.id_eq_of_charge (updateVideoSingleTask_charge cfg now t reply)

theorem updateVideoSingleTask_settle
    (hSettle : (updateVideoSingleTask cfg now reply t).shouldSettle = true) :
    (updateVideoSingleTask cfg now reply t).task.status = .success := by
  rcases updateVideoSingleTask_cases cfg now t reply with ⟨new, -, h⟩ | ⟨new, -, h⟩
  · rw [h] at hSettle
    cases hSettle
  · rw [h] at hSettle ⊢
    exact of_decide_eq_true hSettle

theorem updateVideoSingleTask_of_not_done (hOpen : ¬ t.status.Done) :
    let out := updateVideoSingleTask cfg now reply t
    (out.write = .skip ∧ out.shouldRefund = false ∧ out.shouldSettle = false) ∨
      (out.write = .update ∧ ¬ out.task.status.Done ∧ out.shouldRefund = false ∧
        out.shouldSettle = false) ∨
      (out.write = .decisive ∧ out.task.status = .success ∧ out.shouldRefund = false) ∨
      (out.write = .decisive ∧ out.task.status = .failure ∧
        out.shouldRefund = decide (t.quota ≠ 0) ∧ out.shouldSettle = false) := by
  intro out
  rcases updateVideoSingleTask_cases cfg now t reply with ⟨new, -, h⟩ | ⟨new, -, h⟩
  · exact .inl ⟨by simp [out, h], by simp [out, h], by simp [out, h]⟩
  by_cases hDone : new.status.Done
  · have hNe : t.status ≠ new.status := fun he => hOpen (by rw [he]; exact hDone)
    rcases hDone with hFail | hSucc
    · refine .inr (.inr (.inr ⟨?_, ?_, ?_, ?_⟩)) <;>
        simp [out, h, hFail, TaskStatus.Done, hFail ▸ hNe]
    · refine .inr (.inr (.inl ⟨?_, ?_, ?_⟩)) <;>
        simp [out, h, hSucc, TaskStatus.Done, hSucc ▸ hNe]
  · have hFail : new.status ≠ .failure := fun he => hDone (.inl he)
    have hSucc : new.status ≠ .success := fun he => hDone (.inr he)
    by_cases hSnap : t.snapshot = new.snapshot
    · exact .inl ⟨by simp [out, h, hDone, hSnap], by simp [out, h, hFail], by simp [out, h, hSucc]⟩
    · exact .inr (.inl ⟨by simp [out, h, hDone, hSnap], by simpa [out, h] using hDone,
        by simp [out, h, hFail], by simp [out, h, hSucc]⟩)

end

end Video

/-! ## An item of a Suno answer -/

structure SunoDataResponse where
  taskID : String
  status : TaskStatus
  failReason : String
  submitTime : Int
  startTime : Int
  finishTime : Int
  data : String
  deriving DecidableEq

def taskNeedsUpdate (t : Task) (item : SunoDataResponse) : Bool :=
  decide (t.submitTime ≠ item.submitTime) || decide (t.startTime ≠ item.startTime) ||
    decide (t.finishTime ≠ item.finishTime) || decide (t.status ≠ item.status) ||
    decide (t.failReason ≠ item.failReason) ||
    decide (t.status.Done ∧ t.progress ≠ "100%") ||
    !(t.data.toUTF8.data.toList.isPerm item.data.toUTF8.data.toList)

def Task.withItem (t : Task) (item : SunoDataResponse) : Task :=
  { t with
    status := if item.status ≠ .empty then item.status else t.status
    failReason := if item.failReason ≠ "" then item.failReason else t.failReason
    submitTime := if item.submitTime ≠ 0 then item.submitTime else t.submitTime
    startTime := if item.startTime ≠ 0 then item.startTime else t.startTime
    finishTime := if item.finishTime ≠ 0 then item.finishTime else t.finishTime }

/-- Whether the item makes `updateSunoTasks` call `RefundTaskQuota`. -/
def SunoDataResponse.refunds (item : SunoDataResponse) (t : Task) : Prop :=
  item.failReason ≠ "" ∨ (t.withItem item).status = .failure

instance (item : SunoDataResponse) (t : Task) : Decidable (item.refunds t) := by
  unfold SunoDataResponse.refunds; infer_instance

def Task.afterItem (t : Task) (item : SunoDataResponse) : Task :=
  { t.withItem item with
    progress := if item.refunds t ∨ item.status = .success then "100%" else t.progress
    data := item.data }

@[simp] theorem afterItem_charge (t : Task) (item : SunoDataResponse) :
    (t.afterItem item).charge = t.charge := rfl

theorem afterItem_progress {item : SunoDataResponse} (h : item.refunds t) :
    (t.afterItem item).progress = "100%" := by
  simp [Task.afterItem, h]

/-! ## A client's fetch -/

/-- The task after `tryRealtimeFetch` has read the upstream's answer. -/
def tryRealtimeFetch (cfg : Settings) (info : TaskInfo) (t : Task) : Task :=
  let status := if info.status ≠ .empty then info.status else t.status
  { t with
    status := status
    progress := if info.progress ≠ "" then info.progress else t.progress
    resultURL :=
      if isDataURL info.url then t.resultURL
      else if info.url ≠ "" then info.url
      else if status = .success then buildProxyURL cfg t.taskID
      else t.resultURL }

end NewApi.Tasks
