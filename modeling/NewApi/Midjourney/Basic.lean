import NewApi.Core.Table

/-!
# Midjourney tasks

`RelayMidjourneySubmit` stores a row and charges the user, except for two kinds of actions, for
codes that do not mean success, and for a status other than 200. The row stores the price in any
case, and a poller that finds the task failed returns it.  `run` executes the next thing of a poller
up to and including one statement.
-/

namespace NewApi.Mj

open Core

/-! ## Rows -/

structure Midjourney where
  id : Int
  code : Int
  userId : Int
  mjId : String
  promptEn : String := ""
  state : String := ""
  submitTime : Int
  startTime : Int := 0
  finishTime : Int := 0
  imageUrl : String := ""
  videoUrl : String := ""
  /-- An empty column is an empty list. -/
  videoUrls : List String := []
  status : String := ""
  progress : String := "0%"
  failReason : String := ""
  channelId : Int
  quota : Int
  deriving DecidableEq, Repr

instance : Row Midjourney where
  key := Midjourney.id

/-! ## Submitting -/

structure MidjourneyResponse where
  statusCode : Int
  code : Int
  description : String
  result : String
  /-- The image and the status in the properties, if both are texts. -/
  properties : Option (String × String) := none
  deriving DecidableEq, Repr

structure Submission where
  userId : Int
  channelId : Int
  action : String
  /-- `priceData.Quota` -/
  quota : Int
  userQuota : Int
  now : Int
  response : MidjourneyResponse
  deriving DecidableEq, Repr

namespace Submission

variable (sub : Submission)

def Free : Prop := sub.action = "INPAINT" ∨ sub.action = "CUSTOM_ZOOM"

def Taken : Prop := sub.response.code = 1 ∨ sub.response.code = 21 ∨ sub.response.code = 22

instance : Decidable sub.Free := inferInstanceAs (Decidable (_ ∨ _))

instance : Decidable sub.Taken := inferInstanceAs (Decidable (_ ∨ _ ∨ _))

/-- The submission is free, or the user can pay for it. -/
def Accepted : Prop := sub.Free ∨ 0 ≤ sub.userQuota - sub.quota

instance : Decidable sub.Accepted := inferInstanceAs (Decidable (_ ∨ _))

/-- The submission is charged: it has a price, was taken and answered with status 200. -/
def Consumes : Prop := ¬ sub.Free ∧ sub.Taken ∧ sub.response.statusCode = 200

instance : Decidable sub.Consumes := inferInstanceAs (Decidable (_ ∧ _ ∧ _))

def charged : Int := if sub.Consumes ∧ 0 < sub.quota then sub.quota else 0

/-- A task that upstream knows already, with its result; also the code that the answer then has. -/
def known (task : Midjourney) : Midjourney × Int :=
  match sub.response.properties with
  | some (imageUrl, status) =>
    let task := { task with imageUrl := imageUrl, status := status }
    if status = "SUCCESS" then
      ({ task with progress := "100%", startTime := sub.now, finishTime := sub.now }, 1)
    else (task, sub.response.code)
  | none => (task, sub.response.code)

def newTask (id : Int) : Midjourney where
  id := id
  code := sub.response.code
  userId := sub.userId
  mjId := sub.response.result
  submitTime := sub.now
  channelId := sub.channelId
  quota := sub.quota
  failReason := if sub.Taken then "" else sub.response.description

def answered (id : Int) : Midjourney × Int :=
  if sub.response.code = 21 then sub.known (sub.newTask id)
  else (sub.newTask id, sub.response.code)

def task (id : Int) : Midjourney :=
  if (sub.answered id).2 = 1 ∧ sub.action = "UPLOAD" then
    { (sub.answered id).1 with progress := "100%", status := "SUCCESS" }
  else (sub.answered id).1

theorem known_id_quota (task : Midjourney) :
    (sub.known task).1.id = task.id ∧ (sub.known task).1.quota = task.quota := by
  rw [known]
  cases sub.response.properties with
  | none => exact ⟨rfl, rfl⟩
  | some p =>
    simp only
    split <;> exact ⟨rfl, rfl⟩

theorem answered_id_quota (id : Int) :
    (sub.answered id).1.id = id ∧ (sub.answered id).1.quota = sub.quota := by
  rw [answered]
  split
  · exact sub.known_id_quota (sub.newTask id)
  · exact ⟨rfl, rfl⟩

theorem task_id_quota (id : Int) : (sub.task id).id = id ∧ (sub.task id).quota = sub.quota := by
  rw [task]
  split <;> exact sub.answered_id_quota id

theorem key_task (id : Int) : Row.key (sub.task id) = id := (sub.task_id_quota id).1

end Submission

/-! ## What upstream answers about a task -/

structure MidjourneyDto where
  mjId : String
  promptEn : String := ""
  state : String := ""
  submitTime : Int := 0
  startTime : Int := 0
  finishTime : Int := 0
  imageUrl : String := ""
  videoUrl : String := ""
  videoUrls : List String := []
  status : String
  progress : String
  failReason : String := ""
  deriving DecidableEq, Repr

/-- After one hour a task that is not finished counts as failed. -/
def MidjourneyDto.timedOut (item : MidjourneyDto) (now : Int) (task : Midjourney) : MidjourneyDto :=
  if now - task.submitTime > 3600000 ∧ task.progress ≠ "100%" then
    { item with failReason := "上游任务超时（超过1小时）", status := "FAILURE" }
  else item

def checkMjTaskNeedUpdate (old : Midjourney) (new : MidjourneyDto) : Bool :=
  old.code ≠ 1 || old.progress ≠ new.progress || old.promptEn ≠ new.promptEn ||
    old.state ≠ new.state || old.submitTime ≠ new.submitTime || old.startTime ≠ new.startTime ||
    old.finishTime ≠ new.finishTime || old.imageUrl ≠ new.imageUrl || old.status ≠ new.status ||
    old.failReason ≠ new.failReason || (old.progress ≠ "100%" && new.failReason ≠ "") ||
    old.videoUrl ≠ new.videoUrl ||
    (if new.videoUrls ≠ [] then decide (old.videoUrls ≠ new.videoUrls)
      else decide (old.videoUrls ≠ []))

namespace Midjourney

variable (task : Midjourney) (item : MidjourneyDto)

def withItem : Midjourney :=
  { task with
    code := 1
    progress := item.progress
    promptEn := item.promptEn
    state := item.state
    submitTime := item.submitTime
    startTime := item.startTime
    finishTime := item.finishTime
    imageUrl := item.imageUrl
    status := item.status
    failReason := item.failReason
    videoUrl := item.videoUrl
    videoUrls := item.videoUrls }

def Failed : Prop :=
  ((task.withItem item).progress ≠ "100%" ∧ item.failReason ≠ "") ∨
    ((task.withItem item).progress = "100%" ∧ (task.withItem item).status = "FAILURE")

instance : Decidable (task.Failed item) := inferInstanceAs (Decidable (_ ∨ _))

def afterItem : Midjourney :=
  if task.Failed item then { task.withItem item with progress := "100%" } else task.withItem item

def ShouldReturnQuota : Prop := task.Failed item ∧ task.quota ≠ 0

instance : Decidable (task.ShouldReturnQuota item) := inferInstanceAs (Decidable (_ ∧ _))

end Midjourney

/-! ## Statements -/

def getAllUnFinishTasks (tasks : Table Midjourney) : List Midjourney :=
  tasks.rows.filter fun t => t.progress ≠ "100%"

def statusOf (tasks : Table Midjourney) (k : Int) : Option String :=
  (tasks.find? k).map Midjourney.status

def updateWithStatus (tasks : Table Midjourney) (t : Midjourney) (fromStatus : String) :
    Table Midjourney × Bool :=
  if statusOf tasks t.id = some fromStatus then (tasks.save t, true) else (tasks, false)

def bulkFail (tasks : Table Midjourney) (p : Midjourney → Bool) (failReason : Option String) :
    Table Midjourney :=
  tasks.modify p
    (fun t => { t with
      status := "FAILURE"
      progress := "100%"
      failReason := failReason.getD t.failReason })
    fun _ => rfl

def mjBulkUpdateByTaskIds (tasks : Table Midjourney) (taskIDs : List Int) : Table Midjourney :=
  bulkFail tasks (fun t => decide (t.id ∈ taskIDs)) none

def mjBulkUpdate (tasks : Table Midjourney) (mjIds : List String) (failReason : String) :
    Table Midjourney :=
  bulkFail tasks (fun t => decide (t.mjId ∈ mjIds)) (some failReason)

/-! ## Pollers -/

inductive Job where
  | failNull (taskIDs : List Int)
  | channel (channelId : Int) (mjIds : List String)
  | item (item : MidjourneyDto)

structure Proc where
  taskM : String → Option Midjourney
  agenda : List Job
  owes : Option Midjourney

def Proc.start : Proc where
  taskM := fun _ => none
  agenda := []
  owes := none

def Proc.Idle (pr : Proc) : Prop := pr.agenda = [] ∧ pr.owes = none

instance (pr : Proc) : Decidable pr.Idle := inferInstanceAs (Decidable (_ ∧ _))

inductive ChannelAnswer where
  | missing
  /-- There is no answer, or none that can be read. -/
  | failed
  | items (items : List MidjourneyDto)

structure Outside where
  now : Int := 0
  channel : ChannelAnswer := .failed

def taskMOf (tasks : List Midjourney) (mjId : String) : Option Midjourney :=
  (tasks.filter fun t => t.mjId = mjId ∧ mjId ≠ "").getLast?

/-- `taskChannelM`: the ids of a channel, repetitions included. -/
def taskChannelMOf (tasks : List Midjourney) (channelId : Int) : List String :=
  (tasks.filter fun t => t.channelId = channelId ∧ t.mjId ≠ "").map Midjourney.mjId

def nullTaskIds (tasks : List Midjourney) : List Int :=
  (tasks.filter fun t => t.mjId = "").map Midjourney.id

/-- A process that starts a round; `channels` is the order in which the channels are walked
through. -/
def startRound (tasks : Table Midjourney) (channels : List Int) : Proc :=
  let loaded := getAllUnFinishTasks tasks
  let order := channels.dedup.filter fun channelId => taskChannelMOf loaded channelId ≠ []
  { taskM := taskMOf loaded
    agenda :=
      (if nullTaskIds loaded ≠ [] then [.failNull (nullTaskIds loaded)] else []) ++
        order.map fun channelId => .channel channelId (taskChannelMOf loaded channelId)
    owes := none }

def runItem (now : Int) (tasks : Table Midjourney) (pr : Proc) (t : Midjourney)
    (item : MidjourneyDto) : Table Midjourney × Proc :=
  let item := item.timedOut now t
  if checkMjTaskNeedUpdate t item then
    let new := t.afterItem item
    let result := updateWithStatus tasks new t.status
    (result.1, { pr with
        taskM := Function.update pr.taskM item.mjId (some new)
        owes := if result.2 ∧ t.ShouldReturnQuota item then some new else none })
  else (tasks, pr)

def runJob (out : Outside) (tasks : Table Midjourney) (pr : Proc) : Job → Table Midjourney × Proc
  | .failNull taskIDs => (mjBulkUpdateByTaskIds tasks taskIDs, pr)
  | .channel channelId mjIds =>
    match out.channel with
    | .missing =>
      (mjBulkUpdate tasks mjIds s!"获取渠道信息失败，请联系管理员，渠道ID：{channelId}", pr)
    | .failed => (tasks, pr)
    | .items items => (tasks, { pr with agenda := items.map .item ++ pr.agenda })
  | .item item =>
    match pr.taskM item.mjId with
    | none =>
      -- an answer that was not asked for: nil is dereferenced, and the panic ends the round
      (tasks, { pr with agenda := [] })
    | some t => runItem out.now tasks pr t item

/-! ## The system -/

structure Refund where
  taskId : Int
  userId : Int
  quota : Int
  deriving DecidableEq, Repr

/-- What the user gets; a negative quota is refused. -/
def Refund.amount (r : Refund) : Int := if r.quota < 0 then 0 else r.quota

structure State where
  tasks : Table Midjourney
  refunds : List Refund
  procs : Nat → Proc

inductive Act where
  | submit (sub : Submission)
  | round (p : Nat) (channels : List Int)
  | run (p : Nat) (out : Outside)

def State.put (s : State) (p : Nat) (tasks : Table Midjourney) (pr : Proc) : State :=
  { s with tasks := tasks, procs := Function.update s.procs p pr }

def State.run (s : State) (p : Nat) (out : Outside) : State :=
  let pr := s.procs p
  match pr.owes, pr.agenda with
  | some t, _ =>
    { s.put p s.tasks { pr with owes := none } with
      refunds := s.refunds ++ [⟨t.id, t.userId, t.quota⟩] }
  | none, [] => s
  | none, job :: rest =>
    let result := runJob out s.tasks { pr with agenda := rest } job
    s.put p result.1 result.2

def step (s : State) : Act → State
  | .submit sub =>
    if sub.Accepted then { s with tasks := s.tasks.insert sub.task sub.key_task } else s
  | .round p channels =>
    if (s.procs p).Idle then s.put p s.tasks (startRound s.tasks channels) else s
  | .run p out => s.run p out

structure State.Start (s : State) : Prop where
  refunds : s.refunds = []
  procs : ∀ p, s.procs p = Proc.start

end NewApi.Mj
