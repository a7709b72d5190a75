import NewApi.Core.Run
import NewApi.Tasks.Update

/-!
# The polling processes

Any number of processes over one table.  `run` executes the next thing of an agenda up to and
including one statement; `owes` and `saves` come first.  `taskM` maps an upstream id to a pointer,
so a poll starts from what the last poll of that id has left.  `refunds` and `submitted` are history
variables.
-/

namespace NewApi.Tasks

open Core

/-! ## Processes -/

inductive Job where
  /-- One task of `sweepTimedOutTasks`. -/
  | timeOut (task : Task) (now : Int)
  /-- The tasks without an upstream id. -/
  | failNull (ids : List Int)
  | videoChannel (channelType : String) (channelId : Int) (taskIds : List String)
  | video (channelType : String) (taskId : String)
  | sunoChannel (channelId : Int) (taskIds : List String)
  | sunoItem (item : SunoDataResponse)
  /-- `tryRealtimeFetch` on a task that a client's request has read. -/
  | fetch (task : Task)

structure Proc where
  taskM : Platform → String → Option Task
  agenda : List Job
  owes : Option Task
  saves : Option Task

def Proc.start : Proc where
  taskM := fun _ _ => none
  agenda := []
  owes := none
  saves := none

def Proc.Idle (pr : Proc) : Prop := pr.agenda = [] ∧ pr.owes = none ∧ pr.saves = none

instance (pr : Proc) : Decidable pr.Idle :=
  decidable_of_iff (pr.agenda.isEmpty ∧ pr.owes = none ∧ pr.saves = none)
    (by unfold Proc.Idle; rw [List.isEmpty_iff])

/-- The job that the process executes next, when no refund and no `Save` comes first. -/
def Proc.next (pr : Proc) : Option Job :=
  match pr.owes, pr.saves with
  | none, none => pr.agenda.head?
  | _, _ => none

structure Proc.Takes (pr : Proc) (job : Job) (rest : List Job) : Prop where
  owes : pr.owes = none
  saves : pr.saves = none
  agenda : pr.agenda = job :: rest

namespace Proc.Takes

variable {pr : Proc} {job : Job} {rest : List Job} (h : pr.Takes job rest)
include h

theorem next_eq : pr.next = some job := by
  rw [Proc.next, h.owes, h.saves, h.agenda]
  rfl

theorem mem : job ∈ pr.agenda := by
  rw [h.agenda]
  exact List.mem_cons_self

theorem mem_of_rest {j : Job} (hj : j ∈ rest) : j ∈ pr.agenda := by
  rw [h.agenda]
  exact List.mem_cons_of_mem _ hj

end Proc.Takes

def Proc.setTask (pr : Proc) (platform : Platform) (id : String) (t : Task) : Proc :=
  { pr with
    taskM := fun pl i => if pl = platform ∧ i = id then some t else pr.taskM pl i }

/-- What `CacheGetChannel` returns; a channel without an adaptor counts as disabled. -/
inductive ChannelState where
  | missing
  | disabled
  | enabled

structure Outside where
  now : Int := 0
  channel : ChannelState := .enabled
  video : VideoReply := .failed
  /-- The quota that `settleTaskBillingOnComplete` puts into the task, if it does. -/
  settledQuota : Option Int := none
  suno : Option (List SunoDataResponse) := none
  /-- The answer to a client's fetch, when the channel is one that is asked. -/
  realtime : Option TaskInfo := none

/-! ## One job -/

def VideoUpdate.commit (poll : VideoUpdate) (tasks : Table Task) (snap : TaskStatus) :
    Table Task × Bool :=
  match poll.write with
  | .decisive => updateWithStatus tasks poll.task snap
  | .update => ((updateWithStatus tasks poll.task snap).1, true)
  | .skip => (tasks, true)

/-- The task in memory after `settleTaskBillingOnComplete`. -/
def VideoUpdate.settled (poll : VideoUpdate) (billed : Bool) (quota : Option Int) : Task :=
  if billed ∧ poll.shouldSettle then { poll.task with quota := quota.getD poll.task.quota }
  else poll.task

def Proc.failedIDs (pr : Proc) (platform : Platform) (taskIds : List String) : List Int :=
  taskIds.filterMap fun id => (pr.taskM platform id).map Task.id

def runJob (cfg : Settings) (out : Outside) (tasks : Table Task) (pr : Proc) :
    Job → Table Task × Proc
  | .timeOut t now =>
    let new := t.timedOut cfg now
    let result := updateWithStatus tasks new t.status
    (result.1, { pr with
      owes := if result.2 ∧ t.isLegacy = false ∧ t.quota ≠ 0 then some new else none })
  | .failNull ids => (taskBulkUpdateByID tasks ids none, pr)
  | .videoChannel channelType channelId taskIds =>
    match out.channel with
    | .missing =>
      (taskBulkUpdateByID tasks (pr.failedIDs (.video channelType) taskIds)
        (some s!"Failed to get channel info, channel ID: {channelId}"), pr)
    | .disabled => (tasks, pr)
    | .enabled => (tasks, { pr with agenda := taskIds.map (.video channelType) ++ pr.agenda })
  | .video channelType taskId =>
    match pr.taskM (.video channelType) taskId with
    | none => (tasks, pr)
    | some t =>
      let poll := updateVideoSingleTask cfg out.now out.video t
      let result := poll.commit tasks t.status
      let new := poll.settled result.2 out.settledQuota
      (result.1, { pr.setTask (.video channelType) taskId new with
        owes := if result.2 ∧ poll.shouldRefund then some new else none })
  | .sunoChannel channelId taskIds =>
    match out.channel with
    | .missing =>
      (taskBulkUpdateByID tasks (pr.failedIDs .suno taskIds)
        (some s!"获取渠道信息失败，请联系管理员，渠道ID：{channelId}"), pr)
    | .disabled => (tasks, pr)
    | .enabled => (tasks, { pr with agenda := (out.suno.getD []).map .sunoItem ++ pr.agenda })
  | .sunoItem item =>
    match pr.taskM .suno item.taskID with
    | none =>
      -- `taskNeedsUpdate` dereferences nil, and the panic ends the round
      (tasks, { pr with agenda := [] })
    | some t =>
      if taskNeedsUpdate t item then
        (tasks, { pr.setTask .suno item.taskID (t.afterItem item) with
          owes := if item.refunds t then some (t.afterItem item) else none
          saves := some (t.afterItem item) })
      else (tasks, pr)
  | .fetch t =>
    match out.realtime with
    | none => (tasks, pr)
    | some info =>
      let new := tryRealtimeFetch cfg info t
      if t.snapshot ≠ new.snapshot then ((updateWithStatus tasks new t.status).1, pr)
      else (tasks, pr)

/-! ## Loading -/

def taskMOf (cfg : Settings) (tasks : List Task) (id : String) : Option Task :=
  (tasks.filter fun t => t.getUpstreamTaskID cfg = id ∧ id ≠ "").getLast?

/-- `taskChannelM` of a platform: the upstream ids of a channel, repetitions included. -/
def taskChannelMOf (cfg : Settings) (tasks : List Task) (channelId : Int) : List String :=
  (tasks.filter fun t => t.channelId = channelId ∧ t.getUpstreamTaskID cfg ≠ "").map
    (Task.getUpstreamTaskID cfg)

def nullTaskIds (cfg : Settings) (tasks : List Task) : List Int :=
  (tasks.filter fun t => t.getUpstreamTaskID cfg = "").map Task.id

/-- What a round does for one platform; `channels` is the order of the channels. -/
def platformJobs (cfg : Settings) (platform : Platform) (tasks : List Task) (channels : List Int) :
    List Job :=
  let ids := taskChannelMOf cfg tasks
  let order := channels.dedup.filter fun channelId => ids channelId ≠ []
  (if nullTaskIds cfg tasks ≠ [] then [.failNull (nullTaskIds cfg tasks)] else []) ++
    match platform with
    | .midjourney => []
    | .asyncTask => []
    | .suno => order.map fun channelId => .sunoChannel channelId (ids channelId)
    | .video channelType =>
      order.map fun channelId => .videoChannel channelType channelId (ids channelId)

def roundTasks (cfg : Settings) (tasks : Table Task) (platform : Platform) : List Task :=
  (getAllUnFinishSyncTasks tasks cfg.taskQueryLimit).filter fun t =>
    t.platform ≠ .asyncTask ∧ t.platform = platform

def startRound (cfg : Settings) (tasks : Table Task) (platforms : List Platform)
    (channels : List Int) : Proc :=
  { Proc.start with
    taskM := fun platform => taskMOf cfg (roundTasks cfg tasks platform)
    agenda := platforms.dedup.flatMap fun platform =>
      platformJobs cfg platform (roundTasks cfg tasks platform) channels }

def startSweep (cfg : Settings) (tasks : Table Task) (now : Int) : Proc :=
  { Proc.start with
    agenda :=
      if cfg.taskTimeoutMinutes ≤ 0 then []
      else (getTimedOutUnfinishedTasks tasks (now - cfg.taskTimeoutMinutes * 60) 100).map
        (.timeOut · now) }

def startFetch (tasks : Table Task) (userId : Int) (taskID : String) : Proc :=
  { Proc.start with
    agenda := (tasks.rows.filter fun t =>
      taskID ≠ "" ∧ t.userId = userId ∧ t.taskID = taskID).head?.toList.map .fetch }

/-! ## The system -/

structure State where
  tasks : Table Task
  refunds : List Refund
  submitted : List Task
  procs : Nat → Proc

inductive Act where
  | submit (new : NewTask) (now : Int)
  | sweep (p : Nat) (now : Int)
  | round (p : Nat) (platforms : List Platform) (channels : List Int)
  | fetch (p : Nat) (userId : Int) (taskID : String)
  | run (p : Nat) (out : Outside)

def State.put (s : State) (p : Nat) (tasks : Table Task) (pr : Proc) : State :=
  { s with tasks := tasks, procs := Function.update s.procs p pr }

def State.run (cfg : Settings) (s : State) (p : Nat) (out : Outside) : State :=
  let pr := s.procs p
  match pr.owes, pr.saves, pr.agenda with
  | some t, _, _ =>
    { s.put p s.tasks { pr with owes := none } with
      refunds := s.refunds ++ (refundTaskQuota t).toList }
  | none, some t, _ => s.put p (s.tasks.save t) { pr with saves := none }
  | none, none, [] => s
  | none, none, job :: rest =>
    let result := runJob cfg out s.tasks { pr with agenda := rest } job
    s.put p result.1 result.2

def step (cfg : Settings) (s : State) : Act → State
  | .submit new now =>
    { s with
      tasks := s.tasks.insert (initTask new now) (key_initTask new now)
      submitted := s.submitted ++ [initTask new now s.tasks.next] }
  | .sweep p now =>
    if (s.procs p).Idle then s.put p s.tasks (startSweep cfg s.tasks now) else s
  | .round p platforms channels =>
    if (s.procs p).Idle then s.put p s.tasks (startRound cfg s.tasks platforms channels) else s
  | .fetch p userId taskID =>
    if (s.procs p).Idle then s.put p s.tasks (startFetch s.tasks userId taskID) else s
  | .run p out => s.run cfg p out

structure State.Start (s : State) : Prop where
  refunds : s.refunds = []
  procs : ∀ p, s.procs p = Proc.start

/-! ## What a step does -/

section Put

variable {s : State} {p q : Nat} {tasks : Table Task} {pr : Proc}

@[simp] theorem put_tasks : (s.put p tasks pr).tasks = tasks := rfl

@[simp] theorem put_refunds : (s.put p tasks pr).refunds = s.refunds := rfl

@[simp] theorem put_procs_self : (s.put p tasks pr).procs p = pr := Function.update_self ..

theorem put_procs_of_ne (h : q ≠ p) : (s.put p tasks pr).procs q = s.procs q :=
  Function.update_of_ne h ..

theorem forall_put {P : Nat → Proc → Prop} (hSelf : P p pr) (hOld : ∀ q, P q (s.procs q)) :
    ∀ q, P q ((s.put p tasks pr).procs q) := by
  intro q
  by_cases hq : q = p
  · subst hq
    rw [put_procs_self]
    exact hSelf
  · rw [put_procs_of_ne hq]
    exact hOld q

end Put

/-- **The kinds of steps**: submit a task, start a process, refund, save, or execute a job. -/
inductive Step (cfg : Settings) (s : State) : Act → State → Prop
  | submit (new : NewTask) (now : Int) :
      Step cfg s (.submit new now)
        { s with
          tasks := s.tasks.insert (initTask new now) (key_initTask new now)
          submitted := s.submitted ++ [initTask new now s.tasks.next] }
  | idle (a : Act) : Step cfg s a s
  | sweep (p : Nat) (now : Int) (hIdle : (s.procs p).Idle) :
      Step cfg s (.sweep p now) (s.put p s.tasks (startSweep cfg s.tasks now))
  | round (p : Nat) (platforms : List Platform) (channels : List Int)
      (hIdle : (s.procs p).Idle) :
      Step cfg s (.round p platforms channels)
        (s.put p s.tasks (startRound cfg s.tasks platforms channels))
  | fetch (p : Nat) (userId : Int) (taskID : String) (hIdle : (s.procs p).Idle) :
      Step cfg s (.fetch p userId taskID) (s.put p s.tasks (startFetch s.tasks userId taskID))
  | refund (p : Nat) (out : Outside) (t : Task) (hOwes : (s.procs p).owes = some t) :
      Step cfg s (.run p out)
        { s.put p s.tasks { s.procs p with owes := none } with
          refunds := s.refunds ++ (refundTaskQuota t).toList }
  | save (p : Nat) (out : Outside) (t : Task) (hOwes : (s.procs p).owes = none)
      (hSaves : (s.procs p).saves = some t) :
      Step cfg s (.run p out) (s.put p (s.tasks.save t) { s.procs p with saves := none })
  | job (p : Nat) (out : Outside) (job : Job) (rest : List Job)
      (hOwes : (s.procs p).owes = none) (hSaves : (s.procs p).saves = none)
      (hAgenda : (s.procs p).agenda = job :: rest) :
      Step cfg s (.run p out)
        (s.put p (runJob cfg out s.tasks { s.procs p with agenda := rest } job).1
          (runJob cfg out s.tasks { s.procs p with agenda := rest } job).2)

theorem run_step (cfg : Settings) (s : State) (p : Nat) (out : Outside) :
    Step cfg s (.run p out) (s.run cfg p out) := by
  simp only [State.run]
  split
  · next t hOwes => exact .refund p out t hOwes
  · next t hOwes hSaves => exact .save p out t hOwes hSaves
  · exact .idle _
  · next job rest hOwes hSaves hAgenda => exact .job p out job rest hOwes hSaves hAgenda

theorem step_step (cfg : Settings) (s : State) (a : Act) : Step cfg s a (step cfg s a) := by
  cases a with rw [step]
  | submit new now => exact .submit new now
  | sweep p now =>
    split
    · next hIdle => exact .sweep p now hIdle
    · exact .idle _
  | round p platforms channels =>
    split
    · next hIdle => exact .round p platforms channels hIdle
    · exact .idle _
  | fetch p userId taskID =>
    split
    · next hIdle => exact .fetch p userId taskID hIdle
    · exact .idle _
  | run p out => exact run_step cfg s p out

end NewApi.Tasks
