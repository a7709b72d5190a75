import NewApi.Core.Run
import NewApi.Tasks.Update

/-!
# The writers of an asynchronous image task

Each reads the stored row, decides, and issues at most one statement, a `Write`. A compare-and-swap
repeats the comparison when it writes, a `Save` does not.
-/

namespace NewApi.Tasks

open Core

/-! ## The functions -/

def getByOnlyTaskId (tasks : Table Task) (taskID : String) : Option Task :=
  if taskID = "" then none else tasks.rows.find? fun t => t.taskID = taskID

variable {tasks : Table Task}

theorem find?_of_getByOnlyTaskId {taskID : String} {t : Task}
    (h : getByOnlyTaskId tasks taskID = some t) : tasks.find? t.id = some t := by
  unfold getByOnlyTaskId at h
  split at h
  · cases h
  · exact Table.find?_key (List.mem_of_find?_eq_some h)

/-- A statement that a function has decided to issue: `UpdateWithStatus` or `Update`. -/
inductive Write where
  | swap (new : Task) (fromStatus : TaskStatus)
  | save (new : Task)

def Write.apply (tasks : Table Task) : Write → Table Task × Bool
  | .swap new fromStatus => updateWithStatus tasks new fromStatus
  | .save new => (tasks.save new, true)

def Task.progressed (progress : String) (now : Int) (current : Task) : Task :=
  { current with
    progress := progress
    startTime :=
      if current.status = .submitted ∧ current.startTime = 0 then now else current.startTime }

/-- A task that already has the new status is saved, not swapped. -/
def updateTaskProgress (tasks : Table Task) (taskID : String) (newStatus : TaskStatus)
    (progress : String) (now : Int) : Option Write :=
  match getByOnlyTaskId tasks taskID with
  | none => none
  | some current =>
    if current.status.Done then none
    else if newStatus ≠ .empty ∧ current.status ≠ newStatus then
      some (.swap { current.progressed progress now with status := newStatus } current.status)
    else some (.save (current.progressed progress now))

/-- A task that is not finished is to be swapped for a finished one. -/
def finishTask (tasks : Table Task) (taskID : String) (finish : Task → Task) : Option Write :=
  match getByOnlyTaskId tasks taskID with
  | none => none
  | some current =>
    if current.status.Done then none else some (.swap (finish current) current.status)

def succeedTask (tasks : Table Task) (taskID : String) (resultData : String) (now : Int) :
    Option Write :=
  finishTask tasks taskID fun current =>
    { current with
      status := .success
      progress := "100%"
      finishTime := now
      data := if resultData ≠ "" ∧ resultData ≠ "null" then resultData else current.data }

def failTask (tasks : Table Task) (taskID : String) (reason : String) (now : Int) :
    Option Write :=
  finishTask tasks taskID fun current =>
    { current with
      status := .failure
      progress := "100%"
      failReason := reason
      finishTime := now }

/-- The statements that `sweepTimedOutTasks` goes through. -/
def sweepTimedOutTasks (cfg : Settings) (tasks : Table Task) (now : Int) : List Write :=
  if cfg.taskTimeoutMinutes ≤ 0 then []
  else (getTimedOutUnfinishedTasks tasks (now - cfg.taskTimeoutMinutes * 60) 100).map fun t =>
    .swap (t.timedOut cfg now) t.status

/-! ## The system -/

structure Writers where
  tasks : Table Task
  pending : Nat → List Write

inductive WriterAct where
  | progress (p : Nat) (taskID : String) (newStatus : TaskStatus) (progress : String) (now : Int)
  | succeed (p : Nat) (taskID : String) (resultData : String) (now : Int)
  | fail (p : Nat) (taskID : String) (reason : String) (now : Int)
  | sweep (p : Nat) (now : Int)
  | write (p : Nat)

namespace Writers

def put (s : Writers) (p : Nat) (tasks : Table Task) (writes : List Write) : Writers :=
  ⟨tasks, Function.update s.pending p writes⟩

def call (s : Writers) (p : Nat) (writes : List Write) : Writers :=
  if (s.pending p).isEmpty then s.put p s.tasks writes else s

def step (cfg : Settings) (s : Writers) : WriterAct → Writers
  | .progress p taskID newStatus progress now =>
    s.call p (updateTaskProgress s.tasks taskID newStatus progress now).toList
  | .succeed p taskID resultData now => s.call p (succeedTask s.tasks taskID resultData now).toList
  | .fail p taskID reason now => s.call p (failTask s.tasks taskID reason now).toList
  | .sweep p now => s.call p (sweepTimedOutTasks cfg s.tasks now)
  | .write p =>
    match s.pending p with
    | [] => s
    | w :: rest => s.put p (w.apply s.tasks).1 rest

def start (tasks : Table Task) : Writers := ⟨tasks, fun _ => []⟩

def SavesFinished (s : Writers) : WriterAct → Prop
  | .write p =>
    match s.pending p with
    | .save new :: _ => ∃ status, statusOf s.tasks new.id = some status ∧ status.Done
    | _ => False
  | _ => False

end Writers

/-! ## What a write decides on -/

/-- The decision was taken on a row that is stored and was not finished. -/
def Write.Decided (tasks : Table Task) : Write → Prop
  | .swap _ fromStatus => ¬ fromStatus.Done
  | .save new => ¬ new.status.Done ∧ (tasks.find? new.id).isSome

section Decided

variable {tasks : Table Task} {taskID : String} {w : Write}

theorem decided_updateTaskProgress {newStatus : TaskStatus} {progress : String} {now : Int}
    (h : updateTaskProgress tasks taskID newStatus progress now = some w) : w.Decided tasks := by
  unfold updateTaskProgress at h
  split at h
  · cases h
  rename_i current hRead
  split at h
  · cases h
  rename_i hOpen
  split at h
  · cases h
    exact hOpen
  cases h
  refine ⟨hOpen, ?_⟩
  show (tasks.find? current.id).isSome
  rw [find?_of_getByOnlyTaskId hRead]
  rfl

theorem decided_finishTask {finish : Task → Task} (h : finishTask tasks taskID finish = some w) :
    w.Decided tasks := by
  unfold finishTask at h
  split at h
  · cases h
  split at h
  · cases h
  · rename_i hOpen
    cases h
    exact hOpen

theorem decided_sweepTimedOutTasks {cfg : Settings} {now : Int}
    (h : w ∈ sweepTimedOutTasks cfg tasks now) : w.Decided tasks := by
  unfold sweepTimedOutTasks at h
  split at h
  · cases h
  · obtain ⟨t, ht, rfl⟩ := List.mem_map.mp h
    exact (mem_getTimedOutUnfinishedTasks ht).2.not_done

end Decided

/-! ## What a write does -/

variable {new : Task}

theorem find?_isSome_save {k : Int} (h : (tasks.find? k).isSome) :
    ((tasks.save new).find? k).isSome := by
  by_cases hk : new.id = k
  · subst hk
    rw [find?_save_of_isSome h]
    rfl
  · rw [find?_save_of_ne_id hk]
    exact h

theorem Write.apply_cases (tasks : Table Task) (w : Write) :
    (w.apply tasks).1 = tasks ∨ ∃ new, (w.apply tasks).1 = tasks.save new := by
  cases w with
  | save new => exact .inr ⟨new, rfl⟩
  | swap new fromStatus =>
    rcases updateWithStatus_cases tasks new fromStatus with ⟨-, h⟩ | ⟨-, h⟩
    · exact .inr ⟨new, by rw [Write.apply, h]⟩
    · exact .inl (by rw [Write.apply, h])

theorem Write.Decided.apply {w : Write} (h : w.Decided tasks) (v : Write) :
    w.Decided (v.apply tasks).1 := by
  cases w with
  | swap new fromStatus => exact h
  | save new =>
    refine ⟨h.1, ?_⟩
    rcases v.apply_cases tasks with hSame | ⟨other, hSave⟩
    · rw [hSame]
      exact h.2
    · rw [hSave]
      exact find?_isSome_save h.2

def Write.KeepsFinished (tasks : Table Task) (w : Write) : Prop :=
  ∀ k status, status.Done → statusOf tasks k = some status →
    statusOf (w.apply tasks).1 k = some status

theorem keepsFinished_swap {fromStatus : TaskStatus} (h : ¬ fromStatus.Done) :
    (Write.swap new fromStatus).KeepsFinished tasks := by
  intro k status hDone hStatus
  rcases updateWithStatus_cases tasks new fromStatus with ⟨hFrom, hSwap⟩ | ⟨-, hSwap⟩
  · rw [Write.apply, hSwap]
    have hk : new.id ≠ k := by
      rintro rfl
      rw [hFrom] at hStatus
      cases hStatus
      exact h hDone
    rwa [statusOf, find?_save_of_ne_id hk]
  · rwa [Write.apply, hSwap]

theorem keepsFinished_save_iff (hOpen : ¬ new.status.Done) (hRow : (tasks.find? new.id).isSome) :
    (Write.save new).KeepsFinished tasks ↔
      ¬ ∃ status, statusOf tasks new.id = some status ∧ status.Done := by
  constructor
  · rintro hKeeps ⟨status, hStatus, hDone⟩
    have hAfter := hKeeps new.id status hDone hStatus
    rw [Write.apply, statusOf, find?_save_of_isSome hRow] at hAfter
    cases hAfter
    exact hOpen hDone
  · intro hNone k status hDone hStatus
    have hk : new.id ≠ k := by
      rintro rfl
      exact hNone ⟨status, hStatus, hDone⟩
    rwa [Write.apply, statusOf, find?_save_of_ne_id hk]

/-! ## Runs -/

namespace Writers

variable {cfg : Settings} {s : Writers}

def Decided (s : Writers) : Prop := ∀ p, ∀ w ∈ s.pending p, w.Decided s.tasks

theorem decided_put {p : Nat} {writes : List Write} (hOld : ∀ q, ∀ w ∈ s.pending q, w.Decided tasks)
    (hNew : ∀ w ∈ writes, w.Decided tasks) : (s.put p tasks writes).Decided := by
  intro q w hw
  change w ∈ Function.update s.pending p writes q at hw
  by_cases hq : q = p
  · subst hq
    rw [Function.update_self] at hw
    exact hNew w hw
  · rw [Function.update_of_ne hq] at hw
    exact hOld q w hw

theorem Decided.call (h : s.Decided) {writes : List Write} (hNew : ∀ w ∈ writes, w.Decided s.tasks)
    (p : Nat) : (s.call p writes).Decided := by
  unfold Writers.call
  split
  · exact decided_put h hNew
  · exact h

theorem Decided.step (h : s.Decided) (a : WriterAct) : (Writers.step cfg s a).Decided := by
  cases a with
  | progress p taskID newStatus progress now =>
    exact h.call (fun w hw => decided_updateTaskProgress (Option.mem_toList.mp hw)) p
  | succeed p taskID resultData now | fail p taskID reason now =>
    exact h.call (fun w hw => decided_finishTask (Option.mem_toList.mp hw)) p
  | sweep p now => exact h.call (fun w hw => decided_sweepTimedOutTasks hw) p
  | write p =>
    cases hPending : s.pending p with simp only [Writers.step, hPending]
    | nil => exact h
    | cons v rest =>
      refine decided_put (fun q w hw => (h q w hw).apply v) fun w hw => ?_
      exact (h p w (by rw [hPending]; exact List.mem_cons_of_mem v hw)).apply v

def KeepsFinished (cfg : Settings) (s : Writers) (a : WriterAct) : Prop :=
  ∀ k status, status.Done → statusOf s.tasks k = some status →
    statusOf (s.step cfg a).tasks k = some status

theorem keepsFinished_of_tasks_eq {a : WriterAct} (h : (s.step cfg a).tasks = s.tasks) :
    s.KeepsFinished cfg a := by
  intro k status _ hStatus
  rwa [h]

theorem call_tasks (p : Nat) (writes : List Write) : (s.call p writes).tasks = s.tasks := by
  unfold Writers.call
  split <;> rfl

theorem Decided.keepsFinished_iff (h : s.Decided) (a : WriterAct) :
    s.KeepsFinished cfg a ↔ ¬ s.SavesFinished a := by
  cases a with
  | write p =>
    cases hPending : s.pending p with
    | nil =>
      refine iff_of_true (keepsFinished_of_tasks_eq ?_) ?_
      · simp only [Writers.step, hPending]
      · simp only [SavesFinished, hPending, not_false_eq_true]
    | cons w rest =>
      have hKeeps : s.KeepsFinished cfg (.write p) ↔ w.KeepsFinished s.tasks := by
        simp only [KeepsFinished, Write.KeepsFinished, Writers.step, hPending, put]
      have hDecided : w.Decided s.tasks := h p w (by rw [hPending]; exact List.mem_cons_self)
      rw [hKeeps]
      cases w with
      | swap new fromStatus =>
        refine iff_of_true (keepsFinished_swap hDecided) ?_
        simp only [SavesFinished, hPending, not_false_eq_true]
      | save new =>
        rw [keepsFinished_save_iff hDecided.1 hDecided.2]
        simp only [SavesFinished, hPending]
  | progress | succeed | fail | sweep =>
    exact iff_of_true (keepsFinished_of_tasks_eq (call_tasks _ _)) not_false

/-- **A finished task stays finished exactly when no `Save` of `updateTaskProgress` meets a finished
row.** -/
theorem finished_kept_iff (cfg : Settings) (tasks : Table Task) (acts : List WriterAct) :
    (∀ k status, status.Done → ∀ n m, n ≤ m →
      statusOf ((acts.take n).foldl (Writers.step cfg) (start tasks)).tasks k = some status →
      statusOf ((acts.take m).foldl (Writers.step cfg) (start tasks)).tasks k = some status) ↔
    ∀ move ∈ moves (Writers.step cfg) (start tasks) acts, ¬ move.1.SavesFinished move.2 := by
  have hStart : (start tasks).Decided := by
    intro p w hw
    cases hw
  rw [← moves_forall_iff (Writers.step cfg) (P := KeepsFinished cfg)
    (fun s a h => Decided.step h a) (fun s a h => h.keepsFinished_iff a) acts _ hStart]
  constructor
  · intro h move hMove k status hDone
    exact (stable_iff_moves (Writers.step cfg) (Q := fun s => statusOf s.tasks k = some status)
      acts _).mp (h k status hDone) move hMove
  · intro h k status hDone
    exact (stable_iff_moves (Writers.step cfg) (Q := fun s => statusOf s.tasks k = some status)
      acts _).mpr fun move hMove => h move hMove k status hDone

def imageTask (id : Int) : Task :=
  { initTask
      { taskID := "task_a", platform := .asyncTask, userId := 7, channelId := 3, quota := 40
        upstreamTaskID := "up", billingSource := none, subscriptionId := 0, tokenId := 0
        data := "" } 1900000000 id with
    status := .submitted }

def oneImageTask : Table Task := Table.empty.insert imageTask fun _ => rfl

def staleProgress : List WriterAct :=
  [.progress 0 "task_a" .inProgress "30%" 1900000010, .write 0,
    .progress 0 "task_a" .inProgress "60%" 1900000020,
    .succeed 1 "task_a" "image" 1900000021, .write 1, .write 0]

/-- **A finished task is in progress again.** -/
theorem stale_save_reopens :
    statusOf ((staleProgress.take 5).foldl (Writers.step ⟨10, 100, "", fun _ => ""⟩)
      (start oneImageTask)).tasks 1 = some .success ∧
    statusOf (staleProgress.foldl (Writers.step ⟨10, 100, "", fun _ => ""⟩)
      (start oneImageTask)).tasks 1 = some .inProgress := by
  decide

end Writers

end NewApi.Tasks
