import NewApi.Tasks.Polling

/-!
# What a job does

`Effect` says once what the execution of a job can do to the table and to what its process is about
to do, and `runJob_effect` that every job has one of these effects.
-/

namespace NewApi.Tasks

open Core

def Job.polls (pr : Proc) : Job → Option Task
  | .timeOut t _ => some t
  | .video channelType taskId => pr.taskM (.video channelType) taskId
  | .fetch t => some t
  | _ => none

def Job.Fails (out : Outside) : Job → Prop
  | .failNull _ => True
  | .videoChannel _ _ _ => out.channel = .missing
  | .sunoChannel _ _ => out.channel = .missing
  | _ => False

/-- It has no quota, it is a legacy task, or a client's fetch has stored it. -/
def Unbilled (cfg : Settings) (out : Outside) (job : Job) (old new : Task) : Prop :=
  new.quota = 0 ∨ (∃ now, job = .timeOut old now ∧ old.isLegacy = true) ∨
    ∃ info, job = .fetch old ∧ out.realtime = some info ∧ new = tryRealtimeFetch cfg info old

structure Swap (cfg : Settings) (out : Outside) (tasks : Table Task) (job : Job) (old new : Task)
    (owes : Option Task) : Prop where
  won : statusOf tasks new.id = some old.status
  billed : (owes = some new ∧ new.status = .failure) ∨
    (owes = none ∧ (new.status = .failure → Unbilled cfg out job old new))

/-- **What a job can do** to the table, and what its process refunds and saves afterwards. -/
inductive Effect (cfg : Settings) (out : Outside) (tasks : Table Task) (pr : Proc) (job : Job) :
    Table Task → Option Task → Option Task → Prop
  | quiet : Effect cfg out tasks pr job tasks none none
  | fail (ids : List Int) (reason : Option String) (hJob : job.Fails out) :
      Effect cfg out tasks pr job (taskBulkUpdateByID tasks ids reason) none none
  | swap (old new : Task) (owes : Option Task) (hPolls : job.polls pr = some old)
      (hCharge : new.charge = old.charge) (hSwap : Swap cfg out tasks job old new owes) :
      Effect cfg out tasks pr job (tasks.save new) owes none
  | stale (old new : Task) (tasks' : Table Task) (owes : Option Task)
      (hPolls : job.polls pr = some old) (hDone : old.status.Done)
      (hCharge : new.charge = old.charge)
      (hTasks : tasks' = tasks ∨ tasks' = tasks.save new)
      (hOwes : ∀ t, owes = some t → t.id = old.id) :
      Effect cfg out tasks pr job tasks' owes none
  | item (item : SunoDataResponse) (t : Task) (hJob : job = .sunoItem item)
      (hTask : pr.taskM .suno item.taskID = some t) (hNeeds : taskNeedsUpdate t item = true) :
      Effect cfg out tasks pr job tasks (if item.refunds t then some (t.afterItem item) else none)
        (some (t.afterItem item))

section Effect

variable {cfg : Settings} {out : Outside} {tasks tasks' : Table Task} {pr : Proc} {job : Job}

theorem Swap.owes_eq {old new t : Task} {owes : Option Task}
    (h : Swap cfg out tasks job old new owes) (ht : owes = some t) : t = new := by
  rcases h.billed with ⟨hSome, -⟩ | ⟨hNone, -⟩
  · exact Option.some.inj (ht.symm.trans hSome)
  · cases ht.symm.trans hNone

theorem id_of_refunds {item : SunoDataResponse} {t u : Task}
    (h : (if item.refunds t then some (t.afterItem item) else none) = some u) : u.id = t.id := by
  obtain ⟨-, hItem⟩ := Option.ite_none_right_eq_some.mp h
  rw [← Option.some.inj hItem]
  rfl

theorem effect_updateWithStatus (old new : Task) (owes : Bool → Option Task)
    (hPolls : job.polls pr = some old) (hCharge : new.charge = old.charge)
    (hLost : owes false = none)
    (hBilled : (owes true = some new ∧ new.status = .failure) ∨
      (owes true = none ∧ (new.status = .failure → Unbilled cfg out job old new))) :
    Effect cfg out tasks pr job (updateWithStatus tasks new old.status).1
      (owes (updateWithStatus tasks new old.status).2) none := by
  rcases updateWithStatus_cases tasks new old.status with ⟨hWon, h⟩ | ⟨-, h⟩
  · rw [h]
    exact .swap old new _ hPolls hCharge ⟨hWon, hBilled⟩
  · rw [h, hLost]
    exact .quiet

variable (poll : VideoUpdate) (billed : Bool) (quota : Option Int)

theorem commit_cases (tasks : Table Task) (snap : TaskStatus) :
    (poll.commit tasks snap).1 = tasks ∨ (poll.commit tasks snap).1 = tasks.save poll.task := by
  unfold VideoUpdate.commit
  rcases updateWithStatus_cases tasks poll.task snap with ⟨-, h⟩ | ⟨-, h⟩
  · cases poll.write with
    | decisive | update => exact .inr (by rw [h])
    | skip => exact .inl rfl
  · cases poll.write with
    | decisive | update => exact .inl (by rw [h])
    | skip => exact .inl rfl

theorem settled_of_not (h : poll.shouldSettle = false) : poll.settled billed quota = poll.task := by
  simp [VideoUpdate.settled, h]

theorem settled_id :
    (poll.settled billed quota).id = poll.task.id := by
  unfold VideoUpdate.settled
  split <;> rfl

theorem settled_platform :
    (poll.settled billed quota).platform = poll.task.platform := by
  unfold VideoUpdate.settled
  split <;> rfl

theorem settled_status :
    (poll.settled billed quota).status = poll.task.status := by
  unfold VideoUpdate.settled
  split <;> rfl

theorem effect_timeOut (cfg : Settings) (out : Outside) (t : Task) (now : Int)
    (hSaves : pr.saves = none) :
    Effect cfg out tasks pr (.timeOut t now) (runJob cfg out tasks pr (.timeOut t now)).1
      (runJob cfg out tasks pr (.timeOut t now)).2.owes
      (runJob cfg out tasks pr (.timeOut t now)).2.saves := by
  show Effect cfg out tasks pr (.timeOut t now) _ _ pr.saves
  rw [hSaves]
  refine effect_updateWithStatus t (t.timedOut cfg now)
    (fun won => if won ∧ t.isLegacy = false ∧ t.quota ≠ 0 then some (t.timedOut cfg now) else none)
    rfl rfl (by simp) ?_
  by_cases h : t.isLegacy = false ∧ t.quota ≠ 0
  · exact .inl ⟨by simp [h], rfl⟩
  refine .inr ⟨by simp [h], fun _ => ?_⟩
  by_cases hq : t.quota = 0
  · exact .inl hq
  · refine .inr (.inl ⟨now, rfl, ?_⟩)
    by_contra hLegacy
    exact h ⟨by simpa using hLegacy, hq⟩

theorem effect_video (cfg : Settings) (out : Outside) (channelType taskId : String)
    (hOwes : pr.owes = none) (hSaves : pr.saves = none) :
    Effect cfg out tasks pr (.video channelType taskId)
      (runJob cfg out tasks pr (.video channelType taskId)).1
      (runJob cfg out tasks pr (.video channelType taskId)).2.owes
      (runJob cfg out tasks pr (.video channelType taskId)).2.saves := by
  cases hT : pr.taskM (.video channelType) taskId with
  | none =>
    simp only [runJob, hT]
    rw [hOwes, hSaves]
    exact .quiet
  | some t =>
    have hId := updateVideoSingleTask_id cfg out.now t out.video
    have hCharge := updateVideoSingleTask_charge cfg out.now t out.video
    have hFresh := updateVideoSingleTask_of_not_done cfg out.now t out.video
    simp only [runJob, hT]
    generalize updateVideoSingleTask cfg out.now out.video t = poll at *
    show Effect cfg out tasks pr _ (poll.commit tasks t.status).1
      (if (poll.commit tasks t.status).2 ∧ poll.shouldRefund then
        some (poll.settled (poll.commit tasks t.status).2 out.settledQuota) else none) pr.saves
    rw [hSaves]
    by_cases hDone : t.status.Done
    · refine .stale t poll.task _ _ hT hDone hCharge (commit_cases poll tasks t.status) ?_
      intro u hu
      split at hu <;> cases hu
      · rw [settled_id, hId]
    · rcases hFresh hDone with ⟨hWrite, hRefund, -⟩ | ⟨hWrite, hOpen, hRefund, -⟩ |
          ⟨hWrite, hSucc, hRefund⟩ | ⟨hWrite, hFail, hRefund, hSettle⟩
      · simp only [VideoUpdate.commit, hWrite, hRefund]
        exact .quiet
      · simp only [VideoUpdate.commit, hWrite, hRefund]
        refine effect_updateWithStatus t poll.task (fun _ => none) hT hCharge rfl (.inr ⟨rfl, ?_⟩)
        exact fun hFail => absurd (.inl hFail) hOpen
      · simp only [VideoUpdate.commit, hWrite, hRefund, Bool.false_eq_true, and_false]
        refine effect_updateWithStatus t poll.task (fun _ => none) hT hCharge rfl (.inr ⟨rfl, ?_⟩)
        intro hFail
        rw [hSucc] at hFail
        cases hFail
      · simp only [VideoUpdate.commit, hWrite, hRefund, settled_of_not _ _ _ hSettle]
        refine effect_updateWithStatus t poll.task
          (fun won => if won ∧ decide (t.quota ≠ 0) then some poll.task else none) hT hCharge
          (by simp) ?_
        by_cases hq : t.quota = 0
        · refine .inr ⟨by simp [hq], fun _ => .inl ?_⟩
          rw [Task.quota_eq_of_charge hCharge, hq]
        · exact .inl ⟨by simp [hq], hFail⟩

theorem effect_fetch (cfg : Settings) (out : Outside) (t : Task) (hOwes : pr.owes = none)
    (hSaves : pr.saves = none) :
    Effect cfg out tasks pr (.fetch t) (runJob cfg out tasks pr (.fetch t)).1
      (runJob cfg out tasks pr (.fetch t)).2.owes (runJob cfg out tasks pr (.fetch t)).2.saves := by
  simp only [runJob]
  split
  · rw [hOwes, hSaves]
    exact .quiet
  · next info hInfo =>
    split <;> rw [hOwes, hSaves]
    · exact effect_updateWithStatus t (tryRealtimeFetch cfg info t) (fun _ => none) rfl rfl rfl
        (.inr ⟨rfl, fun _ => .inr (.inr ⟨info, rfl, hInfo, rfl⟩)⟩)
    · exact .quiet

theorem runJob_effect (cfg : Settings) (out : Outside) (job : Job) (hOwes : pr.owes = none)
    (hSaves : pr.saves = none) :
    Effect cfg out tasks pr job (runJob cfg out tasks pr job).1 (runJob cfg out tasks pr job).2.owes
      (runJob cfg out tasks pr job).2.saves := by
  cases job with simp only [runJob]
  | timeOut t now => exact effect_timeOut cfg out t now hSaves
  | failNull ids =>
    rw [hOwes, hSaves]
    exact .fail ids none trivial
  | videoChannel channelType channelId taskIds | sunoChannel channelId taskIds =>
    split <;> rw [hOwes, hSaves]
    · next hCh => exact .fail _ _ hCh
    · exact .quiet
    · exact .quiet
  | video channelType taskId => exact effect_video cfg out channelType taskId hOwes hSaves
  | sunoItem item =>
    split
    · rw [hOwes, hSaves]
      exact .quiet
    · next t hT =>
      split
      · next hNeeds => exact .item item t rfl hT hNeeds
      · rw [hOwes, hSaves]
        exact .quiet
  | fetch t => exact effect_fetch cfg out t hOwes hSaves

/-! ## The memory of the process -/

variable {t : Task}

theorem Effect.saves {owes : Option Task} (h : Effect cfg out tasks pr job tasks' owes (some t)) :
    ∃ item u, pr.taskM .suno item.taskID = some u ∧ t = u.afterItem item := by
  cases h with
  | item item u hJob hTask hNeeds => exact ⟨item, u, hTask, rfl⟩

theorem mem_agenda_runJob {new : Job}
    (h : new ∈ (runJob cfg out tasks pr job).2.agenda) :
    new ∈ pr.agenda ∨ (∃ channelType taskId, new = .video channelType taskId) ∨
      ∃ item, new = .sunoItem item := by
  cases job with simp only [runJob] at h
  | timeOut t now | failNull ids => exact .inl h
  | videoChannel channelType channelId taskIds =>
    split at h
    · exact .inl h
    · exact .inl h
    rcases List.mem_append.mp h with h | h
    · obtain ⟨id, -, rfl⟩ := List.mem_map.mp h
      exact .inr (.inl ⟨channelType, id, rfl⟩)
    · exact .inl h
  | video channelType taskId => split at h <;> exact .inl h
  | sunoChannel channelId taskIds =>
    split at h
    · exact .inl h
    · exact .inl h
    rcases List.mem_append.mp h with h | h
    · obtain ⟨item, -, rfl⟩ := List.mem_map.mp h
      exact .inr (.inr ⟨item, rfl⟩)
    · exact .inl h
  | sunoItem item =>
    split at h
    · cases h
    · split at h <;> exact .inl h
  | fetch t =>
    split at h
    · exact .inl h
    · split at h <;> exact .inl h

theorem timeOut_mem_runJob {now : Int}
    (h : .timeOut t now ∈ (runJob cfg out tasks pr job).2.agenda) : .timeOut t now ∈ pr.agenda := by
  rcases mem_agenda_runJob h with hMem | ⟨channelType, taskId, he⟩ | ⟨item, he⟩
  · exact hMem
  · cases he
  · cases he

theorem fetch_mem_runJob (h : .fetch t ∈ (runJob cfg out tasks pr job).2.agenda) :
    .fetch t ∈ pr.agenda := by
  rcases mem_agenda_runJob h with hMem | ⟨channelType, taskId, he⟩ | ⟨item, he⟩
  · exact hMem
  · cases he
  · cases he

theorem taskM_runJob {pl : Platform} {id : String}
    (h : (runJob cfg out tasks pr job).2.taskM pl id = some t) :
    ∃ old, pr.taskM pl id = some old ∧ (t = old ∨
      (t.id = old.id ∧ t.platform = old.platform ∧ (job.polls pr = some old ∨ pl = .suno) ∧
        (t.charge = old.charge ∨ t.status = .success ∧ pl ≠ .suno))) := by
  cases job with simp only [runJob] at h
  | timeOut t now | failNull ids => exact ⟨_, h, .inl rfl⟩
  | videoChannel channelType channelId taskIds | sunoChannel channelId taskIds =>
    split at h <;> exact ⟨_, h, .inl rfl⟩
  | video channelType taskId =>
    split at h
    · exact ⟨_, h, .inl rfl⟩
    · next old hT =>
      have hCharge := updateVideoSingleTask_charge cfg out.now old out.video
      have hSettle := updateVideoSingleTask_settle cfg out.now old out.video
      generalize updateVideoSingleTask cfg out.now out.video old = poll at *
      change (if _ then _ else _) = _ at h
      split at h
      · next hKey =>
        obtain ⟨rfl, rfl⟩ := hKey
        cases h
        refine ⟨old, hT, .inr ⟨?_, ?_, .inl hT, ?_⟩⟩
        · rw [settled_id, Task.id_eq_of_charge hCharge]
        · rw [settled_platform, Task.platform_eq_of_charge hCharge]
        by_cases hSettled : poll.shouldSettle = true
        · exact .inr ⟨by rw [settled_status]; exact hSettle hSettled, by simp⟩
        · rw [settled_of_not _ _ _ (by simpa using hSettled)]
          exact .inl hCharge
      · exact ⟨_, h, .inl rfl⟩
  | sunoItem item =>
    split at h
    · exact ⟨_, h, .inl rfl⟩
    · next old hT =>
      split at h
      · change (if _ then _ else _) = _ at h
        split at h
        · next hKey =>
          obtain ⟨rfl, rfl⟩ := hKey
          cases h
          exact ⟨old, hT, .inr ⟨rfl, rfl, .inr rfl, .inl rfl⟩⟩
        · exact ⟨_, h, .inl rfl⟩
      · exact ⟨_, h, .inl rfl⟩
  | fetch t =>
    split at h
    · exact ⟨_, h, .inl rfl⟩
    · split at h <;> exact ⟨_, h, .inl rfl⟩

end Effect

end NewApi.Tasks
