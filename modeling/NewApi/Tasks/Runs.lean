import NewApi.Core.Once
import NewApi.Tasks.Effect

/-!
# Runs of the polling processes

`Sorted` holds in every run: a copy of a task in memory has a row of the same key and platform, and
a task that a sweep still has to handle was unfinished when it was loaded.
-/

namespace NewApi.Tasks

open Core List

/-! ## Rows keep their platform -/

def platformOf (tasks : Table Task) (k : Int) : Option Platform :=
  (tasks.find? k).map Task.platform

/-- No task is lost or changes its platform. -/
def Keeps (tasks tasks' : Table Task) : Prop :=
  ∀ k pl, platformOf tasks k = some pl → platformOf tasks' k = some pl

section Keeps

variable {tasks : Table Task} {t : Task}

theorem Keeps.refl (tasks : Table Task) : Keeps tasks tasks := fun _ _ h => h

theorem keeps_save (h : platformOf tasks t.id = some t.platform) : Keeps tasks (tasks.save t) := by
  intro k pl hk
  exact (Table.map_find?_save h k).trans hk

theorem keeps_taskBulkUpdateByID (tasks : Table Task) (ids : List Int) (reason : Option String) :
    Keeps tasks (taskBulkUpdateByID tasks ids reason) := by
  intro k pl hk
  obtain ⟨r, hr, rfl⟩ := Option.map_eq_some_iff.mp hk
  obtain ⟨new, hNew, hPl, -⟩ := find?_taskBulkUpdateByID ids reason hr
  rw [platformOf, hNew]
  exact congrArg some hPl

theorem keeps_insert (new : NewTask) (now : Int) :
    Keeps tasks (tasks.insert (initTask new now) (key_initTask new now)) := by
  intro k pl hk
  obtain ⟨r, hr, rfl⟩ := Option.map_eq_some_iff.mp hk
  rw [platformOf, Table.find?_insert _ hr]
  rfl

end Keeps

/-! ## Copies match their rows -/

structure Proc.Sorted (tasks : Table Task) (pr : Proc) : Prop where
  taskM : ∀ pl id t, pr.taskM pl id = some t → t.platform = pl ∧ platformOf tasks t.id = some pl
  sweeps : ∀ t now, .timeOut t now ∈ pr.agenda →
    platformOf tasks t.id = some t.platform ∧ ¬ t.status.Done
  fetches : ∀ t, .fetch t ∈ pr.agenda → platformOf tasks t.id = some t.platform
  saves : ∀ t, pr.saves = some t → t.platform = .suno ∧ platformOf tasks t.id = some .suno

structure Proc.Loaded (tasks : Table Task) (pr : Proc) : Prop where
  taskM : ∀ pl id t, pr.taskM pl id = some t → t ∈ tasks.rows ∧ t.platform = pl
  sweeps : ∀ t now, .timeOut t now ∈ pr.agenda → t ∈ tasks.rows ∧ ¬ t.status.Done
  fetches : ∀ t, .fetch t ∈ pr.agenda → t ∈ tasks.rows
  owes : pr.owes = none
  saves : pr.saves = none

def State.Sorted (s : State) : Prop := ∀ p, (s.procs p).Sorted s.tasks

section Sorted

variable {cfg : Settings} {out : Outside} {s : State} {tasks tasks' : Table Task} {pr : Proc}
  {job : Job}

theorem Proc.Sorted.keeps (h : pr.Sorted tasks) (hKeeps : Keeps tasks tasks') :
    pr.Sorted tasks' where
  taskM pl id t ht := ⟨(h.taskM pl id t ht).1, hKeeps _ _ (h.taskM pl id t ht).2⟩
  sweeps t now ht := ⟨hKeeps _ _ (h.sweeps t now ht).1, (h.sweeps t now ht).2⟩
  fetches t ht := hKeeps _ _ (h.fetches t ht)
  saves t ht := ⟨(h.saves t ht).1, hKeeps _ _ (h.saves t ht).2⟩

theorem platformOf_row {t : Task} (h : t ∈ tasks.rows) :
    platformOf tasks t.id = some t.platform := by
  have hFind : tasks.find? t.id = some t := Table.find?_key h
  rw [platformOf, hFind]
  rfl

theorem Proc.Loaded.sorted (h : pr.Loaded tasks) : pr.Sorted tasks where
  taskM pl id t ht := by
    obtain ⟨hRow, rfl⟩ := h.taskM pl id t ht
    exact ⟨rfl, platformOf_row hRow⟩
  sweeps t now ht := (h.sweeps t now ht).imp_left platformOf_row
  fetches t ht := platformOf_row (h.fetches t ht)
  saves := by simp [h.saves]

theorem Proc.Sorted.polls {t : Task} (h : pr.Sorted tasks) (hMem : job ∈ pr.agenda)
    (hPolls : job.polls pr = some t) : platformOf tasks t.id = some t.platform := by
  cases job with
  | timeOut u now => cases hPolls; exact (h.sweeps t now hMem).1
  | video channelType taskId =>
    have ht := h.taskM _ _ t hPolls
    rw [ht.1]
    exact ht.2
  | fetch u => cases hPolls; exact h.fetches t hMem
  | failNull ids | videoChannel channelType channelId taskIds | sunoChannel channelId taskIds
  | sunoItem item => cases hPolls

theorem keeps_save_of_charge {old new : Task} (hCharge : new.charge = old.charge)
    (hOld : platformOf tasks old.id = some old.platform) : Keeps tasks (tasks.save new) := by
  refine keeps_save ?_
  rw [Task.id_eq_of_charge hCharge, Task.platform_eq_of_charge hCharge]
  exact hOld

theorem Effect.keeps {owes saves : Option Task} (h : Effect cfg out tasks pr job tasks' owes saves)
    (hSorted : ∀ t, job.polls pr = some t → platformOf tasks t.id = some t.platform) :
    Keeps tasks tasks' := by
  cases h with
  | quiet | item item t hJob hTask hNeeds => exact Keeps.refl tasks
  | fail ids reason hJob => exact keeps_taskBulkUpdateByID tasks ids reason
  | swap old new owes hPolls hCharge hSwap =>
    exact keeps_save_of_charge hCharge (hSorted old hPolls)
  | stale old new tasks' owes hPolls hDone hCharge hTasks hOwes =>
    rcases hTasks with rfl | rfl
    · exact Keeps.refl _
    · exact keeps_save_of_charge hCharge (hSorted old hPolls)

theorem Proc.Sorted.runJob {rest : List Job} (cfg : Settings) (out : Outside) (h : pr.Sorted tasks)
    (hTakes : pr.Takes job rest) :
    Keeps tasks (runJob cfg out tasks { pr with agenda := rest } job).1 ∧
      (Tasks.runJob cfg out tasks { pr with agenda := rest } job).2.Sorted
        (Tasks.runJob cfg out tasks { pr with agenda := rest } job).1 := by
  have hEffect : Effect cfg out tasks { pr with agenda := rest } job _ _ _ :=
    runJob_effect cfg out job hTakes.owes hTakes.saves
  have hKeeps := hEffect.keeps fun t ht => h.polls hTakes.mem ht
  refine ⟨hKeeps, Proc.Sorted.keeps ⟨?_, ?_, ?_, ?_⟩ hKeeps⟩
  · intro pl id t ht
    obtain ⟨old, hOld, rfl | ⟨hId, hPl, -⟩⟩ := taskM_runJob ht
    · exact h.taskM pl id t hOld
    · rw [hId, hPl]
      exact h.taskM pl id old hOld
  · exact fun t now ht => h.sweeps t now (hTakes.mem_of_rest (timeOut_mem_runJob ht))
  · exact fun t ht => h.fetches t (hTakes.mem_of_rest (fetch_mem_runJob ht))
  · intro t ht
    rw [ht] at hEffect
    obtain ⟨item, u, hTask, rfl⟩ := hEffect.saves
    exact h.taskM .suno item.taskID u hTask

theorem mem_agenda_startSweep {now : Int} (h : job ∈ (startSweep cfg tasks now).agenda) :
    ∃ t, job = .timeOut t now ∧ t ∈ tasks.rows ∧ ¬ t.status.Done := by
  change job ∈ (if _ then _ else _) at h
  split at h
  · cases h
  · obtain ⟨t, ht, rfl⟩ := mem_map.mp h
    have hRow := mem_getTimedOutUnfinishedTasks ht
    exact ⟨t, rfl, hRow.1, hRow.2.not_done⟩

theorem mem_agenda_startFetch {userId : Int} {taskID : String}
    (h : job ∈ (startFetch tasks userId taskID).agenda) :
    ∃ t, job = .fetch t ∧ t ∈ tasks.rows := by
  obtain ⟨t, ht, rfl⟩ := mem_map.mp h
  exact ⟨t, rfl, mem_of_mem_filter (mem_of_head? (Option.mem_toList.mp ht))⟩

theorem startSweep_loaded (tasks : Table Task) (now : Int) :
    (startSweep cfg tasks now).Loaded tasks where
  taskM := by simp [startSweep, Proc.start]
  sweeps := by
    intro t n ht
    obtain ⟨u, he, hRow⟩ := mem_agenda_startSweep ht
    cases he
    exact hRow
  fetches := by
    intro t ht
    obtain ⟨u, he, -⟩ := mem_agenda_startSweep ht
    cases he
  owes := rfl
  saves := rfl

theorem mem_taskMOf {tasks : List Task} {id : String} {t : Task}
    (h : taskMOf cfg tasks id = some t) : t ∈ tasks :=
  mem_of_mem_filter (mem_of_getLast? h)

theorem mem_roundTasks {pl : Platform} {t : Task} (h : t ∈ roundTasks cfg tasks pl) :
    t ∈ tasks.rows ∧ t.platform = pl := by
  have hBoth := mem_filter.mp h
  have hPl : t.platform ≠ .asyncTask ∧ t.platform = pl := by simpa using hBoth.2
  exact ⟨(mem_getAllUnFinishSyncTasks hBoth.1).1, hPl.2⟩

theorem mem_agenda_startRound {platforms : List Platform} {channels : List Int}
    (h : job ∈ (startRound cfg tasks platforms channels).agenda) :
    (∀ t now, job ≠ .timeOut t now) ∧ ∀ t, job ≠ .fetch t := by
  obtain ⟨pl, -, h⟩ := mem_flatMap.mp h
  rcases mem_append.mp h with h | h
  · split at h
    · rw [mem_singleton] at h
      subst h
      exact ⟨by simp, by simp⟩
    · cases h
  · cases pl with
    | suno | video channelType => obtain ⟨ch, -, rfl⟩ := mem_map.mp h; exact ⟨by simp, by simp⟩
    | midjourney | asyncTask => cases h

theorem startRound_loaded (tasks : Table Task) (platforms : List Platform) (channels : List Int) :
    (startRound cfg tasks platforms channels).Loaded tasks where
  taskM _ _ _ ht := mem_roundTasks (mem_taskMOf ht)
  sweeps t now ht := absurd rfl ((mem_agenda_startRound ht).1 t now)
  fetches t ht := absurd rfl ((mem_agenda_startRound ht).2 t)
  owes := rfl
  saves := rfl

theorem startFetch_loaded (tasks : Table Task) (userId : Int) (taskID : String) :
    (startFetch tasks userId taskID).Loaded tasks where
  taskM := by simp [startFetch, Proc.start]
  sweeps := by
    intro t now ht
    obtain ⟨u, he, -⟩ := mem_agenda_startFetch ht
    cases he
  fetches := by
    intro t ht
    obtain ⟨u, he, hRow⟩ := mem_agenda_startFetch ht
    cases he
    exact hRow
  owes := rfl
  saves := rfl

theorem State.Sorted.put {p : Nat} (h : s.Sorted) (hKeeps : Keeps s.tasks tasks)
    (hPr : pr.Sorted tasks) : (s.put p tasks pr).Sorted :=
  forall_put (P := fun _ pr => pr.Sorted tasks) hPr fun q => (h q).keeps hKeeps

theorem State.Sorted.put_start {p : Nat} (h : s.Sorted) (hPr : pr.Loaded s.tasks) :
    Keeps s.tasks s.tasks ∧ (s.put p s.tasks pr).Sorted :=
  ⟨Keeps.refl _, h.put (Keeps.refl _) hPr.sorted⟩

theorem State.Sorted.step (a : Act) (h : s.Sorted) :
    Keeps s.tasks (step cfg s a).tasks ∧ (Tasks.step cfg s a).Sorted := by
  generalize hs' : Tasks.step cfg s a = s'
  have hStep : Step cfg s a s' := hs' ▸ step_step cfg s a
  cases hStep with
  | submit new now =>
    have hKeeps : Keeps s.tasks (s.tasks.insert (initTask new now) (key_initTask new now)) :=
      keeps_insert new now
    exact ⟨hKeeps, fun q => (h q).keeps hKeeps⟩
  | idle => exact ⟨Keeps.refl _, h⟩
  | sweep p now hIdle => exact h.put_start (startSweep_loaded _ now)
  | round p platforms channels hIdle => exact h.put_start (startRound_loaded _ platforms channels)
  | fetch p userId taskID hIdle => exact h.put_start (startFetch_loaded _ userId taskID)
  | refund p out t hOwes =>
    have hPr : Proc.Sorted s.tasks { s.procs p with owes := none } :=
      ⟨(h p).taskM, (h p).sweeps, (h p).fetches, (h p).saves⟩
    exact ⟨Keeps.refl _, h.put (p := p) (Keeps.refl _) hPr⟩
  | save p out t hOwes hSaves =>
    have hRow := (h p).saves t hSaves
    have hKeeps : Keeps s.tasks (s.tasks.save t) := keeps_save (hRow.1 ▸ hRow.2)
    have hPr : Proc.Sorted s.tasks { s.procs p with saves := none } :=
      ⟨(h p).taskM, (h p).sweeps, (h p).fetches, by simp⟩
    exact ⟨hKeeps, h.put hKeeps (hPr.keeps hKeeps)⟩
  | job p out job rest hOwes hSaves hAgenda =>
    have hRun := (h p).runJob cfg out ⟨hOwes, hSaves, hAgenda⟩
    exact ⟨hRun.1, h.put hRun.1 hRun.2⟩

theorem State.Start.sorted (h : s.Start) : s.Sorted := by
  intro p
  rw [h.procs p]
  exact ⟨by simp [Proc.start], by simp [Proc.start], by simp [Proc.start], by simp [Proc.start]⟩

def polling (cfg : Settings) : System State Act := .ofFun (Tasks.step cfg) State.Start

theorem reach_sorted {G : State → Act → Prop} (h : ((polling cfg).only G).Reach s) : s.Sorted := by
  refine System.Reach.invariant (I := State.Sorted) ?_ ?_ h
  · exact fun s hs => State.Start.sorted hs
  · rintro s a _ hSorted ⟨-, rfl⟩
    exact (hSorted.step a).2

theorem platformOf_step_ne {pl : Platform} {k : Int} {a : Act} (hSorted : s.Sorted)
    (h : platformOf (Tasks.step cfg s a).tasks k ≠ some pl) : platformOf s.tasks k ≠ some pl :=
  fun he => h ((hSorted.step a).1 k pl he)

end Sorted

/-! ## The refund of a task -/

def Proc.Owes (pr : Proc) (k : Int) : Prop := ∃ t, pr.owes = some t ∧ t.id = k ∧ t.quota ≠ 0

def State.refundCount (s : State) (k : Int) : Nat := s.refunds.countP fun r => r.taskId = k

/-- The refund of the task `k`, where `closed` says that it is not to be claimed again. -/
def refundOf (k : Int) (closed : State → Prop) : Payment State Nat where
  closed := closed
  owes := fun s p => (s.procs p).Owes k
  paid := fun s => s.refundCount k

theorem Proc.not_owes {pr : Proc} {k : Int} (h : pr.owes = none) : ¬ pr.Owes k := by
  rintro ⟨t, ht, -⟩
  rw [h] at ht
  cases ht

section Refund

variable {s : State} {p : Nat} {k : Int} {closed : State → Prop} {tasks : Table Task} {pr : Proc}

theorem State.Start.stage (h : s.Start) : (refundOf k closed).Stage s := by
  refine .unclaimed ?_ ?_
  · intro q
    refine Proc.not_owes ?_
    rw [h.procs q]
    rfl
  · show s.refunds.countP _ = 0
    rw [h.refunds]
    rfl

theorem quiet_put (hOwes : pr.Owes k ↔ (s.procs p).Owes k)
    (hClosed : closed s → closed (s.put p tasks pr)) :
    (refundOf k closed).Move s (s.put p tasks pr) := by
  refine .quiet ?_ rfl hClosed
  exact forall_put (P := fun q pr => pr.Owes k ↔ (s.procs q).Owes k) hOwes fun q => Iff.rfl

theorem quiet_job (hOwes : (s.procs p).owes = none) (hDue : ∀ t, pr.owes = some t → t.id ≠ k)
    (hClosed : closed s → closed (s.put p tasks pr)) :
    (refundOf k closed).Move s (s.put p tasks pr) := by
  refine quiet_put (iff_of_false ?_ (Proc.not_owes hOwes)) hClosed
  rintro ⟨t, ht, hId, -⟩
  exact hDue t ht hId

theorem claim_put (hOwes : pr.Owes k) (hOpen : ¬ closed s)
    (hClosed : closed (s.put p tasks pr)) : (refundOf k closed).Move s (s.put p tasks pr) := by
  refine .claim p hOpen ?_ rfl hClosed
  intro q
  show ((s.put p tasks pr).procs q).Owes k ↔ (s.procs q).Owes k ∨ q = p
  by_cases hq : q = p
  · subst hq
    rw [put_procs_self]
    exact ⟨fun _ => .inr rfl, fun _ => hOwes⟩
  · rw [put_procs_of_ne hq]
    exact (or_iff_left hq).symm

theorem refund_move {t : Task} (hDue : (s.procs p).owes = some t) {s' : State}
    (hs' : s' = { s.put p s.tasks { s.procs p with owes := none } with
      refunds := s.refunds ++ (refundTaskQuota t).toList })
    (hClosed : closed s → closed s') : (refundOf k closed).Move s s' := by
  have hProcs : ∀ q, (s'.procs q).Owes k ↔ (s.procs q).Owes k ∧ q ≠ p := by
    intro q
    rw [hs']
    by_cases hq : q = p
    · subst hq
      rw [put_procs_self]
      exact iff_of_false (Proc.not_owes rfl) fun h => h.2 rfl
    · rw [put_procs_of_ne hq]
      exact (and_iff_left hq).symm
  have hCount : s'.refundCount k =
      s.refundCount k + (refundTaskQuota t).toList.countP fun r => r.taskId = k := by
    rw [hs']
    exact countP_append
  by_cases hk : t.id = k ∧ t.quota ≠ 0
  · obtain ⟨r, hr, hId⟩ := refundTaskQuota_of_ne hk.2
    refine .pay p ⟨t, hDue, hk⟩ hProcs ?_ hClosed
    show s'.refundCount k = s.refundCount k + 1
    rw [hCount, hr]
    simp [hId, hk.1]
  · have hNot : ¬ (s.procs p).Owes k := by
      rintro ⟨u, hu, hBoth⟩
      rw [hDue] at hu
      cases hu
      exact hk hBoth
    refine .quiet ?_ ?_ hClosed
    · intro q
      rw [show (refundOf k closed).owes s' q ↔ _ from hProcs q]
      exact ⟨fun h => h.1, fun h => ⟨h, fun hq => hNot (hq ▸ h)⟩⟩
    show s'.refundCount k = s.refundCount k
    rw [hCount]
    by_cases hq : t.quota = 0
    · simp [refundTaskQuota, hq]
    · obtain ⟨r, hr, hId⟩ := refundTaskQuota_of_ne hq
      have hNe : t.id ≠ k := fun he => hk ⟨he, hq⟩
      simp [hr, hId, hNe]

theorem idle_move (hIdle : (s.procs p).Idle) (hPr : pr.owes = none)
    (hClosed : closed s → closed (s.put p s.tasks pr)) :
    (refundOf k closed).Move s (s.put p s.tasks pr) :=
  quiet_put (iff_of_false (Proc.not_owes hPr) (Proc.not_owes hIdle.2.1)) hClosed

end Refund

end NewApi.Tasks
