import NewApi.Tasks.Suno

/-!
# Every failure is refunded

Five writers store `FAILURE`: a video poll, a sweep, an item of a Suno answer, a client's fetch and
the bulk updates.  Only the first three refund, and the sweep not for legacy tasks.  `Regular`
leaves out the rest and what is refunded twice.
-/

namespace NewApi.Tasks

open Core List Table

/-! ## Rows keep their charge -/

def chargeOf (tasks : Table Task) (k : Int) : Option Charge := (tasks.find? k).map Task.charge

def Matches (tasks : Table Task) (t : Task) : Prop := chargeOf tasks t.id = some t.charge

def KeepsCharge (tasks tasks' : Table Task) : Prop :=
  ∀ k c, chargeOf tasks k = some c → chargeOf tasks' k = some c

section Charge

variable {tasks tasks' : Table Task} {t u : Task}

theorem KeepsCharge.refl (tasks : Table Task) : KeepsCharge tasks tasks := fun _ _ h => h

theorem Matches.keeps (h : Matches tasks t) (hKeeps : KeepsCharge tasks tasks') :
    Matches tasks' t :=
  hKeeps t.id t.charge h

theorem Matches.congr (h : Matches tasks t) (hCharge : u.charge = t.charge) : Matches tasks u := by
  unfold Matches
  rw [Task.id_eq_of_charge hCharge, hCharge]
  exact h

theorem Matches.charge_eq (ht : Matches tasks t) (hu : Matches tasks u) (hId : t.id = u.id) :
    t.charge = u.charge := by
  unfold Matches at ht
  rw [hId] at ht
  exact Option.some.inj (ht.symm.trans hu)

theorem matches_row (h : t ∈ tasks.rows) : Matches tasks t := by
  have hFind : tasks.find? t.id = some t := find?_key h
  rw [Matches, chargeOf, hFind]
  rfl

theorem keepsCharge_save (h : Matches tasks t) : KeepsCharge tasks (tasks.save t) := by
  intro k c hk
  exact (map_find?_save h k).trans hk

theorem keepsCharge_insert (new : NewTask) (now : Int) :
    KeepsCharge tasks (tasks.insert (initTask new now) (key_initTask new now)) := by
  intro k c hk
  obtain ⟨r, hr, rfl⟩ := Option.map_eq_some_iff.mp hk
  rw [chargeOf, find?_insert _ hr]
  rfl

end Charge

/-! ## The condition -/

def Billed (s : State) : Act → Prop
  | .run p out =>
    match (s.procs p).next with
    | some (.timeOut t _) => t.isLegacy = false
    | some (.failNull _) => False
    | some (.videoChannel _ _ _) => out.channel ≠ .missing
    | some (.sunoChannel _ _) => out.channel ≠ .missing
    | some (.fetch _) => ∀ info, out.realtime = some info → info.status ≠ .failure
    | _ => True
  | _ => True

/-- The copy that is polled is fresh, no other write comes between, and the task is billed. -/
structure Regular (s : State) (a : Act) : Prop where
  fresh : FreshPoll s a
  exclusive : Exclusive s a
  billed : Billed s a

/-! ## Copies have the charge of their row -/

structure Proc.Honest (tasks : Table Task) (pr : Proc) : Prop where
  /-- Only a video task that has succeeded was settled to another quota. -/
  taskM : ∀ pl id t, pr.taskM pl id = some t → (t.status = .success ∧ pl ≠ .suno) ∨ Matches tasks t
  sweeps : ∀ t now, .timeOut t now ∈ pr.agenda → Matches tasks t
  fetches : ∀ t, .fetch t ∈ pr.agenda → Matches tasks t
  owes : ∀ t, pr.owes = some t → Matches tasks t
  saves : ∀ t, pr.saves = some t → Matches tasks t

structure State.Honest (s : State) : Prop where
  procs : ∀ p, (s.procs p).Honest s.tasks
  submitted : ∀ r ∈ s.submitted, Matches s.tasks r
  refunds : ∀ x ∈ s.refunds, ∃ r, Matches s.tasks r ∧ refundTaskQuota r = some x

section Honest

variable {cfg : Settings} {out : Outside} {s : State} {p : Nat} {tasks tasks' : Table Task}
  {pr : Proc} {job : Job} {rest : List Job}

theorem Proc.Honest.keeps (h : pr.Honest tasks) (hKeeps : KeepsCharge tasks tasks') :
    pr.Honest tasks' where
  taskM pl id t ht := (h.taskM pl id t ht).imp_right fun hm => hm.keeps hKeeps
  sweeps t now ht := (h.sweeps t now ht).keeps hKeeps
  fetches t ht := (h.fetches t ht).keeps hKeeps
  owes t ht := (h.owes t ht).keeps hKeeps
  saves t ht := (h.saves t ht).keeps hKeeps

theorem Proc.Honest.polls {t : Task} (h : pr.Honest tasks) (hMem : job ∈ pr.agenda)
    (hPolls : job.polls pr = some t) (hOpen : ¬ t.status.Done) : Matches tasks t := by
  cases job with
  | timeOut u now => cases hPolls; exact h.sweeps t now hMem
  | video channelType taskId =>
    rcases h.taskM _ _ t hPolls with ⟨hSucc, -⟩ | hm
    · exact absurd (.inr hSucc) hOpen
    · exact hm
  | fetch u => cases hPolls; exact h.fetches t hMem
  | failNull ids | videoChannel channelType channelId taskIds | sunoChannel channelId taskIds
  | sunoItem item => cases hPolls

theorem Proc.Honest.item {t : Task} {id : String} (h : pr.Honest tasks)
    (hTask : pr.taskM .suno id = some t) : Matches tasks t := by
  rcases h.taskM _ _ t hTask with ⟨-, hNe⟩ | hm
  · exact absurd rfl hNe
  · exact hm

theorem Proc.Loaded.honest (h : pr.Loaded tasks) : pr.Honest tasks where
  taskM pl id t ht := .inr (matches_row (h.taskM pl id t ht).1)
  sweeps t now ht := matches_row (h.sweeps t now ht).1
  fetches t ht := matches_row (h.fetches t ht)
  owes := by simp [h.owes]
  saves := by simp [h.saves]

theorem Effect.keepsCharge {owes saves : Option Task}
    (h : Effect cfg out tasks pr job tasks' owes saves) (hFails : ¬ job.Fails out)
    (hPolls : ∀ t, job.polls pr = some t → ¬ t.status.Done ∧ Matches tasks t) :
    KeepsCharge tasks tasks' := by
  cases h with
  | quiet | item item t hJob hTask hNeeds => exact KeepsCharge.refl tasks
  | fail ids reason hJob => exact absurd hJob hFails
  | swap old new owes hOld hCharge hSwap =>
    exact keepsCharge_save ((hPolls old hOld).2.congr hCharge)
  | stale old new tasks' owes hOld hDone hCharge hTasks hOwes =>
    exact absurd hDone (hPolls old hOld).1

theorem Effect.owes_matches {saves : Option Task} {t : Task}
    (h : Effect cfg out tasks pr job tasks' (some t) saves) (hPr : pr.Honest tasks)
    (hPolls : ∀ t, job.polls pr = some t → ¬ t.status.Done ∧ Matches tasks t) :
    Matches tasks t := by
  generalize hO : some t = owes at h
  cases h with
  | quiet | fail ids reason hJob => cases hO
  | swap old new owes hOld hCharge hSwap =>
    subst hO
    rcases hSwap.billed with ⟨hSome, -⟩ | ⟨hNone, -⟩
    · cases hSome
      exact (hPolls old hOld).2.congr hCharge
    · cases hNone
  | stale old new tasks' owes hOld hDone hCharge hTasks hOwes =>
    exact absurd hDone (hPolls old hOld).1
  | item item u hJob hTask hNeeds =>
    split at hO <;> cases hO
    · exact (hPr.item hTask).congr (afterItem_charge u item)

theorem Proc.Honest.runJob (cfg : Settings) (out : Outside) (h : pr.Honest tasks)
    (hTakes : pr.Takes job rest)
    (hFails : ¬ job.Fails out) (hOpen : ∀ t, job.polls pr = some t → ¬ t.status.Done) :
    KeepsCharge tasks (runJob cfg out tasks { pr with agenda := rest } job).1 ∧
      (Tasks.runJob cfg out tasks { pr with agenda := rest } job).2.Honest
        (Tasks.runJob cfg out tasks { pr with agenda := rest } job).1 := by
  have hPr : Proc.Honest tasks { pr with agenda := rest } :=
    ⟨h.taskM, fun t now ht => h.sweeps t now (hTakes.mem_of_rest ht),
      fun t ht => h.fetches t (hTakes.mem_of_rest ht), h.owes, h.saves⟩
  have hPolls : ∀ t, job.polls { pr with agenda := rest } = some t →
      ¬ t.status.Done ∧ Matches tasks t := by
    intro t ht
    exact ⟨hOpen t ht, h.polls hTakes.mem ht (hOpen t ht)⟩
  have hEffect : Effect cfg out tasks { pr with agenda := rest } job _ _ _ :=
    runJob_effect cfg out job hTakes.owes hTakes.saves
  have hKeeps := hEffect.keepsCharge hFails hPolls
  refine ⟨hKeeps, Proc.Honest.keeps ⟨?_, ?_, ?_, ?_, ?_⟩ hKeeps⟩
  · intro pl id t ht
    obtain ⟨old, hOld, rfl | ⟨-, -, hFrom, hCharge | hSucc⟩⟩ := taskM_runJob ht
    · exact h.taskM pl id t hOld
    · rcases hFrom with hPolled | rfl
      · exact .inr ((hPolls old hPolled).2.congr hCharge)
      · exact .inr ((h.item hOld).congr hCharge)
    · exact .inl hSucc
  · exact fun t now ht => hPr.sweeps t now (timeOut_mem_runJob ht)
  · exact fun t ht => hPr.fetches t (fetch_mem_runJob ht)
  · intro t ht
    rw [ht] at hEffect
    exact hEffect.owes_matches hPr hPolls
  · intro t ht
    rw [ht] at hEffect
    obtain ⟨item, u, hTask, rfl⟩ := hEffect.saves
    exact (h.item hTask).congr (afterItem_charge u item)

theorem State.Honest.put (h : s.Honest) (hKeeps : KeepsCharge s.tasks tasks)
    (hPr : pr.Honest tasks) : (s.put p tasks pr).Honest where
  procs := forall_put (P := fun _ pr => pr.Honest tasks) hPr fun q => (h.procs q).keeps hKeeps
  submitted r hr := (h.submitted r hr).keeps hKeeps
  refunds x hx := by
    obtain ⟨r, hr, hx⟩ := h.refunds x hx
    exact ⟨r, hr.keeps hKeeps, hx⟩

theorem State.Honest.put_start (h : s.Honest) (hPr : pr.Loaded s.tasks) :
    KeepsCharge s.tasks s.tasks ∧ (s.put p s.tasks pr).Honest :=
  ⟨KeepsCharge.refl _, h.put (KeepsCharge.refl _) hPr.honest⟩

theorem Billed.not_fails (h : Billed s (.run p out)) (hTakes : (s.procs p).Takes job rest) :
    ¬ job.Fails out := by
  simp only [Billed, hTakes.next_eq] at h
  intro hFails
  cases job with
  | failNull ids => exact h
  | videoChannel channelType channelId taskIds | sunoChannel channelId taskIds => exact h hFails
  | timeOut t now | video channelType taskId | sunoItem item | fetch t => exact hFails

theorem State.Honest.step {a : Act} (cfg : Settings) (h : s.Honest) (hSorted : s.Sorted)
    (hReg : Regular s a) :
    KeepsCharge s.tasks (step cfg s a).tasks ∧ (Tasks.step cfg s a).Honest := by
  generalize hs' : Tasks.step cfg s a = s'
  have hStep : Step cfg s a s' := hs' ▸ step_step cfg s a
  cases hStep with
  | submit new now =>
    have hKeeps : KeepsCharge s.tasks (s.tasks.insert (initTask new now) (key_initTask new now)) :=
      keepsCharge_insert new now
    refine ⟨hKeeps, fun q => (h.procs q).keeps hKeeps, ?_, ?_⟩
    · intro r hr
      rcases mem_append.mp hr with hr | hr
      · exact (h.submitted r hr).keeps hKeeps
      · rw [mem_singleton] at hr
        rw [hr]
        exact matches_row ((mem_insert (key_initTask new now)).mpr (.inr rfl))
    · intro x hx
      obtain ⟨r, hr, hx⟩ := h.refunds x hx
      exact ⟨r, hr.keeps hKeeps, hx⟩
  | idle => exact ⟨KeepsCharge.refl _, h⟩
  | sweep p now hIdle => exact h.put_start (startSweep_loaded _ now)
  | round p platforms channels hIdle => exact h.put_start (startRound_loaded _ platforms channels)
  | fetch p userId taskID hIdle => exact h.put_start (startFetch_loaded _ userId taskID)
  | refund p out t hOwes =>
    have hPr := h.procs p
    have hPut : (s.put p s.tasks { s.procs p with owes := none }).Honest :=
      h.put (KeepsCharge.refl _) ⟨hPr.taskM, hPr.sweeps, hPr.fetches, by simp, hPr.saves⟩
    refine ⟨KeepsCharge.refl _, hPut.procs, hPut.submitted, ?_⟩
    intro x hx
    rcases mem_append.mp hx with hx | hx
    · exact h.refunds x hx
    · exact ⟨t, hPr.owes t hOwes, Option.mem_toList.mp hx⟩
  | save p out t hOwes hSaves =>
    have hPr := h.procs p
    have hKeeps : KeepsCharge s.tasks (s.tasks.save t) := keepsCharge_save (hPr.saves t hSaves)
    have hPr' : Proc.Honest s.tasks { s.procs p with saves := none } :=
      ⟨hPr.taskM, hPr.sweeps, hPr.fetches, hPr.owes, by simp⟩
    exact ⟨hKeeps, h.put hKeeps (hPr'.keeps hKeeps)⟩
  | job p out job rest hOwes hSaves hAgenda =>
    have hTakes : (s.procs p).Takes job rest := ⟨hOwes, hSaves, hAgenda⟩
    have hRun := (h.procs p).runJob cfg out hTakes (hReg.billed.not_fails hTakes)
      fun t ht => hReg.fresh.not_done hSorted hTakes ht
    exact ⟨hRun.1, h.put hRun.1 hRun.2⟩

end Honest

/-! ## No failure in silence -/

def Failing (k : Int) (s : State) : Prop :=
  statusOf s.tasks k = some .failure ∨
    ∃ p t, (s.procs p).saves = some t ∧ t.id = k ∧ t.status = .failure

section Failing

variable {cfg : Settings} {out : Outside} {s : State} {p : Nat} {k : Int} {tasks : Table Task}
  {pr : Proc} {job : Job} {rest : List Job}

theorem Failing.of_put (h : Failing k (s.put p tasks pr)) :
    statusOf tasks k = some .failure ∨ (∃ t, pr.saves = some t ∧ t.id = k ∧ t.status = .failure) ∨
      Failing k s := by
  rcases h with h | ⟨q, t, ht, hFail⟩
  · exact .inl h
  by_cases hq : q = p
  · subst hq
    rw [put_procs_self] at ht
    exact .inr (.inl ⟨t, ht, hFail⟩)
  · rw [put_procs_of_ne hq] at ht
    exact .inr (.inr (.inr ⟨q, t, ht, hFail⟩))

theorem Failing.of_same (h : Failing k (s.put p s.tasks pr))
    (hPr : ∀ t, pr.saves = some t → (s.procs p).saves = some t) : Failing k s := by
  rcases h.of_put with hStatus | ⟨t, ht, hFail⟩ | hOld
  · exact .inl hStatus
  · exact .inr ⟨p, t, hPr t ht, hFail⟩
  · exact hOld

theorem statusOf_save {t : Task} {status : TaskStatus}
    (h : statusOf (tasks.save t) k = some status) :
    (t.id = k ∧ t.status = status) ∨ statusOf tasks k = some status := by
  by_cases he : t.id = k
  · obtain ⟨r, hr, hStatus⟩ := statusOf_eq_some.mp h
    obtain ⟨hMem, hKey⟩ := find?_eq_some.mp hr
    rcases mem_save hMem with ⟨rfl, -⟩ | ⟨-, hNe⟩
    · exact .inl ⟨he, hStatus⟩
    · exact absurd (hKey.trans he.symm) hNe
  · rw [statusOf, find?_save_of_ne_id he] at h
    exact .inr h

theorem tryRealtimeFetch_status {info : TaskInfo} {t : Task} (hInfo : info.status ≠ .failure)
    (hOpen : ¬ t.status.Done) : (tryRealtimeFetch cfg info t).status ≠ .failure := by
  show (if _ then _ else _) ≠ _
  split
  · exact hInfo
  · exact fun he => hOpen (.inl he)

theorem Swap.owes_of_failure {old new : Task} {owes : Option Task}
    (h : Swap cfg out s.tasks job old new owes) (hFail : new.status = .failure)
    (hQuota : new.quota ≠ 0) (hOpen : ¬ old.status.Done) (hBilled : Billed s (.run p out))
    (hTakes : (s.procs p).Takes job rest) : owes = some new := by
  simp only [Billed, hTakes.next_eq] at hBilled
  rcases h.billed with ⟨hSome, -⟩ | ⟨-, hUnbilled⟩
  · exact hSome
  rcases hUnbilled hFail with hZero | ⟨now, rfl, hLegacy⟩ | ⟨info, rfl, hInfo, rfl⟩
  · exact absurd hZero hQuota
  · rw [hBilled] at hLegacy
    cases hLegacy
  · exact absurd hFail (tryRealtimeFetch_status (hBilled info hInfo) hOpen)

theorem Failing.effect {owes saves : Option Task}
    (hEffect : Effect cfg out s.tasks { s.procs p with agenda := rest } job tasks owes saves)
    (hO : pr.owes = owes) (hS : pr.saves = saves) (hReg : Regular s (.run p out))
    (hSorted : s.Sorted) (hHonest : s.Honest) (hTakes : (s.procs p).Takes job rest)
    (hQuota : ∀ c, chargeOf s.tasks k = some c → c.quota ≠ 0)
    (h : Failing k (s.put p tasks pr)) : Failing k s ∨ pr.Owes k := by
  have hPolls : ∀ t, job.polls { s.procs p with agenda := rest } = some t →
      ¬ t.status.Done ∧ Matches s.tasks t := by
    intro t ht
    have hOpen := hReg.fresh.not_done hSorted hTakes ht
    exact ⟨hOpen, (hHonest.procs p).polls hTakes.mem ht hOpen⟩
  have hNone : saves = none → ∀ t, pr.saves = some t → (s.procs p).saves = some t := by
    rintro rfl t ht
    cases hS.symm.trans ht
  cases hEffect with
  | quiet => exact .inl (h.of_same (hNone rfl))
  | fail ids reason hJob => exact absurd hJob (hReg.billed.not_fails hTakes)
  | swap old new owes hOld hCharge hSwap =>
    have hMatch : Matches s.tasks new := (hPolls old hOld).2.congr hCharge
    rcases h.of_put with hStatus | ⟨t, ht, hFail⟩ | hBefore
    · rcases statusOf_save hStatus with ⟨rfl, hFail⟩ | hStatus
      · have hq : new.quota ≠ 0 := hQuota _ hMatch
        have hDue := hSwap.owes_of_failure hFail hq (hPolls old hOld).1 hReg.billed hTakes
        exact .inr ⟨new, hO.trans hDue, rfl, hq⟩
      · exact .inl (.inl hStatus)
    · exact .inl (.inr ⟨p, t, hNone rfl t ht, hFail⟩)
    · exact .inl hBefore
  | stale old new tasks owes hOld hDone hCharge hTasks hDue =>
    exact absurd hDone (hPolls old hOld).1
  | item item t hJob hTask hNeeds =>
    rcases h.of_put with hStatus | ⟨u, hu, hId, hFail⟩ | hBefore
    · exact .inl (.inl hStatus)
    · rw [hS] at hu
      cases hu
      have hRefunds : item.refunds t := .inr hFail
      have hq : t.quota ≠ 0 := by
        have hMatch := (hHonest.procs p).item hTask
        rw [Matches, show t.id = k from hId] at hMatch
        exact hQuota _ hMatch
      exact .inr ⟨t.afterItem item, hO.trans (if_pos hRefunds), hId, hq⟩
    · exact .inl hBefore

theorem Failing.step {a : Act} (hReg : Regular s a) (hSorted : s.Sorted) (hHonest : s.Honest)
    (hQuota : ∀ c, chargeOf s.tasks k = some c → c.quota ≠ 0)
    (h : Failing k (step cfg s a)) :
    Failing k s ∨ ∃ p, ((Tasks.step cfg s a).procs p).Owes k := by
  generalize hs' : Tasks.step cfg s a = s' at h ⊢
  have hStep : Step cfg s a s' := hs' ▸ step_step cfg s a
  cases hStep with
  | submit new now =>
    refine .inl ?_
    rcases h with h | hSaved
    · obtain ⟨r, hr, hStatus⟩ := statusOf_eq_some.mp h
      obtain ⟨hMem, hKey⟩ := find?_eq_some.mp hr
      rcases (mem_insert (key_initTask new now)).mp hMem with hMem | rfl
      · exact .inl (statusOf_eq_some.mpr ⟨r, find?_eq_some.mpr ⟨hMem, hKey⟩, hStatus⟩)
      · cases hStatus
    · exact .inr hSaved
  | idle => exact .inl h
  | sweep p now hIdle => exact .inl (h.of_same (by simp [startSweep, Proc.start]))
  | round p platforms channels hIdle => exact .inl (h.of_same (by simp [startRound, Proc.start]))
  | fetch p userId taskID hIdle => exact .inl (h.of_same (by simp [startFetch, Proc.start]))
  | refund p out t hOwes =>
    have hPut : Failing k (s.put p s.tasks { s.procs p with owes := none }) := h
    exact .inl (hPut.of_same fun u hu => hu)
  | save p out t hOwes hSaves =>
    refine .inl ?_
    rcases h.of_put with hStatus | ⟨u, hu, -⟩ | hOld
    · rcases statusOf_save hStatus with hSaved | hStatus
      · exact .inr ⟨p, t, hSaves, hSaved⟩
      · exact .inl hStatus
    · cases hu
    · exact hOld
  | job p out job rest hOwes hSaves hAgenda =>
    have hEffect : Effect cfg out s.tasks { s.procs p with agenda := rest } job _ _ _ :=
      runJob_effect cfg out job hOwes hSaves
    refine (Failing.effect hEffect rfl rfl hReg hSorted hHonest ⟨hOwes, hSaves, hAgenda⟩ hQuota
      h).imp_right fun hDue => ⟨p, ?_⟩
    rw [put_procs_self]
    exact hDue

end Failing

/-! ## Runs from the empty table -/

def fromScratch (cfg : Settings) : System State Act :=
  .ofFun (step cfg) fun s => s.Start ∧ s.tasks = .empty ∧ s.submitted = []

def Answered (k : Int) (s : State) : Prop := (∃ p, (s.procs p).Owes k) ∨ 0 < s.refundCount k

section Runs

variable {cfg : Settings} {s : State} {k : Int}

theorem reach_polling {G : State → Act → Prop} (hG : ∀ s a, Regular s a → G s a)
    (h : ((fromScratch cfg).only Regular).Reach s) : ((polling cfg).only G).Reach s := by
  refine System.Reach.mono ?_ ?_ h
  · exact fun s hs => hs.1
  · exact fun s a t hs => ⟨hG s a hs.1, hs.2⟩

theorem Answered.step {a : Act} (h : Answered k s) (hReg : Regular s a) (hSorted : s.Sorted) :
    Answered k (step cfg s a) := by
  by_cases hPl : platformOf s.tasks k = some .suno
  · have hMove : (refundOf k (Taken k)).Move s (Tasks.step cfg s a) :=
      hReg.exclusive.move hSorted fun pl hk => Option.some.inj (hk.symm.trans hPl)
    exact Payment.Answered.move (T := refundOf k (Taken k)) h hMove
  · exact Payment.Answered.move (T := refundOf k (Failed k)) h (hReg.fresh.move hSorted hPl)

theorem reach_answered (h : ((fromScratch cfg).only Regular).Reach s) :
    s.Honest ∧ ∀ k, (∀ c, chargeOf s.tasks k = some c → c.quota ≠ 0) → Failing k s →
      Answered k s := by
  induction h with
  | @init s hi =>
    obtain ⟨hStart, hTasks, hSub⟩ := hi
    have hSaves : ∀ p, (s.procs p).saves = none := fun p => by rw [hStart.procs p]; rfl
    refine ⟨⟨?_, ?_, ?_⟩, ?_⟩
    · intro p
      rw [hStart.procs p]
      refine ⟨?_, ?_, ?_, ?_, ?_⟩ <;> simp [Proc.start]
    · rw [hSub]
      simp
    · rw [hStart.refunds]
      simp
    · rintro k - (hFail | ⟨p, t, ht, -⟩)
      · rw [hTasks] at hFail
        cases hFail
      · rw [hSaves p] at ht
        cases ht
  | @step s t a hr hs ih =>
    obtain ⟨hReg, rfl⟩ := hs
    have hSorted := reach_sorted (reach_polling (fun _ _ hReg => hReg.fresh) hr)
    have hHonest := ih.1.step cfg hSorted hReg
    refine ⟨hHonest.2, ?_⟩
    intro k hQuota hFail
    have hQuota' : ∀ c, chargeOf s.tasks k = some c → c.quota ≠ 0 :=
      fun c hc => hQuota c (hHonest.1 k c hc)
    rcases hFail.step hReg hSorted ih.1 hQuota' with hBefore | hOwes
    · exact (ih.2 k hQuota' hBefore).step hReg hSorted
    · exact .inl hOwes

theorem stage_cases {closed : State → Prop} (h : (refundOf k closed).Stage s) :
    ((∀ q, ¬ (s.procs q).Owes k) ∧ s.refundCount k = 0) ∨
      (∃ p, (∀ q, (s.procs q).Owes k ↔ q = p) ∧ s.refundCount k = 0) ∨
      ((∀ q, ¬ (s.procs q).Owes k) ∧ s.refundCount k = 1) := by
  cases h with
  | unclaimed hOwes hPaid => exact .inl ⟨hOwes, hPaid⟩
  | owed p hOwes hPaid hClosed => exact .inr (.inl ⟨p, hOwes, hPaid⟩)
  | paid hOwes hPaid hClosed => exact .inr (.inr ⟨hOwes, hPaid⟩)

theorem reach_stage (k : Int) (h : ((fromScratch cfg).only Regular).Reach s) :
    ((∀ q, ¬ (s.procs q).Owes k) ∧ s.refundCount k = 0) ∨
      (∃ p, (∀ q, (s.procs q).Owes k ↔ q = p) ∧ s.refundCount k = 0) ∨
      ((∀ q, ¬ (s.procs q).Owes k) ∧ s.refundCount k = 1) := by
  by_cases hPl : platformOf s.tasks k = some .suno
  · exact stage_cases (Exclusive.stage (reach_polling (fun _ _ hReg => hReg.exclusive) h)
      fun pl hk => Option.some.inj (hk.symm.trans hPl))
  · exact stage_cases (FreshPoll.stage (reach_polling (fun _ _ hReg => hReg.fresh) h) hPl)

theorem State.Honest.filter_refunds {r : Task} (h : s.Honest) (hr : r ∈ s.submitted)
    (hCount : s.refundCount r.id = 1) :
    s.refunds.filter (fun x => x.taskId = r.id) = (refundTaskQuota r).toList := by
  have hLength : (s.refunds.filter fun x => x.taskId = r.id).length = 1 := by
    rw [← countP_eq_length_filter]
    exact hCount
  obtain ⟨x, hx⟩ := length_eq_one_iff.mp hLength
  have hMem : x ∈ s.refunds.filter fun x => x.taskId = r.id := by
    rw [hx]
    exact mem_singleton_self x
  obtain ⟨hRefund, hId⟩ := mem_filter.mp hMem
  obtain ⟨row, hRow, hRowRefund⟩ := h.refunds x hRefund
  have hRowId : row.id = r.id := by
    have hTask : x.taskId = row.id := by
      unfold refundTaskQuota at hRowRefund
      split at hRowRefund <;> cases hRowRefund
      · rfl
    rw [← hTask]
    exact of_decide_eq_true hId
  have hCharge : row.charge = r.charge := hRow.charge_eq (h.submitted r hr) hRowId
  rw [hx, ← refundTaskQuota_congr hCharge, hRowRefund]
  rfl

end Runs

/-- **A task that is stored as `FAILURE` is refunded exactly once**, in every regular run, or it is
the next statement of exactly one process. -/
theorem failure_refunded_exactly_once (cfg : Settings) (s : State) (r : Task)
    (h : ((fromScratch cfg).only Regular).Reach s) (hr : r ∈ s.submitted) (hQuota : r.quota ≠ 0)
    (hFail : statusOf s.tasks r.id = some .failure) :
    (s.refunds.filter (fun x => x.taskId = r.id) = (refundTaskQuota r).toList ∧
        ∀ p, ¬ (s.procs p).Owes r.id) ∨
      (s.refunds.filter (fun x => x.taskId = r.id) = [] ∧
        ∃ p, (∀ q, (s.procs q).Owes r.id ↔ q = p) ∧
          ∀ out, (step cfg s (.run p out)).refunds = s.refunds ++ (refundTaskQuota r).toList) := by
  obtain ⟨hHonest, hAll⟩ := reach_answered h
  have hMatch := hHonest.submitted r hr
  have hAnswered : Answered r.id s := by
    refine hAll r.id ?_ (.inl hFail)
    intro c hc
    rw [← Option.some.inj (hMatch.symm.trans hc)]
    exact hQuota
  rcases reach_stage r.id h with ⟨hOwes, hPaid⟩ | ⟨p, hOwes, hPaid⟩ | ⟨hOwes, hPaid⟩
  · rcases hAnswered with ⟨p, hp⟩ | hPos
    · exact absurd hp (hOwes p)
    · exact absurd hPaid hPos.ne'
  · refine .inr ⟨?_, p, hOwes, ?_⟩
    · rw [← length_eq_zero_iff, ← countP_eq_length_filter]
      exact hPaid
    obtain ⟨t, ht, hId, -⟩ := (hOwes p).mpr rfl
    have hCharge : t.charge = r.charge := ((hHonest.procs p).owes t ht).charge_eq hMatch hId
    intro out
    rw [← refundTaskQuota_congr hCharge]
    simp only [step, State.run, ht]
  · exact .inl ⟨hHonest.filter_refunds hr hPaid, hOwes⟩

theorem oneFailure_regular :
    ∀ m ∈ moves (step demoSettings) noTasks oneFailure, Regular m.1 m.2 := by
  simp only [oneFailure, moves_cons, forall_mem_cons]
  refine ⟨⟨trivial, trivial, trivial⟩, ⟨trivial, trivial, trivial⟩, ⟨trivial, trivial, nofun⟩,
    ⟨by decide, trivial, trivial⟩, ⟨trivial, trivial, trivial⟩, by simp⟩

theorem oneFailure_refunded :
    statusOf (oneFailure.foldl (step demoSettings) noTasks).tasks 1 = some .failure ∧
      (oneFailure.foldl (step demoSettings) noTasks).refunds =
        (refundTaskQuota (initTask (demoTask (.video "50") "u") 1800000000 1)).toList := by
  have hFail : statusOf (oneFailure.foldl (step demoSettings) noTasks).tasks 1 = some .failure := by
    decide
  refine ⟨hFail, ?_⟩
  have hOnce := failure_refunded_exactly_once demoSettings
    (oneFailure.foldl (step demoSettings) noTasks)
    (initTask (demoTask (.video "50") "u") 1800000000 1)
    (reach_only_foldl ⟨noTasks_start, rfl, rfl⟩ oneFailure oneFailure_regular)
    (by decide) (by decide) hFail
  rcases hOnce with ⟨hRefunds, -⟩ | ⟨hRefunds, -⟩
  · exact hRefunds
  · exact absurd hRefunds (by decide)

/-! ## A legacy task -/

def legacySweep : List Act :=
  [.submit (demoTask (.video "50") "u") 1700000000, .sweep 0 1800000000, .run 0 {}]

/-- **A legacy task fails without a refund**, and nothing is left to do. -/
theorem legacy_failure_not_refunded :
    (fromScratch demoSettings).Reach (legacySweep.foldl (step demoSettings) noTasks) ∧
      initTask (demoTask (.video "50") "u") 1700000000 1 ∈
        (legacySweep.foldl (step demoSettings) noTasks).submitted ∧
      statusOf (legacySweep.foldl (step demoSettings) noTasks).tasks 1 = some .failure ∧
      (legacySweep.foldl (step demoSettings) noTasks).refunds = [] ∧
      ∀ p, ((legacySweep.foldl (step demoSettings) noTasks).procs p).Idle := by
  refine ⟨reach_foldl ⟨noTasks_start, rfl, rfl⟩ legacySweep, by decide, by decide, by decide, ?_⟩
  intro p
  cases p with
  | zero => decide
  | succ p => exact ⟨rfl, rfl, rfl⟩

end NewApi.Tasks
