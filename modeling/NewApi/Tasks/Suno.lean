import NewApi.Tasks.Video

/-!
# Refunds of Suno tasks

`updateSunoTasks` refunds first and then saves the whole row; `sweepTimedOutTasks` swaps the status
and then refunds.  A round that has loaded a task before a sweep refunds a second time.  `Exclusive`
excludes it.
-/

namespace NewApi.Tasks

open Core

/-- The row of `k` is unfinished, and nobody is about to save it. -/
def Free (s : State) (k : Int) : Prop :=
  (∃ r, s.tasks.find? k = some r ∧ r.Unfinished) ∧
    ∀ q t, (s.procs q).saves = some t → t.id ≠ k

/-- Items are handled and Suno tasks swept only while the task is free. -/
def Exclusive (s : State) : Act → Prop
  | .run p _ =>
    match (s.procs p).next with
    | some (.timeOut t _) => t.platform = .suno → Free s t.id
    | some (.sunoItem item) =>
      ∀ t ∈ (s.procs p).taskM .suno item.taskID, taskNeedsUpdate t item → Free s t.id
    | some (.fetch t) => t.platform ≠ .suno
    | _ => True
  | _ => True

/-- The process is not about to save `k` as unfinished. -/
def Proc.SavesFinished (pr : Proc) (k : Int) : Prop :=
  ∀ t, pr.saves = some t → t.id = k → ¬ t.Unfinished

/-- The row of `k` is finished or about to be saved, and only ever as finished. -/
def Taken (k : Int) (s : State) : Prop :=
  ((∃ r, s.tasks.find? k = some r ∧ ¬ r.Unfinished) ∨
      ∃ q t, (s.procs q).saves = some t ∧ t.id = k) ∧
    ∀ q, (s.procs q).SavesFinished k

variable {t : Task} {out : Outside}

section Moves

variable {cfg : Settings} {s : State} {p : Nat} {k : Int} {tasks : Table Task} {pr : Proc}
  {job : Job} {rest : List Job}

theorem Free.savesFinished (h : Free s k) (q : Nat) : (s.procs q).SavesFinished k :=
  fun t ht hId => absurd hId (h.2 q t ht)

theorem Proc.savesFinished_of_none (h : pr.saves = none) : pr.SavesFinished k := by
  intro t ht
  rw [h] at ht
  cases ht

theorem Free.not_taken (h : Free s k) : ¬ Taken k s := by
  rintro ⟨⟨r, hr, hDone⟩ | ⟨q, t, ht, hId⟩, -⟩
  · obtain ⟨u, hu, hOpen⟩ := h.1
    rw [hr] at hu
    cases hu
    exact hDone hOpen
  · exact h.2 q t ht hId

theorem Taken.put (h : Taken k s)
    (hRow : ∀ r, s.tasks.find? k = some r → ¬ r.Unfinished →
      ∃ r', tasks.find? k = some r' ∧ ¬ r'.Unfinished)
    (hOld : ∀ t, (s.procs p).saves = some t → t.id = k → pr.saves = some t)
    (hNew : pr.SavesFinished k) : Taken k (s.put p tasks pr) := by
  refine ⟨?_, forall_put (P := fun _ pr => pr.SavesFinished k) hNew h.2⟩
  rcases h.1 with ⟨r, hr, hDone⟩ | ⟨q, t, ht, hId⟩
  · exact .inl (hRow r hr hDone)
  refine .inr ⟨q, t, ?_, hId⟩
  by_cases hq : q = p
  · subst hq
    rw [put_procs_self]
    exact hOld t ht hId
  · rw [put_procs_of_ne hq]
    exact ht

theorem Taken.put_of_none (h : Taken k s)
    (hRow : ∀ r, s.tasks.find? k = some r → ¬ r.Unfinished →
      ∃ r', tasks.find? k = some r' ∧ ¬ r'.Unfinished)
    (hBefore : (s.procs p).saves = none) (hAfter : pr.saves = none) :
    Taken k (s.put p tasks pr) := by
  refine h.put hRow ?_ (Proc.savesFinished_of_none hAfter)
  intro t ht
  rw [hBefore] at ht
  cases ht

theorem not_unfinished_of_failure (h : t.status = .failure) : ¬ t.Unfinished :=
  fun hOpen => hOpen.2.1 h

theorem Free.swap_move {old new : Task} (hFree : Free s new.id)
    (hOwes : (s.procs p).owes = none) (hSaves : pr.saves = none)
    (hSwap : Swap cfg out s.tasks job old new pr.owes) :
    (refundOf new.id (Taken new.id)).Move s (s.put p (s.tasks.save new) pr) := by
  by_cases hDue : pr.Owes new.id
  · refine claim_put hDue hFree.not_taken ⟨.inl ⟨new, ?_, ?_⟩, ?_⟩
    · obtain ⟨r, hr, -⟩ := hFree.1
      exact find?_save_of_isSome (by rw [hr]; rfl)
    · obtain ⟨t, ht, -⟩ := hDue
      rcases hSwap.billed with ⟨-, hFail⟩ | ⟨hNone, -⟩
      · exact not_unfinished_of_failure hFail
      · rw [ht] at hNone
        cases hNone
    · exact forall_put (P := fun _ pr => pr.SavesFinished new.id)
        (Proc.savesFinished_of_none hSaves) hFree.savesFinished
  · exact quiet_put (iff_of_false hDue (Proc.not_owes hOwes)) fun h => absurd h hFree.not_taken

theorem Free.item_move {item : SunoDataResponse} (hFree : Free s t.id)
    (hOwes : (s.procs p).owes = none)
    (hDue : pr.owes = if item.refunds t then some (t.afterItem item) else none)
    (hSaves : pr.saves = some (t.afterItem item)) :
    (refundOf t.id (Taken t.id)).Move s (s.put p s.tasks pr) := by
  by_cases hRefunds : item.refunds t ∧ t.quota ≠ 0
  · have hOwed : pr.Owes t.id :=
      ⟨t.afterItem item, by rw [hDue, if_pos hRefunds.1], rfl, hRefunds.2⟩
    refine claim_put hOwed hFree.not_taken ⟨.inr ⟨p, t.afterItem item, ?_, rfl⟩, ?_⟩
    · rw [put_procs_self]
      exact hSaves
    refine forall_put (P := fun _ pr => pr.SavesFinished t.id) ?_ hFree.savesFinished
    intro u hu _
    rw [hSaves] at hu
    cases hu
    exact fun hOpen => hOpen.1 (afterItem_progress hRefunds.1)
  · refine quiet_put (iff_of_false ?_ (Proc.not_owes hOwes)) fun h => absurd h hFree.not_taken
    rintro ⟨u, hu, -, hq⟩
    rw [hDue] at hu
    split at hu
    · next hItem =>
      cases hu
      exact hRefunds ⟨hItem, hq⟩
    · cases hu

theorem Exclusive.free (h : Exclusive s (.run p out)) (hTakes : (s.procs p).Takes job rest) :
    (∀ t now, job = .timeOut t now → t.platform = .suno → Free s t.id) ∧
      (∀ item t, job = .sunoItem item → (s.procs p).taskM .suno item.taskID = some t →
        taskNeedsUpdate t item = true → Free s t.id) ∧
      ∀ t, job = .fetch t → t.platform ≠ .suno := by
  simp only [Exclusive, hTakes.next_eq] at h
  refine ⟨?_, ?_, ?_⟩
  · rintro t now rfl
    exact h
  · rintro item t rfl ht
    exact h t ht
  · rintro t rfl
    exact h

theorem Exclusive.polls (h : Exclusive s (.run p out)) (hSorted : s.Sorted)
    (hTakes : (s.procs p).Takes job rest) (hPolls : job.polls (s.procs p) = some t)
    (hSuno : t.platform = .suno) : Free s t.id ∧ ¬ t.status.Done := by
  have hCases := h.free hTakes
  cases job with
  | timeOut u now =>
    cases hPolls
    exact ⟨hCases.1 t now rfl hSuno, ((hSorted p).sweeps t now hTakes.mem).2⟩
  | video channelType taskId =>
    have hPl := ((hSorted p).taskM _ _ t hPolls).1
    rw [hSuno] at hPl
    cases hPl
  | fetch u =>
    cases hPolls
    exact absurd hSuno (hCases.2.2 t rfl)
  | failNull ids | videoChannel channelType channelId taskIds | sunoChannel channelId taskIds
  | sunoItem item => cases hPolls

theorem save_move (hSorted : s.Sorted) (hSaves : (s.procs p).saves = some t) :
    (refundOf k (Taken k)).Move s
      (s.put p (s.tasks.save t) { s.procs p with saves := none }) := by
  refine quiet_put Iff.rfl fun h => ?_
  by_cases he : t.id = k
  · subst he
    have hRow : ((s.tasks.find? t.id).map Task.platform) = some .suno :=
      ((hSorted p).saves t hSaves).2
    have hSome : (s.tasks.find? t.id).isSome := by
      obtain ⟨r, hr, -⟩ := Option.map_eq_some_iff.mp hRow
      rw [hr]; rfl
    exact ⟨.inl ⟨t, find?_save_of_isSome hSome, h.2 p t hSaves rfl⟩,
      forall_put (P := fun _ pr => pr.SavesFinished t.id) (Proc.savesFinished_of_none rfl) h.2⟩
  · refine h.put ?_ ?_ (Proc.savesFinished_of_none rfl)
    · rw [find?_save_of_ne_id he]
      exact fun r hr hDone => ⟨r, hr, hDone⟩
    intro u hu hId
    rw [hSaves] at hu
    cases hu
    exact absurd hId he

theorem Exclusive.effect_move {owes saves : Option Task}
    (hEffect : Effect cfg out s.tasks { s.procs p with agenda := rest } job tasks owes saves)
    (hO : pr.owes = owes) (hS : pr.saves = saves) (hEx : Exclusive s (.run p out))
    (hSorted : s.Sorted) (hTakes : (s.procs p).Takes job rest)
    (hk : ∀ pl, platformOf s.tasks k = some pl → pl = .suno) :
    (refundOf k (Taken k)).Move s (s.put p tasks pr) := by
  have hSame : ∀ r, s.tasks.find? k = some r → ¬ r.Unfinished →
      ∃ r', s.tasks.find? k = some r' ∧ ¬ r'.Unfinished := fun r hr hDone => ⟨r, hr, hDone⟩
  have hNone : owes = none → ∀ t, pr.owes = some t → t.id ≠ k := by
    rintro rfl t ht
    cases hO.symm.trans ht
  -- a poll of `k` is about a free task that is unfinished in memory
  have hPolled : ∀ t, job.polls { s.procs p with agenda := rest } = some t → t.id = k →
      Free s t.id ∧ ¬ t.status.Done := by
    intro t ht hId
    refine hEx.polls hSorted hTakes ht (hk _ ?_)
    rw [← hId]
    exact (hSorted p).polls hTakes.mem ht
  cases hEffect with
  | quiet => exact quiet_job hTakes.owes (hNone rfl) fun h => h.put_of_none hSame hTakes.saves hS
  | fail ids reason hJob =>
    refine quiet_job hTakes.owes (hNone rfl) fun h => h.put_of_none ?_ hTakes.saves hS
    intro r hr hDone
    obtain ⟨new, hNew, -, rfl | hFail⟩ := find?_taskBulkUpdateByID ids reason hr
    · exact ⟨new, hNew, hDone⟩
    · exact ⟨new, hNew, not_unfinished_of_failure hFail⟩
  | swap old new owes hPolls hCharge hSwap =>
    have hId : new.id = old.id := Task.id_eq_of_charge hCharge
    rw [← hO] at hSwap
    by_cases he : new.id = k
    · subst he
      have hFree := (hPolled old hPolls hId.symm).1
      rw [← hId] at hFree
      exact hFree.swap_move hTakes.owes hS hSwap
    refine quiet_job hTakes.owes (fun t ht => hSwap.owes_eq ht ▸ he)
      fun h => h.put_of_none ?_ hTakes.saves hS
    rw [find?_save_of_ne_id he]
    exact hSame
  | stale old new tasks owes hPolls hDone hCharge hTasks hDue =>
    have hId : new.id = old.id := Task.id_eq_of_charge hCharge
    have hNe : old.id ≠ k := fun he => (hPolled old hPolls he).2 hDone
    refine quiet_job hTakes.owes (fun t ht => ?_) fun h => h.put_of_none ?_ hTakes.saves hS
    · rw [hDue t (hO.symm.trans ht)]
      exact hNe
    rcases hTasks with rfl | rfl
    · exact hSame
    · rw [find?_save_of_ne_id (hId ▸ hNe)]
      exact hSame
  | item item t hJob hTask hNeeds =>
    by_cases he : t.id = k
    · subst he
      have hFree := (hEx.free hTakes).2.1 item t hJob hTask hNeeds
      exact hFree.item_move hTakes.owes hO hS
    refine quiet_job hTakes.owes (fun u hu => ?_) fun h => h.put hSame ?_ ?_
    · rw [id_of_refunds (hO.symm.trans hu)]
      exact he
    · intro u hu
      rw [hTakes.saves] at hu
      cases hu
    · intro u hu hId
      rw [hS] at hu
      cases hu
      exact absurd hId he

theorem Exclusive.move {a : Act} (hEx : Exclusive s a) (hSorted : s.Sorted)
    (hk : ∀ pl, platformOf s.tasks k = some pl → pl = .suno) :
    (refundOf k (Taken k)).Move s (step cfg s a) := by
  generalize hs' : step cfg s a = s'
  have hStep : Step cfg s a s' := hs' ▸ step_step cfg s a
  have hSame : ∀ r, s.tasks.find? k = some r → ¬ r.Unfinished →
      ∃ r', s.tasks.find? k = some r' ∧ ¬ r'.Unfinished := fun r hr hDone => ⟨r, hr, hDone⟩
  cases hStep with
  | submit new now =>
    refine .quiet (fun _ => Iff.rfl) rfl ?_
    rintro ⟨⟨r, hr, hDone⟩ | hSaved, hAll⟩
    · exact ⟨.inl ⟨r, Table.find?_insert (key_initTask new now) hr, hDone⟩, hAll⟩
    · exact ⟨.inr hSaved, hAll⟩
  | idle => exact .quiet (fun _ => Iff.rfl) rfl id
  | sweep p now hIdle => exact idle_move hIdle rfl fun h => h.put_of_none hSame hIdle.2.2 rfl
  | round p platforms channels hIdle | fetch p userId taskID hIdle =>
    exact idle_move hIdle rfl fun h => h.put_of_none hSame hIdle.2.2 rfl
  | refund p out t hOwes =>
    refine refund_move hOwes rfl ?_
    intro h
    have hPut : Taken k (s.put p s.tasks { s.procs p with owes := none }) :=
      h.put hSame (fun t ht _ => ht) (h.2 p)
    exact hPut
  | save p out t hOwes hSaves => exact save_move hSorted hSaves
  | job p out job rest hOwes hSaves hAgenda =>
    exact Exclusive.effect_move (runJob_effect cfg out job hOwes hSaves) rfl rfl hEx hSorted
      ⟨hOwes, hSaves, hAgenda⟩ hk

theorem Exclusive.stage (h : ((polling cfg).only Exclusive).Reach s)
    (hk : ∀ pl, platformOf s.tasks k = some pl → pl = .suno) :
    (refundOf k (Taken k)).Stage s := by
  refine Payment.Stage.reach (V := fun s => ∀ pl, platformOf s.tasks k = some pl → pl = .suno)
    ?_ ?_ ?_ h hk
  · exact fun s hs => State.Start.stage hs
  · rintro s a _ hr ⟨-, rfl⟩ hV pl hPl
    exact hV pl (((reach_sorted hr).step a).1 k pl hPl)
  · rintro s a _ hr ⟨hEx, rfl⟩ hV
    exact hEx.move (reach_sorted hr) fun pl hPl => hV pl (((reach_sorted hr).step a).1 k pl hPl)

end Moves

/-- **Each Suno task is refunded at most once** where it is handled and swept only while it is free.
-/
theorem suno_refunded_at_most_once (cfg : Settings) (s : State) (k : Int)
    (h : ((polling cfg).only Exclusive).Reach s) (hk : platformOf s.tasks k = some .suno) :
    s.refundCount k ≤ 1 := by
  have hStage : (refundOf k (Taken k)).Stage s :=
    Exclusive.stage h fun pl hPl => Option.some.inj (hPl.symm.trans hk)
  exact hStage.paid_le_one

/-! ## A stale copy -/

def sunoFailure : Outside where
  suno := some [{
    taskID := "u"
    status := .failure
    failReason := "no lyrics"
    submitTime := 0
    startTime := 0
    finishTime := 0
    data := "" }]

def songFails : List Act :=
  [.submit (demoTask .suno "u") 1800000000, .round 0 [.suno] [1], .run 0 sunoFailure, .run 0 {},
    .run 0 {}, .run 0 {}]

theorem songFails_exclusive :
    ∀ m ∈ moves (step demoSettings) noTasks songFails, Exclusive m.1 m.2 := by
  simp only [songFails, moves_cons, List.forall_mem_cons]
  refine ⟨trivial, trivial, trivial, ?_, trivial, trivial, by simp⟩
  intro t ht hNeeds
  cases ht
  refine ⟨⟨_, rfl, by decide⟩, ?_⟩
  intro q u hu
  cases q with
  | zero | succ q => cases hu

theorem songFails_refunded_once :
    platformOf (songFails.foldl (step demoSettings) noTasks).tasks 1 = some .suno ∧
      (songFails.foldl (step demoSettings) noTasks).refundCount 1 ≤ 1 := by
  have hReach : ((polling demoSettings).only Exclusive).Reach
      (songFails.foldl (step demoSettings) noTasks) :=
    reach_only_foldl noTasks_start songFails songFails_exclusive
  exact ⟨by decide, suno_refunded_at_most_once demoSettings _ 1 hReach (by decide)⟩

def staleSong : List Act :=
  [.submit (demoTask .suno "u") 1800000000, .round 0 [.suno] [1], .sweep 1 1900000000, .run 1 {},
    .run 1 {}, .run 0 sunoFailure, .run 0 {}, .run 0 {}, .run 0 {}]

/-- **A round refunds again what a sweep has refunded** since the round loaded the task. -/
theorem stale_song_refunded_twice :
    (polling demoSettings).Reach (staleSong.foldl (step demoSettings) noTasks) ∧
      platformOf (staleSong.foldl (step demoSettings) noTasks).tasks 1 = some .suno ∧
      ((staleSong.take 5).foldl (step demoSettings) noTasks).refundCount 1 = 1 ∧
      (staleSong.foldl (step demoSettings) noTasks).refundCount 1 = 2 := by
  refine ⟨reach_foldl noTasks_start staleSong, ?_, ?_, ?_⟩ <;> decide

end NewApi.Tasks
