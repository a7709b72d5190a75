import NewApi.Tasks.Runs

/-!
# Refunds of video tasks

A video poll waits for its compare-and-swap only when the status in memory changes to a finished
one; a task already finished in memory is refunded without.  That happens when two tasks of a round
carry the same upstream id.  `FreshPoll` excludes it.
-/

namespace NewApi.Tasks

open Core

/-- No video poll and no client's fetch starts from a task that is finished in memory. -/
def FreshPoll (s : State) : Act → Prop
  | .run p _ =>
    match (s.procs p).next with
    | some (.video channelType taskId) =>
      ∀ t ∈ (s.procs p).taskM (.video channelType) taskId, ¬ t.status.Done
    | some (.fetch t) => ¬ t.status.Done
    | _ => True
  | _ => True

instance (s : State) (a : Act) : Decidable (FreshPoll s a) := by
  cases a with
  | run p out =>
    unfold FreshPoll
    dsimp only
    split <;> infer_instance
  | _ => exact .isTrue trivial

def Failed (k : Int) (s : State) : Prop := statusOf s.tasks k = some .failure

section Moves

variable {cfg : Settings} {s : State} {p : Nat} {k : Int} {tasks : Table Task} {pr : Proc}
  {job : Job} {rest : List Job}

theorem FreshPoll.not_done {out : Outside} {t : Task} (hFresh : FreshPoll s (.run p out))
    (hSorted : s.Sorted) (hTakes : (s.procs p).Takes job rest)
    (hPolls : job.polls (s.procs p) = some t) : ¬ t.status.Done := by
  simp only [FreshPoll, hTakes.next_eq] at hFresh
  cases job with
  | timeOut u now =>
    cases hPolls
    exact ((hSorted p).sweeps t now hTakes.mem).2
  | video channelType taskId => exact hFresh t hPolls
  | fetch u => cases hPolls; exact hFresh
  | failNull ids | videoChannel channelType channelId taskIds | sunoChannel channelId taskIds
  | sunoItem item => cases hPolls

theorem statusOf_taskBulkUpdateByID {ids : List Int} {reason : Option String}
    (h : statusOf tasks k = some .failure) :
    statusOf (taskBulkUpdateByID tasks ids reason) k = some .failure := by
  obtain ⟨r, hr, hStatus⟩ := statusOf_eq_some.mp h
  obtain ⟨new, hNew, -, rfl | hFail⟩ := find?_taskBulkUpdateByID ids reason hr
  · exact statusOf_eq_some.mpr ⟨new, hNew, hStatus⟩
  · exact statusOf_eq_some.mpr ⟨new, hNew, hFail⟩

theorem swap_move {old new : Task} (hOld : ¬ old.status.Done)
    (hOwes : (s.procs p).owes = none) (hSwap : Swap cfg out s.tasks job old new pr.owes) :
    (refundOf k (Failed k)).Move s (s.put p (s.tasks.save new) pr) := by
  by_cases hk : new.id = k
  · subst hk
    have hOpen : ¬ Failed new.id s := by
      intro hFail
      have hStatus := hSwap.won.symm.trans hFail
      exact hOld (.inl (Option.some.inj hStatus))
    by_cases hDue : pr.Owes new.id
    · refine claim_put hDue hOpen ?_
      obtain ⟨t, ht, -⟩ := hDue
      rcases hSwap.billed with ⟨-, hFail⟩ | ⟨hNone, -⟩
      · obtain ⟨r, hr, -⟩ := statusOf_eq_some.mp hSwap.won
        have hRow : (s.tasks.save new).find? new.id = some new :=
          find?_save_of_isSome (by rw [hr]; rfl)
        exact statusOf_eq_some.mpr ⟨new, hRow, hFail⟩
      · rw [ht] at hNone
        cases hNone
    · exact quiet_put (iff_of_false hDue (Proc.not_owes hOwes)) fun h => absurd h hOpen
  · refine quiet_job hOwes (fun t ht => hSwap.owes_eq ht ▸ hk) ?_
    intro hFail
    show statusOf (s.tasks.save new) k = _
    rw [statusOf, find?_save_of_ne_id hk]
    exact hFail

theorem effect_move {rest : List Job} {owes saves : Option Task}
    (hEffect : Effect cfg out s.tasks { s.procs p with agenda := rest } job tasks owes saves)
    (hO : pr.owes = owes) (hOwes : (s.procs p).owes = none) (hSorted : s.Sorted)
    (hOpen : ∀ t, job.polls { s.procs p with agenda := rest } = some t → ¬ t.status.Done)
    (hk : platformOf s.tasks k ≠ some .suno) :
    (refundOf k (Failed k)).Move s (s.put p tasks pr) := by
  have hNone : owes = none → ∀ t, pr.owes = some t → t.id ≠ k := by
    rintro rfl t ht
    cases hO.symm.trans ht
  cases hEffect with
  | quiet => exact quiet_job hOwes (hNone rfl) id
  | fail ids reason hJob =>
    exact quiet_job hOwes (hNone rfl) fun hFail => statusOf_taskBulkUpdateByID hFail
  | swap old new owes hPolls hCharge hSwap => exact swap_move (hOpen old hPolls) hOwes (hO ▸ hSwap)
  | stale old new tasks owes hPolls hDone hCharge hTasks hOwes' =>
    exact absurd hDone (hOpen old hPolls)
  | item item t hJob hTask hNeeds =>
    have hNe : t.id ≠ k := fun he => hk (he ▸ ((hSorted p).taskM _ _ t hTask).2)
    refine quiet_job hOwes (fun u hu => ?_) id
    rw [id_of_refunds (hO.symm.trans hu)]
    exact hNe

theorem FreshPoll.move {a : Act} (hFresh : FreshPoll s a) (hSorted : s.Sorted)
    (hk : platformOf s.tasks k ≠ some .suno) :
    (refundOf k (Failed k)).Move s (step cfg s a) := by
  generalize hs' : step cfg s a = s'
  have hStep : Step cfg s a s' := hs' ▸ step_step cfg s a
  cases hStep with
  | submit new now =>
    refine .quiet (fun _ => Iff.rfl) rfl ?_
    intro hFail
    obtain ⟨r, hr, hStatus⟩ := statusOf_eq_some.mp hFail
    exact statusOf_eq_some.mpr ⟨r, Table.find?_insert (key_initTask new now) hr, hStatus⟩
  | idle => exact .quiet (fun _ => Iff.rfl) rfl id
  | sweep p now hIdle | round p platforms channels hIdle | fetch p userId taskID hIdle =>
    exact idle_move hIdle rfl id
  | refund p out t hOwes => exact refund_move hOwes rfl id
  | save p out t hOwes hSaves =>
    have hNe : t.id ≠ k := fun he => hk (he ▸ ((hSorted p).saves t hSaves).2)
    refine quiet_put Iff.rfl ?_
    intro hFail
    show statusOf (s.tasks.save t) k = _
    rw [statusOf, find?_save_of_ne_id hNe]
    exact hFail
  | job p out job rest hOwes hSaves hAgenda =>
    refine effect_move (runJob_effect cfg out job hOwes hSaves) rfl hOwes hSorted ?_ hk
    intro t ht
    exact hFresh.not_done hSorted ⟨hOwes, hSaves, hAgenda⟩ ht

theorem FreshPoll.stage (h : ((polling cfg).only FreshPoll).Reach s)
    (hk : platformOf s.tasks k ≠ some .suno) : (refundOf k (Failed k)).Stage s := by
  refine Payment.Stage.reach (V := fun s => platformOf s.tasks k ≠ some .suno) ?_ ?_ ?_ h hk
  · exact fun s hs => State.Start.stage hs
  · rintro s a _ hr ⟨-, rfl⟩ hV
    exact platformOf_step_ne (reach_sorted hr) hV
  · rintro s a _ hr ⟨hFresh, rfl⟩ hV
    exact hFresh.move (reach_sorted hr) (platformOf_step_ne (reach_sorted hr) hV)

end Moves

/-- **Each task is refunded at most once** where no poll starts from a task that is finished in
memory. -/
theorem video_refunded_at_most_once (cfg : Settings) (s : State) (k : Int)
    (h : ((polling cfg).only FreshPoll).Reach s) (hk : platformOf s.tasks k ≠ some .suno) :
    s.refundCount k ≤ 1 ∧
      (0 < s.refundCount k ∨ (∃ p, (s.procs p).Owes k) → statusOf s.tasks k = some .failure) := by
  have hStage := FreshPoll.stage h hk
  refine ⟨hStage.paid_le_one, ?_⟩
  intro hAny
  by_contra hOpen
  obtain ⟨hOwes, hPaid⟩ := hStage.unclaimed_of_open hOpen
  rcases hAny with hCount | ⟨p, hp⟩
  · exact absurd hPaid hCount.ne'
  · exact hOwes p hp

/-! ## Two tasks with one upstream id -/

def demoSettings : Settings where
  taskTimeoutMinutes := 60
  taskQueryLimit := 1000
  serverAddress := ""
  upstreamTaskIDIn := fun _ => ""

def demoTask (platform : Platform) (upstreamTaskID : String) : NewTask where
  taskID := "task"
  platform := platform
  userId := 7
  channelId := 1
  quota := 500
  upstreamTaskID := upstreamTaskID
  billingSource := some .wallet
  subscriptionId := 0
  tokenId := 0
  data := ""

def noTasks : State where
  tasks := .empty
  refunds := []
  submitted := []
  procs := fun _ => Proc.start

theorem noTasks_start : noTasks.Start := ⟨rfl, fun _ => rfl⟩

def answer (status : TaskStatus) : Outside where
  video := .parsed "" { status := status } .unreadable

def oneFailure : List Act :=
  [.submit (demoTask (.video "50") "u") 1800000000, .round 0 [.video "50"] [1], .run 0 {},
    .run 0 (answer .failure), .run 0 {}]

theorem oneFailure_refunded_once :
    platformOf (oneFailure.foldl (step demoSettings) noTasks).tasks 1 ≠ some .suno ∧
      (oneFailure.foldl (step demoSettings) noTasks).refundCount 1 ≤ 1 := by
  have hReach : ((polling demoSettings).only FreshPoll).Reach
      (oneFailure.foldl (step demoSettings) noTasks) :=
    reach_only_foldl noTasks_start oneFailure (by decide)
  exact ⟨by decide, (video_refunded_at_most_once demoSettings _ 1 hReach (by decide)).1⟩

def sharedId : List Act :=
  [.submit (demoTask (.video "50") "u") 1800000000, .submit (demoTask (.video "50") "u") 1800000000,
    .round 0 [.video "50"] [1], .run 0 {}, .run 0 (answer .failure), .run 0 {},
    .run 0 (answer .failure), .run 0 {}]

def sharedIdRace : List Act :=
  [.submit (demoTask (.video "50") "u") 1800000000, .submit (demoTask (.video "50") "u") 1800000000,
    .round 0 [.video "50"] [1], .round 1 [.video "50"] [1], .run 0 {}, .run 1 {},
    .run 1 (answer .success), .run 0 (answer .failure), .run 0 (answer .failure), .run 0 {}]

/-- **A shared upstream id refunds a task twice**, and refunds a task that is stored as
`SUCCESS`. -/
theorem shared_id_refunds_again :
    ((polling demoSettings).Reach (sharedId.foldl (step demoSettings) noTasks) ∧
        platformOf (sharedId.foldl (step demoSettings) noTasks).tasks 2 = some (.video "50") ∧
        (sharedId.foldl (step demoSettings) noTasks).refundCount 2 = 2) ∧
      (polling demoSettings).Reach (sharedIdRace.foldl (step demoSettings) noTasks) ∧
        statusOf (sharedIdRace.foldl (step demoSettings) noTasks).tasks 2 = some .success ∧
        (sharedIdRace.foldl (step demoSettings) noTasks).refundCount 2 = 1 := by
  refine ⟨⟨reach_foldl noTasks_start sharedId, ?_, ?_⟩,
    reach_foldl noTasks_start sharedIdRace, ?_, ?_⟩ <;> decide

/-- **No task is lost or changes its platform**, however submissions, sweeps, rounds and fetches
interleave, and every copy that a process holds is of a stored task of the same platform. -/
theorem tasks_kept (cfg : Settings) {s : State} (h : (polling cfg).Reach s) (acts : List Act) :
    Keeps s.tasks (acts.foldl (step cfg) s).tasks ∧ (acts.foldl (step cfg) s).Sorted := by
  have hSorted : s.Sorted := by
    refine System.Reach.invariant (I := State.Sorted) (fun _ hs => State.Start.sorted hs) ?_ h
    rintro s a _ hBefore rfl
    exact (hBefore.step a).2
  clear h
  induction acts generalizing s with
  | nil => exact ⟨Keeps.refl _, hSorted⟩
  | cons a acts ih =>
    obtain ⟨hKeeps, hNext⟩ : Keeps s.tasks (step cfg s a).tasks ∧ _ := hSorted.step a
    exact ⟨fun k pl hRow => (ih hNext).1 k pl (hKeeps k pl hRow), (ih hNext).2⟩

theorem tasks_kept_failure :
    let s := oneFailure.foldl (step demoSettings) noTasks
    Keeps s.tasks (sharedId.foldl (step demoSettings) s).tasks ∧
      (sharedId.foldl (step demoSettings) s).Sorted :=
  tasks_kept demoSettings (reach_foldl noTasks_start oneFailure) sharedId

end NewApi.Tasks
