import NewApi.Go.Decimal
import NewApi.Tasks.Video

/-!
# Settling a video task

`updateVideoSingleTask` writes the row before it settles; `RecalculateTaskQuota` puts the new quota
into the task in memory, and nobody writes it to the row.  `adjustments` is the history of what was
moved.
-/

namespace NewApi.Tasks

open Core Go List Option

/-! ## The functions -/

/-- What `RecalculateTaskQuota` took from the source and the token. -/
structure Adjustment where
  taskId : Int
  source : FundingSource
  token : Option Int
  delta : Int
  deriving DecidableEq

/-- `RecalculateTaskQuota`; `fundingOk` is whether `taskAdjustFunding` goes through. -/
def recalculateTaskQuota (fundingOk : Bool) (t : Task) (actualQuota : Int) :
    Task × Option Adjustment :=
  let quotaDelta := actualQuota - t.quota
  if actualQuota ≤ 0 ∨ quotaDelta = 0 ∨ fundingOk = false then (t, none)
  else ({ t with quota := actualQuota }, some {
      taskId := t.id
      source := t.fundingSource
      token := if t.tokenId ≤ 0 then none else some t.tokenId
      delta := quotaDelta })

structure TaskPricing where
  perCallBilling : Bool
  otherRatios : List ℚ
  modelRatio : Option ℚ
  /-- The group of the task, and the one of its user when the user is found. -/
  group : String
  userGroup : Option String
  groupRatio : String → ℚ
  groupGroupRatio : String → Option ℚ

def TaskPricing.otherMultiplier (pricing : TaskPricing) : ℚ :=
  (pricing.otherRatios.filter fun r => r ≠ 1 ∧ 0 < r).prod

def quotaByTokens (pricing : TaskPricing) (totalTokens : Int) : Option Int :=
  match pricing.modelRatio with
  | none => none
  | some modelRatio =>
    let group := if pricing.group = "" then pricing.userGroup.getD "" else pricing.group
    if totalTokens ≤ 0 ∨ modelRatio ≤ 0 ∨ group = "" then none
    else
      let finalGroupRatio := (pricing.groupGroupRatio group).getD (pricing.groupRatio group)
      some (Decimal.intPart (totalTokens * modelRatio * finalGroupRatio * pricing.otherMultiplier))

structure Completion where
  pricing : TaskPricing
  /-- `AdjustBillingOnComplete`. -/
  adjusted : Int
  totalTokens : Int
  fundingOk : Bool

def settleTaskBillingOnComplete (c : Completion) (t : Task) : Task × Option Adjustment :=
  if c.pricing.perCallBilling then (t, none)
  else if 0 < c.adjusted then recalculateTaskQuota c.fundingOk t c.adjusted
  else
    match quotaByTokens c.pricing c.totalTokens with
    | none => (t, none)
    | some actualQuota => recalculateTaskQuota c.fundingOk t actualQuota

structure Settles (t new : Task) (adjustment : Option Adjustment) : Prop where
  eq : ∃ quota, new = { t with quota := quota }
  quota : new.quota = t.quota + (adjustment.map Adjustment.delta).getD 0
  taskId : ∀ a ∈ adjustment, a.taskId = t.id
  delta : ∀ a ∈ adjustment, a.delta ≠ 0

theorem Settles.none (t : Task) : Settles t t none :=
  ⟨⟨t.quota, rfl⟩, (Int.add_zero _).symm, by simp, by simp⟩

theorem recalculateTaskQuota_settles (fundingOk : Bool) (t : Task) (actualQuota : Int) :
    Settles t (recalculateTaskQuota fundingOk t actualQuota).1
      (recalculateTaskQuota fundingOk t actualQuota).2 := by
  unfold recalculateTaskQuota
  by_cases h : actualQuota ≤ 0 ∨ actualQuota - t.quota = 0 ∨ fundingOk = false
  · simp only [if_pos h]
    exact .none t
  simp only [if_neg h]
  refine ⟨⟨actualQuota, rfl⟩, ?_, ?_, ?_⟩
  · simp only [map_some, getD_some]
    omega
  · rintro a ⟨⟩
    rfl
  · rintro a ⟨⟩ hZero
    exact h (.inr (.inl hZero))

theorem settleTaskBillingOnComplete_settles (c : Completion) (t : Task) :
    Settles t (settleTaskBillingOnComplete c t).1 (settleTaskBillingOnComplete c t).2 := by
  unfold settleTaskBillingOnComplete
  split
  · exact .none t
  split
  · exact recalculateTaskQuota_settles _ t _
  split
  · exact .none t
  · exact recalculateTaskQuota_settles _ t _

/-! ## A round -/

structure Poll where
  taskId : String
  now : Int
  reply : VideoReply
  completion : Completion

structure Round where
  tasks : Table Task
  taskM : String → Option Task
  adjustments : List Adjustment

def Poll.settle (cfg : Settings) (p : Poll) (tasks : Table Task) (t : Task) :
    Task × Option Adjustment :=
  let poll := updateVideoSingleTask cfg p.now p.reply t
  if (poll.commit tasks t.status).2 ∧ poll.shouldSettle then
    settleTaskBillingOnComplete p.completion poll.task
  else (poll.task, none)

namespace Round

def start (cfg : Settings) (tasks : Table Task) (channelType : String) : Round where
  tasks := tasks
  taskM := taskMOf cfg (roundTasks cfg tasks (.video channelType))
  adjustments := []

def poll (cfg : Settings) (s : Round) (p : Poll) : Round :=
  match s.taskM p.taskId with
  | none => s
  | some t =>
    { tasks := ((updateVideoSingleTask cfg p.now p.reply t).commit s.tasks t.status).1
      taskM := Function.update s.taskM p.taskId (some (p.settle cfg s.tasks t).1)
      adjustments := s.adjustments ++ (p.settle cfg s.tasks t).2.toList }

def adjusted (s : Round) (k : Int) : Int :=
  ((s.adjustments.filter fun a => a.taskId = k).map Adjustment.delta).sum

/-- The poll finishes the task with a settlement that is not zero: the reply is final, and the quota
from the adaptor or from the tokens differs from the charge. -/
def Adjusts (cfg : Settings) (k : Int) (s : Round) (p : Poll) : Prop :=
  ∃ t a, s.taskM p.taskId = some t ∧ (p.settle cfg s.tasks t).2 = some a ∧ a.taskId = k

/-! ## What one poll does -/

theorem settle_settles (cfg : Settings) (p : Poll) (tasks : Table Task) (t : Task) :
    Settles (updateVideoSingleTask cfg p.now p.reply t).task (p.settle cfg tasks t).1
      (p.settle cfg tasks t).2 := by
  simp only [Poll.settle]
  split
  · exact settleTaskBillingOnComplete_settles _ _
  · exact .none _

theorem settle_id (cfg : Settings) (p : Poll) (tasks : Table Task) (t : Task) :
    (p.settle cfg tasks t).1.id = t.id := by
  obtain ⟨quota, h⟩ := (settle_settles cfg p tasks t).eq
  rw [h]
  exact updateVideoSingleTask_id cfg p.now t p.reply

variable {cfg : Settings} {k : Int} {s : Round} {p : Poll} {t : Task}

theorem adjusted_append (l : List Adjustment) (m : List Adjustment) (tasks : Table Task)
    (taskM : String → Option Task) :
    adjusted ⟨tasks, taskM, l ++ m⟩ k =
      adjusted ⟨tasks, taskM, l⟩ k +
        ((m.filter fun a => a.taskId = k).map Adjustment.delta).sum := by
  simp only [adjusted, filter_append, map_append, sum_append]

theorem adjusted_poll (hT : s.taskM p.taskId = some t) :
    (s.poll cfg p).adjusted k = s.adjusted k +
      if t.id = k then ((p.settle cfg s.tasks t).2.map Adjustment.delta).getD 0 else 0 := by
  have hTask := (settle_settles cfg p s.tasks t).taskId
  rw [updateVideoSingleTask_id] at hTask
  simp only [poll, hT]
  rw [adjusted_append]
  congr 1
  cases hA : (p.settle cfg s.tasks t).2 with
  | none => simp
  | some a =>
    have hKey : a.taskId = t.id := hTask a (by rw [hA]; rfl)
    by_cases hId : t.id = k <;> simp [hKey, hId]

theorem find?_poll (cfg : Settings) (hT : s.taskM p.taskId = some t) {r : Task}
    (hFind : s.tasks.find? k = some r) :
    ∃ new, (s.poll cfg p).tasks.find? k = some new ∧
      (new = r ∨ t.id = k ∧ new.quota = t.quota) := by
  have hCharge := updateVideoSingleTask_charge cfg p.now t p.reply
  simp only [poll, hT]
  rcases commit_cases (updateVideoSingleTask cfg p.now p.reply t) s.tasks t.status with h | h
  · rw [h]
    exact ⟨r, hFind, .inl rfl⟩
  rw [h]
  by_cases hId : t.id = k
  · have hNew : (updateVideoSingleTask cfg p.now p.reply t).task.id = k :=
      (Task.id_eq_of_charge hCharge).trans hId
    refine ⟨_, ?_, .inr ⟨hId, Task.quota_eq_of_charge hCharge⟩⟩
    rw [← hNew]
    exact find?_save_of_isSome (by rw [hNew, hFind]; rfl)
  · have hNew : (updateVideoSingleTask cfg p.now p.reply t).task.id ≠ k := by
      rw [Task.id_eq_of_charge hCharge]
      exact hId
    exact ⟨r, by rw [find?_save_of_ne_id hNew, hFind], .inl rfl⟩

/-! ## The round -/

def net (preCharge : Int) (k : Int) (s : Round) : Int := preCharge + s.adjusted k

structure Loaded (preCharge : Int) (k : Int) (s : Round) : Prop where
  row : ∃ r, s.tasks.find? k = some r
  inj : ∀ id id' t t', s.taskM id = some t → s.taskM id' = some t' → t.id = t'.id → id = id'
  quota : ∀ id t, s.taskM id = some t → t.id = k → t.quota = s.net preCharge k

/-- The row has the charge with all its adjustments. -/
def Exact (preCharge : Int) (k : Int) (s : Round) : Prop :=
  ∀ r, s.tasks.find? k = some r → r.quota = s.net preCharge k

theorem adjusts_iff (hT : s.taskM p.taskId = some t) :
    s.Adjusts cfg k p ↔ t.id = k ∧ (p.settle cfg s.tasks t).2 ≠ none := by
  have hTask := (settle_settles cfg p s.tasks t).taskId
  rw [updateVideoSingleTask_id] at hTask
  constructor
  · rintro ⟨u, a, hU, hA, hKey⟩
    rw [hT] at hU
    cases hU
    exact ⟨(hTask a (by rw [hA]; rfl)).symm.trans hKey, by rw [hA]; simp⟩
  · rintro ⟨hId, hNe⟩
    obtain ⟨a, hA⟩ := ne_none_iff_exists'.mp hNe
    exact ⟨t, a, hT, hA, (hTask a (by rw [hA]; rfl)).trans hId⟩

theorem Loaded.poll {preCharge : Int} (h : Loaded preCharge k s) (p : Poll) :
    Loaded preCharge k (s.poll cfg p) := by
  cases hT : s.taskM p.taskId with
  | none =>
    simp only [Round.poll, hT]
    exact h
  | some t =>
    have hMem : ∀ id u, (s.poll cfg p).taskM id = some u →
        ∃ v, s.taskM id = some v ∧ u.id = v.id ∧
          (id = p.taskId ∧ u = (p.settle cfg s.tasks t).1 ∨ id ≠ p.taskId ∧ u = v) := by
      intro id u hU
      simp only [Round.poll, hT] at hU
      by_cases hId : id = p.taskId
      · subst hId
        rw [Function.update_self, some_inj] at hU
        subst hU
        exact ⟨t, hT, settle_id cfg p s.tasks t, .inl ⟨rfl, rfl⟩⟩
      · rw [Function.update_of_ne hId] at hU
        exact ⟨u, hU, rfl, .inr ⟨hId, rfl⟩⟩
    refine ⟨?_, ?_, ?_⟩
    · obtain ⟨r, hFind⟩ := h.row
      obtain ⟨new, hNew, -⟩ := find?_poll cfg hT hFind
      exact ⟨new, hNew⟩
    · intro id id' u u' hU hU' hEq
      obtain ⟨v, hV, hVId, -⟩ := hMem id u hU
      obtain ⟨v', hV', hVId', -⟩ := hMem id' u' hU'
      exact h.inj id id' v v' hV hV' (by rw [← hVId, ← hVId', hEq])
    · intro id u hU hId
      obtain ⟨v, hV, hVId, ⟨rfl, rfl⟩ | ⟨hNe, rfl⟩⟩ := hMem id u hU
      · rw [hT] at hV
        cases hV
        have hKey : t.id = k := hVId.symm.trans hId
        rw [(settle_settles cfg p s.tasks t).quota, net, adjusted_poll hT, if_pos hKey,
          Task.quota_eq_of_charge (updateVideoSingleTask_charge cfg p.now t p.reply),
          h.quota _ t hT hKey, net]
        omega
      · have hKey : t.id ≠ k := fun hk => hNe (h.inj _ _ _ _ hV hT (hId.trans hk.symm))
        rw [net, adjusted_poll hT, if_neg hKey, Int.add_zero]
        exact h.quota id u hV hId

theorem Loaded.exact_poll_iff {preCharge : Int} (h : Loaded preCharge k s)
    (hExact : s.Exact preCharge k) (p : Poll) :
    (s.poll cfg p).Exact preCharge k ↔ ¬ s.Adjusts cfg k p := by
  cases hT : s.taskM p.taskId with
  | none =>
    simp only [Round.poll, hT]
    refine iff_of_true hExact ?_
    rintro ⟨t, a, hSome, -⟩
    rw [hT] at hSome
    cases hSome
  | some t =>
    obtain ⟨r, hFind⟩ := h.row
    obtain ⟨new, hNew, hQuota⟩ := find?_poll cfg hT hFind
    -- whichever row is stored, it has what was taken before the poll
    have hOld : new.quota = s.net preCharge k := by
      rcases hQuota with rfl | ⟨hId, hEq⟩
      · exact hExact new hFind
      · rw [hEq]
        exact h.quota _ t hT hId
    have hIff : (s.poll cfg p).Exact preCharge k ↔
        s.net preCharge k = (s.poll cfg p).net preCharge k := by
      unfold Exact
      rw [hNew]
      simp only [some_inj, forall_eq', hOld]
    rw [hIff, adjusts_iff hT]
    by_cases hId : t.id = k
    · rw [net, net, adjusted_poll hT, if_pos hId]
      cases hA : (p.settle cfg s.tasks t).2 with
      | none => simp
      | some a =>
        have hDelta := (settle_settles cfg p s.tasks t).delta a (by rw [hA]; rfl)
        simp only [map_some, getD_some, hId, ne_eq, reduceCtorEq, not_false_eq_true, and_self,
          not_true_eq_false, iff_false]
        omega
    · rw [net, net, adjusted_poll hT, if_neg hId]
      simp [hId]

theorem loaded_start (cfg : Settings) {tasks : Table Task} {r : Task}
    (hRow : tasks.find? k = some r) (channelType : String) :
    Loaded r.quota k (start cfg tasks channelType) where
  row := ⟨r, hRow⟩
  inj := by
    intro id id' t t' hT hT' hEq
    have hMem := (mem_roundTasks (mem_taskMOf hT)).1
    have hMem' := (mem_roundTasks (mem_taskMOf hT')).1
    obtain rfl : t = t' := tasks.key_inj hMem hMem' hEq
    have hId : ∀ {i : String}, taskMOf cfg (roundTasks cfg tasks (.video channelType)) i = some t →
        t.getUpstreamTaskID cfg = i := by
      intro i hI
      have hBoth := (mem_filter.mp (mem_of_getLast? hI)).2
      exact (of_decide_eq_true hBoth).1
    rw [← hId hT, ← hId hT']
  quota := by
    intro id t hT hId
    have hMem := (mem_roundTasks (mem_taskMOf hT)).1
    have hFind : tasks.find? k = some t := Table.find?_eq_some.mpr ⟨hMem, hId⟩
    rw [hRow] at hFind
    cases hFind
    exact (Int.add_zero _).symm

/-- **A row says what was taken for its task exactly when no settlement moves money for it.** -/
theorem row_exact_iff (cfg : Settings) {tasks : Table Task} {r : Task}
    (hRow : tasks.find? k = some r) (channelType : String) (polls : List Poll) :
    (∀ s ∈ states (Round.poll cfg) (start cfg tasks channelType) polls, s.Exact r.quota k) ↔
      ∀ move ∈ moves (Round.poll cfg) (start cfg tasks channelType) polls,
        ¬ move.1.Adjusts cfg k move.2 := by
  refine states_forall_iff (Round.poll cfg) (I := Loaded r.quota k)
    (G := fun s p => ¬ s.Adjusts cfg k p) (fun s p h => h.poll p)
    (fun s p h hExact => h.exact_poll_iff hExact p) polls _ (loaded_start cfg hRow channelType) ?_
  intro r' hFind
  change tasks.find? k = some r' at hFind
  rw [hRow] at hFind
  cases hFind
  exact (Int.add_zero _).symm

def oneVideo : Table Task :=
  Table.empty.insert (initTask (demoTask (.video "50") "u") 1800000000) (key_initTask _ _)

def succeeds (adjusted : Int) : Poll where
  taskId := "u"
  now := 1800000100
  reply := .parsed "" { status := .success } .unreadable
  completion :=
    { pricing := ⟨false, [], none, "", none, fun _ => 1, fun _ => none⟩
      adjusted := adjusted, totalTokens := 0, fundingOk := true }

theorem unadjusted_row_exact :
    ((start demoSettings oneVideo "50").poll demoSettings (succeeds 0)).Exact 500 1 := by
  refine (row_exact_iff demoSettings (r := initTask (demoTask (.video "50") "u") 1800000000 1) rfl
    "50" [succeeds 0]).mpr ?_ _ (mem_cons_of_mem _ mem_cons_self)
  refine forall_mem_cons.mpr ⟨?_, fun move hMove => absurd hMove not_mem_nil⟩
  rintro ⟨t, a, hT, hA, -⟩
  cases hT
  cases hA

/-- **The row keeps the charge in advance**: 700 was taken, and it says 500. -/
theorem adjusted_row_stale :
    let s := [succeeds 700].foldl (Round.poll demoSettings) (start demoSettings oneVideo "50")
    (s.tasks.find? 1).map (fun r => (r.status, r.quota)) = some (.success, 500) ∧
      s.net 500 1 = 700 ∧ ¬ s.Exact 500 1 := by
  refine ⟨by decide, by decide, fun hExact => ?_⟩
  have hNe : (500 : Int) = 700 := hExact _ rfl
  exact absurd hNe (by decide)

end Round

end NewApi.Tasks
