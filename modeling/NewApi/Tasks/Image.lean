import NewApi.Billing.Price
import NewApi.Billing.Settle
import NewApi.Tasks.Async

/-!
# Image requests that finish in the background

The request is charged, a task row is inserted, and a goroutine asks the upstream, which races with
`sweepTimedOutTasks` for the row.  The sweep bills by the row, whose quota the price helper leaves
at zero: so it gives back nothing.  `calls` and `refunds` are history variables.
-/

namespace NewApi.Tasks

open Core Billing List Option Table

/-! ## The request -/

def generateTaskID (random : String) : String := "task_" ++ random

def newImageTask (price : PriceData) (info : RelayInfo) (channelId : Int) (taskID : String)
    (now id : Int) : Task where
  id := id
  taskID := taskID
  platform := .asyncTask
  userId := info.userId
  channelId := channelId
  quota := price.quota
  status := .submitted
  failReason := ""
  submitTime := now
  startTime := now
  finishTime := 0
  progress := "0%"
  upstreamTaskID := ""
  resultURL := ""
  billingSource := none
  subscriptionId := 0
  tokenId := 0
  data := ""

theorem key_newImageTask (price : PriceData) (info : RelayInfo) (channelId : Int) (taskID : String)
    (now id : Int) : Row.key (newImageTask price info channelId taskID now id) = id := rfl

def truncateReason (reason : String) : String :=
  if reason.length ≤ 500 then reason else String.ofList (reason.toList.take 500) ++ "..."

/-- The captured response and the quota it costs, or why there is none. -/
inductive ImageResult where
  | failed (apiErr : String)
  | noData
  | unmarshalled (err : String)
  | captured (data : String) (quota : Int)

inductive ImageReply where
  | requestFailed (err : String)
  | invalidResponse
  | response (statusCode : Nat) (replicate : Bool) (apiErr : String) (result : ImageResult)
  | panicked (text : String)

inductive ImageOutcome where
  | failed (reason : String)
  | succeeded (data : String) (quota : Int)

def ImageReply.outcome : ImageReply → ImageOutcome
  | .requestFailed err => .failed (truncateReason ("upstream request failed: " ++ err))
  | .invalidResponse => .failed (truncateReason "upstream returned invalid response")
  | .panicked text => .failed ("internal error: " ++ text)
  | .response statusCode replicate apiErr result =>
    -- a replicate channel answers 201 when it was asked to wait
    if statusCode ≠ 200 ∧ ¬(statusCode = 201 ∧ replicate) then .failed (truncateReason apiErr)
    else
      match result with
      | .failed apiErr => .failed (truncateReason apiErr)
      | .noData => .failed (truncateReason "upstream succeeded but no image data captured")
      | .unmarshalled err =>
        .failed (truncateReason ("marshal captured image response failed: " ++ err))
      | .captured data quota => .succeeded data quota

def ImageOutcome.mark (tasks : Table Task) (taskID : String) (now : Int) :
    ImageOutcome → Option Write
  | .failed reason => failTask tasks taskID reason now
  | .succeeded data _ => succeedTask tasks taskID data now

def ImageOutcome.call : ImageOutcome → SessionCall
  | .failed _ => .refund
  | .succeeded _ quota => .settle quota

/-! ## The race -/

inductive Goroutine where
  | running
  | marking (w : Write) (outcome : ImageOutcome)
  | billing (outcome : ImageOutcome)
  | done

structure Sweeper where
  pending : List Write
  owes : Option Task

def Sweeper.rest : Sweeper := ⟨[], none⟩

def Sweeper.Idle (sw : Sweeper) : Prop := sw.pending = [] ∧ sw.owes = none

instance Sweeper.decidableIdle (sw : Sweeper) : Decidable sw.Idle :=
  decidable_of_iff (sw.pending.isEmpty ∧ sw.owes = none)
    (by unfold Sweeper.Idle; rw [List.isEmpty_iff])

def Write.due : Write → Option Task
  | .swap new _ => if new.isLegacy = false ∧ new.quota ≠ 0 then some new else none
  | .save _ => none

structure Images (σ : Type) where
  tasks : Table Task
  goroutine : Goroutine
  billing : σ × BillingSession
  calls : List SessionCall
  sweeps : Nat → Sweeper
  refunds : List Refund

inductive ImageAct where
  /-- The goroutine has its answer and reads the row. -/
  | reply (r : ImageReply) (now : Int)
  | mark
  | bill
  | sweep (p : Nat) (now : Int)
  | next (p : Nat)

namespace Images

variable {σ : Type} (B : BillingStore σ) (bcfg : BillingConfig) (cfg : Settings) (taskID : String)

def setSweep (s : Images σ) (p : Nat) (tasks : Table Task) (sw : Sweeper) : Images σ :=
  { s with tasks := tasks, sweeps := Function.update s.sweeps p sw }

def step (s : Images σ) : ImageAct → Images σ
  | .reply r now =>
    match s.goroutine with
    | .running =>
      match r.outcome.mark s.tasks taskID now with
      | none => { s with goroutine := .done }
      | some w => { s with goroutine := .marking w r.outcome }
    | _ => s
  | .mark =>
    match s.goroutine with
    | .marking w outcome =>
      let result := w.apply s.tasks
      { s with
        tasks := result.1
        goroutine := if result.2 then .billing outcome else .done }
    | _ => s
  | .bill =>
    match s.goroutine with
    | .billing outcome =>
      { s with
        billing := outcome.call.run B bcfg s.billing
        calls := s.calls ++ [outcome.call]
        goroutine := .done }
    | _ => s
  | .sweep p now =>
    if (s.sweeps p).Idle then s.setSweep p s.tasks ⟨sweepTimedOutTasks cfg s.tasks now, none⟩
    else s
  | .next p =>
    match (s.sweeps p).owes, (s.sweeps p).pending with
    | some t, pending =>
      { s.setSweep p s.tasks ⟨pending, none⟩ with
        refunds := s.refunds ++ (refundTaskQuota t).toList }
    | none, [] => s
    | none, w :: rest =>
      let result := w.apply s.tasks
      s.setSweep p result.1 ⟨rest, if result.2 then w.due else none⟩

def start (tasks : Table Task) (price : PriceData) (info : RelayInfo) (channelId : Int) (now : Int)
    (billing : σ × BillingSession) : Images σ where
  tasks := tasks.insert (newImageTask price info channelId taskID now)
    (key_newImageTask price info channelId taskID now)
  goroutine := .running
  billing := billing
  calls := []
  sweeps := fun _ => .rest
  refunds := []

end Images

/-! ## What should come out -/

def accountOf : Funding → FundingSource
  | .wallet w => .wallet w.userId
  | .subscription f => .subscription f.subscriptionId

def Images.refundsOf {σ : Type} (s : Images σ) (k : Int) : List Refund :=
  s.refunds.filter fun r => r.taskId = k

/-- **The charge of `session` was resolved**: settled once, or given back once and in full. -/
def Images.Resolved {σ : Type} (view : σ → Ledger) (before : Ledger) (session : BillingSession)
    (k : Int) (s : Images σ) : Prop :=
  (∃ quota, s.calls = [.settle quota] ∧ s.refundsOf k = [] ∧
      Taken before (view s.billing.1) session quota) ∨
    (s.calls = [.refund] ∧ s.refundsOf k = [] ∧ Taken before (view s.billing.1) session 0) ∨
    (s.calls = [] ∧ ∃ r, s.refundsOf k = [r] ∧ r.source = accountOf session.funding ∧
      r.amount = session.preConsumedQuota)

/-- The goroutine is done and no sweep is under way. -/
def Images.Finished {σ : Type} (s : Images σ) : Prop :=
  s.goroutine = .done ∧ ∀ p, (s.sweeps p).Idle

def Write.Wins (k : Int) (tasks : Table Task) : Write → Prop
  | .swap new fromStatus => new.id = k ∧ statusOf tasks k = some fromStatus
  | .save _ => False

def Images.SweepWins {σ : Type} (k : Int) (s : Images σ) : ImageAct → Prop
  | .next p =>
    match (s.sweeps p).owes, (s.sweeps p).pending with
    | none, w :: _ => w.Wins k s.tasks
    | _, _ => False
  | _ => False

/-! ## The row of the request -/

/-- Only the row of key `k` has the task id; it has no quota. -/
structure OwnRow (k : Int) (taskID : String) (tasks : Table Task) : Prop where
  named : ∀ r ∈ tasks.rows, r.taskID = taskID ↔ r.id = k
  own : ∃ r, tasks.find? k = some r ∧ r.quota = 0 ∧ (r.status = .submitted ∨ r.status.Done)

def Write.Fits (k : Int) (taskID : String) : Write → Prop
  | .swap new fromStatus =>
    (new.taskID = taskID ↔ new.id = k) ∧
      (new.id = k → new.quota = 0 ∧ new.status.Done ∧ fromStatus = .submitted)
  | .save _ => False

variable {w : Write}

section OwnRow

variable {k : Int} {taskID : String} {tasks : Table Task}

section

variable (h : OwnRow k taskID tasks)
include h

theorem OwnRow.eq_own {t : Task} (ht : t ∈ tasks.rows) (hId : t.id = k) :
    t.quota = 0 ∧ (t.status = .submitted ∨ t.status.Done) := by
  obtain ⟨r, hFind, hRow⟩ := h.own
  obtain ⟨hr, hKey⟩ := find?_eq_some.mp hFind
  have hEq : t = r := tasks.key_inj ht hr (hId.trans hKey.symm)
  rwa [hEq]

theorem OwnRow.save {new : Task} {fromStatus : TaskStatus}
    (hFits : (Write.swap new fromStatus).Fits k taskID) : OwnRow k taskID (tasks.save new) := by
  refine ⟨?_, ?_⟩
  · intro r hr
    rcases mem_save hr with ⟨rfl, -⟩ | ⟨hr, -⟩
    · exact hFits.1
    · exact h.named r hr
  obtain ⟨r, hFind, hRow⟩ := h.own
  by_cases hk : new.id = k
  · obtain ⟨hQuota, hDone, -⟩ := hFits.2 hk
    refine ⟨new, ?_, hQuota, .inr hDone⟩
    rw [← hk]
    exact find?_save_of_isSome (by rw [hk, hFind]; rfl)
  · exact ⟨r, by rw [find?_save_of_ne_id hk, hFind], hRow⟩

theorem OwnRow.apply (hFits : w.Fits k taskID) :
    OwnRow k taskID (w.apply tasks).1 := by
  cases w with
  | save new => exact hFits.elim
  | swap new fromStatus =>
    rcases updateWithStatus_cases tasks new fromStatus with ⟨-, hSwap⟩ | ⟨-, hSwap⟩
    · rw [Write.apply, hSwap]
      exact h.save hFits
    · rw [Write.apply, hSwap]
      exact h

theorem OwnRow.sweep {cfg : Settings} {now : Int} (hw : w ∈ sweepTimedOutTasks cfg tasks now) :
    w.Fits k taskID := by
  unfold sweepTimedOutTasks at hw
  split at hw
  · cases hw
  obtain ⟨t, ht, rfl⟩ := mem_map.mp hw
  obtain ⟨hRow, hOpen⟩ := mem_getTimedOutUnfinishedTasks ht
  refine ⟨h.named t hRow, fun hId => ?_⟩
  obtain ⟨hQuota, hStatus⟩ := h.eq_own hRow hId
  exact ⟨hQuota, .inl rfl, hStatus.resolve_right hOpen.not_done⟩

theorem OwnRow.getByOnlyTaskId (hID : taskID ≠ "") :
    ∃ r, getByOnlyTaskId tasks taskID = some r ∧ r ∈ tasks.rows ∧ r.id = k ∧ r.taskID = taskID := by
  obtain ⟨r, hFind, -⟩ := h.own
  obtain ⟨hr, hKey⟩ := find?_eq_some.mp hFind
  have hSome : (tasks.rows.find? fun t => t.taskID = taskID).isSome := by
    rw [find?_isSome]
    exact ⟨r, hr, decide_eq_true ((h.named r hr).mpr hKey)⟩
  obtain ⟨x, hx⟩ := isSome_iff_exists.mp hSome
  have hMem := mem_of_find?_eq_some hx
  have hName : x.taskID = taskID := by simpa using find?_some hx
  exact ⟨x, by rw [Tasks.getByOnlyTaskId, if_neg hID, hx], hMem, (h.named x hMem).mp hName, hName⟩

theorem OwnRow.finishTask (hID : taskID ≠ "") {finish : Task → Task}
    (hFinish : ∀ r, (finish r).id = r.id ∧ (finish r).taskID = r.taskID ∧
      (finish r).quota = r.quota ∧ (finish r).status.Done) :
    (finishTask tasks taskID finish = none ∧ statusOf tasks k ≠ some .submitted) ∨
      ∃ new, finishTask tasks taskID finish = some (.swap new .submitted) ∧ new.id = k ∧
        (Write.swap new .submitted).Fits k taskID := by
  obtain ⟨r, hRead, hr, hId, hName⟩ := h.getByOnlyTaskId hID
  obtain ⟨hQuota, hStatus⟩ := h.eq_own hr hId
  obtain ⟨hNewId, hNewName, hNewQuota, hNewDone⟩ := hFinish r
  unfold Tasks.finishTask
  simp only [hRead]
  by_cases hDone : r.status.Done
  · refine .inl ⟨if_pos hDone, ?_⟩
    have hFind : tasks.find? k = some r := find?_eq_some.mpr ⟨hr, hId⟩
    rw [statusOf, hFind, map_some, ne_eq, some_inj]
    intro hSub
    rw [hSub] at hDone
    exact absurd hDone (by decide)
  · have hSub : r.status = .submitted := hStatus.resolve_right hDone
    refine .inr ⟨finish r, by rw [if_neg hDone, hSub], hNewId.trans hId, ?_, fun _ => ?_⟩
    · rw [hNewName, hNewId]
      exact h.named r hr
    · exact ⟨hNewQuota.trans hQuota, hNewDone, rfl⟩

theorem OwnRow.mark (hID : taskID ≠ "") (now : Int) (outcome : ImageOutcome) :
    (outcome.mark tasks taskID now = none ∧ statusOf tasks k ≠ some .submitted) ∨
      ∃ new, outcome.mark tasks taskID now = some (.swap new .submitted) ∧ new.id = k ∧
        (Write.swap new .submitted).Fits k taskID := by
  cases outcome with
  | failed reason => exact h.finishTask hID fun r => ⟨rfl, rfl, rfl, .inl rfl⟩
  | succeeded data quota => exact h.finishTask hID fun r => ⟨rfl, rfl, rfl, .inr rfl⟩

theorem OwnRow.status_of_wins (hFits : w.Fits k taskID) (hWins : w.Wins k tasks) :
    statusOf (w.apply tasks).1 k ≠ some .submitted := by
  cases w with
  | save new => exact hFits.elim
  | swap new fromStatus =>
    obtain ⟨rfl, hFrom⟩ := hWins
    obtain ⟨r, hFind, -⟩ := h.own
    obtain ⟨-, hDone, -⟩ := hFits.2 rfl
    rw [Write.apply, updateWithStatus, if_pos hFrom, statusOf,
      find?_save_of_isSome (by rw [hFind]; rfl), map_some, ne_eq, some_inj]
    intro hSub
    rw [hSub] at hDone
    exact absurd hDone (by decide)

end

section

variable (hFits : w.Fits k taskID)
include hFits

theorem Write.status_of_not_wins (hNot : ¬ w.Wins k tasks) :
    statusOf (w.apply tasks).1 k = statusOf tasks k := by
  cases w with
  | save new => exact hFits.elim
  | swap new fromStatus =>
    rcases updateWithStatus_cases tasks new fromStatus with ⟨hFrom, hSwap⟩ | ⟨-, hSwap⟩
    · have hk : new.id ≠ k := by
        rintro rfl
        exact hNot ⟨rfl, hFrom⟩
      rw [Write.apply, hSwap, statusOf, find?_save_of_ne_id hk, statusOf]
    · rw [Write.apply, hSwap]

theorem Write.not_wins (hStatus : statusOf tasks k ≠ some .submitted) :
    ¬ w.Wins k tasks := by
  cases w with
  | save new => exact hFits.elim
  | swap new fromStatus =>
    rintro ⟨hId, hFrom⟩
    obtain ⟨-, -, rfl⟩ := hFits.2 hId
    exact hStatus hFrom

theorem Write.status_of_closed (hStatus : statusOf tasks k ≠ some .submitted) :
    statusOf (w.apply tasks).1 k ≠ some .submitted := by
  rw [Write.status_of_not_wins hFits (Write.not_wins hFits hStatus)]
  exact hStatus

theorem Write.due_ne {t : Task} (h : w.due = some t) : t.id ≠ k := by
  cases w with
  | save new => exact hFits.elim
  | swap new fromStatus =>
    rw [Write.due, ite_none_right_eq_some] at h
    obtain ⟨hDue, hEq⟩ := h
    cases hEq
    intro hId
    exact hDue.2 (hFits.2 hId).1

end

end OwnRow

/-! ## What a step does -/

namespace Images

variable {σ : Type} {B : BillingStore σ} {bcfg : BillingConfig} {cfg : Settings} {taskID : String}

inductive Step (B : BillingStore σ) (bcfg : BillingConfig) (cfg : Settings) (taskID : String)
    (s : Images σ) : ImageAct → Images σ → Prop
  | idle (a : ImageAct)
      (hRest : ∀ p, a = .next p → (s.sweeps p).owes = none ∧ (s.sweeps p).pending = []) :
      Step B bcfg cfg taskID s a s
  | gone (r : ImageReply) (now : Int) (hRunning : s.goroutine = .running)
      (hMark : r.outcome.mark s.tasks taskID now = none) :
      Step B bcfg cfg taskID s (.reply r now) { s with goroutine := .done }
  | read (r : ImageReply) (now : Int) (w : Write) (hRunning : s.goroutine = .running)
      (hMark : r.outcome.mark s.tasks taskID now = some w) :
      Step B bcfg cfg taskID s (.reply r now) { s with goroutine := .marking w r.outcome }
  | mark (w : Write) (outcome : ImageOutcome) (hMarking : s.goroutine = .marking w outcome) :
      Step B bcfg cfg taskID s .mark
        { s with
          tasks := (w.apply s.tasks).1
          goroutine := if (w.apply s.tasks).2 then .billing outcome else .done }
  | bill (outcome : ImageOutcome) (hBilling : s.goroutine = .billing outcome) :
      Step B bcfg cfg taskID s .bill
        { s with
          billing := outcome.call.run B bcfg s.billing
          calls := s.calls ++ [outcome.call]
          goroutine := .done }
  | sweep (p : Nat) (now : Int) :
      Step B bcfg cfg taskID s (.sweep p now)
        (s.setSweep p s.tasks ⟨sweepTimedOutTasks cfg s.tasks now, none⟩)
  | refund (p : Nat) (t : Task) (hOwes : (s.sweeps p).owes = some t) :
      Step B bcfg cfg taskID s (.next p)
        { s.setSweep p s.tasks ⟨(s.sweeps p).pending, none⟩ with
          refunds := s.refunds ++ (refundTaskQuota t).toList }
  | write (p : Nat) (w : Write) (rest : List Write) (hOwes : (s.sweeps p).owes = none)
      (hPending : (s.sweeps p).pending = w :: rest) :
      Step B bcfg cfg taskID s (.next p)
        (s.setSweep p (w.apply s.tasks).1
          ⟨rest, if (w.apply s.tasks).2 then w.due else none⟩)

theorem step_step (s : Images σ) (a : ImageAct) :
    Step B bcfg cfg taskID s a (step B bcfg cfg taskID s a) := by
  cases a with simp only [step]
  | reply r now =>
    split
    · next hG =>
      split
      · next hMark => exact .gone r now hG hMark
      · next w hMark => exact .read r now w hG hMark
    · exact .idle _ nofun
  | mark =>
    split
    · next w outcome hG => exact .mark w outcome hG
    · exact .idle _ nofun
  | bill =>
    split
    · next outcome hG => exact .bill outcome hG
    · exact .idle _ nofun
  | sweep p now =>
    split
    · exact .sweep p now
    · exact .idle _ nofun
  | next p =>
    split
    · next t hOwes => exact .refund p t hOwes
    · next hOwes hPending =>
      refine .idle _ fun q hq => ?_
      cases hq
      exact ⟨hOwes, hPending⟩
    · next w rest hOwes hPending => exact .write p w rest hOwes hPending

/-! ## What every state has -/

/-- The row is as it should be, every pending write respects it, and no sweep refunds it. -/
structure Tracked (k : Int) (taskID : String) (s : Images σ) : Prop where
  row : OwnRow k taskID s.tasks
  sweeps : ∀ p, ∀ w ∈ (s.sweeps p).pending, w.Fits k taskID
  owes : ∀ p t, (s.sweeps p).owes = some t → t.id ≠ k
  marks : ∀ w outcome, s.goroutine = .marking w outcome →
    ∃ new, w = .swap new .submitted ∧ new.id = k ∧ w.Fits k taskID
  refunds : s.refundsOf k = []

theorem Tracked.setSweep {k : Int} {s : Images σ} (h : Tracked k taskID s) {p : Nat}
    {tasks : Table Task} {sw : Sweeper} (hRow : OwnRow k taskID tasks)
    (hPending : ∀ w ∈ sw.pending, w.Fits k taskID) (hOwes : ∀ t, sw.owes = some t → t.id ≠ k) :
    Tracked k taskID (s.setSweep p tasks sw) where
  row := hRow
  sweeps := (Function.forall_update_iff s.sweeps
    fun _ (sw : Sweeper) => ∀ w ∈ sw.pending, w.Fits k taskID).mpr ⟨hPending, fun q _ => h.sweeps q⟩
  owes := (Function.forall_update_iff s.sweeps
    fun _ (sw : Sweeper) => ∀ t, sw.owes = some t → t.id ≠ k).mpr ⟨hOwes, fun q _ => h.owes q⟩
  marks := h.marks
  refunds := h.refunds

theorem Tracked.step {k : Int} {s t : Images σ} {a : ImageAct} (h : Tracked k taskID s)
    (hID : taskID ≠ "") (hStep : Step B bcfg cfg taskID s a t) : Tracked k taskID t := by
  cases hStep with
  | idle => exact h
  | gone r now =>
    refine { h with marks := fun w outcome hG => ?_ }
    cases hG
  | read r now w hRunning hMark =>
    refine { h with marks := ?_ }
    rintro v outcome hG
    cases hG
    rcases h.row.mark hID now r.outcome with ⟨hNone, -⟩ | ⟨new, hSome, hId, hFits⟩
    · rw [hNone] at hMark
      cases hMark
    · rw [hSome] at hMark
      cases hMark
      exact ⟨new, rfl, hId, hFits⟩
  | mark w outcome hMarking =>
    obtain ⟨new, hSwap, hId, hFits⟩ := h.marks w outcome hMarking
    refine { h with row := h.row.apply hFits, marks := ?_ }
    intro v o hG
    split at hG <;> cases hG
  | bill outcome =>
    refine { h with marks := fun w o hG => ?_ }
    cases hG
  | sweep p now =>
    refine h.setSweep h.row (fun w hw => h.row.sweep hw) fun t ht => ?_
    cases ht
  | refund p t hOwes =>
    have hSweep : Tracked k taskID (s.setSweep p s.tasks ⟨(s.sweeps p).pending, none⟩) := by
      refine h.setSweep h.row (h.sweeps p) fun t ht => ?_
      cases ht
    refine { hSweep with refunds := ?_ }
    have hRest := h.refunds
    rw [refundsOf, filter_eq_nil_iff] at hRest ⊢
    intro r hr
    rcases mem_append.mp hr with hr | hr
    · exact hRest r hr
    have hId : r.taskId = t.id := by
      rw [mem_toList, refundTaskQuota, ite_none_left_eq_some] at hr
      obtain ⟨-, hEq⟩ := hr
      cases hEq
      rfl
    simpa [hId] using h.owes p t hOwes
  | write p w rest hOwes hPending =>
    have hMem : ∀ v ∈ w :: rest, v.Fits k taskID := by
      rw [← hPending]
      exact h.sweeps p
    have hFits : w.Fits k taskID := hMem w mem_cons_self
    refine h.setSweep (h.row.apply hFits) (fun v hv => hMem v (mem_cons_of_mem w hv)) ?_
    intro t ht
    split at ht
    · exact Write.due_ne hFits ht
    · cases ht

/-! ## Who wins -/

/-- The goroutine has won the row or can still win it; `start` is the session after the
charge. -/
inductive Ahead (B : BillingStore σ) (bcfg : BillingConfig) (k : Int)
    (start : σ × BillingSession) (s : Images σ) : Prop
  | running (hStatus : statusOf s.tasks k = some .submitted)
      (hGoroutine : s.goroutine = .running ∨ ∃ w outcome, s.goroutine = .marking w outcome)
      (hCalls : s.calls = []) (hBilling : s.billing = start)
  | won (outcome : ImageOutcome) (hStatus : statusOf s.tasks k ≠ some .submitted)
      (hGoroutine : s.goroutine = .billing outcome)
      (hCalls : s.calls = []) (hBilling : s.billing = start)
  | billed (outcome : ImageOutcome) (hStatus : statusOf s.tasks k ≠ some .submitted)
      (hGoroutine : s.goroutine = .done)
      (hCalls : s.calls = [outcome.call]) (hBilling : s.billing = outcome.call.run B bcfg start)

/-- A sweep has won the row, and the goroutine will not bill. -/
structure Behind (k : Int) (s : Images σ) : Prop where
  status : statusOf s.tasks k ≠ some .submitted
  goroutine : ∀ outcome, s.goroutine ≠ .billing outcome
  calls : s.calls = []

variable {k : Int} {start : σ × BillingSession} {s t : Images σ} {a : ImageAct}

theorem Ahead.not_behind (h : Ahead B bcfg k start s) : ¬ Behind k s := by
  intro hBehind
  cases h with
  | running hStatus => exact hBehind.status hStatus
  | won outcome _ hGoroutine => exact hBehind.goroutine outcome hGoroutine
  | billed outcome _ _ hCalls =>
    rw [hBehind.calls] at hCalls
    cases hCalls

theorem Ahead.congr (h : Ahead B bcfg k start s) (hStatus : statusOf t.tasks k = statusOf s.tasks k)
    (hGoroutine : t.goroutine = s.goroutine) (hCalls : t.calls = s.calls)
    (hBilling : t.billing = s.billing) : Ahead B bcfg k start t := by
  cases h with
  | running h₁ h₂ h₃ h₄ =>
    exact .running (hStatus.trans h₁) (by rwa [hGoroutine]) (hCalls.trans h₃) (hBilling.trans h₄)
  | won outcome h₁ h₂ h₃ h₄ =>
    exact .won outcome (by rwa [hStatus]) (hGoroutine.trans h₂) (hCalls.trans h₃)
      (hBilling.trans h₄)
  | billed outcome h₁ h₂ h₃ h₄ =>
    exact .billed outcome (by rwa [hStatus]) (hGoroutine.trans h₂) (hCalls.trans h₃)
      (hBilling.trans h₄)

theorem apply_marks {new : Task} (hId : new.id = k) :
    ((Write.swap new .submitted).apply s.tasks).2 = true ↔
      statusOf s.tasks k = some .submitted := by
  subst hId
  rcases updateWithStatus_cases s.tasks new .submitted with ⟨hFrom, hSwap⟩ | ⟨hFrom, hSwap⟩
  · rw [Write.apply, hSwap]
    exact iff_of_true rfl hFrom
  · rw [Write.apply, hSwap]
    exact iff_of_false Bool.false_ne_true hFrom

theorem not_past (hG : s.goroutine = .running ∨ ∃ w o, s.goroutine = .marking w o) :
    s.goroutine ≠ .done ∧ ∀ o, s.goroutine ≠ .billing o := by
  rcases hG with hG | ⟨w, o, hG⟩ <;> simp [hG]

section

variable (h : Ahead B bcfg k start s)
include h

theorem Ahead.undecided (hG : s.goroutine = .running ∨ ∃ w o, s.goroutine = .marking w o) :
    statusOf s.tasks k = some .submitted ∧ s.calls = [] ∧ s.billing = start := by
  cases h with
  | running hStatus _ hCalls hBilling => exact ⟨hStatus, hCalls, hBilling⟩
  | won o _ hWon => exact absurd hWon ((not_past hG).2 o)
  | billed o _ hDone => exact absurd hDone (not_past hG).1

theorem Ahead.of_wins (hFits : w.Fits k taskID) (hWins : w.Wins k s.tasks) :
    (∀ outcome, s.goroutine ≠ .billing outcome) ∧ s.calls = [] := by
  cases h with
  | running _ hG hCalls => exact ⟨(not_past hG).2, hCalls⟩
  | won _ hStatus | billed _ hStatus => exact absurd hWins (Write.not_wins hFits hStatus)

theorem Ahead.bill {outcome : ImageOutcome} (hBill : s.goroutine = .billing outcome) :
    Ahead B bcfg k start
      { s with
        billing := outcome.call.run B bcfg s.billing
        calls := s.calls ++ [outcome.call]
        goroutine := .done } := by
  cases h with
  | running _ hG => exact absurd hBill ((not_past hG).2 outcome)
  | won o hStatus hG hCalls hBilling =>
    refine .billed outcome hStatus rfl ?_ ?_
    · rw [hCalls]; rfl
    · rw [hBilling]
  | billed _ _ hG => cases hG.symm.trans hBill

theorem Ahead.step (hTracked : Tracked k taskID s) (hID : taskID ≠ "")
    (hStep : Step B bcfg cfg taskID s a t) :
    (¬ s.SweepWins k a ∧ Ahead B bcfg k start t) ∨ (s.SweepWins k a ∧ Behind k t) := by
  cases hStep with
  | idle a hRest =>
    refine .inl ⟨?_, h⟩
    cases a with
    | next p =>
      obtain ⟨hOwes, hPending⟩ := hRest p rfl
      simp only [SweepWins, hOwes, hPending, not_false_eq_true]
    | reply | mark | bill | sweep => exact id
  | gone r now hRunning hMark =>
    obtain ⟨hStatus, -, -⟩ := h.undecided (.inl hRunning)
    rcases hTracked.row.mark hID now r.outcome with ⟨-, hNot⟩ | ⟨new, hSome, -⟩
    · exact absurd hStatus hNot
    · cases hMark.symm.trans hSome
  | read r now w hRunning hMark =>
    obtain ⟨hStatus, hCalls, hBilling⟩ := h.undecided (.inl hRunning)
    exact .inl ⟨id, .running hStatus (.inr ⟨w, r.outcome, rfl⟩) hCalls hBilling⟩
  | mark w outcome hMarking =>
    obtain ⟨hStatus, hCalls, hBilling⟩ := h.undecided (.inr ⟨w, outcome, hMarking⟩)
    obtain ⟨new, rfl, hId, hFits⟩ := hTracked.marks w outcome hMarking
    refine .inl ⟨id, .won outcome ?_ (if_pos ((apply_marks hId).mpr hStatus)) hCalls hBilling⟩
    exact hTracked.row.status_of_wins hFits ⟨hId, hStatus⟩
  | bill outcome hBill => exact .inl ⟨id, h.bill hBill⟩
  | sweep p now => exact .inl ⟨id, h.congr rfl rfl rfl rfl⟩
  | refund p r hOwes =>
    refine .inl ⟨?_, h.congr rfl rfl rfl rfl⟩
    simp only [SweepWins, hOwes, not_false_eq_true]
  | write p w rest hOwes hPending =>
    have hFits : w.Fits k taskID := hTracked.sweeps p w (by rw [hPending]; exact mem_cons_self)
    simp only [SweepWins, hOwes, hPending]
    by_cases hWins : w.Wins k s.tasks
    · obtain ⟨hNotBilling, hCalls⟩ := h.of_wins hFits hWins
      exact .inr ⟨hWins, hTracked.row.status_of_wins hFits hWins, hNotBilling, hCalls⟩
    · exact .inl ⟨hWins, h.congr (Write.status_of_not_wins hFits hWins) rfl rfl rfl⟩

end

theorem Behind.step (h : Behind k s) (hTracked : Tracked k taskID s)
    (hStep : Step B bcfg cfg taskID s a t) : Behind k t := by
  cases hStep with
  | idle => exact h
  | gone r now | read r now w => exact ⟨h.status, nofun, h.calls⟩
  | mark w outcome hMarking =>
    obtain ⟨new, rfl, hId, hFits⟩ := hTracked.marks w outcome hMarking
    refine ⟨Write.status_of_closed hFits h.status, fun o hG => ?_, h.calls⟩
    rw [if_neg (fun hWon => h.status ((apply_marks hId).mp hWon))] at hG
    cases hG
  | bill outcome hBill => exact absurd hBill (h.goroutine outcome)
  | sweep p now | refund p r => exact ⟨h.status, h.goroutine, h.calls⟩
  | write p w rest hOwes hPending =>
    have hFits : w.Fits k taskID := hTracked.sweeps p w (by rw [hPending]; exact mem_cons_self)
    exact ⟨Write.status_of_closed hFits h.status, h.goroutine, h.calls⟩

def Raced (B : BillingStore σ) (bcfg : BillingConfig) (k : Int) (taskID : String)
    (start : σ × BillingSession) (s : Images σ) : Prop :=
  Tracked k taskID s ∧ (Ahead B bcfg k start s ∨ Behind k s)

section

variable (h : Raced B bcfg k taskID start s)
include h

theorem Raced.step (hID : taskID ≠ "") (a : ImageAct) :
    Raced B bcfg k taskID start (Images.step B bcfg cfg taskID s a) := by
  obtain ⟨hTracked, hRace⟩ := h
  refine ⟨hTracked.step hID (step_step s a), ?_⟩
  rcases hRace with hAhead | hBehind
  · rcases hAhead.step hTracked hID (step_step s a) with ⟨-, hNext⟩ | ⟨-, hNext⟩
    · exact .inl hNext
    · exact .inr hNext
  · exact .inr (hBehind.step hTracked (step_step s a))

theorem Raced.ahead_foldl_iff (hAhead : Ahead B bcfg k start s) (hID : taskID ≠ "")
    (acts : List ImageAct) :
    Ahead B bcfg k start (acts.foldl (Images.step B bcfg cfg taskID) s) ↔
      ∀ move ∈ moves (Images.step B bcfg cfg taskID) s acts, ¬ move.1.SweepWins k move.2 := by
  refine foldl_iff_moves (Images.step B bcfg cfg taskID) (I := Raced B bcfg k taskID start)
    (G := fun s a => ¬ s.SweepWins k a) (fun s a hs => hs.step hID a) ?_ ?_ acts s h hAhead
  · intro s a hs hAhead
    rcases hAhead.step hs.1 hID (step_step s a) with ⟨hNot, hNext⟩ | ⟨hWins, hNext⟩
    · exact iff_of_true hNext hNot
    · exact iff_of_false (fun hNow => hNow.not_behind hNext) (not_not.mpr hWins)
  · intro s a hs hNot hNow
    have hBehind : Behind k s := hs.2.resolve_left hNot
    exact hNow.not_behind (hBehind.step hs.1 (step_step s a))

theorem Raced.foldl (hID : taskID ≠ "") (acts : List ImageAct) :
    Raced B bcfg k taskID start (acts.foldl (Images.step B bcfg cfg taskID) s) := by
  induction acts generalizing s with
  | nil => exact h
  | cons a acts ih => exact ih (h.step hID a)

end

/-! ## What comes out -/

variable {view : σ → Ledger} {before : Ledger}

theorem Raced.resolved_iff (hB : ExactStore B view) (h : Raced B bcfg k taskID start s)
    (hOpen : Open before (view start.1) start.2) (hPos : 0 < start.2.preConsumedQuota)
    (hDone : s.goroutine = .done) :
    s.Resolved view before start.2 k ↔ Ahead B bcfg k start s := by
  obtain ⟨hTracked, hRace⟩ := h
  constructor
  · intro hResolved
    refine hRace.resolve_right fun hBehind => ?_
    rcases hResolved with ⟨quota, hCalls, -⟩ | ⟨hCalls, -⟩ | ⟨-, r, hRefund, -⟩
    · rw [hBehind.calls] at hCalls
      cases hCalls
    · rw [hBehind.calls] at hCalls
      cases hCalls
    · rw [hTracked.refunds] at hRefund
      cases hRefund
  · intro hAhead
    cases hAhead with
    | running _ hG => exact absurd hDone (not_past hG).1
    | won _ _ hG => cases hG.symm.trans hDone
    | billed outcome _ _ hCalls hBilling =>
      cases outcome with
      | failed reason =>
        refine .inr (.inl ⟨hCalls, hTracked.refunds, ?_⟩)
        rw [hBilling]
        exact taken_run_refund hB bcfg hOpen hPos
      | succeeded data quota =>
        refine .inl ⟨quota, hCalls, hTracked.refunds, ?_⟩
        rw [hBilling]
        exact taken_run_settle hB bcfg hOpen quota

theorem raced_start (B : BillingStore σ) (bcfg : BillingConfig) {tasks : Table Task}
    {price : PriceData} (hQuota : price.quota = 0) (hNew : ∀ r ∈ tasks.rows, r.taskID ≠ taskID)
    (info : RelayInfo) (channelId now : Int) (billing : σ × BillingSession) :
    Ahead B bcfg tasks.next billing
        (Images.start taskID tasks price info channelId now billing) ∧
      Raced B bcfg tasks.next taskID billing
        (Images.start taskID tasks price info channelId now billing) := by
  have hKey := key_newImageTask price info channelId taskID now
  have hFind : (tasks.insert (newImageTask price info channelId taskID now) hKey).find? tasks.next =
      some (newImageTask price info channelId taskID now tasks.next) :=
    find?_eq_some.mpr ⟨(mem_insert hKey).mpr (.inr rfl), rfl⟩
  have hAhead : Ahead B bcfg tasks.next billing
      (Images.start taskID tasks price info channelId now billing) := by
    refine .running ?_ (.inl rfl) rfl rfl
    exact statusOf_eq_some.mpr ⟨_, hFind, rfl⟩
  refine ⟨hAhead, ⟨⟨?_, ?_⟩, ?_, ?_, ?_, rfl⟩, .inl hAhead⟩
  · intro r hr
    rcases (mem_insert hKey).mp hr with hOld | rfl
    · have hLt := (tasks.key_range r hOld).2
      rw [key_task] at hLt
      exact iff_of_false (hNew r hOld) (by omega)
    · exact iff_of_true rfl rfl
  · exact ⟨_, hFind, hQuota, .inl rfl⟩
  · intro p w hw
    cases hw
  · intro p t ht
    cases ht
  · intro w outcome hG
    cases hG

/-- **The charge of an image request is resolved exactly when no sweep wins its row.** -/
theorem image_charge_resolved_iff (hB : ExactStore B view) {input : PriceInput} {price : PriceData}
    (hPrice : modelPriceHelper input = .ok price) {info : RelayInfo} {db₀ db : σ}
    {session : BillingSession} (hHeld : (view db₀).held info.requestId = none)
    (hCharge : preConsumeBilling B bcfg price.freeModel info price.quotaToPreConsume db₀ =
      (.ok (.ok (some session)), db))
    (hPos : 0 < session.preConsumedQuota) (random : String) (tasks : Table Task)
    (hNew : ∀ r ∈ tasks.rows, r.taskID ≠ generateTaskID random) (channelId now : Int)
    (acts : List ImageAct)
    (hFinished : (acts.foldl (Images.step B bcfg cfg (generateTaskID random))
      (Images.start (generateTaskID random) tasks price info channelId now
        (db, session))).Finished) :
    (acts.foldl (Images.step B bcfg cfg (generateTaskID random))
        (Images.start (generateTaskID random) tasks price info channelId now
          (db, session))).Resolved view (view db₀) session tasks.next ↔
      ∀ move ∈ moves (Images.step B bcfg cfg (generateTaskID random))
        (Images.start (generateTaskID random) tasks price info channelId now (db, session)) acts,
        ¬ move.1.SweepWins tasks.next move.2 := by
  have hID : generateTaskID random ≠ "" := by simp [generateTaskID]
  have hOpen : Open (view db₀) (view db) session := by
    rcases preConsumeBilling_ok hCharge with ⟨hNone, -⟩ | ⟨session', hSome, hSession⟩
    · cases hNone
    · cases hSome
      obtain ⟨source, q, hStart⟩ := (hB.newBillingSession hHeld hSession).exists_new
      exact hStart.is_open (le_of_lt hPos)
  obtain ⟨hAhead, hRaced⟩ :=
    raced_start B bcfg (modelPriceHelper_quota hPrice) hNew info channelId now (db, session)
  rw [← hRaced.ahead_foldl_iff hAhead hID acts]
  exact (hRaced.foldl hID acts).resolved_iff hB hOpen hPos hFinished.1

def fiveACall : PriceInput where
  billing := .price 1
  groupRatio := 1
  promptTokens := 0
  maxTokens := 0
  imagePriceRatio := 0
  acceptUnsetRatioModel := false
  notConfigured := ""
  preConsumedQuota := 500
  quotaPerUnit := 5
  enableFreeModelPreConsume := false

def tenMinutes : Settings := ⟨10, 100, "", fun _ => ""⟩

def imageRequest (billing : Ledger × BillingSession) : Images Ledger :=
  Images.start (generateTaskID "x") Table.empty { quotaToPreConsume := 5 } walletRequest 3
    1900000000 billing

def imageArrives : List ImageAct :=
  [.reply (.response 200 false "" (.captured "image" 3)) 1900000010, .mark, .bill]

theorem fiveACall_price : modelPriceHelper fiveACall = .ok { quotaToPreConsume := 5 } :=
  congrArg Except.ok (by decide +kernel)

theorem imageArrives_resolved :
    ∃ session db, preConsumeBilling shop100 noTrust false walletRequest 5 nothingTaken =
        (.ok (.ok (some session)), db) ∧
      (imageArrives.foldl (Images.step shop100 noTrust tenMinutes (generateTaskID "x"))
        (imageRequest (db, session))).Resolved id nothingTaken session 1 := by
  have hB : ExactStore shop100 id := idealStore_exact _ _ _
  have hCharge : preConsumeBilling shop100 noTrust false walletRequest 5 nothingTaken = _ := rfl
  refine ⟨_, _, hCharge, (image_charge_resolved_iff hB fiveACall_price rfl hCharge (by decide) "x"
    empty ?_ 3 1900000000 imageArrives ⟨rfl, fun p => ⟨rfl, rfl⟩⟩).mpr ?_⟩
  · exact fun r hr => absurd hr not_mem_nil
  · refine forall_mem_cons.mpr ⟨id, forall_mem_cons.mpr ⟨id, ?_⟩⟩
    refine forall_mem_cons.mpr ⟨id, ?_⟩
    exact fun move hMove => absurd hMove not_mem_nil

def imageTimesOut : List ImageAct :=
  [.sweep 0 1900001000, .next 0, .reply (.requestFailed "reset") 1900001001]

/-- **The charge of a request that a sweep times out is neither settled nor given back.** -/
theorem timed_out_charge_kept :
    ExactStore shop100 id ∧ modelPriceHelper fiveACall = .ok { quotaToPreConsume := 5 } ∧
    ∃ session db, preConsumeBilling shop100 noTrust false walletRequest 5 nothingTaken =
        (.ok (.ok (some session)), db) ∧
      let s := imageTimesOut.foldl (Images.step shop100 noTrust tenMinutes (generateTaskID "x"))
        (imageRequest (db, session))
      s.Finished ∧ s.calls = [] ∧ s.refunds = [] ∧
        fundingTaken nothingTaken s.billing.1 session.funding = 5 ∧
        ¬ s.Resolved id nothingTaken session 1 := by
  refine ⟨idealStore_exact _ _ _, fiveACall_price, _, _, rfl, ⟨rfl, ?_⟩, rfl, rfl, rfl, ?_⟩
  · intro p
    cases p with
    | zero | succ p => exact ⟨rfl, rfl⟩
  rintro (⟨quota, hCalls, -⟩ | ⟨hCalls, -⟩ | ⟨-, r, hRefund, -⟩)
  · cases hCalls
  · cases hCalls
  · cases hRefund

end Images

end NewApi.Tasks
