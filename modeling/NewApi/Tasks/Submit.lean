import NewApi.Billing.TextQuota
import NewApi.Tasks.Image

/-!
# Image requests that the upstream answers with a task

`HandleAsyncTaskSubmit` inserts a row, and a goroutine polls the upstream, or the request itself
until its client goes away.  Money moves when the request is charged in advance, when the handler
settles the quota of the task, which is zero, and when `Relay` gives the charge back.
-/

namespace NewApi.Tasks

open Core Billing Go

/-! ## What a query says -/

inductive Answer where
  /-- `ensureChannelPollingEnabled` refuses to ask. -/
  | disabled (err : String)
  /-- There is none, or one with an HTTP error. -/
  | unreachable (reason : String)
  /-- The mapped status with the results, whether there is an image among them, and the
  diagnostic. -/
  | status (mapped results : String) (images : Bool) (errCode errMsg : String)

def succeededStatus : List String := ["succeeded", "completed", "success"]

def failedStatus : List String := ["failed", "failure", "error"]

def diagnostic (errMsg : String) : String :=
  if errMsg = "" then "upstream task failed" else errMsg

inductive Decision where
  /-- It asks again; the text is the last failure. -/
  | again (last : String)
  | progress (last : String)
  | succeed (results : String)
  | fail (reason : String)

structure PollConfig where
  syncMode : Bool
  maxAttempts : Nat
  /-- `ResultListPath` and `ResultURLPath`, quoted as in an error text. -/
  quotedPaths : String × String
  /-- `compactPollingFailureMessage`. -/
  compact : String → String

def buildPollingTimeoutReason (cfg : PollConfig) (last : String) : String :=
  let reason := "polling timeout after " ++ toString cfg.maxAttempts ++ " attempts"
  if cfg.compact last = "" then reason else reason ++ "; last failure: " ++ cfg.compact last

def startTaskPolling (cfg : PollConfig) (attempt : Nat) (last : String) (answer : Answer) :
    Decision :=
  if attempt ≥ cfg.maxAttempts then .fail (buildPollingTimeoutReason cfg last)
  else
    match answer with
    | .disabled err => .again err
    | .unreachable reason => .again reason
    | .status mapped results _ _ errMsg =>
      if mapped ∈ succeededStatus then .succeed results
      else if mapped ∈ failedStatus then .fail (diagnostic errMsg)
      else .progress last

/-- A disabled channel ends a round, and so does a success without an image. -/
def pollSynchronously (cfg : PollConfig) (attempt : Nat) (last : String) (answer : Answer) :
    Decision :=
  if attempt ≥ cfg.maxAttempts then .fail (buildPollingTimeoutReason cfg last)
  else
    match answer with
    | .disabled err => .fail err
    | .unreachable reason => .again reason
    | .status mapped results images errCode errMsg =>
      if mapped ∈ succeededStatus then
        if images then .succeed results
        else
          .fail ("async task succeeded but no image result found (result_list_path=" ++
            cfg.quotedPaths.1 ++ ", result_url_path=" ++ cfg.quotedPaths.2 ++ ")")
      else if mapped ∈ failedStatus then
        .fail ("async task failed: [" ++ errCode ++ "] " ++ diagnostic errMsg)
      else .again last

def progressText (cfg : PollConfig) (attempt : Nat) : String :=
  toString ((attempt + 1) * 100 / cfg.maxAttempts) ++ "%"

/-! ## When a request fails -/

structure ViolationFees where
  enabled : Bool
  amount : ℚ
  quotaPerUnit : ℚ
  groupRatio : ℚ

def hasCSAMViolationMarker (text : String) : Bool :=
  contains text "Failed check: SAFETY_CHECK_TYPE" || contains text "Content violates usage guidelines"

def calcViolationFeeQuota (fees : ViolationFees) : Int :=
  if fees.amount ≤ 0 then 0
  else if fees.groupRatio ≤ 0 then 0
  else
    let quota := Decimal.round (fees.amount * fees.quotaPerUnit * fees.groupRatio)
    if quota ≤ 0 then 0 else quota

def violationFee (fees : ViolationFees) (text : String) : Int :=
  if hasCSAMViolationMarker text ∧ fees.enabled then calcViolationFeeQuota fees else 0

theorem violationFee_nonneg (fees : ViolationFees) (text : String) : 0 ≤ violationFee fees text := by
  unfold violationFee calcViolationFeeQuota
  split
  · split
    · exact le_refl 0
    split
    · exact le_refl 0
    · dsimp only
      split <;> omega
  · exact le_refl 0

abbrev RequestBilling (σ : Type) := σ × Option BillingSession

section Functions

variable {σ : Type} (B : BillingStore σ) (bcfg : BillingConfig)

def callSession (call : SessionCall) : RequestBilling σ → RequestBilling σ
  | (s, none) => (s, none)
  | (s, some session) =>
    let result := call.run B bcfg (s, session)
    (result.1, some result.2)

/-- The deferred function of `Relay`: a failed request is refunded, and may have to pay a fee. -/
def closeRequest (fees : ViolationFees) (info : RelayInfo) (err : Option String)
    (billing : RequestBilling σ) : RequestBilling σ :=
  match err with
  | none => billing
  | some text =>
    let billing := callSession B bcfg .refund billing
    let feeQuota := violationFee fees text
    if feeQuota ≤ 0 then billing
    else ((postConsumeQuota B (relayOf info billing.2) feeQuota billing.1).2, billing.2)

end Functions

/-! ## The system -/

inductive RequestPhase where
  /-- In `PollSynchronously`. -/
  | waiting (attempt : Nat) (last : String)
  /-- About to finish the row; then it fails with this error, or it writes the images. -/
  | marking (w : Option Write) (err : Option String)
  | responding
  | returned (err : Option String)
  | closed (err : Option String)

inductive PollerPhase where
  | none
  | polling (detached : Bool) (attempt : Nat) (last : String)
  /-- About to write; then it goes on with this attempt, or ends. -/
  | writing (w : Write) (next : Option (Nat × String))
  | done

/-- `refunds` are those of sweeps, as a history variable. -/
structure Submitted (σ : Type) where
  tasks : Table Task
  billing : RequestBilling σ
  request : RequestPhase
  poller : PollerPhase
  sweeps : Nat → Sweeper
  refunds : List Refund

inductive SubmitAct where
  /-- The request gets an answer and reads the row. -/
  | wait (answer : Answer) (now : Int)
  | cancel
  | mark
  | respond (err : Option String)
  | close
  /-- The goroutine gets an answer and reads the row. -/
  | poll (answer : Answer) (now : Int)
  | write
  | sweep (p : Nat) (now : Int)
  | next (p : Nat)

def newAsyncTask (price : PriceData) (info : RelayInfo) (channelId : Int)
    (taskID upstreamTaskID : String) (now id : Int) : Task :=
  { newImageTask price info channelId taskID now id with
    upstreamTaskID := upstreamTaskID
    data := upstreamTaskID }

theorem key_newAsyncTask (price : PriceData) (info : RelayInfo) (channelId : Int)
    (taskID upstreamTaskID : String) (now id : Int) :
    Row.key (newAsyncTask price info channelId taskID upstreamTaskID now id) = id := rfl

def asyncTaskQuota (price : PriceData) (task : Task) : Int :=
  if price.quota ≤ 0 then task.quota else price.quota

namespace Submitted

variable {σ : Type} (B : BillingStore σ) (bcfg : BillingConfig) (cfg : Settings) (poll : PollConfig)
  (fees : ViolationFees) (info : RelayInfo) (taskID : String)

def setSweep (s : Submitted σ) (p : Nat) (tasks : Table Task) (sw : Sweeper) : Submitted σ :=
  { s with tasks := tasks, sweeps := Function.update s.sweeps p sw }

def waited (tasks : Table Task) (now : Int) (attempt : Nat) : Decision → RequestPhase
  | .again last => .waiting (attempt + 1) last
  | .progress last => .waiting (attempt + 1) last
  | .succeed results => .marking (succeedTask tasks taskID results now) none
  | .fail reason => .marking (failTask tasks taskID reason now) (some reason)

def ending : Option Write → PollerPhase
  | none => .done
  | some w => .writing w none

def polled (tasks : Table Task) (now : Int) (detached : Bool) (attempt : Nat) :
    Decision → PollerPhase
  | .again last => .polling detached (attempt + 1) last
  | .progress last =>
    match updateTaskProgress tasks taskID .inProgress (progressText poll attempt) now with
    | none => .polling detached (attempt + 1) last
    | some w => .writing w (some (attempt + 1, last))
  | .succeed results => ending (succeedTask tasks taskID results now)
  | .fail reason =>
    ending (failTask tasks taskID
      (if detached then "client disconnected; " ++ reason else reason) now)

def step (s : Submitted σ) : SubmitAct → Submitted σ
  | .wait answer now =>
    match s.request with
    | .waiting attempt last =>
      { s with
        request := waited taskID s.tasks now attempt (pollSynchronously poll attempt last answer) }
    | _ => s
  | .cancel =>
    match s.request with
    | .waiting _ _ => { s with request := .returned none, poller := .polling true 0 "" }
    | _ => s
  | .mark =>
    match s.request with
    | .marking w err =>
      { s with
        tasks := match w with
          | none => s.tasks
          | some w => (w.apply s.tasks).1
        request := match err with
          | none => .responding
          | some text => .returned (some text) }
    | _ => s
  | .respond err =>
    match s.request with
    | .responding => { s with request := .returned err }
    | _ => s
  | .close =>
    match s.request with
    | .returned err =>
      { s with
        billing := closeRequest B bcfg fees info err s.billing
        request := .closed err }
    | _ => s
  | .poll answer now =>
    match s.poller with
    | .polling detached attempt last =>
      let decision :=
        if detached then pollSynchronously poll attempt last answer
        else startTaskPolling poll attempt last answer
      { s with poller := polled poll taskID s.tasks now detached attempt decision }
    | _ => s
  | .write =>
    match s.poller with
    | .writing w next =>
      { s with
        tasks := (w.apply s.tasks).1
        poller := match next with
          | none => .done
          | some (attempt, last) => .polling false attempt last }
    | _ => s
  | .sweep p now =>
    if (s.sweeps p).Idle then s.setSweep p s.tasks ⟨sweepTimedOutTasks cfg s.tasks now, none⟩
    else s
  | .next p =>
    match (s.sweeps p).owes, (s.sweeps p).pending with
    | some t, pending =>
      { s.setSweep p s.tasks ⟨pending, none⟩ with
        refunds := s.refunds ++ (refundTaskQuota t).toList }
    | none, [] => s
    | none, w :: rest =>
      let result := w.apply s.tasks
      s.setSweep p result.1 ⟨rest, if result.2 then w.due else none⟩

/-- `HandleAsyncTaskSubmit` up to the polling: the row is inserted and its quota is settled. -/
def start (tasks : Table Task) (price : PriceData) (channelId : Int) (upstreamTaskID : String)
    (now : Int) (clientAsync : Bool) (billing : RequestBilling σ) : Submitted σ :=
  let task := newAsyncTask price info channelId taskID upstreamTaskID now
  let quota := asyncTaskQuota price (task tasks.next)
  let immediate := !poll.syncMode || clientAsync
  { tasks := tasks.insert task (key_newAsyncTask price info channelId taskID upstreamTaskID now)
    billing := if quota > 0 then callSession B bcfg (.settle quota) billing else billing
    request := if immediate then .responding else .waiting 0 ""
    poller := if immediate then .polling false 0 "" else .none
    sweeps := fun _ => .rest
    refunds := [] }

def refunded (s : Submitted σ) (k : Int) : Int :=
  ((s.refunds.filter fun r => r.taskId = k).map Refund.amount).sum

end Submitted

/-! ## The row has no quota -/

/-- The row of this key, if it is stored, has no quota. -/
def UnpaidRow (k : Int) (tasks : Table Task) : Prop := ∀ t ∈ tasks.rows, t.id = k → t.quota = 0

def Write.new : Write → Task
  | .swap new _ => new
  | .save new => new

def Write.OfRow (tasks : Table Task) (w : Write) : Prop :=
  ∃ t ∈ tasks.rows, w.new.id = t.id ∧ w.new.quota = t.quota

/-- The statement gives the row of this key no quota. -/
def Write.Unpaid (k : Int) (w : Write) : Prop := w.new.id = k → w.new.quota = 0

section Unpaid

variable {k : Int} {tasks : Table Task} {taskID : String} {w : Write}

theorem UnpaidRow.ofRow (h : UnpaidRow k tasks) (hw : w.OfRow tasks) : w.Unpaid k := by
  obtain ⟨t, ht, hId, hQuota⟩ := hw
  intro hk
  rw [hQuota]
  exact h t ht (hId.symm.trans hk)

theorem UnpaidRow.apply (h : UnpaidRow k tasks) (hw : w.Unpaid k) :
    UnpaidRow k (w.apply tasks).1 := by
  have hSave : UnpaidRow k (tasks.save w.new) := by
    intro t ht hId
    rcases Table.mem_save ht with ⟨rfl, -⟩ | ⟨ht, -⟩
    · exact hw hId
    · exact h t ht hId
  cases w with
  | save new => exact hSave
  | swap new fromStatus =>
    rcases updateWithStatus_cases tasks new fromStatus with ⟨-, hSwap⟩ | ⟨-, hSwap⟩
    · rw [Write.apply, hSwap]
      exact hSave
    · rw [Write.apply, hSwap]
      exact h

theorem mem_of_getByOnlyTaskId {t : Task} (h : getByOnlyTaskId tasks taskID = some t) :
    t ∈ tasks.rows :=
  (Table.find?_eq_some.mp (find?_of_getByOnlyTaskId h)).1

theorem ofRow_finishTask {finish : Task → Task}
    (hFinish : ∀ t, (finish t).id = t.id ∧ (finish t).quota = t.quota)
    (h : finishTask tasks taskID finish = some w) : w.OfRow tasks := by
  unfold finishTask at h
  split at h
  · cases h
  rename_i current hRead
  split at h <;> cases h
  · exact ⟨current, mem_of_getByOnlyTaskId hRead, hFinish current⟩

theorem ofRow_succeedTask {resultData : String} {now : Int}
    (h : succeedTask tasks taskID resultData now = some w) : w.OfRow tasks := by
  exact ofRow_finishTask (by exact fun _ => ⟨rfl, rfl⟩) h

theorem ofRow_failTask {reason : String} {now : Int}
    (h : failTask tasks taskID reason now = some w) : w.OfRow tasks := by
  exact ofRow_finishTask (by exact fun _ => ⟨rfl, rfl⟩) h

theorem ofRow_updateTaskProgress {newStatus : TaskStatus} {progress : String} {now : Int}
    (h : updateTaskProgress tasks taskID newStatus progress now = some w) : w.OfRow tasks := by
  unfold updateTaskProgress at h
  split at h
  · cases h
  rename_i current hRead
  split at h
  · cases h
  split at h <;> cases h <;> exact ⟨current, mem_of_getByOnlyTaskId hRead, rfl, rfl⟩

theorem ofRow_sweepTimedOutTasks {cfg : Settings} {now : Int}
    (h : w ∈ sweepTimedOutTasks cfg tasks now) : w.OfRow tasks := by
  unfold sweepTimedOutTasks at h
  split at h
  · cases h
  · obtain ⟨t, ht, rfl⟩ := List.mem_map.mp h
    exact ⟨t, (mem_getTimedOutUnfinishedTasks ht).1, rfl, rfl⟩

theorem Write.Unpaid.due_ne (h : w.Unpaid k) {t : Task} (hDue : w.due = some t) : t.id ≠ k := by
  cases w with
  | save new => cases hDue
  | swap new fromStatus =>
    rw [Write.due, Option.ite_none_right_eq_some] at hDue
    obtain ⟨hQuota, hEq⟩ := hDue
    cases hEq
    exact fun hId => hQuota.2 (h hId)

end Unpaid

namespace Submitted

variable {σ : Type} {B : BillingStore σ} {bcfg : BillingConfig} {cfg : Settings} {poll : PollConfig}
  {fees : ViolationFees} {info : RelayInfo} {taskID : String} {k : Int} {s : Submitted σ}

/-- Nothing has a quota for the task, and no sweep has given anything back for it. -/
structure Unpaid (k : Int) (s : Submitted σ) : Prop where
  row : UnpaidRow k s.tasks
  marks : ∀ w err, s.request = .marking (some w) err → w.Unpaid k
  writes : ∀ w next, s.poller = .writing w next → w.Unpaid k
  sweeps : ∀ p, ∀ w ∈ (s.sweeps p).pending, w.Unpaid k
  owes : ∀ p t, (s.sweeps p).owes = some t → t.id ≠ k
  refunds : ∀ r ∈ s.refunds, r.taskId ≠ k

theorem Unpaid.refunded (h : Unpaid k s) : s.refunded k = 0 := by
  have hNone : (s.refunds.filter fun r => r.taskId = k) = [] := by
    rw [List.filter_eq_nil_iff]
    intro r hr
    simpa using h.refunds r hr
  rw [Submitted.refunded, hNone]
  rfl

theorem Unpaid.waited (h : Unpaid k s) (now : Int) (attempt : Nat) (d : Decision) {w : Write}
    {err : Option String} (hw : waited taskID s.tasks now attempt d = .marking (some w) err) :
    w.Unpaid k := by
  cases d with
  | again | progress => cases hw
  | succeed results =>
    injection hw with hWrite
    exact h.row.ofRow (ofRow_succeedTask hWrite)
  | fail reason =>
    injection hw with hWrite
    exact h.row.ofRow (ofRow_failTask hWrite)

theorem ending_eq {o : Option Write} {w : Write} {next : Option (Nat × String)}
    (h : ending o = .writing w next) : o = some w := by
  cases o with
  | none => cases h
  | some v => cases h; rfl

theorem Unpaid.polled (h : Unpaid k s) (now : Int) (detached : Bool) (attempt : Nat) (d : Decision)
    {w : Write} {next : Option (Nat × String)}
    (hw : polled poll taskID s.tasks now detached attempt d = .writing w next) : w.Unpaid k := by
  cases d with
  | again last => cases hw
  | progress last =>
    simp only [Submitted.polled] at hw
    split at hw
    · cases hw
    · rename_i v hWrite
      cases hw
      exact h.row.ofRow (ofRow_updateTaskProgress hWrite)
  | succeed results => exact h.row.ofRow (ofRow_succeedTask (ending_eq hw))
  | fail reason => exact h.row.ofRow (ofRow_failTask (ending_eq hw))

theorem Unpaid.setSweep (h : Unpaid k s) {p : Nat} {tasks : Table Task} {sw : Sweeper}
    (hRow : UnpaidRow k tasks) (hPending : ∀ w ∈ sw.pending, w.Unpaid k)
    (hOwes : ∀ t, sw.owes = some t → t.id ≠ k) : Unpaid k (s.setSweep p tasks sw) where
  row := hRow
  marks := h.marks
  writes := h.writes
  sweeps := (Function.forall_update_iff _ fun _ (sw : Sweeper) => ∀ w ∈ sw.pending, w.Unpaid k).mpr
    ⟨hPending, fun q _ => h.sweeps q⟩
  owes := (Function.forall_update_iff _ fun _ (sw : Sweeper) => ∀ t, sw.owes = some t → t.id ≠ k).mpr
    ⟨hOwes, fun q _ => h.owes q⟩
  refunds := h.refunds

theorem Unpaid.update (h : Unpaid k s) {tasks : Table Task} {billing : RequestBilling σ}
    {request : RequestPhase} {poller : PollerPhase} (hRow : UnpaidRow k tasks)
    (hMarks : ∀ w err, request = .marking (some w) err → w.Unpaid k)
    (hWrites : ∀ w next, poller = .writing w next → w.Unpaid k) :
    Unpaid k ⟨tasks, billing, request, poller, s.sweeps, s.refunds⟩ :=
  ⟨hRow, hMarks, hWrites, h.sweeps, h.owes, h.refunds⟩

theorem Unpaid.step (h : Unpaid k s) (a : SubmitAct) :
    Unpaid k (Submitted.step B bcfg cfg poll fees info taskID s a) := by
  cases a with simp only [Submitted.step]
  | wait answer now =>
    split
    · exact h.update h.row (fun w err hw => h.waited now _ _ hw) h.writes
    · exact h
  | cancel =>
    split
    · exact h.update h.row (fun _ _ hw => nomatch hw) fun _ _ hw => nomatch hw
    · exact h
  | mark =>
    split
    · next w err hRequest =>
      refine h.update ?_ ?_ h.writes
      · cases w with
        | none => exact h.row
        | some w => exact h.row.apply (h.marks w err hRequest)
      · intro v e hv
        cases err <;> cases hv
    · exact h
  | respond | close =>
    split
    · exact h.update h.row (fun _ _ hw => nomatch hw) h.writes
    · exact h
  | poll answer now =>
    split
    · exact h.update h.row h.marks fun w next hw => h.polled now _ _ _ hw
    · exact h
  | write =>
    split
    · next w next hPoller =>
      refine h.update (h.row.apply (h.writes w next hPoller)) h.marks ?_
      intro v n hv
      cases next <;> cases hv
    · exact h
  | sweep p now =>
    split
    · exact h.setSweep h.row (fun w hw => h.row.ofRow (ofRow_sweepTimedOutTasks hw))
        fun _ ht => nomatch ht
    · exact h
  | next p =>
    split
    · next t hOwes =>
      have hSweep : Unpaid k (s.setSweep p s.tasks ⟨(s.sweeps p).pending, none⟩) :=
        h.setSweep h.row (h.sweeps p) fun _ ht => nomatch ht
      refine { hSweep with refunds := ?_ }
      intro r hr
      rcases List.mem_append.mp hr with hr | hr
      · exact h.refunds r hr
      rw [Option.mem_toList, refundTaskQuota, Option.ite_none_left_eq_some] at hr
      obtain ⟨-, hEq⟩ := hr
      cases hEq
      exact h.owes p t hOwes
    · exact h
    · next w rest hOwes hPending =>
      have hMem : ∀ v ∈ w :: rest, v.Unpaid k := by
        rw [← hPending]
        exact h.sweeps p
      have hw : w.Unpaid k := hMem w List.mem_cons_self
      refine h.setSweep (h.row.apply hw) (fun v hv => hMem v (List.mem_cons_of_mem w hv)) ?_
      intro t ht
      split at ht
      · exact hw.due_ne ht
      · cases ht

end Submitted

/-! ## What the wallet pays -/

/-- The charge in advance.  A free model has no session, and a trusted user is not charged. -/
def advance (price : PriceData) : Option BillingSession → Int
  | none => 0
  | some session => if session.trusted then 0 else max price.quotaToPreConsume 0

section Wallet

variable {σ : Type} {B : BillingStore σ} {bcfg : BillingConfig} {view : σ → Ledger}
  {info : RelayInfo} {price : PriceData} {quota : Int} {db₀ db : σ} {session : BillingSession}
  {billing : Option BillingSession}

theorem newBillingSession_wallet (hB : ExactStore B view)
    (hHeld : (view db₀).held info.requestId = none)
    (hNew : newBillingSession B bcfg info quota db₀ = (.ok (.ok session), db))
    (hSource : session.relayInfo.billingSource ≠ some .subscription) :
    New (view db₀) (view db) .wallet quota session ∧
      ∃ w, session.funding = .wallet w ∧ w.userId = info.userId := by
  have hOf := (newBillingSession_ofRequest hNew).1
  have hWallet : session.funding.source = .wallet := by
    cases hKind : session.funding.source with
    | wallet => rfl
    | subscription => exact absurd (by rw [hOf.source, hKind]) hSource
  refine ⟨?_, ?_⟩
  · rcases hB.newBillingSession hHeld hNew with h | h
    · exact h
    · cases hWallet.symm.trans h.source_eq
  cases hFund : session.funding with
  | wallet w => exact ⟨w, rfl, hOf.wallet w hFund⟩
  | subscription sub =>
    rw [hFund] at hWallet
    cases hWallet

theorem advance_eq {before after : Ledger} {source : BillingSource}
    (h : New before after source price.quotaToPreConsume session) :
    advance price (some session) = max session.preConsumedQuota 0 := by
  rw [advance, h.quota_eq]
  split <;> rfl

theorem run_refund_accounts (s : σ) (session : BillingSession) :
    (SessionCall.run B bcfg (s, session) .refund).2.funding = session.funding ∧
      (SessionCall.run B bcfg (s, session) .refund).2.relayInfo = session.relayInfo := by
  simp only [SessionCall.run, BillingSession.refund]
  by_cases hSkip : session.settled ∨ session.refunded ∨ ¬session.needsRefund
  · rw [if_pos hSkip]
    exact ⟨rfl, rfl⟩
  rw [if_neg hSkip]
  rcases hGive : session.giveBack B s with ⟨result, t⟩
  cases result with
  | ok u =>
    rw [Prog.bind_ok hGive]
    exact ⟨rfl, rfl⟩
  | error e =>
    rw [Prog.bind_error hGive]
    exact ⟨rfl, rfl⟩

theorem run_refund_of_nonpos {w : WalletFunding} (hFund : session.funding = .wallet w)
    (hToken : session.tokenConsumed ≤ 0) (s : σ) :
    SessionCall.run B bcfg (s, session) .refund = (s, session) := by
  have hNeeds : session.needsRefund = false := by
    simp [BillingSession.needsRefund, hFund, hToken]
  simp only [SessionCall.run, BillingSession.refund]
  rw [if_pos (.inr (.inr (by simp [hNeeds])))]
  rfl

def cost (fees : ViolationFees) (price : PriceData) (billing : Option BillingSession) :
    Option String → Int
  | none => advance price billing
  | some text => violationFee fees text

theorem relayOf_userId
    (hCharge : preConsumeBilling B bcfg price.freeModel info price.quotaToPreConsume db₀ =
      (.ok (.ok billing), db)) : (relayOf info billing).userId = info.userId := by
  rcases preConsumeBilling_ok hCharge with ⟨rfl, -⟩ | ⟨session, rfl, hNew⟩
  · rfl
  · exact (newBillingSession_ofRequest hNew).1.userId

section Charged

variable (hB : ExactStore B view) (hHeld : (view db₀).held info.requestId = none)
  (hCharge : preConsumeBilling B bcfg price.freeModel info price.quotaToPreConsume db₀ =
    (.ok (.ok billing), db))
  (hSource : (relayOf info billing).billingSource ≠ some .subscription)

include hB hHeld hCharge hSource

theorem wallet_charged :
    (view db).wallet info.userId = (view db₀).wallet info.userId + advance price billing := by
  rcases preConsumeBilling_ok hCharge with ⟨rfl, rfl⟩ | ⟨session, rfl, hNew⟩
  · exact (Int.add_zero _).symm
  obtain ⟨hSession, w, hFund, hUser⟩ := newBillingSession_wallet hB hHeld hNew hSource
  rw [advance_eq hSession]
  by_cases hNonneg : 0 ≤ session.preConsumedQuota
  · have hTaken := (hSession.is_open hNonneg).taken.1
    rw [hFund, fundingTaken, hUser] at hTaken
    omega
  · rw [hSession.nothing (by omega)]
    omega

theorem wallet_refunded :
    let r := callSession B bcfg .refund (db, billing)
    (view r.1).wallet info.userId = (view db₀).wallet info.userId ∧
      relayOf info r.2 = relayOf info billing := by
  have hAdvance := wallet_charged hB hHeld hCharge hSource
  rcases preConsumeBilling_ok hCharge with ⟨rfl, rfl⟩ | ⟨session, rfl, hNew⟩
  · exact ⟨rfl, rfl⟩
  obtain ⟨hSession, w, hFund, hUser⟩ := newBillingSession_wallet hB hHeld hNew hSource
  refine ⟨?_, (run_refund_accounts db session).2⟩
  show (view (SessionCall.run B bcfg (db, session) .refund).1).wallet info.userId = _
  rw [advance_eq hSession] at hAdvance
  by_cases hPos : 0 < session.preConsumedQuota
  · have hTaken := (taken_run_refund hB bcfg (hSession.is_open (le_of_lt hPos)) hPos).1
    rw [hFund, fundingTaken, hUser] at hTaken
    omega
  obtain ⟨i, trusted, q, f, rfl⟩ := (newBillingSession_ofRequest hNew).2
  obtain ⟨info', hEq, -⟩ := BillingSession.charged_eq i trusted q f
  rw [BillingSession.charged_preConsumedQuota] at hPos hAdvance
  have hToken : (BillingSession.charged i trusted q f).tokenConsumed ≤ 0 := by
    rw [hEq]
    show max q 0 ≤ 0
    omega
  rw [run_refund_of_nonpos hFund hToken]
  show (view db).wallet info.userId = _
  omega

theorem wallet_closed (fees : ViolationFees) (err : Option String) :
    (view (closeRequest B bcfg fees info err (db, billing)).1).wallet info.userId =
      (view db₀).wallet info.userId + cost fees price billing err := by
  cases err with
  | none => exact wallet_charged hB hHeld hCharge hSource
  | some text =>
    obtain ⟨hBack, hInfo⟩ := wallet_refunded hB hHeld hCharge hSource
    have hFee := violationFee_nonneg fees text
    simp only [closeRequest, cost]
    split
    · omega
    rw [hInfo]
    obtain ⟨t, hRun, hView⟩ := hB.postConsumeQuota hSource (violationFee fees text)
      (callSession B bcfg .refund (db, billing)).1
    have hSpend := Ledger.spend_wallet (view (callSession B bcfg .refund (db, billing)).1)
      (relayOf info billing) (violationFee fees text)
    rw [← hView, relayOf_userId hCharge, hBack] at hSpend
    rw [hRun]
    exact hSpend

end Charged

end Wallet

/-! ## The synchronous path -/

def perCallPrice (input : PriceInput) (modelPrice : ℚ) : TextPrice where
  modelPrice :=
    if input.imagePriceRatio ≠ 0 then modelPrice * input.imagePriceRatio else modelPrice
  modelRatio := 0
  completionRatio := 0
  cacheRatio := 0
  cacheCreationRatio := 0
  cacheCreation5mRatio := 0
  cacheCreation1hRatio := 0
  imageRatio := 0
  otherRatios := []
  usePrice := true
  groupRatio := input.groupRatio

/-- What `ImageHelper` settles for `n` images that come with the answer. -/
def imageHelperQuota (tools : ToolPrices) (info : TextInfo) (n : Option Nat) (usage : TextUsage) :
    Int :=
  let price :=
    if info.price.usePrice ∧ ¬info.price.otherRatios.any fun other => other.1 = "n" then
      info.price.addOtherRatio "n" (n.getD 1)
    else info.price
  let usage := if usage.promptTokens = 0 then { usage with promptTokens := 1 } else usage
  (calculateTextQuotaSummary tools { info with price := price } (some usage)).2

/-- The charge in advance at a price for each call.  It does not look at the number of images. -/
def perCallAdvance (input : PriceInput) (modelPrice : ℚ) : Option BillingSession → Int
  | none => 0
  | some session =>
    if session.trusted then 0
    else max (Decimal.intPart ((perCallPrice input modelPrice).modelPrice * input.quotaPerUnit *
      input.groupRatio)) 0

theorem advance_eq_perCallAdvance {σ : Type} {B : BillingStore σ} {bcfg : BillingConfig}
    {info : RelayInfo} {input : PriceInput} {modelPrice : ℚ} {price : PriceData} {db₀ db : σ}
    {billing : Option BillingSession} (hPerCall : input.billing = .price modelPrice)
    (hPrice : modelPriceHelper input = .ok price)
    (hCharge : preConsumeBilling B bcfg price.freeModel info price.quotaToPreConsume db₀ =
      (.ok (.ok billing), db)) :
    advance price billing = perCallAdvance input modelPrice billing := by
  simp only [modelPriceHelper, hPerCall] at hPrice
  cases billing with
  | none => rfl
  | some session =>
    have hNotFree : price.freeModel = false := by
      cases hFree : price.freeModel with
      | false => rfl
      | true =>
        simp only [hFree] at hCharge
        cases hCharge
    cases hPrice
    rw [advance, PriceInput.data_quotaToPreConsume hNotFree]
    rfl

/-! ## The run -/

namespace Submitted

variable {σ : Type} {B : BillingStore σ} {bcfg : BillingConfig} {cfg : Settings} {poll : PollConfig}
  {fees : ViolationFees} {info : RelayInfo} {taskID : String} {s : Submitted σ}
  {billing : RequestBilling σ}

/-- Money moves only when the request is closed. -/
def Billed (B : BillingStore σ) (bcfg : BillingConfig) (fees : ViolationFees) (info : RelayInfo)
    (billing : RequestBilling σ) (s : Submitted σ) : Prop :=
  s.billing = match s.request with
    | .closed err => closeRequest B bcfg fees info err billing
    | _ => billing

theorem billed_waited (now : Int) (attempt : Nat) (d : Decision) (tasks : Table Task) :
    ∀ err, waited taskID tasks now attempt d ≠ .closed err := by
  intro err
  cases d <;> exact fun h => nomatch h

theorem Billed.open_of (h : Billed B bcfg fees info billing s)
    (hOpen : ∀ err, s.request ≠ .closed err)
    {t : Submitted σ} (hBilling : t.billing = s.billing) (hRequest : ∀ err, t.request ≠ .closed err) :
    Billed B bcfg fees info billing t := by
  have hEq : ∀ r : RequestPhase, (∀ err, r ≠ .closed err) → (match r with
      | .closed err => closeRequest B bcfg fees info err billing
      | _ => billing) = billing := by
    intro r hr
    cases r with
    | closed err => exact absurd rfl (hr err)
    | waiting | marking | responding | returned => rfl
  unfold Billed at h ⊢
  rw [hEq _ hRequest, hBilling, h, hEq _ hOpen]

theorem Billed.step (h : Billed B bcfg fees info billing s) (a : SubmitAct) :
    Billed B bcfg fees info billing (Submitted.step B bcfg cfg poll fees info taskID s a) := by
  cases a with simp only [Submitted.step]
  | wait answer now =>
    split
    · next hRequest =>
      exact h.open_of (by rw [hRequest]; exact fun _ hw => nomatch hw) rfl
        (billed_waited now _ _ s.tasks)
    · exact h
  | cancel | respond =>
    split
    · next hRequest =>
      exact h.open_of (by rw [hRequest]; exact fun _ hw => nomatch hw) rfl fun _ hw => nomatch hw
    · exact h
  | mark =>
    split
    · next w err hRequest =>
      refine h.open_of (by rw [hRequest]; exact fun _ hw => nomatch hw) rfl fun e he => ?_
      cases err <;> cases he
    · exact h
  | close =>
    split
    · next hRequest =>
      simp only [Billed, hRequest] at h
      simp only [Billed, h]
    · exact h
  | poll | write | sweep | next => split <;> exact h

theorem unpaid_start (B : BillingStore σ) (bcfg : BillingConfig) (poll : PollConfig)
    (fees : ViolationFees) (info : RelayInfo) (taskID : String) (billing : RequestBilling σ)
    {price : PriceData} (hQuota : price.quota = 0) (tasks : Table Task) (channelId : Int)
    (upstreamTaskID : String) (now : Int) (clientAsync : Bool) :
    let s := start B bcfg poll info taskID tasks price channelId upstreamTaskID now clientAsync
      billing
    Unpaid tasks.next s ∧ Billed B bcfg fees info billing s := by
  intro s
  have hKey := key_newAsyncTask price info channelId taskID upstreamTaskID now
  have hNone : ¬asyncTaskQuota price
      (newAsyncTask price info channelId taskID upstreamTaskID now tasks.next) > 0 := by
    simp [asyncTaskQuota, hQuota, newAsyncTask, newImageTask]
  refine ⟨⟨?_, ?_, ?_, ?_, ?_, ?_⟩, ?_⟩
  · intro t ht hId
    rcases (Table.mem_insert hKey).mp ht with hOld | rfl
    · have hLt := (tasks.key_range t hOld).2
      rw [key_task] at hLt
      omega
    · exact hQuota
  · intro w err hw
    simp only [s, start] at hw
    split at hw <;> cases hw
  · intro w next hw
    simp only [s, start] at hw
    split at hw <;> cases hw
  · exact fun p w hw => nomatch hw
  · exact fun p t ht => nomatch ht
  · exact fun r hr => nomatch hr
  · simp only [Billed, s, start, if_neg hNone]
    split
    · split at * <;> simp_all
    · rfl

theorem unpaid_run (cfg : Settings) {k : Int} (hUnpaid : Unpaid k s)
    (hBilled : Billed B bcfg fees info billing s) (acts : List SubmitAct) :
    let t := acts.foldl (step B bcfg cfg poll fees info taskID) s
    Unpaid k t ∧ Billed B bcfg fees info billing t := by
  induction acts generalizing s with
  | nil => exact ⟨hUnpaid, hBilled⟩
  | cons a acts ih => exact ih (hUnpaid.step a) (hBilled.step a)

/-- **A finished task has cost what the synchronous path takes** exactly if that is the charge in
advance, or the fee of the request's error. -/
theorem async_net_iff (cfg : Settings) (poll : PollConfig) (fees : ViolationFees) (taskID : String)
    {view : σ → Ledger} (hB : ExactStore B view) {input : PriceInput} {modelPrice : ℚ}
    {price : PriceData} (hPerCall : input.billing = .price modelPrice)
    (hPrice : modelPriceHelper input = .ok price) {db₀ db : σ} {session : Option BillingSession}
    (hHeld : (view db₀).held info.requestId = none)
    (hCharge : preConsumeBilling B bcfg price.freeModel info price.quotaToPreConsume db₀ =
      (.ok (.ok session), db))
    (hSource : (relayOf info session).billingSource ≠ some .subscription) (tasks : Table Task)
    (channelId : Int) (upstreamTaskID : String) (now : Int) (clientAsync : Bool) (n : Option Nat)
    (tools : ToolPrices) (ctx : TextInfo) (usage : TextUsage) (acts : List SubmitAct)
    (err : Option String) (status : TaskStatus) :
    let s := acts.foldl (step B bcfg cfg poll fees info taskID)
      (start B bcfg poll info taskID tasks price channelId upstreamTaskID now clientAsync
        (db, session))
    let net := (view s.billing.1).wallet info.userId - (view db₀).wallet info.userId -
      s.refunded tasks.next
    let due := if status = .success then
        imageHelperQuota { tools with quotaPerUnit := input.quotaPerUnit }
          { ctx with price := perCallPrice input modelPrice } n usage
      else 0
    s.request = .closed err → statusOf s.tasks tasks.next = some status → status.Done →
      (net = due ↔ (err = none → perCallAdvance input modelPrice session = due) ∧
        ∀ text, err = some text → violationFee fees text = due) := by
  intro s net due hClosed _ _
  obtain ⟨hStart, hOpen⟩ := unpaid_start B bcfg poll fees info taskID (db, session)
    (modelPriceHelper_quota hPrice) tasks channelId upstreamTaskID now clientAsync
  obtain ⟨hUnpaid, hBilled⟩ := unpaid_run cfg hStart hOpen acts
  have hBilling : s.billing = closeRequest B bcfg fees info err (db, session) := by
    have hMatch : s.billing = _ := hBilled
    rwa [show s.request = .closed err from hClosed] at hMatch
  have hNet : net = cost fees price session err := by
    have hPaid := wallet_closed hB hHeld hCharge hSource fees err
    have hNone : s.refunded tasks.next = 0 := hUnpaid.refunded
    rw [← hBilling] at hPaid
    omega
  rw [hNet]
  cases err with
  | none =>
    rw [cost, advance_eq_perCallAdvance hPerCall hPrice hCharge]
    exact ⟨fun h => ⟨fun _ => h, fun _ hText => (nomatch hText)⟩, fun h => h.1 rfl⟩
  | some text =>
    refine ⟨fun h => ⟨fun hNone => (nomatch hNone), fun t ht => ?_⟩, fun h => h.2 text rfl⟩
    rw [← Option.some.inj ht]
    exact h

def trust50 : BillingConfig := ⟨50, fun _ => ""⟩

def background : PollConfig := ⟨false, 120, ("\"\"", "\"\""), id⟩

def noFees : ViolationFees := ⟨false, 0, 5, 1⟩

def noSurcharge : ToolPrices := ⟨fun _ _ => 0, fun _ _ => 0, fun _ => 0, fun _ => none, 5⟩

def imageInfo : TextInfo := ⟨"image", 0, false, false, none, 0, none, perCallPrice Images.fiveACall 1⟩

def noTokens : TextUsage := ⟨⟨0, 0, "", ⟨0, 0, 0, 0⟩, ⟨0, 0⟩, 0, 0⟩, "", 0⟩

def polledOnce (answer : Answer) : List SubmitAct :=
  [.respond none, .close, .poll answer 1900000010, .write]

def finishedRun (bcfg : BillingConfig) (session : Option BillingSession) (db : Ledger)
    (answer : Answer) : Submitted Ledger :=
  (polledOnce answer).foldl
    (step shop100 bcfg Images.tenMinutes background noFees walletRequest (generateTaskID "x"))
    (start shop100 bcfg background walletRequest (generateTaskID "x") Table.empty
      { quotaToPreConsume := 5 } 3 "up" 1900000000 true (db, session))

theorem one_image_costs_five :
    ∃ session db, preConsumeBilling shop100 noTrust false walletRequest 5 nothingTaken =
        (.ok (.ok (some session)), db) ∧
      let s := finishedRun noTrust (some session) db (.status "success" "an image" true "" "")
      s.request = .closed none ∧ s.billing.1.wallet 1 - nothingTaken.wallet 1 - s.refunded 1 =
        imageHelperQuota noSurcharge imageInfo none noTokens := by
  have hCharge : preConsumeBilling shop100 noTrust false walletRequest 5 nothingTaken = _ := rfl
  have hB : ExactStore shop100 id := idealStore_exact _ _ _
  refine ⟨_, _, hCharge, rfl, ?_⟩
  refine (async_net_iff Images.tenMinutes background noFees (generateTaskID "x") hB rfl
    Images.fiveACall_price rfl hCharge (by decide) Table.empty 3 "up" 1900000000 true none
    noSurcharge imageInfo noTokens (polledOnce (.status "success" "an image" true "" "")) none
    .success rfl (by decide +kernel) (.inr rfl)).mpr ⟨fun _ => ?_, fun _ hText => nomatch hText⟩
  decide +kernel

/-- **Images for nothing, and a charge for none**: a trusted user and one whose task fails. -/
theorem async_images_for_nothing :
    imageHelperQuota noSurcharge imageInfo (some 2) noTokens = 10 ∧
    (∃ session db, preConsumeBilling shop100 trust50 false walletRequest 5 nothingTaken =
        (.ok (.ok (some session)), db) ∧
      let s := finishedRun trust50 (some session) db (.status "success" "two images" true "" "")
      s.request = .closed none ∧ statusOf s.tasks 1 = some .success ∧ s.billing.1.wallet 1 = 0 ∧
        s.refunds = []) ∧
    ∃ session db, preConsumeBilling shop100 noTrust false walletRequest 5 nothingTaken =
        (.ok (.ok (some session)), db) ∧
      let s := finishedRun noTrust (some session) db (.status "failed" "" false "500" "no")
      s.request = .closed none ∧ statusOf s.tasks 1 = some .failure ∧ s.billing.1.wallet 1 = 5 ∧
        s.refunds = [] := by
  refine ⟨by decide +kernel, ⟨_, _, rfl, rfl, ?_, rfl, rfl⟩, ⟨_, _, rfl, rfl, ?_, rfl, rfl⟩⟩
  · decide +kernel
  · decide +kernel

end Submitted

end NewApi.Tasks
