import NewApi.Core.Run
import NewApi.Payment.Agree

/-!
# Callbacks of epay

`EpayNotify` and `ManualCompleteTopUp` under `LockOrder`, and `UpdatePendingTopUpStatus`. Any
statement may fail, and the process may stop at any point; then callbacks in progress and locks are
gone.  A callback takes three steps, the other two are one each.  `credits` is a history variable.
-/

namespace NewApi.Payment

open Core Option Function

structure Credit where
  orderId : Int
  userId : Int
  amount : Int
  deriving DecidableEq

inductive Callback where
  | rest
  | read (o : TopUp)
  | saved (o : TopUp)
  deriving DecidableEq

structure Desk where
  db : Db
  callbacks : Nat → Callback
  /-- Which callback holds the lock of a trade number. -/
  locks : String → Option Nat
  credits : List Credit

inductive DeskAct where
  | notify (p : Nat) (cb : EpayCallback)
  | save (p : Nat) (ok : Bool)
  | credit (p : Nat) (ok : Bool)
  | manual (tradeNo : String) (now : Int) (ok : Bool)
  | update (tradeNo : String) (expected : Option PaymentProvider) (target : TopUpStatus) (ok : Bool)
  | stop

def manualCredit (cfg : PaySettings) (db : Db) (tradeNo : String) : Option Credit :=
  match getTopUpByTradeNo db tradeNo with
  | none => none
  | some o =>
    if o.status = .pending then some ⟨o.id, o.userId, manualQuota cfg o⟩ else none

namespace Desk

def take (s : Desk) (p : Nat) (o : TopUp) : Desk :=
  { s with
    callbacks := Function.update s.callbacks p (.read o)
    locks := Function.update s.locks o.tradeNo (some p) }

def save (s : Desk) (p : Nat) (o : TopUp) : Desk :=
  { s with
    db := EpayNotify.save s.db o
    callbacks := Function.update s.callbacks p (.saved o) }

def finish (s : Desk) (p : Nat) (o : TopUp) : Desk :=
  { s with
    callbacks := Function.update s.callbacks p .rest
    locks := Function.update s.locks o.tradeNo none }

def record (s : Desk) (db : Db) (credit : Option Credit) : Desk :=
  { s with db := db, credits := s.credits ++ credit.toList }

def step (cfg : PaySettings) (s : Desk) : DeskAct → Desk
  | .notify p cb =>
    match s.callbacks p, s.locks cb.tradeNo, EpayNotify.read cb s.db with
    | .rest, none, some o => s.take p o
    | _, _, _ => s
  | .save p ok =>
    match s.callbacks p with
    | .read o => if ok then s.save p o else s.finish p o
    | _ => s
  | .credit p ok =>
    match s.callbacks p with
    | .saved o =>
      match EpayNotify.credit cfg s.db o, ok with
      | some db, true =>
        (s.finish p o).record db (some ⟨o.id, o.userId, cfg.quotaOf o.amount⟩)
      | _, _ => s.finish p o
    | _ => s
  | .manual tradeNo now ok =>
    match s.locks tradeNo, manualCompleteTopUp cfg now s.db tradeNo, ok with
    | none, .ok db, true => s.record db (manualCredit cfg s.db tradeNo)
    | _, _, _ => s
  | .update tradeNo expected target ok =>
    match updatePendingTopUpStatus s.db tradeNo expected target, ok with
    | .ok db, true => { s with db := db }
    | _, _ => s
  | .stop => { s with callbacks := fun _ => .rest, locks := fun _ => none }

def start (db : Db) : Desk := ⟨db, fun _ => .rest, fun _ => none, []⟩

/-! ## What is asked of an order -/

def statusOf (s : Desk) (k : Int) : Option TopUpStatus := (s.db.orders.find? k).map TopUp.status

def credited (s : Desk) (k : Int) : Nat := (s.credits.filter fun c => c.orderId = k).length

/-- No callback is between its two statements on this order. -/
def AtRest (k : Int) (s : Desk) : Prop := ∀ p o, s.callbacks p = .saved o → o.id ≠ k

/-- The order is successful exactly when it was credited, and it was credited once at most. -/
def Consistent (k : Int) (s : Desk) : Prop :=
  (s.statusOf k = some .success ↔ 0 < s.credited k) ∧ s.credited k ≤ 1

/-- The step makes the order successful and leaves it without its credit. -/
def Loses (cfg : PaySettings) (k : Int) (s : Desk) : DeskAct → Prop
  | .credit p ok =>
    ∃ o, s.callbacks p = .saved o ∧ o.id = k ∧ (ok = false ∨ cfg.quotaOf o.amount < 0)
  | .update tradeNo expected target ok =>
    ok = true ∧ target = .success ∧ ∃ o, pendingOrder s.db tradeNo expected = .ok o ∧ o.id = k
  | .stop => ∃ p o, s.callbacks p = .saved o ∧ o.id = k
  | _ => False

end Desk

/-! ## What a step reads -/

variable {db : Db} {tradeNo : String} {o : TopUp}

theorem find?_of_getTopUpByTradeNo (h : getTopUpByTradeNo db tradeNo = some o) :
    db.orders.find? o.id = some o ∧ o.tradeNo = tradeNo := by
  refine ⟨Table.find?_key (List.mem_of_find?_eq_some h), ?_⟩
  simpa using List.find?_some h

theorem read_eq_some {cb : EpayCallback} (h : EpayNotify.read cb db = some o) :
    ∃ r, getTopUpByTradeNo db cb.tradeNo = some r ∧ r.status = .pending ∧
      o = { r with paymentMethod := cb.paymentType } := by
  unfold EpayNotify.read at h
  split at h
  · split at h
    · cases h
    rename_i r hFind
    rw [ite_none_right_eq_some] at h
    obtain ⟨⟨-, hPending⟩, hEq⟩ := h
    exact ⟨r, hFind, hPending, (some_inj.mp hEq).symm⟩
  · cases h

theorem pendingOrder_eq_ok {expected : Option PaymentProvider}
    (h : pendingOrder db tradeNo expected = .ok o) :
    getTopUpByTradeNo db tradeNo = some o ∧ o.status = .pending := by
  unfold pendingOrder at h
  split at h
  · cases h
  split at h
  · cases h
  rename_i r hFind
  split at h
  · cases h
  split at h
  · cases h
  · rename_i hPending
    cases h
    exact ⟨hFind, not_not.mp hPending⟩

theorem manualCompleteTopUp_ok {cfg : PaySettings} {now : Int} {db db' : Db}
    (h : manualCompleteTopUp cfg now db tradeNo = .ok db') :
    (db' = db ∧ manualCredit cfg db tradeNo = none) ∨
      ∃ o, getTopUpByTradeNo db tradeNo = some o ∧ o.status = .pending ∧
        db' = (db.succeed o now).addQuota o.userId (manualQuota cfg o) ∧
        manualCredit cfg db tradeNo = some ⟨o.id, o.userId, manualQuota cfg o⟩ := by
  unfold manualCompleteTopUp at h
  unfold manualCredit
  split at h
  · cases h
  split at h
  · cases h
  rename_i o hFind
  simp only [hFind]
  split at h
  · rename_i hDone
    cases h
    exact .inl ⟨rfl, by simp [hDone]⟩
  split at h
  · cases h
  rename_i hPending
  split at h <;> cases h
  · refine .inr ⟨o, rfl, not_not.mp hPending, rfl, ?_⟩
    rw [if_pos (not_not.mp hPending)]

variable {o : TopUp} {p q : Nat} {o' : TopUp}

namespace Desk

/-! ## The kinds of steps -/

inductive Step (cfg : PaySettings) (s : Desk) : DeskAct → Desk → Prop
  | quiet (a : DeskAct) (h : ∀ k, ¬ s.Loses cfg k a) : Step cfg s a s
  | read (p : Nat) (cb : EpayCallback) (o : TopUp) (hRest : s.callbacks p = .rest)
      (hLock : s.locks o.tradeNo = none) (hRead : EpayNotify.read cb s.db = some o) :
      Step cfg s (.notify p cb) (s.take p o)
  | drop (p : Nat) (o : TopUp) (hCall : s.callbacks p = .read o) :
      Step cfg s (.save p false) (s.finish p o)
  | save (p : Nat) (o : TopUp) (hCall : s.callbacks p = .read o) :
      Step cfg s (.save p true) (s.save p o)
  | credit (p : Nat) (o : TopUp) (hCall : s.callbacks p = .saved o)
      (hQuota : 0 ≤ cfg.quotaOf o.amount) :
      Step cfg s (.credit p true)
        ((s.finish p o).record (s.db.addQuota o.userId (cfg.quotaOf o.amount))
          (some ⟨o.id, o.userId, cfg.quotaOf o.amount⟩))
  | lose (p : Nat) (ok : Bool) (o : TopUp) (hCall : s.callbacks p = .saved o)
      (hFail : ok = false ∨ cfg.quotaOf o.amount < 0) :
      Step cfg s (.credit p ok) (s.finish p o)
  | manual (tradeNo : String) (now : Int) (o : TopUp) (hLock : s.locks o.tradeNo = none)
      (hFind : getTopUpByTradeNo s.db tradeNo = some o) (hPending : o.status = .pending) :
      Step cfg s (.manual tradeNo now true)
        (s.record ((s.db.succeed o now).addQuota o.userId (manualQuota cfg o))
          (some ⟨o.id, o.userId, manualQuota cfg o⟩))
  | update (tradeNo : String) (expected : Option PaymentProvider) (target : TopUpStatus) (o : TopUp)
      (hOrder : pendingOrder s.db tradeNo expected = .ok o) :
      Step cfg s (.update tradeNo expected target true)
        { s with db := { s.db with orders := s.db.orders.save { o with status := target } } }
  | stop : Step cfg s .stop { s with callbacks := fun _ => .rest, locks := fun _ => none }

theorem step_step (cfg : PaySettings) (s : Desk) (a : DeskAct) : Step cfg s a (s.step cfg a) := by
  cases a with
  | notify p cb =>
    simp only [Desk.step]
    split
    · rename_i o hRest hLock hRead
      obtain ⟨r, hFind, -, rfl⟩ := read_eq_some hRead
      refine .read p cb _ hRest ?_ hRead
      rw [(find?_of_getTopUpByTradeNo hFind).2]
      exact hLock
    · exact .quiet _ fun k => id
  | save p ok =>
    simp only [Desk.step]
    split
    · next o hCall =>
      cases ok with
      | true => exact .save p o hCall
      | false => exact .drop p o hCall
    · exact .quiet _ fun k => id
  | credit p ok =>
    simp only [Desk.step]
    split
    · next o hCall =>
      by_cases hQuota : cfg.quotaOf o.amount < 0
      · simp only [EpayNotify.credit, if_pos hQuota]
        exact .lose p ok o hCall (.inr hQuota)
      simp only [EpayNotify.credit, if_neg hQuota]
      cases ok with
      | true => exact .credit p o hCall (by omega)
      | false => exact .lose p false o hCall (.inl rfl)
    · next hNot =>
      refine .quiet _ fun k => ?_
      rintro ⟨o, hSaved, -⟩
      exact hNot o hSaved
  | manual tradeNo now ok =>
    simp only [Desk.step]
    split
    · rename_i db hLock hRun
      rcases manualCompleteTopUp_ok hRun with ⟨rfl, hNone⟩ | ⟨o, hFind, hPending, rfl, hCredit⟩
      · rw [hNone, record, toList_none, List.append_nil]
        exact .quiet _ fun k => id
      rw [hCredit]
      refine .manual tradeNo now o ?_ hFind hPending
      rw [(find?_of_getTopUpByTradeNo hFind).2]
      exact hLock
    · exact .quiet _ fun k => id
  | update tradeNo expected target ok =>
    cases ok with
    | false =>
      simp only [Desk.step]
      split
      · rename_i hFalse
        cases hFalse
      · exact .quiet _ fun k h => absurd h.1 Bool.false_ne_true
    | true =>
      cases hOrder : pendingOrder s.db tradeNo expected with
      | error text =>
        simp only [Desk.step, updatePendingTopUpStatus, hOrder]
        refine .quiet _ fun k => ?_
        rintro ⟨-, -, o, hOk, -⟩
        rw [hOrder] at hOk
        cases hOk
      | ok o =>
        simp only [Desk.step, updatePendingTopUpStatus, hOrder]
        exact .update tradeNo expected target o hOrder
  | stop => exact .stop

/-! ## What every state has -/

def Has (s : Desk) (p : Nat) (o : TopUp) : Prop :=
  s.callbacks p = .read o ∨ s.callbacks p = .saved o

/-- A callback that holds a copy of an order has its lock, and the order was not credited. -/
structure Sound (k : Int) (n : String) (s : Desk) : Prop where
  row : ∃ o, s.db.orders.find? k = some o ∧ o.tradeNo = n
  lock : ∀ p o, s.Has p o → s.locks o.tradeNo = some p
  copy : ∀ p o, s.Has p o → o.id = k → o.tradeNo = n ∧ s.credited k = 0
  saved : ∀ p o, s.callbacks p = .saved o → o.id = k → s.statusOf k = some .success
  pending : s.statusOf k = some .pending → s.credited k = 0
  once : s.credited k ≤ 1

variable {cfg : PaySettings} {k : Int} {n : String} {s t : Desk} {a : DeskAct}

variable (db : Db)

theorem credited_record (c : Credit) :
    (s.record db (some c)).credited k = s.credited k + if c.orderId = k then 1 else 0 := by
  by_cases h : c.orderId = k <;> simp [credited, record, h]

theorem find?_save {orders : Table TopUp} {r : TopUp} (hRow : orders.find? k = some r) :
    (orders.save o).find? k = some (if o.id = k then o else r) := by
  by_cases h : o.id = k
  · subst h
    rw [if_pos rfl]
    exact Table.find?_save_self hRow
  · rw [if_neg h, ← hRow]
    exact Table.find?_save_of_ne h

variable {o : TopUp} {p : Nat} {tradeNo : String} {call : Callback}

theorem has_update (hCalls : t.callbacks = update s.callbacks p call) (h : t.Has q o) :
    (q = p ∧ (call = .read o ∨ call = .saved o)) ∨ (q ≠ p ∧ s.Has q o) := by
  simp only [Has, hCalls, update_apply] at h
  split_ifs at h with hq
  · exact .inl ⟨hq, h⟩
  · exact .inr ⟨hq, h⟩

theorem saved_update (hCalls : t.callbacks = update s.callbacks p call)
    (h : t.callbacks q = .saved o) :
    (q = p ∧ call = .saved o) ∨ (q ≠ p ∧ s.callbacks q = .saved o) := by
  rw [hCalls, update_apply, ite_eq_iff] at h
  exact h

theorem has_finish (h : (s.finish p o).Has q o') : q ≠ p ∧ s.Has q o' := by
  rcases has_update rfl h with ⟨-, hRest | hRest⟩ | h
  · cases hRest
  · cases hRest
  · exact h

section

variable (h : Sound k n s)
include h

theorem Sound.lock_finish (hp : s.Has p o) (hq : s.Has q o') (hne : q ≠ p) :
    update s.locks o.tradeNo none o'.tradeNo = some q := by
  have hTrade : o'.tradeNo ≠ o.tradeNo := by
    intro hEq
    have hLock := h.lock q o' hq
    rw [hEq, h.lock p o hp, some_inj] at hLock
    exact hne hLock.symm
  rw [update_of_ne hTrade]
  exact h.lock q o' hq

theorem Sound.same (hp : s.Has p o) (hq : s.Has q o') (hId : o.id = k) (hId' : o'.id = k) :
    p = q := by
  have hLock := h.lock p o hp
  rw [(h.copy p o hp hId).1, ← (h.copy q o' hq hId').1, h.lock q o' hq, some_inj] at hLock
  exact hLock.symm

theorem Sound.no_copy (hLock : s.locks n = none) (hp : s.Has p o) : o.id ≠ k := by
  intro hId
  have hHeld := h.lock p o hp
  rw [(h.copy p o hp hId).1, hLock] at hHeld
  cases hHeld

theorem Sound.statusOf_save (hOrders : t.db.orders = s.db.orders.save o) :
    t.statusOf k = if o.id = k then some o.status else s.statusOf k := by
  obtain ⟨r, hRow, -⟩ := h.row
  rw [statusOf, hOrders, find?_save hRow, statusOf, hRow, map_some]
  split <;> rfl

theorem Sound.row_save (hTrade : o.id = k → o.tradeNo = n) :
    ∃ r, (s.db.orders.save o).find? k = some r ∧ r.tradeNo = n := by
  obtain ⟨r, hRow, hTradeNo⟩ := h.row
  refine ⟨_, find?_save hRow, ?_⟩
  split
  · exact hTrade ‹_›
  · exact hTradeNo

theorem Sound.found (hFind : getTopUpByTradeNo s.db tradeNo = some o) (hId : o.id = k) :
    o.tradeNo = n ∧ s.statusOf k = some o.status := by
  obtain ⟨r, hRow, hTrade⟩ := h.row
  have hO := (find?_of_getTopUpByTradeNo hFind).1
  rw [hId, hRow, some_inj] at hO
  subst hO
  exact ⟨hTrade, by rw [statusOf, hRow, map_some]⟩

theorem Sound.finish (hp : s.Has p o) :
    Sound k n (s.finish p o) where
  row := h.row
  lock q o' hq := by
    obtain ⟨hne, hHas⟩ := has_finish hq
    exact h.lock_finish hp hHas hne
  copy q o' hq hId := h.copy q o' (has_finish hq).2 hId
  saved q o' hq hId := by
    rcases saved_update rfl hq with ⟨-, hCall⟩ | ⟨-, hSaved⟩
    · cases hCall
    · exact h.saved q o' hSaved hId
  pending := h.pending
  once := h.once

theorem Sound.take {cb : EpayCallback} (hLock : s.locks o.tradeNo = none)
    (hRead : EpayNotify.read cb s.db = some o) :
    Sound k n (s.take p o) where
  row := h.row
  lock q o' hq := by
    rcases has_update rfl hq with ⟨rfl, hCall⟩ | ⟨-, hHas⟩
    · rcases hCall with hCall | hCall <;> cases hCall
      exact update_self ..
    have hHeld := h.lock q o' hHas
    have hNe : o'.tradeNo ≠ o.tradeNo := by
      intro hEq
      rw [hEq, hLock] at hHeld
      cases hHeld
    exact (update_of_ne hNe ..).trans hHeld
  copy q o' hq hId := by
    rcases has_update rfl hq with ⟨rfl, hCall⟩ | ⟨-, hHas⟩
    · rcases hCall with hCall | hCall <;> cases hCall
      obtain ⟨x, hFind, hPending, rfl⟩ := read_eq_some hRead
      obtain ⟨hTradeNo, hNow⟩ := h.found hFind hId
      exact ⟨hTradeNo, h.pending (by rw [hNow, hPending])⟩
    · exact h.copy q o' hHas hId
  saved q o' hq hId := by
    rcases saved_update rfl hq with ⟨-, hCall⟩ | ⟨-, hSaved⟩
    · cases hCall
    · exact h.saved q o' hSaved hId
  pending := h.pending
  once := h.once

theorem Sound.save (hCall : s.callbacks p = .read o) :
    Sound k n (s.save p o) := by
  have hAfter := h.statusOf_save (t := s.save p o) rfl
  have hHas : ∀ q o', (s.save p o).Has q o' → s.Has q o' := by
    intro q o' hq
    rcases has_update rfl hq with ⟨rfl, hSaved⟩ | ⟨-, hHas⟩
    · rcases hSaved with hSaved | hSaved <;> cases hSaved
      exact .inl hCall
    · exact hHas
  refine ⟨h.row_save fun hK => (h.copy p o (.inl hCall) hK).1, ?_, ?_, ?_, ?_, h.once⟩
  · exact fun q o' hq => h.lock q o' (hHas q o' hq)
  · exact fun q o' hq hId => h.copy q o' (hHas q o' hq) hId
  · intro q o' hq hId
    rw [hAfter]
    split
    · rfl
    · next hK =>
      rcases saved_update rfl hq with ⟨rfl, hSaved⟩ | ⟨-, hSaved⟩
      · cases hSaved
        exact absurd hId hK
      · exact h.saved q o' hSaved hId
  · intro hPending
    rw [hAfter] at hPending
    split at hPending
    · cases hPending
    · exact h.pending hPending

theorem Sound.credit (hCall : s.callbacks p = .saved o) (userId amount : Int) :
    Sound k n ((s.finish p o).record (s.db.addQuota userId amount)
      (some ⟨o.id, userId, amount⟩)) := by
  have hEnd := h.finish (.inr hCall)
  have hCount := credited_record (s := s.finish p o) (k := k) (s.db.addQuota userId amount)
  refine ⟨h.row, hEnd.lock, ?_, hEnd.saved, ?_, ?_⟩
  · intro q o' hq hId
    obtain ⟨hne, hHas⟩ := has_finish (s := s) (p := p) (o := o) hq
    have hK : o.id ≠ k := fun hK => hne (h.same (.inr hCall) hHas hK hId).symm
    rw [hCount, if_neg hK]
    exact h.copy q o' hHas hId
  · intro hPending
    have hK : o.id ≠ k := by
      intro hK
      have hSuccess := h.saved p o hCall hK
      exact absurd (hSuccess.symm.trans hPending) (by simp)
    rw [hCount, if_neg hK]
    exact h.pending hPending
  · rw [hCount]
    by_cases hK : o.id = k
    · have hZero : (s.finish p o).credited k = 0 := (h.copy p o (.inr hCall) hK).2
      rw [if_pos hK, hZero]
    · rw [if_neg hK]
      exact h.once

theorem Sound.complete {now : Int} (hLock : s.locks o.tradeNo = none)
    (hFind : getTopUpByTradeNo s.db tradeNo = some o) (hPending : o.status = .pending)
    (userId amount : Int) :
    Sound k n (s.record ((s.db.succeed o now).addQuota userId amount)
      (some ⟨o.id, userId, amount⟩)) := by
  have hAfter := h.statusOf_save (t := s.record ((s.db.succeed o now).addQuota userId amount)
    (some ⟨o.id, userId, amount⟩)) rfl
  have hCount := credited_record (s := s) (k := k) ((s.db.succeed o now).addQuota userId amount)
  have hNoCopy : ∀ q o', s.Has q o' → o'.id = k → o.id ≠ k := by
    intro q o' hq hId hK
    rw [(h.found hFind hK).1] at hLock
    exact h.no_copy hLock hq hId
  refine ⟨h.row_save fun hK => (h.found hFind hK).1, h.lock, ?_, ?_, ?_, ?_⟩
  · intro q o' hq hId
    rw [hCount, if_neg (hNoCopy q o' hq hId)]
    exact h.copy q o' hq hId
  · intro q o' hq hId
    rw [hAfter, if_neg (hNoCopy q o' (.inr hq) hId)]
    exact h.saved q o' hq hId
  · intro hNow
    rw [hAfter] at hNow
    split at hNow
    · cases hNow
    · next hK =>
      rw [hCount, if_neg hK]
      exact h.pending hNow
  · rw [hCount]
    by_cases hK : o.id = k
    · rw [if_pos hK, h.pending (by rw [(h.found hFind hK).2, hPending])]
    · rw [if_neg hK]
      exact h.once

theorem Sound.close (hFind : getTopUpByTradeNo s.db tradeNo = some o)
    (hPending : o.status = .pending) (target : TopUpStatus) :
    Sound k n { s with
      db := { s.db with orders := s.db.orders.save { o with status := target } } } := by
  have hAfter := h.statusOf_save (t := { s with
    db := { s.db with orders := s.db.orders.save { o with status := target } } }) rfl
  have hWas : o.id = k → s.statusOf k = some .pending := by
    intro hK
    rw [(h.found hFind hK).2, hPending]
  refine ⟨h.row_save fun hK => (h.found hFind hK).1, h.lock, h.copy, ?_, ?_, h.once⟩
  · intro q o' hq hId
    have hSuccess := h.saved q o' hq hId
    have hK : o.id ≠ k := by
      intro hK
      rw [hWas hK] at hSuccess
      cases hSuccess
    rw [hAfter, if_neg hK]
    exact hSuccess
  · intro hNow
    by_cases hK : o.id = k
    · exact h.pending (hWas hK)
    · rw [hAfter, if_neg hK] at hNow
      exact h.pending hNow

theorem Sound.step (hStep : Step cfg s a t) : Sound k n t := by
  cases hStep with
  | quiet => exact h
  | read p cb o hRest hLock hRead => exact h.take hLock hRead
  | drop p o hCall => exact h.finish (.inl hCall)
  | save p o hCall => exact h.save hCall
  | credit p o hCall => exact h.credit hCall _ _
  | lose p ok o hCall => exact h.finish (.inr hCall)
  | manual tradeNo now o hLock hFind hPending => exact h.complete hLock hFind hPending _ _
  | update tradeNo expected target o hOrder =>
    obtain ⟨hFind, hPending⟩ := pendingOrder_eq_ok hOrder
    exact h.close hFind hPending target
  | stop =>
    refine ⟨h.row, ?_, ?_, ?_, h.pending, h.once⟩
    · rintro q o' (hq | hq) <;> cases hq
    · rintro q o' (hq | hq) <;> cases hq
    · intro q o' hq
      cases hq

end

/-! ## The history -/

def creditedTo (s : Desk) (userId : Int) : Int :=
  ((s.credits.filter fun c => c.userId = userId).map Credit.amount).sum

theorem creditedTo_record (c : Credit) (userId : Int) :
    (s.record db (some c)).creditedTo userId =
      s.creditedTo userId + if c.userId = userId then c.amount else 0 := by
  by_cases h : c.userId = userId <;> simp [creditedTo, record, h]

theorem quota_addQuota (userId add u : Int) :
    (db.addQuota userId add).quota u = db.quota u + if userId = u then add else 0 := by
  by_cases h : userId = u
  · subst h
    simp [Db.addQuota]
  · simp [Db.addQuota, h, update_of_ne (Ne.symm h)]

theorem Step.quota (hStep : Step cfg s a t) (userId : Int) :
    t.db.quota userId - t.creditedTo userId = s.db.quota userId - s.creditedTo userId := by
  cases hStep with
  | quiet | read | drop | save | lose | update | stop => rfl
  | credit p o =>
    rw [creditedTo_record]
    change (s.db.addQuota _ _).quota userId - _ = _
    rw [quota_addQuota, add_sub_add_right_eq_sub]
    rfl
  | manual tradeNo now o =>
    rw [creditedTo_record]
    change ((s.db.succeed o now).addQuota _ _).quota userId - _ = _
    rw [quota_addQuota, add_sub_add_right_eq_sub]
    rfl

/-- **The history tells the truth**: the quota of a user is what it was and what was added. -/
theorem quota_eq (cfg : PaySettings) (db : Db) (acts : List DeskAct) (userId : Int) :
    (acts.foldl (Desk.step cfg) (start db)).db.quota userId =
      db.quota userId + (acts.foldl (Desk.step cfg) (start db)).creditedTo userId := by
  have hRun : ∀ s : Desk, (acts.foldl (Desk.step cfg) s).db.quota userId -
      (acts.foldl (Desk.step cfg) s).creditedTo userId =
        s.db.quota userId - s.creditedTo userId := by
    induction acts with
    | nil => exact fun _ => rfl
    | cons a acts ih =>
      intro s
      exact (ih (s.step cfg a)).trans ((step_step cfg s a).quota userId)
  have hStart := hRun (start db)
  change _ = db.quota userId - 0 at hStart
  omega

/-! ## The run -/

def Balanced (k : Int) (s : Desk) : Prop := s.AtRest k → s.Consistent k

theorem AtRest.of_update (hOld : ∀ o, s.callbacks p = .saved o → o.id ≠ k)
    (hCalls : t.callbacks = update s.callbacks p call) (h : t.AtRest k) : s.AtRest k := by
  intro q o hq
  by_cases hEq : q = p
  · subst hEq
    exact hOld o hq
  · refine h q o ?_
    rw [hCalls, update_of_ne hEq]
    exact hq

theorem forall_saved {P : TopUp → Prop} (hCall : s.callbacks p = .saved o) (h : P o) :
    ∀ o', s.callbacks p = .saved o' → P o' := by
  intro o' hSaved
  rw [hCall] at hSaved
  cases hSaved
  exact h

theorem not_saved {P : TopUp → Prop} (hCall : ∀ o, s.callbacks p ≠ .saved o) :
    ∀ o, s.callbacks p = .saved o → P o :=
  fun o hSaved => absurd hSaved (hCall o)

theorem consistent_congr (hStatus : t.statusOf k = s.statusOf k)
    (hCredited : t.credited k = s.credited k) : t.Consistent k ↔ s.Consistent k := by
  unfold Consistent
  rw [hStatus, hCredited]

theorem consistent_of_one (hStatus : t.statusOf k = some .success) (hCredited : t.credited k = 1) :
    t.Consistent k :=
  ⟨iff_of_true hStatus (by omega), by omega⟩

theorem not_consistent (hStatus : t.statusOf k = some .success) (hCredited : t.credited k = 0) :
    ¬ t.Consistent k := by
  rintro ⟨hIff, -⟩
  have hPos := hIff.mp hStatus
  omega

/-! One lemma for each kind of step: what it does to the balance of the order. -/

section

variable (h : Sound k n s)
include h

theorem Sound.balanced_save (hBalanced : s.Balanced k) (hCall : s.callbacks p = .read o) :
    (s.save p o).Balanced k := by
  intro hT
  have hK : o.id ≠ k := hT p o (update_self ..)
  have hAfter := h.statusOf_save (t := s.save p o) rfl
  rw [if_neg hK] at hAfter
  refine (consistent_congr hAfter rfl).mpr (hBalanced (hT.of_update ?_ rfl))
  exact not_saved (by simp [hCall])

theorem Sound.balanced_credit (hBalanced : s.Balanced k) (hCall : s.callbacks p = .saved o)
    (add : Int) :
    ((s.finish p o).record (s.db.addQuota o.userId add) (some ⟨o.id, o.userId, add⟩)).Balanced
      k := by
  intro hT
  have hCount := credited_record (s := s.finish p o) (k := k) (s.db.addQuota o.userId add)
    ⟨o.id, o.userId, add⟩
  by_cases hK : o.id = k
  · have hZero : (s.finish p o).credited k = 0 := (h.copy p o (.inr hCall) hK).2
    rw [if_pos hK, hZero] at hCount
    exact consistent_of_one (h.saved p o hCall hK) hCount
  rw [if_neg hK] at hCount
  refine (consistent_congr ?_ hCount).mpr (hBalanced (hT.of_update ?_ rfl))
  · rfl
  · exact forall_saved hCall hK

theorem Sound.balanced_lose_iff (hBalanced : s.Balanced k) (hCall : s.callbacks p = .saved o) :
    (s.finish p o).Balanced k ↔ o.id ≠ k := by
  refine ⟨fun hT hK => ?_, fun hK hT => hBalanced (hT.of_update (forall_saved hCall hK) rfl)⟩
  refine not_consistent (t := s.finish p o) (h.saved p o hCall hK)
    (h.copy p o (.inr hCall) hK).2 (hT ?_)
  intro q o' hq hK'
  obtain ⟨hne, hHas⟩ := has_finish (.inr hq)
  exact hne (h.same (.inr hCall) hHas hK hK').symm

theorem Sound.balanced_manual (hBalanced : s.Balanced k)
    (hFind : getTopUpByTradeNo s.db tradeNo = some o) (hPending : o.status = .pending)
    (now add : Int) :
    (s.record ((s.db.succeed o now).addQuota o.userId add)
      (some ⟨o.id, o.userId, add⟩)).Balanced k := by
  intro hT
  have hAfter := h.statusOf_save
    (t := s.record ((s.db.succeed o now).addQuota o.userId add) (some ⟨o.id, o.userId, add⟩)) rfl
  have hCount := credited_record (s := s) (k := k) ((s.db.succeed o now).addQuota o.userId add)
    ⟨o.id, o.userId, add⟩
  by_cases hK : o.id = k
  · have hZero : s.credited k = 0 := h.pending (by rw [(h.found hFind hK).2, hPending])
    rw [if_pos hK] at hAfter hCount
    rw [hZero] at hCount
    exact consistent_of_one hAfter hCount
  · rw [if_neg hK] at hAfter hCount
    exact (consistent_congr hAfter hCount).mpr (hBalanced hT)

theorem Sound.balanced_close_iff (hBalanced : s.Balanced k)
    (hFind : getTopUpByTradeNo s.db tradeNo = some o) (hPending : o.status = .pending)
    (target : TopUpStatus) :
    Balanced k { s with db :=
      { s.db with orders := s.db.orders.save { o with status := target } } } ↔
        ¬ (o.id = k ∧ target = .success) := by
  have hAfter := h.statusOf_save (t := { s with
    db := { s.db with orders := s.db.orders.save { o with status := target } } }) rfl
  by_cases hK : o.id = k
  · have hWas : s.statusOf k = some .pending := by rw [(h.found hFind hK).2, hPending]
    have hZero : s.credited k = 0 := h.pending hWas
    have hRest : s.AtRest k := by
      intro q o' hq hK'
      have hSuccess := h.saved q o' hq hK'
      rw [hWas] at hSuccess
      cases hSuccess
    rw [if_pos hK] at hAfter
    refine ⟨fun hT hLoses => ?_, fun hKeeps _ => ⟨iff_of_false ?_ ?_, ?_⟩⟩
    · exact not_consistent (hAfter.trans (congrArg some hLoses.2)) hZero (hT hRest)
    · rw [hAfter, some_inj]
      exact fun hTarget => hKeeps ⟨hK, hTarget⟩
    · exact Nat.not_lt.mpr (le_of_eq hZero)
    · exact le_of_eq_of_le hZero (by omega)
  · rw [if_neg hK] at hAfter
    exact iff_of_true (fun hT => (consistent_congr hAfter rfl).mpr (hBalanced hT)) fun hL => hK hL.1

theorem Sound.balanced_stop_iff (hBalanced : s.Balanced k) :
    Balanced k { s with callbacks := fun _ => .rest, locks := fun _ => none } ↔ s.AtRest k := by
  refine ⟨fun hT p o hSaved hK => ?_, fun hRest _ => hBalanced hRest⟩
  refine not_consistent (h.saved p o hSaved hK) (h.copy p o (.inr hSaved) hK).2 (hT ?_)
  intro q o' hq
  cases hq

theorem Sound.balanced_iff (hBalanced : s.Balanced k) (hStep : Step cfg s a t) :
    t.Balanced k ↔ ¬ s.Loses cfg k a := by
  cases hStep with
  | quiet a hQuiet => exact iff_of_true hBalanced (hQuiet k)
  | read p cb o hRest =>
    refine iff_of_true (fun hT => hBalanced (hT.of_update ?_ rfl)) id
    exact not_saved (by simp [hRest])
  | drop p o hCall =>
    refine iff_of_true (fun hT => hBalanced (hT.of_update ?_ rfl)) id
    exact not_saved (by simp [hCall])
  | save p o hCall => exact iff_of_true (h.balanced_save hBalanced hCall) id
  | credit p o hCall hQuota =>
    refine iff_of_true (h.balanced_credit hBalanced hCall _) ?_
    rintro ⟨o', hSaved, -, hFail⟩
    rw [hCall] at hSaved
    cases hSaved
    exact hFail.elim nofun fun hNeg => by omega
  | lose p ok o hCall hFail =>
    rw [h.balanced_lose_iff hBalanced hCall, not_iff_not]
    refine ⟨fun hK => ⟨o, hCall, hK, hFail⟩, ?_⟩
    rintro ⟨o', hSaved, hK, -⟩
    rw [hCall] at hSaved
    cases hSaved
    exact hK
  | manual tradeNo now o hLock hFind hPending =>
    exact iff_of_true (h.balanced_manual hBalanced hFind hPending now _) id
  | update tradeNo expected target o hOrder =>
    obtain ⟨hFind, hPending⟩ := pendingOrder_eq_ok hOrder
    rw [h.balanced_close_iff hBalanced hFind hPending, not_iff_not]
    refine ⟨fun hL => ⟨rfl, hL.2, o, hOrder, hL.1⟩, ?_⟩
    rintro ⟨-, hTarget, o', hOrder', hK⟩
    rw [hOrder] at hOrder'
    cases hOrder'
    exact ⟨hK, hTarget⟩
  | stop =>
    rw [h.balanced_stop_iff hBalanced]
    simp only [AtRest, Loses, not_exists, not_and]

end

theorem sound_start {db : Db} {o : TopUp} (hOrder : db.orders.find? k = some o) :
    Sound k o.tradeNo (start db) where
  row := ⟨o, hOrder, rfl⟩
  lock _ _ h := by rcases h with h | h <;> cases h
  copy _ _ h := by rcases h with h | h <;> cases h
  saved _ _ h := by cases h
  pending _ := rfl
  once := Nat.zero_le 1

/-- **An order is successful exactly when it was credited, once**, exactly when no step of the run
loses its credit. -/
theorem order_credited_iff (cfg : PaySettings) {db : Db} {o : TopUp}
    (hOrder : db.orders.find? k = some o) (hPending : o.status = .pending)
    (acts : List DeskAct) :
    (∀ s ∈ states (Desk.step cfg) (start db) acts, s.AtRest k → s.Consistent k) ↔
      ∀ move ∈ moves (Desk.step cfg) (start db) acts, ¬ move.1.Loses cfg k move.2 := by
  have hStatus : (start db).statusOf k = some .pending := by
    rw [statusOf, start, hOrder, map_some, hPending]
  refine states_forall_iff (Desk.step cfg) (I := Sound k o.tradeNo) (P := Balanced k)
    (G := fun s a => ¬ s.Loses cfg k a) (fun s a h => h.step (step_step cfg s a))
    (fun s a h hBalanced => h.balanced_iff hBalanced (step_step cfg s a)) acts _
    (sound_start hOrder) ?_
  intro _
  refine ⟨iff_of_false ?_ (Nat.lt_irrefl 0), Nat.zero_le 1⟩
  rw [hStatus]
  simp

def epayOrder : TopUp := noOrders.placed (demoCheckout.order .epay "alipay" 5 (73 / 2))

def epayOrders : Db := noOrders.place (demoCheckout.order .epay "alipay" 5 (73 / 2))

def paid : EpayCallback := ⟨true, true, "USR7NO1", "alipay"⟩

/-- A callback that is not disturbed. -/
theorem paid_credited :
    epayOrders.orders.find? 1 = some epayOrder ∧
      ∀ s ∈ states (Desk.step (demoPay false)) (start epayOrders)
        [.notify 0 paid, .save 0 true, .credit 0 true], s.AtRest 1 → s.Consistent 1 := by
  have hOrder : epayOrders.orders.find? 1 = some epayOrder := by decide +kernel
  refine ⟨hOrder, (order_credited_iff (demoPay false) hOrder rfl _).mpr ?_⟩
  refine List.forall_mem_cons.mpr ⟨id, List.forall_mem_cons.mpr ⟨id,
    List.forall_mem_cons.mpr ⟨?_, fun r hr => absurd hr List.not_mem_nil⟩⟩⟩
  rintro ⟨o, hSaved, -, hFail⟩
  rcases hFail with hFail | hFail
  · cases hFail
  have hCall : ([.notify 0 paid, .save 0 true].foldl (Desk.step (demoPay false))
      (start epayOrders)).callbacks 0 = .saved epayOrder := by decide +kernel
  cases hCall.symm.trans hSaved
  exact absurd hFail (by decide +kernel)

/-- **The order is paid and never credited**: the process stops between the two statements. -/
theorem stopped_credit_lost :
    let s := [.notify 0 paid, .save 0 true, .stop].foldl (Desk.step (demoPay false))
      (start epayOrders)
    let t := [.notify 0 paid, .save 0 true, .credit 0 true,
      .manual "USR7NO1" 1900000200 true].foldl (Desk.step (demoPay false)) s
    s.AtRest 1 ∧ s.statusOf 1 = some .success ∧ s.credited 1 = 0 ∧
      t.statusOf 1 = some .success ∧ t.credited 1 = 0 ∧ t.db.quota 7 = 0 := by
  refine ⟨fun p o hp => ?_, by decide +kernel⟩
  cases hp

/-- **An order is credited at most once, and never before it is closed**, whatever fails and
whenever the process stops; nothing but these credits changes a quota. -/
theorem credited_at_most_once (cfg : PaySettings) {db : Db} {o : TopUp}
    (hOrder : db.orders.find? k = some o) (acts : List DeskAct) :
    let s := acts.foldl (Desk.step cfg) (start db)
    s.credited k ≤ 1 ∧ (s.statusOf k = some .pending → s.credited k = 0) ∧
      ∀ userId, s.db.quota userId = db.quota userId + s.creditedTo userId := by
  intro s
  have hSound : Sound k o.tradeNo s :=
    List.foldlRecOn acts _ (motive := Sound k o.tradeNo) (sound_start hOrder)
      fun t h a _ => h.step (step_step cfg t a)
  exact ⟨hSound.once, hSound.pending, quota_eq cfg db acts⟩

theorem credited_at_most_once_epay :
    let s := [.notify 0 paid, .save 0 true, .credit 0 true, .notify 1 paid].foldl
      (Desk.step (demoPay false)) (start epayOrders)
    s.credited 1 ≤ 1 ∧ (s.statusOf 1 = some .pending → s.credited 1 = 0) ∧
      ∀ userId, s.db.quota userId = epayOrders.quota userId + s.creditedTo userId :=
  credited_at_most_once (demoPay false) (o := epayOrder) (by decide +kernel) _

end Desk

end NewApi.Payment
