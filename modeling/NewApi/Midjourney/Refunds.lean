import Mathlib.Algebra.Ring.Int.Defs
import NewApi.Core.Once
import NewApi.Midjourney.Basic

/-!
# Refunds of Midjourney tasks

A refund returns the price, whether it was charged or not.  If every answer that fails a task takes
it to `FAILURE` from another status, and none takes it away from there, only one update wins the
refund (`regular_move`); nothing in the code makes sure of this.
-/

namespace NewApi.Mj

open Core List Option

/-! ## What a step does -/

section Put

variable {s : State} {p q : Nat} {tasks : Table Midjourney} {pr : Proc}

@[simp] theorem put_tasks : (s.put p tasks pr).tasks = tasks := rfl

@[simp] theorem put_refunds : (s.put p tasks pr).refunds = s.refunds := rfl

@[simp] theorem put_procs_self : (s.put p tasks pr).procs p = pr := Function.update_self ..

theorem put_procs_of_ne (h : q ≠ p) : (s.put p tasks pr).procs q = s.procs q :=
  Function.update_of_ne h ..

theorem forall_put {P : Proc → Prop} (hSelf : P pr) (hOld : ∀ q, P (s.procs q)) :
    ∀ q, P ((s.put p tasks pr).procs q) := by
  intro q
  by_cases hq : q = p
  · subst hq
    rw [put_procs_self]
    exact hSelf
  · rw [put_procs_of_ne hq]
    exact hOld q

end Put

def Proc.updated (pr : Proc) (mjId : String) (new : Midjourney) (owes : Option Midjourney) : Proc :=
  { pr with taskM := Function.update pr.taskM mjId (some new), owes := owes }

inductive Step (s : State) : Act → State → Prop
  | submit (sub : Submission) (hAccepted : sub.Accepted) :
      Step s (.submit sub) { s with tasks := s.tasks.insert sub.task sub.key_task }
  | idle (a : Act) : Step s a s
  | round (p : Nat) (channels : List Int) (hIdle : (s.procs p).owes = none) :
      Step s (.round p channels) (s.put p s.tasks (startRound s.tasks channels))
  | refund (p : Nat) (out : Outside) (t : Midjourney) (hOwes : (s.procs p).owes = some t) :
      Step s (.run p out)
        { s.put p s.tasks { s.procs p with owes := none } with
          refunds := s.refunds ++ [⟨t.id, t.userId, t.quota⟩] }
  | bulk (p : Nat) (out : Outside) (rows : Midjourney → Bool) (reason : Option String)
      (agenda : List Job) (hOwes : (s.procs p).owes = none) :
      Step s (.run p out)
        (s.put p (bulkFail s.tasks rows reason) { s.procs p with agenda := agenda })
  | listen (p : Nat) (out : Outside) (agenda : List Job) (hOwes : (s.procs p).owes = none) :
      Step s (.run p out) (s.put p s.tasks { s.procs p with agenda := agenda })
  | lose (p : Nat) (out : Outside) (item : MidjourneyDto) (rest : List Job) (t : Midjourney)
      (hOwes : (s.procs p).owes = none) (hAgenda : (s.procs p).agenda = .item item :: rest)
      (hTask : (s.procs p).taskM item.mjId = some t) :
      Step s (.run p out)
        (s.put p s.tasks ({ s.procs p with agenda := rest }.updated item.mjId
          (t.afterItem (item.timedOut out.now t)) none))
  | win (p : Nat) (out : Outside) (item : MidjourneyDto) (rest : List Job) (t : Midjourney)
      (hOwes : (s.procs p).owes = none) (hAgenda : (s.procs p).agenda = .item item :: rest)
      (hTask : (s.procs p).taskM item.mjId = some t)
      (hStatus : statusOf s.tasks t.id = some t.status) :
      Step s (.run p out)
        (s.put p (s.tasks.save (t.afterItem (item.timedOut out.now t)))
          ({ s.procs p with agenda := rest }.updated item.mjId
            (t.afterItem (item.timedOut out.now t))
            (if t.ShouldReturnQuota (item.timedOut out.now t) then
              some (t.afterItem (item.timedOut out.now t)) else none)))

variable (t : Midjourney)

section

variable (item : MidjourneyDto)
include item

theorem timedOut_mjId (now : Int) (t : Midjourney) :
    (item.timedOut now t).mjId = item.mjId := by
  rw [MidjourneyDto.timedOut]
  split <;> rfl

theorem afterItem_id : (t.afterItem item).id = t.id := by
  rw [Midjourney.afterItem]
  split <;> rfl

theorem afterItem_quota : (t.afterItem item).quota = t.quota := by
  rw [Midjourney.afterItem]
  split <;> rfl

theorem afterItem_status : (t.afterItem item).status = item.status := by
  rw [Midjourney.afterItem]
  split <;> rfl

end

theorem runItem_cases (now : Int) (tasks : Table Midjourney) (pr : Proc) (t : Midjourney)
    (item : MidjourneyDto) :
    runItem now tasks pr t item = (tasks, pr) ∨
      runItem now tasks pr t item =
        (tasks, pr.updated item.mjId (t.afterItem (item.timedOut now t)) none) ∨
      (statusOf tasks t.id = some t.status ∧ runItem now tasks pr t item =
        (tasks.save (t.afterItem (item.timedOut now t)),
          pr.updated item.mjId (t.afterItem (item.timedOut now t))
            (if t.ShouldReturnQuota (item.timedOut now t) then
              some (t.afterItem (item.timedOut now t)) else none))) := by
  simp only [runItem, timedOut_mjId]
  split
  · right
    by_cases hStatus : statusOf tasks t.id = some t.status
    · right
      simp [updateWithStatus, afterItem_id, hStatus, Proc.updated]
    · simp [updateWithStatus, afterItem_id, hStatus, Proc.updated]
  · exact .inl rfl

variable {s : State} {rest : List Job}

theorem run_step (s : State) (p : Nat) (out : Outside) : Step s (.run p out) (s.run p out) := by
  simp only [State.run]
  split
  · next t hOwes => exact .refund p out t hOwes
  · exact .idle _
  · next job rest hOwes hAgenda =>
    cases job with simp only [runJob]
    | failNull taskIDs => exact .bulk p out _ none rest hOwes
    | channel channelId mjIds =>
      cases out.channel with
      | missing => exact .bulk p out _ (some _) rest hOwes
      | failed => exact .listen p out rest hOwes
      | items items => exact .listen p out (items.map .item ++ rest) hOwes
    | item item =>
      cases hTask : (s.procs p).taskM item.mjId with
      | none => exact .listen p out [] hOwes
      | some t =>
        rcases runItem_cases out.now s.tasks { s.procs p with agenda := rest } t item with
          h | h | ⟨hStatus, h⟩ <;> simp only [h]
        · exact .listen p out rest hOwes
        · exact .lose p out item rest t hOwes hAgenda hTask
        · exact .win p out item rest t hOwes hAgenda hTask hStatus

theorem step_kind (s : State) (a : Act) : Step s a (step s a) := by
  cases a with simp only [step]
  | submit sub =>
    split
    · next hAccepted => exact .submit sub hAccepted
    · exact .idle _
  | round p channels =>
    split
    · next hIdle => exact .round p channels hIdle.2
    · exact .idle _
  | run p out => exact run_step s p out

/-! ## The quota of every copy -/

/-- Every copy of a task, wherever it is held, has a key and a quota with `P`. -/
structure Copies (P : Int → Int → Prop) (s : State) : Prop where
  rows : ∀ r ∈ s.tasks.rows, P r.id r.quota
  memory : ∀ p mjId t, (s.procs p).taskM mjId = some t → P t.id t.quota
  owed : ∀ p t, (s.procs p).owes = some t → P t.id t.quota
  refunded : ∀ r ∈ s.refunds, P r.taskId r.quota

variable {tasks : Table Midjourney} {pr : Proc} {new : Midjourney}

section Copies

variable {P Q : Int → Int → Prop} {s : State}

theorem Copies.mono (h : Copies P s) (hPQ : ∀ id quota, P id quota → Q id quota) : Copies Q s where
  rows := fun r hr => hPQ _ _ (h.rows r hr)
  memory := fun p mjId t ht => hPQ _ _ (h.memory p mjId t ht)
  owed := fun p t ht => hPQ _ _ (h.owed p t ht)
  refunded := fun r hr => hPQ _ _ (h.refunded r hr)

theorem Copies.put (h : Copies P s) (p : Nat) (hRows : ∀ r ∈ tasks.rows, P r.id r.quota)
    (hMemory : ∀ mjId t, pr.taskM mjId = some t → P t.id t.quota)
    (hOwed : ∀ t, pr.owes = some t → P t.id t.quota) :
    Copies P (s.put p tasks pr) where
  rows := hRows
  memory := forall_put (P := fun pr => ∀ mjId t, pr.taskM mjId = some t → P t.id t.quota)
    hMemory h.memory
  owed := forall_put (P := fun pr => ∀ t, pr.owes = some t → P t.id t.quota) hOwed h.owed
  refunded := h.refunded

theorem rows_bulkFail (h : ∀ r ∈ tasks.rows, P r.id r.quota) (p : Midjourney → Bool)
    (reason : Option String) : ∀ r ∈ (bulkFail tasks p reason).rows, P r.id r.quota := by
  intro r hr
  obtain ⟨x, hx, rfl⟩ := mem_map.mp hr
  split <;> exact h x hx

theorem rows_save (h : ∀ r ∈ tasks.rows, P r.id r.quota) (hNew : P new.id new.quota) :
    ∀ r ∈ (tasks.save new).rows, P r.id r.quota := by
  intro r hr
  rcases Table.mem_save hr with ⟨rfl, -⟩ | ⟨hr, -⟩
  · exact hNew
  · exact h r hr

theorem memory_updated {mjId : String} {owes : Option Midjourney}
    (h : ∀ mjId t, pr.taskM mjId = some t → P t.id t.quota) (hNew : P new.id new.quota) :
    ∀ mjId' t, (pr.updated mjId new owes).taskM mjId' = some t → P t.id t.quota := by
  intro mjId' t ht
  by_cases hId : mjId' = mjId
  · subst hId
    simp only [Proc.updated, Function.update_self] at ht
    cases ht
    exact hNew
  · simp only [Proc.updated, Function.update_of_ne hId] at ht
    exact h mjId' t ht

theorem Copies.step (h : Copies P s) {a : Act}
    (hSubmit : ∀ sub, a = .submit sub → sub.Accepted → P s.tasks.next sub.quota) :
    Copies P (step s a) := by
  have hKind := step_kind s a
  generalize Mj.step s a = s' at hKind ⊢
  cases hKind with
  | submit sub hAccepted =>
    refine ⟨?_, h.memory, h.owed, h.refunded⟩
    intro r hr
    rcases (Table.mem_insert sub.key_task).mp hr with hr | rfl
    · exact h.rows r hr
    · rw [(sub.task_id_quota _).1, (sub.task_id_quota _).2]
      exact hSubmit sub rfl hAccepted
  | idle => exact h
  | round p channels hIdle =>
    refine h.put p h.rows ?_ ?_
    · intro mjId t ht
      exact h.rows t (mem_of_mem_filter (mem_of_mem_filter (mem_of_getLast? ht)))
    · intro t ht
      cases ht
  | refund p out t hOwes =>
    have hPut : Copies P (s.put p s.tasks { s.procs p with owes := none }) :=
      h.put p h.rows (h.memory p) (by simp)
    refine ⟨hPut.rows, hPut.memory, hPut.owed, ?_⟩
    intro r hr
    rcases mem_append.mp hr with hr | hr
    · exact h.refunded r hr
    · rw [mem_singleton.mp hr]
      exact h.owed p t hOwes
  | bulk p out rows reason agenda hOwes =>
    exact h.put p (rows_bulkFail h.rows rows reason) (h.memory p) (h.owed p)
  | listen p out agenda hOwes => exact h.put p h.rows (h.memory p) (h.owed p)
  | lose p out item rest t hOwes hAgenda hTask =>
    have hNew := h.memory p _ t hTask
    rw [← afterItem_id t (item.timedOut out.now t),
      ← afterItem_quota t (item.timedOut out.now t)] at hNew
    refine h.put p h.rows (memory_updated (h.memory p) hNew) ?_
    intro t ht
    cases ht
  | win p out item rest t hOwes hAgenda hTask hStatus =>
    have hNew := h.memory p _ t hTask
    rw [← afterItem_id t (item.timedOut out.now t),
      ← afterItem_quota t (item.timedOut out.now t)] at hNew
    refine h.put p (rows_save h.rows hNew) (memory_updated (h.memory p) hNew) ?_
    intro new ht
    simp only [Proc.updated, ite_none_right_eq_some, some.injEq] at ht
    rw [← ht.2]
    exact hNew

end Copies

/-! ## Keys -/

theorem next_step (s : State) (a : Act) :
    s.tasks.next ≤ (step s a).tasks.next ∧
      ∀ sub, a = .submit sub → sub.Accepted → s.tasks.next < (step s a).tasks.next := by
  have hKind := step_kind s a
  refine ⟨?_, ?_⟩
  · generalize step s a = s' at hKind ⊢
    cases hKind with
    | submit sub hAccepted => exact Int.le_add_one (Int.le_refl _)
    | _ => exact Int.le_refl _
  · rintro sub rfl hAccepted
    rw [step, if_pos hAccepted]
    exact Int.lt_succ _

def system : System State Act := System.ofFun step State.Start

theorem copies_lt_next (h : system.Reach s) : Copies (fun id _ => id < s.tasks.next) s := by
  refine System.Reach.invariant (I := fun s => Copies (fun id _ => id < s.tasks.next) s) ?_ ?_ h
  · intro s hStart
    refine ⟨fun r hr => (s.tasks.key_range r hr).2, ?_, ?_, ?_⟩
    · intro p mjId t ht
      rw [hStart.procs p] at ht
      cases ht
    · intro p t ht
      rw [hStart.procs p] at ht
      cases ht
    · intro r hr
      rw [hStart.refunds] at hr
      cases hr
  · rintro s a _ hCopies rfl
    have hNext := next_step s a
    refine (hCopies.mono fun id _ hId => Int.lt_of_lt_of_le hId hNext.1).step ?_
    intro sub hSub hAccepted
    exact hNext.2 sub hSub hAccepted

structure Priced (k q : Int) (s : State) : Prop where
  copies : Copies (fun id quota => id = k → quota = q) s
  given : k < s.tasks.next

theorem Priced.step {k q : Int} (h : Priced k q s) (a : Act) : Priced k q (step s a) := by
  refine ⟨h.copies.step ?_, Int.lt_of_lt_of_le h.given (next_step s a).1⟩
  have := h.given
  omega

theorem priced_submit (h : system.Reach s) {sub : Submission} (hAccepted : sub.Accepted) :
    Priced s.tasks.next sub.quota (step s (.submit sub)) := by
  refine ⟨?_, (next_step s _).2 sub rfl hAccepted⟩
  refine ((copies_lt_next h).mono ?_).step ?_
  · omega
  · intro sub' hSub _ _
    cases hSub
    rfl

/-! ## How often a task is refunded -/

def State.times (s : State) (k : Int) : Nat := s.refunds.countP fun r => decide (r.taskId = k)

def State.returned (s : State) (k : Int) : Int :=
  ((s.refunds.filter fun r => decide (r.taskId = k)).map Refund.amount).sum

theorem returned_eq {k q : Int} (h : Priced k q s) :
    s.returned k = s.times k * (if q < 0 then 0 else q) := by
  rw [State.returned, State.times, countP_eq_length_filter,
    sum_eq_card_nsmul _ (if q < 0 then 0 else q), length_map, nsmul_eq_mul]
  intro x hx
  obtain ⟨r, hr, rfl⟩ := mem_map.mp hx
  obtain ⟨hMem, hKey⟩ := mem_filter.mp hr
  rw [Refund.amount, h.copies.refunded r hMem (by simpa using hKey)]

def Proc.next (pr : Proc) : Option (MidjourneyDto × Midjourney) :=
  match pr.owes, pr.agenda with
  | none, .item item :: _ => (pr.taskM item.mjId).map fun t => (item, t)
  | _, _ => none

theorem Proc.next_eq {item : MidjourneyDto} {t : Midjourney} (hOwes : pr.owes = none)
    (hAgenda : pr.agenda = .item item :: rest) (hTask : pr.taskM item.mjId = some t) :
    pr.next = some (item, t) := by
  rw [Proc.next, hOwes, hAgenda]
  simp only [hTask, map_some]

/-- A failing answer brings the status `FAILURE` from another one, and none takes it away. -/
def Regular (t : Midjourney) (item : MidjourneyDto) : Prop :=
  (t.Failed item → t.status ≠ "FAILURE" ∧ item.status = "FAILURE") ∧
    (t.status = "FAILURE" → item.status = "FAILURE")

instance (t : Midjourney) (item : MidjourneyDto) : Decidable (Regular t item) :=
  inferInstanceAs (Decidable ((_ → _ ∧ _) ∧ (_ → _)))

/-- The step handles only regular answers about task `k`. -/
def RegularStep (k : Int) (s : State) : Act → Prop
  | .run p out => ∀ x ∈ (s.procs p).next, x.2.id = k → Regular x.2 (x.1.timedOut out.now x.2)
  | _ => True

instance (k : Int) (s : State) : (a : Act) → Decidable (RegularStep k s a)
  | .run p _ =>
    inferInstanceAs (Decidable (∀ x ∈ (s.procs p).next, x.2.id = k → Regular _ _))
  | .submit _ => .isTrue trivial
  | .round _ _ => .isTrue trivial

/-- The refund of task `k`: its claim is closed by the status `FAILURE`. -/
def payment (k : Int) : Payment State Nat where
  closed s := statusOf s.tasks k = some "FAILURE"
  owes s p := ∃ t, (s.procs p).owes = some t ∧ t.id = k
  paid s := s.times k

section Moves

variable {k : Int} {s : State} {p : Nat}

theorem owes_put {D : Prop} (hOwes : (∃ t, pr.owes = some t ∧ t.id = k) ↔ D) (q : Nat) :
    (payment k).owes (s.put p tasks pr) q ↔ (q = p ∧ D) ∨ (q ≠ p ∧ (payment k).owes s q) := by
  show (∃ t, ((s.put p tasks pr).procs q).owes = some t ∧ t.id = k) ↔ _
  by_cases hq : q = p
  · subst hq
    rw [put_procs_self, hOwes]
    simp
  · rw [put_procs_of_ne hq]
    simp [hq, payment]

section

variable (hOwes : (∃ t, pr.owes = some t ∧ t.id = k) ↔ (payment k).owes s p)
include hOwes

theorem owes_put_same (q : Nat) :
    (payment k).owes (s.put p tasks pr) q ↔ (payment k).owes s q := by
  rw [owes_put hOwes]
  by_cases hq : q = p <;> simp [hq]

theorem quiet_put (hClosed : (payment k).closed s → statusOf tasks k = some "FAILURE") :
    (payment k).Move s (s.put p tasks pr) :=
  .quiet (owes_put_same hOwes) rfl hClosed

end

theorem nothing_owed : ¬ ∃ t : Midjourney, none = some t ∧ t.id = k := by simp

theorem not_owes (h : (s.procs p).owes = none) : ¬ (payment k).owes s p := by
  rintro ⟨t, ht, -⟩
  rw [h] at ht
  cases ht

theorem statusOf_bulkFail (h : statusOf tasks k = some "FAILURE") (rows : Midjourney → Bool)
    (reason : Option String) : statusOf (bulkFail tasks rows reason) k = some "FAILURE" := by
  obtain ⟨r, hr, hStatus⟩ := map_eq_some_iff.mp h
  rw [statusOf, bulkFail, Table.find?_modify, hr]
  by_cases hRow : rows r
  · simp [hRow]
  · simp [hRow, hStatus]

theorem statusOf_save {status : String} (h : statusOf tasks new.id = some status) :
    statusOf (tasks.save new) new.id = some new.status := by
  obtain ⟨old, hOld, -⟩ := map_eq_some_iff.mp h
  show ((tasks.save new).find? (Row.key new)).map _ = _
  rw [Table.find?_save_self hOld]
  rfl

theorem refund_move {t : Midjourney} (hOwes : (s.procs p).owes = some t) :
    (payment k).Move s
      { s.put p s.tasks { s.procs p with owes := none } with
        refunds := s.refunds ++ [⟨t.id, t.userId, t.quota⟩] } := by
  by_cases hKey : t.id = k
  · refine .pay p ⟨t, hOwes, hKey⟩ ?_ ?_ id
    · intro q
      show (payment k).owes (s.put p s.tasks { s.procs p with owes := none }) q ↔ _
      rw [owes_put (iff_false_intro nothing_owed), and_false, false_or, and_comm]
    · show (s.refunds ++ _).countP _ = s.refunds.countP _ + 1
      simp [hKey]
  · have hNot : ¬ (payment k).owes s p := by
      rintro ⟨t', ht', hKey'⟩
      rw [hOwes] at ht'
      cases ht'
      exact hKey hKey'
    refine .quiet ?_ ?_ id
    · intro q
      show (payment k).owes (s.put p s.tasks { s.procs p with owes := none }) q ↔ _
      exact owes_put_same (iff_of_false nothing_owed hNot) q
    · show (s.refunds ++ _).countP _ = s.refunds.countP _
      simp [hKey]

theorem win_move {item : MidjourneyDto} {rest : List Job} {t : Midjourney}
    (hOwes : (s.procs p).owes = none) (hStatus : statusOf s.tasks t.id = some t.status)
    (hRegular : t.id = k → Regular t item) (mjId : String) :
    (payment k).Move s
        (s.put p (s.tasks.save (t.afterItem item))
          ({ s.procs p with agenda := rest }.updated mjId (t.afterItem item)
            (if t.ShouldReturnQuota item then some (t.afterItem item) else none))) := by
  have hNot := not_owes (k := k) hOwes
  by_cases hKey : t.id = k
  · subst hKey
    obtain ⟨hFailed, hFinal⟩ := hRegular rfl
    have hSaved : statusOf (s.tasks.save (t.afterItem item)) t.id = some item.status := by
      rw [← afterItem_id t item] at hStatus ⊢
      rw [statusOf_save hStatus, afterItem_status]
    by_cases hShould : t.ShouldReturnQuota item
    · -- the only step that makes a process owe: it closes a claim that was open
      obtain ⟨hOpen, hFailure⟩ := hFailed hShould.1
      rw [if_pos hShould]
      refine .claim p ?_ ?_ rfl ?_
      · intro hClosed
        exact hOpen (some.inj (hStatus.symm.trans hClosed))
      · intro q
        have hDue : ∃ t', some (t.afterItem item) = some t' ∧ t'.id = t.id :=
          ⟨_, rfl, afterItem_id t item⟩
        rw [owes_put (iff_true_intro hDue)]
        by_cases hq : q = p <;> simp [hq]
      · show statusOf (s.tasks.save (t.afterItem item)) t.id = _
        rw [hSaved, hFailure]
    · rw [if_neg hShould]
      refine quiet_put (iff_of_false nothing_owed hNot) ?_
      intro hClosed
      rw [hSaved, hFinal (some.inj (hStatus.symm.trans hClosed))]
  · refine quiet_put (iff_of_false ?_ hNot) ?_
    · rintro ⟨t', ht', hKey'⟩
      simp only [Proc.updated, ite_none_right_eq_some, some.injEq] at ht'
      rw [← ht'.2, afterItem_id] at hKey'
      exact hKey hKey'
    intro hClosed
    rw [statusOf, Table.find?_save_of_ne]
    · exact hClosed
    · show (t.afterItem item).id ≠ k
      rw [afterItem_id]
      exact hKey

theorem regular_move {a : Act} (hRegular : RegularStep k s a) :
    (payment k).Move s (step s a) := by
  have hKind := step_kind s a
  generalize step s a = s' at hKind ⊢
  cases hKind with
  | submit sub hAccepted =>
    refine .quiet (fun _ => Iff.rfl) rfl ?_
    intro hClosed
    obtain ⟨r, hr, hStatus⟩ := map_eq_some_iff.mp hClosed
    exact map_eq_some_iff.mpr ⟨r, Table.find?_insert sub.key_task hr, hStatus⟩
  | idle => exact .quiet (fun _ => Iff.rfl) rfl id
  | round p channels hIdle =>
    refine quiet_put (iff_of_false ?_ (not_owes hIdle)) id
    rintro ⟨t, ht, -⟩
    cases ht
  | refund p out t hOwes => exact refund_move hOwes
  | bulk p out rows reason agenda hOwes =>
    exact quiet_put Iff.rfl fun hClosed => statusOf_bulkFail hClosed rows reason
  | listen p out agenda hOwes => exact quiet_put Iff.rfl id
  | lose p out item rest t hOwes hAgenda hTask =>
    refine quiet_put (iff_of_false ?_ (not_owes hOwes)) id
    rintro ⟨t, ht, -⟩
    cases ht
  | win p out item rest t hOwes hAgenda hTask hStatus =>
    refine win_move hOwes hStatus ?_ item.mjId
    exact hRegular (item, t) (Proc.next_eq hOwes hAgenda hTask)

end Moves

/-! ## Whole runs -/

section Runs

variable {k q : Int} {s : State}

theorem priced_foldl (h : Priced k q s) (acts : List Act) : Priced k q (acts.foldl step s) := by
  induction acts generalizing s with
  | nil => exact h
  | cons a acts ih => exact ih (h.step a)

theorem times_le_one (h : (payment k).Stage s) (acts : List Act)
    (hRegular : ∀ m ∈ moves step s acts, RegularStep k m.1 m.2) :
    (acts.foldl step s).times k ≤ 1 := by
  induction acts generalizing s with
  | nil => exact h.paid_le_one
  | cons a acts ih =>
    rw [moves_cons, forall_mem_cons] at hRegular
    exact ih (h.move (regular_move hRegular.1)) hRegular.2

theorem stage_submit (h : system.Reach s) {sub : Submission} (hAccepted : sub.Accepted) :
    (payment s.tasks.next).Stage (step s (.submit sub)) := by
  have hCopies := copies_lt_next h
  rw [step, if_pos hAccepted]
  refine .unclaimed ?_ ?_
  · rintro p ⟨t, ht, hKey⟩
    have := hCopies.owed p t ht
    omega
  show s.refunds.countP _ = 0
  rw [countP_eq_zero]
  intro r hr
  have := hCopies.refunded r hr
  simp only [decide_eq_true_eq]
  omega

end Runs

/-- **A task is refunded at most once**, by no more than the charge exactly when the submission was
charged, cost nothing, or was not refunded. -/
theorem refund_bound_iff {s : State} (hReach : system.Reach s) {sub : Submission}
    (hAccepted : sub.Accepted) (acts : List Act)
    (hRegular : ∀ m ∈ moves step (step s (.submit sub)) acts, RegularStep s.tasks.next m.1 m.2) :
    (acts.foldl step (step s (.submit sub))).times s.tasks.next ≤ 1 ∧
      ((acts.foldl step (step s (.submit sub))).returned s.tasks.next ≤ sub.charged ↔
        sub.Consumes ∨ sub.quota ≤ 0 ∨
          (acts.foldl step (step s (.submit sub))).times s.tasks.next = 0) := by
  have hTimes := times_le_one (stage_submit hReach hAccepted) acts hRegular
  refine ⟨hTimes, ?_⟩
  rw [returned_eq (priced_foldl (priced_submit hReach hAccepted) acts), Submission.charged]
  generalize (acts.foldl step (step s (.submit sub))).times s.tasks.next = n at hTimes
  have hCount : n = 0 ∨ n = 1 := by omega
  rcases hCount with rfl | rfl
  · split <;> simp <;> omega
  by_cases hConsumes : sub.Consumes
  · refine iff_of_true ?_ (.inl hConsumes)
    by_cases hQuota : 0 < sub.quota
    · simp only [hConsumes, hQuota, and_self, if_true]
      split <;> omega
    · split <;> omega
  · simp only [hConsumes, false_and, if_false, false_or]
    split <;> omega

/-! ## Runs -/

def fresh : State := ⟨Table.empty, [], fun _ => Proc.start⟩

theorem fresh_start : fresh.Start := ⟨rfl, fun _ => rfl⟩

def submission (action : String) : Submission where
  userId := 1
  channelId := 1
  action := action
  quota := 5
  userQuota := 5
  now := 0
  response := { statusCode := 200, code := 1, description := "", result := "m" }

def failure : MidjourneyDto := { mjId := "m", status := "FAILURE", progress := "100%" }

def complaint : MidjourneyDto :=
  { mjId := "m", status := "", progress := "50%", failReason := "banned prompt" }

def poll (p : Nat) (item : MidjourneyDto) : List Act :=
  [.run p { channel := .items [item] }, .run p {}, .run p {}]

/-- A charged task that fails is refunded once. -/
theorem imagine_refunded :
    ((.round 0 [1] :: poll 0 failure).foldl step
        (step fresh (.submit (submission "IMAGINE")))).times 1 ≤ 1 ∧
      ((.round 0 [1] :: poll 0 failure).foldl step
        (step fresh (.submit (submission "IMAGINE")))).returned 1 ≤ 5 := by
  have hAccepted : (submission "IMAGINE").Accepted := by decide
  have hBound := refund_bound_iff (.init fresh_start) hAccepted (.round 0 [1] :: poll 0 failure)
    (by decide)
  exact ⟨hBound.1, hBound.2.mpr (.inl (by decide))⟩

/-- An in-paint is refunded without a charge, and two pollers refund one task twice. -/
theorem refunds_exceed_charges :
    fresh.Start ∧
      (submission "INPAINT").charged = 0 ∧
      ((.submit (submission "INPAINT") :: .round 0 [1] :: poll 0 failure).foldl step
        fresh).returned 1 = 5 ∧
      (submission "IMAGINE").charged = 5 ∧
      ((.submit (submission "IMAGINE") :: .round 0 [1] :: .round 1 [1] ::
        poll 0 complaint ++ poll 1 complaint).foldl step fresh).times 1 = 2 ∧
      ((.submit (submission "IMAGINE") :: .round 0 [1] :: .round 1 [1] ::
        poll 0 complaint ++ poll 1 complaint).foldl step fresh).returned 1 = 10 := by
  refine ⟨fresh_start, ?_, ?_, ?_, ?_, ?_⟩ <;> decide

/-- **A refund is of the price that was submitted**, whatever the upstream answers and however the
rounds interleave. -/
theorem refunds_pay_price {s : State} (hReach : system.Reach s) {sub : Submission}
    (hAccepted : sub.Accepted) (acts : List Act) :
    ∀ r ∈ (acts.foldl step (step s (.submit sub))).refunds, r.taskId = s.tasks.next →
      r.quota = sub.quota :=
  (priced_foldl (priced_submit hReach hAccepted) acts).copies.refunded

theorem refunds_pay_price_imagine :
    (submission "IMAGINE").Accepted ∧
      ∀ r ∈ ((.round 0 [1] :: poll 0 complaint ++ poll 1 complaint).foldl step
        (step fresh (.submit (submission "IMAGINE")))).refunds, r.taskId = 1 → r.quota = 5 :=
  ⟨by decide, refunds_pay_price (.init fresh_start) (by decide) _⟩

end NewApi.Mj
