import Mathlib.Algebra.Ring.Int.Defs
import Mathlib.Data.Finmap
import NewApi.Core.Run

/-!
# Batched updates

`addNewRecord` adds a change to a map in memory; `batchUpdate` adds each entry of the maps to its
column by a statement of its own.  One that fails is only logged.
-/

namespace NewApi.Quota

open Core Function

/-- `BatchUpdateType…`, in the order of the constants. -/
inductive BatchUpdateType where
  | userQuota
  | tokenQuota
  | usedQuota
  | channelUsedQuota
  | requestCount
  deriving DecidableEq, Repr

def BatchUpdateType.all : List BatchUpdateType :=
  [.userQuota, .tokenQuota, .usedQuota, .channelUsedQuota, .requestCount]

abbrev BatchStore := Finmap fun _ : Int => Int

def BatchStore.amount (store : BatchStore) (id : Int) : Int := (store.lookup id).getD 0

inductive Round where
  | idle
  /-- It looks for data, with these types to look at. -/
  | checking (todo : List BatchUpdateType)
  /-- It is about to exchange the map of the first of these types. -/
  | swapping (todo : List BatchUpdateType)
  /-- It has taken a map and has these entries to write, in any order. -/
  | flushing (type : BatchUpdateType) (store : BatchStore) (todo : List BatchUpdateType)

structure Batch where
  batchUpdateStores : BatchUpdateType → BatchStore
  /-- The column that a type of update is added to: `quota`, `remain_quota`, `used_quota` of the
  user and of the channel, and `request_count`. -/
  stored : BatchUpdateType → Int → Int
  round : Round

inductive BatchAct where
  | addNewRecord (type : BatchUpdateType) (id value : Int)
  | start
  | look
  | swap
  | update (id : Int) (ok : Bool)
  | next
  deriving DecidableEq, Repr

namespace Batch

def init (stored : BatchUpdateType → Int → Int) : Batch where
  batchUpdateStores _ := ∅
  stored := stored
  round := .idle

def addNewRecord (s : Batch) (type : BatchUpdateType) (id value : Int) : Batch :=
  let store := s.batchUpdateStores type
  { s with
    batchUpdateStores := Function.update s.batchUpdateStores type
      (match store.lookup id with
        | none => store.insert id value
        | some old => store.insert id (old + value)) }

def add (s : Batch) (type : BatchUpdateType) (id value : Int) : Batch :=
  { s with
    stored := Function.update s.stored type
      (Function.update (s.stored type) id (s.stored type id + value)) }

def step (s : Batch) : BatchAct → Batch
  | .addNewRecord type id value => s.addNewRecord type id value
  | .start =>
    match s.round with
    | .idle => { s with round := .checking BatchUpdateType.all }
    | _ => s
  | .look =>
    match s.round with
    | .checking [] => { s with round := .idle }
    | .checking (type :: todo) =>
      if 0 < (s.batchUpdateStores type).keys.card then
        { s with round := .swapping BatchUpdateType.all }
      else { s with round := .checking todo }
    | _ => s
  | .swap =>
    match s.round with
    | .swapping [] => { s with round := .idle }
    | .swapping (type :: todo) =>
      { s with
        batchUpdateStores := Function.update s.batchUpdateStores type ∅
        round := .flushing type (s.batchUpdateStores type) todo }
    | _ => s
  | .update id ok =>
    match s.round with
    | .flushing type store todo =>
      match store.lookup id with
      | none => s
      | some value =>
        { (if ok then s.add type id value else s) with
          round := .flushing type (store.erase id) todo }
    | _ => s
  | .next =>
    match s.round with
    | .flushing _ store todo =>
      if store.keys.card = 0 then { s with round := .swapping todo } else s
    | _ => s

end Batch

/-! ## Amounts -/

namespace BatchStore

variable (store : BatchStore) (id : Int)

@[simp] theorem amount_empty : amount ∅ id = 0 := by
  rw [amount, Finmap.lookup_empty, Option.getD_none]

theorem amount_insert (value i : Int) :
    amount (store.insert id value) i = if id = i then value else store.amount i := by
  unfold amount
  by_cases h : id = i
  · rw [if_pos h, h, Finmap.lookup_insert, Option.getD_some]
  · rw [if_neg h, Finmap.lookup_insert_of_ne _ (Ne.symm h)]

theorem amount_erase (i : Int) :
    amount (store.erase id) i = if id = i then 0 else store.amount i := by
  unfold amount
  by_cases h : id = i
  · rw [if_pos h, h, Finmap.lookup_erase, Option.getD_none]
  · rw [if_neg h, Finmap.lookup_erase_ne (Ne.symm h)]

theorem amount_of_card_eq_zero {store : BatchStore} (h : store.keys.card = 0) (id : Int) :
    store.amount id = 0 := by
  have hNone : store.lookup id = none := by
    rw [Finmap.lookup_eq_none, ← Finmap.mem_keys, Finset.card_eq_zero.mp h]
    exact Finset.notMem_empty id
  rw [amount, hNone, Option.getD_none]

end BatchStore

namespace Batch

variable (type : BatchUpdateType) (id : Int)

def pending (s : Batch) : Int := (s.batchUpdateStores type).amount id

def onItsWay (s : Batch) : Int :=
  match s.round with
  | .flushing t store _ => if t = type then store.amount id else 0
  | _ => 0

def balance (s : Batch) : Int := s.stored type id + s.pending type id + s.onItsWay type id

def recorded : BatchAct → Int
  | .addNewRecord t i value => if t = type ∧ i = id then value else 0
  | _ => 0

def lost (s : Batch) (a : BatchAct) : Int :=
  match s.round, a with
  | .flushing t store _, .update i false => if t = type ∧ i = id then store.amount id else 0
  | _, _ => 0

variable {type id}

theorem lost_of_ne {s : Batch} {a : BatchAct} (h : ∀ i, a ≠ .update i false) :
    lost type id s a = 0 := by
  unfold lost
  split
  · exact absurd rfl (h _)
  · rfl

theorem pending_addNewRecord (type : BatchUpdateType) (id : Int) (s : Batch)
    (t : BatchUpdateType) (i value : Int) :
    (s.addNewRecord t i value).pending type id =
      s.pending type id + if t = type ∧ i = id then value else 0 := by
  -- both branches add to the amount, which is zero without an entry
  have hStore : (s.addNewRecord t i value).batchUpdateStores = update s.batchUpdateStores t
      ((s.batchUpdateStores t).insert i ((s.batchUpdateStores t).amount i + value)) := by
    unfold addNewRecord BatchStore.amount
    cases hLookup : (s.batchUpdateStores t).lookup i <;> simp [hLookup]
  rw [pending, hStore]
  by_cases hType : t = type
  · subst hType
    rw [update_self, BatchStore.amount_insert]
    by_cases hId : i = id <;> simp [hId, pending]
  · rw [update_of_ne (Ne.symm hType)]
    simp [hType, pending]

theorem stored_add (type : BatchUpdateType) (id : Int) (s : Batch) (t : BatchUpdateType)
    (i value : Int) :
    (s.add t i value).stored type id =
      s.stored type id + if t = type ∧ i = id then value else 0 := by
  unfold add
  by_cases hType : t = type
  · subst hType
    by_cases hId : i = id
    · subst hId
      simp
    · simp [hId, update_of_ne (Ne.symm hId)]
  · simp [hType, update_of_ne (Ne.symm hType)]

theorem balance_failed {s : Batch} {t : BatchUpdateType} {store : BatchStore}
    {todo : List BatchUpdateType} {i : Int} (hRound : s.round = .flushing t store todo) :
    balance type id { s with round := .flushing t (store.erase i) todo } =
      s.balance type id - if t = type ∧ i = id then store.amount id else 0 := by
  have hErase := store.amount_erase i id
  simp only [balance, onItsWay, hRound, hErase]
  change _ + s.pending type id + _ = _
  by_cases hType : t = type
  · by_cases hId : i = id
    · simp only [hType, hId, and_self, if_true]
      omega
    · simp only [hType, hId, and_false, if_false]
      omega
  · simp only [hType, false_and, if_false]
    omega

theorem balance_written {s : Batch} {t : BatchUpdateType} {store : BatchStore}
    {todo : List BatchUpdateType} {i value : Int} (hRound : s.round = .flushing t store todo)
    (hLookup : store.lookup i = some value) :
    balance type id { s.add t i value with round := .flushing t (store.erase i) todo } =
      s.balance type id := by
  have hAdded : (s.add t i value).round = .flushing t store todo := hRound
  have hAmount : i = id → store.amount id = value := by
    rintro rfl
    rw [BatchStore.amount, hLookup, Option.getD_some]
  rw [balance_failed hAdded, balance, stored_add]
  change _ + s.pending type id + s.onItsWay type id - _ = s.balance type id
  rw [balance]
  split
  · next h =>
    have hSame := hAmount h.2
    omega
  · omega

theorem balance_swapped {s : Batch} {t : BatchUpdateType} {todo todo' : List BatchUpdateType}
    (hRound : s.round = .swapping todo') :
    balance type id
        { s with
          batchUpdateStores := Function.update s.batchUpdateStores t ∅
          round := .flushing t (s.batchUpdateStores t) todo } =
      s.balance type id := by
  simp only [balance, pending, onItsWay, hRound]
  by_cases hType : t = type
  · subst hType
    simp
  · simp [hType, update_of_ne (Ne.symm hType)]

theorem balance_quiet {s : Batch} {round : Round} (hNow : s.onItsWay type id = 0)
    (hNext : ∀ t store todo, round ≠ .flushing t store todo) :
    balance type id { s with round := round } = s.balance type id := by
  have hNone : onItsWay type id { s with round := round } = 0 := by
    cases round with
    | idle | checking | swapping => rfl
    | flushing t store todo => exact absurd rfl (hNext t store todo)
  rw [balance, hNone, balance, hNow]
  rfl

/-- **What one step does to the balance**: it grows by what is recorded and falls by what is
lost. -/
theorem balance_step (s : Batch) (a : BatchAct) :
    (s.step a).balance type id + lost type id s a = s.balance type id + recorded type id a := by
  cases a with
  | addNewRecord t i value =>
    have hPending := pending_addNewRecord type id s t i value
    rw [lost_of_ne (a := .addNewRecord t i value) nofun]
    simp only [step, balance, recorded]
    change s.stored type id + _ + s.onItsWay type id + 0 = _
    omega
  | start =>
    rw [lost_of_ne (a := .start) nofun]
    simp only [step, recorded, Int.add_zero]
    split
    · next hRound => exact balance_quiet (by simp [onItsWay, hRound]) nofun
    · rfl
  | look =>
    rw [lost_of_ne (a := .look) nofun]
    simp only [step, recorded, Int.add_zero]
    split
    · next hRound => exact balance_quiet (by simp [onItsWay, hRound]) nofun
    · next hRound => split <;> exact balance_quiet (by simp [onItsWay, hRound]) nofun
    · rfl
  | swap =>
    rw [lost_of_ne (a := .swap) nofun]
    simp only [step, recorded, Int.add_zero]
    split
    · next hRound => exact balance_quiet (by simp [onItsWay, hRound]) nofun
    · next hRound => exact balance_swapped hRound
    · rfl
  | update i ok =>
    cases hRound : s.round with
    | idle | checking | swapping => simp [step, recorded, lost, hRound]
    | flushing t store todo =>
      cases hLookup : store.lookup i with
      | none =>
        have hZero : i = id → store.amount id = 0 := by
          rintro rfl
          rw [BatchStore.amount, hLookup, Option.getD_none]
        cases ok <;> simp_all [step, recorded, lost]
      | some value =>
        cases ok with
        | true =>
          simp only [step, recorded, lost, hRound, hLookup, Int.add_zero]
          exact balance_written hRound hLookup
        | false =>
          simp only [step, recorded, lost, hRound, hLookup, Bool.false_eq_true, if_false]
          rw [balance_failed hRound]
          omega
  | next =>
    rw [lost_of_ne (a := .next) nofun]
    simp only [step, recorded, Int.add_zero]
    split
    · next hRound =>
      split
      · next hEmpty =>
        refine balance_quiet ?_ nofun
        simp [onItsWay, hRound, BatchStore.amount_of_card_eq_zero hEmpty]
      · rfl
    · rfl

/-! ## Whole runs -/

/-- **At a quiescent point nothing was lost exactly if the failed amounts sum to nothing.** -/
theorem batch_exact_iff (initial : BatchUpdateType → Int → Int) (acts : List BatchAct)
    (hQuiet : (acts.foldl step (init initial)).round = .idle) (type : BatchUpdateType) (id : Int) :
    (acts.foldl step (init initial)).stored type id +
          (acts.foldl step (init initial)).pending type id =
        initial type id + (acts.map (recorded type id)).sum ↔
      ((moves step (init initial) acts).map fun m => lost type id m.1 m.2).sum = 0 := by
  have hRun := foldl_add_sum_eq step (I := fun _ => True) (fun s => s.balance type id)
    (fun _ _ _ => trivial) (fun s a _ => balance_step s a) acts (s := init initial) trivial
  have hEnd : (acts.foldl step (init initial)).balance type id =
      (acts.foldl step (init initial)).stored type id +
        (acts.foldl step (init initial)).pending type id := by
    simp [balance, onItsWay, hQuiet]
  have hStart : (init initial).balance type id = initial type id := by
    simp [balance, pending, onItsWay, init]
  simp only [map_moves_snd step (recorded type id), hEnd] at hRun
  omega

def writtenRound : List BatchAct :=
  [.addNewRecord .userQuota 7 (-50), .start, .addNewRecord .userQuota 7 20, .look, .swap,
    .addNewRecord .tokenQuota 3 (-20), .update 7 true, .next, .swap, .update 3 true, .next,
    .swap, .next, .swap, .next, .swap, .next, .swap]

theorem written_round_exact :
    (writtenRound.foldl step (init fun _ _ => 1000)).round = .idle ∧
      (writtenRound.foldl step (init fun _ _ => 1000)).stored .userQuota 7 +
          (writtenRound.foldl step (init fun _ _ => 1000)).pending .userQuota 7 =
        1000 + (writtenRound.map (recorded .userQuota 7)).sum := by
  have hIdle : (writtenRound.foldl step (init fun _ _ => 1000)).round = .idle := rfl
  exact ⟨hIdle, (batch_exact_iff _ writtenRound hIdle .userQuota 7).mpr (by decide +kernel)⟩

def failedRound : List BatchAct :=
  [.addNewRecord .userQuota 7 (-50), .start, .look, .swap, .update 7 false, .next, .swap,
    .next, .swap, .next, .swap, .next, .swap, .next, .swap]

/-- **A statement fails**: the map was exchanged already, and the charge is gone. -/
theorem failed_update_lost :
    (failedRound.foldl step (init fun _ _ => 1000)).round = .idle ∧
      (failedRound.map (recorded .userQuota 7)).sum = -50 ∧
      (failedRound.foldl step (init fun _ _ => 1000)).stored .userQuota 7 = 1000 ∧
      (failedRound.foldl step (init fun _ _ => 1000)).pending .userQuota 7 = 0 :=
  ⟨rfl, by decide, rfl, rfl⟩

end Batch

end NewApi.Quota
