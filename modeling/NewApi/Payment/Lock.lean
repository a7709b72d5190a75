import Mathlib.Data.Finset.Card
import Mathlib.Data.Int.Basic
import NewApi.Core.Run

/-!
# The lock of an order

`LockOrder` and `UnlockOrder` keep one mutex for each trade number in use.  `UnlockOrder` finds the
one that was locked because a registered goroutine keeps its entry alive.
-/

namespace NewApi.Payment

open Core Option Function Finset

structure RefCountedMutex where
  mu : Bool := false
  refCount : Int := 0
  deriving DecidableEq, Repr

/-- Where a goroutine is; a mutex is given by its address. -/
inductive LockStage where
  | outside
  /-- It has registered and waits for the mutex. -/
  | waiting (tradeNo : String) (rcm : Nat)
  | holding (tradeNo : String) (rcm : Nat)
  /-- In `UnlockOrder`, holding `rcm`, it has found `found` under the trade number. -/
  | unlocking (tradeNo : String) (rcm found : Nat)
  /-- It has unlocked `rcm` and has not deregistered. -/
  | released (tradeNo : String) (rcm : Nat)
  deriving DecidableEq, Repr

structure Locks where
  orderLocks : String → Option Nat
  mutexes : Nat → RefCountedMutex
  /-- The first address that was not allocated. -/
  next : Nat
  goroutines : Nat → LockStage

inductive LockAct where
  | register (g : Nat) (tradeNo : String)
  | lock (g : Nat)
  | load (g : Nat)
  | unlock (g : Nat)
  | deregister (g : Nat)
  deriving DecidableEq, Repr

namespace Locks

def empty : Locks where
  orderLocks _ := none
  mutexes _ := {}
  next := 0
  goroutines _ := .outside

def move (s : Locks) (g : Nat) (stage : LockStage) : Locks :=
  { s with goroutines := Function.update s.goroutines g stage }

def set (s : Locks) (rcm : Nat) (m : RefCountedMutex) : Locks :=
  { s with mutexes := Function.update s.mutexes rcm m }

def register (s : Locks) (g : Nat) (tradeNo : String) : Locks :=
  match s.orderLocks tradeNo with
  | some rcm =>
    (s.set rcm { s.mutexes rcm with refCount := (s.mutexes rcm).refCount + 1 }).move g
      (.waiting tradeNo rcm)
  | none =>
    { orderLocks := Function.update s.orderLocks tradeNo (some s.next)
      mutexes := Function.update s.mutexes s.next { mu := false, refCount := 1 }
      next := s.next + 1
      goroutines := Function.update s.goroutines g (.waiting tradeNo s.next) }

def deregister (s : Locks) (g : Nat) (tradeNo : String) (rcm : Nat) : Locks :=
  let refCount := (s.mutexes rcm).refCount - 1
  { orderLocks :=
      if refCount = 0 then Function.update s.orderLocks tradeNo none else s.orderLocks
    mutexes := Function.update s.mutexes rcm { s.mutexes rcm with refCount := refCount }
    next := s.next
    goroutines := Function.update s.goroutines g .outside }

def step (s : Locks) : LockAct → Locks
  | .register g tradeNo =>
    match s.goroutines g with
    | .outside => s.register g tradeNo
    | _ => s
  | .lock g =>
    match s.goroutines g with
    | .waiting tradeNo rcm =>
      if (s.mutexes rcm).mu then s
      else (s.set rcm { s.mutexes rcm with mu := true }).move g (.holding tradeNo rcm)
    | _ => s
  | .load g =>
    match s.goroutines g with
    | .holding tradeNo rcm =>
      match s.orderLocks tradeNo with
      | none => s.move g .outside
      | some found => s.move g (.unlocking tradeNo rcm found)
    | _ => s
  | .unlock g =>
    match s.goroutines g with
    | .unlocking tradeNo _ found =>
      (s.set found { s.mutexes found with mu := false }).move g (.released tradeNo found)
    | _ => s
  | .deregister g =>
    match s.goroutines g with
    | .released tradeNo rcm => s.deregister g tradeNo rcm
    | _ => s

end Locks

/-! ## The invariant -/

def LockStage.user : LockStage → Option (String × Nat)
  | .outside => none
  | .waiting tradeNo rcm | .holding tradeNo rcm | .unlocking tradeNo rcm _
  | .released tradeNo rcm => some (tradeNo, rcm)

def LockStage.holder : LockStage → Option (String × Nat)
  | .holding tradeNo rcm | .unlocking tradeNo rcm _ => some (tradeNo, rcm)
  | _ => none

variable {x : String × Nat}

theorem LockStage.user_of_holder {st : LockStage} (h : st.holder = some x) : st.user = some x := by
  cases st with
  | outside | waiting | released => cases h
  | holding | unlocking => exact h

variable {stage : LockStage} {g' : Nat}

namespace Locks

/-- **What a registered goroutine can rely on**: its entry is the mutex it was given, which counts
those registered and is locked by at most one. -/
structure Sound (s : Locks) : Prop where
  entry : ∀ {g n o}, (s.goroutines g).user = some (n, o) → s.orderLocks n = some o
  own : ∀ {g n o found}, s.goroutines g = .unlocking n o found → found = o
  below : ∀ {n o}, s.orderLocks n = some o → o < s.next
  apart : ∀ {n n' o}, s.orderLocks n = some o → s.orderLocks n' = some o → n = n'
  counted : ∀ {n o}, s.orderLocks n = some o → ∃ users : Finset Nat, users.Nonempty ∧
    (∀ g, g ∈ users ↔ (s.goroutines g).user = some (n, o)) ∧ (s.mutexes o).refCount = users.card
  locked : ∀ {n o}, s.orderLocks n = some o →
    ((s.mutexes o).mu = true ↔ ∃ g, (s.goroutines g).holder = some (n, o))
  one : ∀ {g g' n o}, (s.goroutines g).holder = some (n, o) →
    (s.goroutines g').holder = some (n, o) → g = g'

theorem sound_empty : Sound empty where
  entry h := by cases h
  own h := by cases h
  below h := by cases h
  apart h := by cases h
  counted h := by cases h
  locked h := by cases h
  one h := by cases h

variable {s : Locks} {g : Nat} {n : String} {o : Nat}

theorem holder_moved :
    (update s.goroutines g stage g').holder = some x ↔
      g' = g ∧ stage.holder = some x ∨ g' ≠ g ∧ (s.goroutines g').holder = some x := by
  by_cases hg : g' = g
  · rw [hg]
    simp
  · simp [hg]

theorem unlocking_moved (h : s.Sound) (stage : LockStage)
    (hStage : ∀ {n o found}, stage = .unlocking n o found → found = o) {found : Nat}
    (hg' : update s.goroutines g stage g' = .unlocking n o found) : found = o := by
  by_cases hg : g' = g
  · rw [hg, update_self] at hg'
    exact hStage hg'
  · rw [update_of_ne hg] at hg'
    exact h.own hg'

theorem Sound.shift (h : s.Sound) {m : RefCountedMutex}
    (hStage : (s.goroutines g).user = some (n, o)) (hUser : stage.user = some (n, o))
    (hCount : m.refCount = (s.mutexes o).refCount)
    (hOwn : ∀ {n' o' found}, stage = .unlocking n' o' found → found = o')
    (hLocked : m.mu = true ↔
      stage.holder = some (n, o) ∨ ∃ g' ≠ g, (s.goroutines g').holder = some (n, o))
    (hOne : stage.holder = some (n, o) → ∀ g' ≠ g, (s.goroutines g').holder ≠ some (n, o)) :
    ((s.set o m).move g stage).Sound := by
  -- what the goroutines are registered with is as before
  have hUsers : ∀ g', (update s.goroutines g stage g').user = (s.goroutines g').user := by
    intro g'
    by_cases hg : g' = g
    · rw [hg, update_self, hUser, hStage]
    · rw [update_of_ne hg]
  have hHolder : ∀ {x : String × Nat}, stage.holder = some x → x = (n, o) := by
    intro x hx
    have hBoth := LockStage.user_of_holder hx
    rw [hUser, some_inj] at hBoth
    exact hBoth.symm
  refine ⟨?_, fun hg' => unlocking_moved h stage hOwn hg', h.below, h.apart, ?_, ?_, ?_⟩
  · intro g' n' o' hg'
    exact h.entry ((hUsers g').symm.trans hg')
  · intro n' o' hMap
    obtain ⟨users, hSome, hMem, hCard⟩ := h.counted hMap
    refine ⟨users, hSome, fun g' => (hMem g').trans (by rw [← hUsers g']; rfl), ?_⟩
    change (update s.mutexes o m o').refCount = _
    by_cases ho : o' = o
    · rw [ho, update_self, hCount, ← ho, hCard]
    · rw [update_of_ne ho, hCard]
  · intro n' o' hMap
    change (update s.mutexes o m o').mu = true ↔
      ∃ g', (update s.goroutines g stage g').holder = some (n', o')
    simp only [holder_moved, exists_or, exists_eq_left]
    by_cases ho : o' = o
    · subst ho
      obtain rfl := h.apart (h.entry hStage) hMap
      rw [update_self]
      exact hLocked
    -- another mutex, which this goroutine has nothing to do with
    have hNew : stage.holder ≠ some (n', o') := fun hHas => ho (congrArg Prod.snd (hHolder hHas))
    rw [update_of_ne ho, h.locked hMap, or_iff_right hNew]
    refine exists_congr fun g' => (and_iff_right_of_imp ?_).symm
    rintro hHas rfl
    have hBoth := LockStage.user_of_holder hHas
    rw [hStage, some_inj] at hBoth
    exact ho (congrArg Prod.snd hBoth).symm
  · intro g₁ g₂ n' o' h₁ h₂
    rcases holder_moved.mp h₁ with ⟨hg₁, h₁⟩ | ⟨hg₁, h₁⟩ <;>
      rcases holder_moved.mp h₂ with ⟨hg₂, h₂⟩ | ⟨hg₂, h₂⟩
    · rw [hg₁, hg₂]
    · cases hHolder h₁
      exact absurd h₂ (hOne h₁ g₂ hg₂)
    · cases hHolder h₂
      exact absurd h₁ (hOne h₂ g₁ hg₁)
    · exact h.one h₁ h₂

theorem Sound.lock (h : s.Sound) (hStage : s.goroutines g = .waiting n o)
    (hFree : (s.mutexes o).mu = false) :
    ((s.set o { s.mutexes o with mu := true }).move g (.holding n o)).Sound := by
  have hUser : (s.goroutines g).user = some (n, o) := by rw [hStage]; rfl
  have hNone : ∀ g', (s.goroutines g').holder ≠ some (n, o) := by
    intro g' hHas
    have hLocked := (h.locked (h.entry hUser)).mpr ⟨g', hHas⟩
    exact absurd (hFree.symm.trans hLocked) Bool.false_ne_true
  exact h.shift hUser rfl rfl nofun (iff_of_true rfl (.inl rfl)) fun _ g' _ => hNone g'

theorem Sound.load (h : s.Sound) (hStage : s.goroutines g = .holding n o) :
    (s.move g (.unlocking n o o)).Sound := by
  have hUser : (s.goroutines g).user = some (n, o) := by rw [hStage]; rfl
  have hHas : (s.goroutines g).holder = some (n, o) := by rw [hStage]; rfl
  have hLocked := (h.locked (h.entry hUser)).mpr ⟨g, hHas⟩
  have hSame : s.move g (.unlocking n o o) =
      (s.set o (s.mutexes o)).move g (.unlocking n o o) := by
    rw [set, update_eq_self]
  rw [hSame]
  refine h.shift hUser rfl rfl ?_ (iff_of_true hLocked (.inl rfl)) ?_
  · intro n' o' found hEq
    cases hEq
    rfl
  · exact fun _ g' hne hHas' => hne (h.one hHas' hHas)

theorem Sound.unlock (h : s.Sound) (hStage : s.goroutines g = .unlocking n o o) :
    ((s.set o { s.mutexes o with mu := false }).move g (.released n o)).Sound := by
  have hUser : (s.goroutines g).user = some (n, o) := by rw [hStage]; rfl
  have hHas : (s.goroutines g).holder = some (n, o) := by rw [hStage]; rfl
  refine h.shift hUser rfl rfl nofun (iff_of_false Bool.false_ne_true ?_) nofun
  rintro (hNow | ⟨g', hne, hHas'⟩)
  · cases hNow
  · exact hne (h.one hHas' hHas)

theorem holder_update (hOld : (s.goroutines g).holder = none) (hNew : stage.holder = none)
    (g' : Nat) : (update s.goroutines g stage g').holder = (s.goroutines g').holder := by
  by_cases hg : g' = g
  · rw [hg, update_self, hNew, hOld]
  · rw [update_of_ne hg]

section SameHolders

variable {t : Locks} (hHolder : ∀ g, (t.goroutines g).holder = (s.goroutines g).holder)

include hHolder

theorem Sound.one_congr (h : s.Sound) {g : Nat} (hg : (t.goroutines g).holder = some (n, o))
    (hg' : (t.goroutines g').holder = some (n, o)) : g = g' :=
  h.one ((hHolder g).symm.trans hg) ((hHolder g').symm.trans hg')

theorem Sound.locked_congr (h : s.Sound) (hMap : s.orderLocks n = some o)
    (hMu : (t.mutexes o).mu = (s.mutexes o).mu) :
    (t.mutexes o).mu = true ↔ ∃ g, (t.goroutines g).holder = some (n, o) := by
  simp only [hMu, hHolder]
  exact h.locked hMap

end SameHolders

theorem mu_counted (refCount : Int) (o' : Nat) :
    (update s.mutexes o { s.mutexes o with refCount := refCount } o').mu =
      (s.mutexes o').mu := by
  by_cases ho : o' = o
  · rw [ho, update_self]
  · rw [update_of_ne ho]

theorem user_waiting (hStage : s.goroutines g = .outside) :
    (update s.goroutines g (.waiting n o) g').user = some x ↔
      g' = g ∧ x = (n, o) ∨ (s.goroutines g').user = some x := by
  by_cases hg : g' = g
  · rw [hg, hStage]
    simp [LockStage.user, eq_comm]
  · simp [hg]

theorem user_outside {n' : String} {o' : Nat} :
    (update s.goroutines g .outside g').user = some (n', o') ↔
      g' ≠ g ∧ (s.goroutines g').user = some (n', o') := by
  by_cases hg : g' = g
  · rw [hg, update_self]
    exact iff_of_false nofun fun h => h.1 rfl
  · rw [update_of_ne hg, and_iff_right hg]

theorem Sound.join (h : s.Sound) (hStage : s.goroutines g = .outside)
    (hMap : s.orderLocks n = some o) :
    ((s.set o { s.mutexes o with refCount := (s.mutexes o).refCount + 1 }).move g
      (.waiting n o)).Sound := by
  have hHolder : ∀ g', (update s.goroutines g (.waiting n o) g').holder =
      (s.goroutines g').holder := holder_update (by rw [hStage]; rfl) rfl
  refine ⟨?_, fun hg' => unlocking_moved h (.waiting n o) nofun hg', h.below, h.apart, ?_, ?_,
    h.one_congr hHolder⟩
  · intro g' n' o' hg'
    rcases (user_waiting hStage).mp hg' with ⟨-, hEq⟩ | hUse
    · cases hEq
      exact hMap
    · exact h.entry hUse
  · intro n' o' hMap'
    obtain ⟨users, hSome, hMem, hCard⟩ := h.counted hMap'
    change ∃ users : Finset Nat, users.Nonempty ∧
      (∀ g', g' ∈ users ↔ (update s.goroutines g _ g').user = some (n', o')) ∧
      (update s.mutexes o _ o').refCount = users.card
    simp only [user_waiting hStage, ← hMem]
    by_cases ho : o' = o
    · subst ho
      obtain rfl := h.apart hMap hMap'
      have hNew : g ∉ users := by
        rw [hMem, hStage]
        exact nofun
      refine ⟨insert g users, insert_nonempty _ _, fun g' => by simp, ?_⟩
      rw [update_self, card_insert_of_notMem hNew, hCard]
      rfl
    · refine ⟨users, hSome, fun g' => by simp [ho], ?_⟩
      rw [update_of_ne ho, hCard]
  · exact fun hMap' => h.locked_congr hHolder hMap' (mu_counted _ _)

theorem Sound.found (h : s.Sound) (hStage : s.goroutines g = .outside)
    (hMap : s.orderLocks n = none) :
    Sound
      { orderLocks := update s.orderLocks n (some s.next)
        mutexes := update s.mutexes s.next { mu := false, refCount := 1 }
        next := s.next + 1
        goroutines := update s.goroutines g (.waiting n s.next) } := by
  have hHolder : ∀ g', (update s.goroutines g (.waiting n s.next) g').holder =
      (s.goroutines g').holder := holder_update (by rw [hStage]; rfl) rfl
  -- nobody has this trade number
  have hOld : ∀ {g' n' o'}, (s.goroutines g').user = some (n', o') → n' ≠ n := by
    rintro g' n' o' hg' rfl
    rw [h.entry hg'] at hMap
    cases hMap
  have hCases : ∀ {n' o'}, update s.orderLocks n (some s.next) n' = some o' →
      n' = n ∧ s.next = o' ∨ n' ≠ n ∧ s.orderLocks n' = some o' := by
    intro n' o' hMap'
    by_cases hn : n' = n
    · rw [hn, update_self, some_inj] at hMap'
      exact .inl ⟨hn, hMap'⟩
    · rw [update_of_ne hn] at hMap'
      exact .inr ⟨hn, hMap'⟩
  refine ⟨?_, fun hg' => unlocking_moved h (.waiting n s.next) nofun hg', ?_, ?_, ?_, ?_,
    h.one_congr hHolder⟩
  · intro g' n' o' hg'
    rcases (user_waiting hStage).mp hg' with ⟨-, hEq⟩ | hUse
    · cases hEq
      exact update_self ..
    · exact (update_of_ne (hOld hUse) _ _).trans (h.entry hUse)
  · intro n' o' hMap'
    rcases hCases hMap' with ⟨-, rfl⟩ | ⟨-, hBefore⟩
    · exact Nat.lt_succ_self _
    · exact (h.below hBefore).trans (Nat.lt_succ_self _)
  · intro n₁ n₂ o' h₁ h₂
    rcases hCases h₁ with ⟨hn₁, ho₁⟩ | ⟨-, h₁⟩ <;> rcases hCases h₂ with ⟨hn₂, ho₂⟩ | ⟨-, h₂⟩
    · rw [hn₁, hn₂]
    · exact absurd (h.below h₂) (ho₁ ▸ lt_irrefl _)
    · exact absurd (h.below h₁) (ho₂ ▸ lt_irrefl _)
    · exact h.apart h₁ h₂
  · intro n' o' hMap'
    simp only [user_waiting hStage]
    rcases hCases hMap' with ⟨rfl, rfl⟩ | ⟨hn, hBefore⟩
    · refine ⟨{g}, singleton_nonempty _, fun g' => ?_, ?_⟩
      · have hNone : (s.goroutines g').user ≠ some (n', s.next) := fun hUse => hOld hUse rfl
        simp [hNone]
      · rw [update_self]
        rfl
    · obtain ⟨users, hSome, hMem, hCard⟩ := h.counted hBefore
      refine ⟨users, hSome, fun g' => by simp [hMem, hn], ?_⟩
      rw [update_of_ne (h.below hBefore).ne, hCard]
  · intro n' o' hMap'
    rcases hCases hMap' with ⟨rfl, rfl⟩ | ⟨-, hBefore⟩
    · refine iff_of_false (by simp) ?_
      rintro ⟨g', hHas⟩
      exact hOld (LockStage.user_of_holder ((hHolder g').symm.trans hHas)) rfl
    · refine h.locked_congr hHolder hBefore ?_
      exact congrArg _ (update_of_ne (h.below hBefore).ne _ _)

theorem Sound.register (h : s.Sound) (hStage : s.goroutines g = .outside) (n : String) :
    (s.register g n).Sound := by
  unfold Locks.register
  cases hMap : s.orderLocks n with
  | some o => exact h.join hStage hMap
  | none => exact h.found hStage hMap

theorem Sound.deregister (h : s.Sound) (hStage : s.goroutines g = .released n o) :
    (s.deregister g n o).Sound := by
  have hHolder : ∀ g', (update s.goroutines g .outside g').holder =
      (s.goroutines g').holder := holder_update (by rw [hStage]; rfl) rfl
  have hUser : (s.goroutines g).user = some (n, o) := by rw [hStage]; rfl
  have hEntry := h.entry hUser
  obtain ⟨users, -, hMem, hCard⟩ := h.counted hEntry
  have hIn : g ∈ users := (hMem g).mpr hUser
  have hLeft : (s.mutexes o).refCount - 1 = (users.erase g).card := by
    rw [card_erase_of_mem hIn]
    have hPos := card_pos.mpr ⟨g, hIn⟩
    omega
  -- what the map has afterwards it had before, and somebody else is registered with it
  have hMap : ∀ {n' o'}, (s.deregister g n o).orderLocks n' = some o' →
      s.orderLocks n' = some o' ∧ (n' = n → (users.erase g).Nonempty) := by
    intro n' o' hMap'
    change (if (s.mutexes o).refCount - 1 = 0 then update s.orderLocks n none
      else s.orderLocks) n' = _ at hMap'
    split at hMap'
    · by_cases hn : n' = n
      · rw [hn, update_self] at hMap'
        cases hMap'
      · rw [update_of_ne hn] at hMap'
        exact ⟨hMap', fun hEq => absurd hEq hn⟩
    · refine ⟨hMap', fun _ => card_pos.mp ?_⟩
      omega
  refine ⟨?_, fun hg' => unlocking_moved h .outside nofun hg', fun hMap' => h.below (hMap hMap').1,
    fun h₁ h₂ => h.apart (hMap h₁).1 (hMap h₂).1, ?_, ?_, h.one_congr hHolder⟩
  · intro g' n' o' hg'
    obtain ⟨hne, hUse⟩ := user_outside.mp hg'
    have hOld := h.entry hUse
    change (if (s.mutexes o).refCount - 1 = 0 then update s.orderLocks n none
      else s.orderLocks) n' = _
    by_cases hn : n' = n
    · subst hn
      rw [hEntry, some_inj] at hOld
      subst hOld
      have hPos := card_pos.mpr ⟨g', mem_erase.mpr ⟨hne, (hMem g').mpr hUse⟩⟩
      rw [if_neg (by omega)]
      exact hEntry
    · split
      · rw [update_of_ne hn]
        exact hOld
      · exact hOld
  · intro n' o' hMap'
    obtain ⟨hOld, hRest⟩ := hMap hMap'
    change ∃ users : Finset Nat, users.Nonempty ∧
      (∀ g', g' ∈ users ↔ (update s.goroutines g _ g').user = some (n', o')) ∧
      (update s.mutexes o _ o').refCount = users.card
    by_cases hn : n' = n
    · subst hn
      rw [hEntry, some_inj] at hOld
      subst hOld
      refine ⟨users.erase g, hRest rfl, fun g' => ?_, by rw [update_self]; exact hLeft⟩
      rw [user_outside, mem_erase, hMem]
    · obtain ⟨others, hSome, hOthers, hSize⟩ := h.counted hOld
      have ho : o' ≠ o := by
        rintro rfl
        exact hn (h.apart hOld hEntry)
      refine ⟨others, hSome, fun g' => ?_, by rw [update_of_ne ho, hSize]⟩
      rw [user_outside, hOthers]
      refine ⟨fun hUse => ⟨?_, hUse⟩, And.right⟩
      rintro rfl
      rw [hUser] at hUse
      cases hUse
      exact hn rfl
  · exact fun hMap' => h.locked_congr hHolder (hMap hMap').1 (mu_counted _ _)

/-! ## Every interleaving -/

theorem Sound.step (h : s.Sound) (a : LockAct) : (s.step a).Sound := by
  cases a with simp only [Locks.step]
  | register g n =>
    split
    · exact h.register ‹_› n
    · exact h
  | lock g =>
    split
    · split
      · exact h
      · rename_i hFree
        exact h.lock ‹_› (by simpa using hFree)
    · exact h
  | load g =>
    split
    · rename_i n o hStage
      have hEntry : s.orderLocks n = some o := h.entry (g := g) (by rw [hStage]; rfl)
      rw [hEntry]
      exact h.load hStage
    · exact h
  | unlock g =>
    split
    · rename_i n o found hStage
      obtain rfl := h.own hStage
      exact h.unlock hStage
    · exact h
  | deregister g =>
    split
    · exact h.deregister ‹_›
    · exact h

theorem sound_run (acts : List LockAct) : (acts.foldl step empty).Sound := by
  have hReach : (System.ofFun step (Eq empty)).Reach (acts.foldl step empty) := reach_foldl rfl acts
  exact hReach.invariant (fun _ hInit => hInit ▸ sound_empty) fun _ a _ h hStep => hStep ▸ h.step a

def Holds (s : Locks) (g : Nat) (tradeNo : String) : Prop :=
  ∃ rcm, (s.goroutines g).holder = some (tradeNo, rcm)

/-- The goroutine is between registering in `LockOrder` and deregistering in `UnlockOrder`. -/
def Registered (s : Locks) (g : Nat) (tradeNo : String) : Prop :=
  ∃ rcm, (s.goroutines g).user = some (tradeNo, rcm)

end Locks

end NewApi.Payment
