import Mathlib.Algebra.Ring.Int.Defs
import Mathlib.Data.Rat.Defs
import NewApi.Core.Run
import NewApi.Core.Table

/-!
# The quota of a user and the quota for invitations

`IncreaseUserQuota` and `DecreaseUserQuota` are single statements.  `inviteUser` and
`TransferAffQuotaToQuota` read the whole row, change it in memory and save it; the second asks for a
lock by an option that is not read.
-/

namespace NewApi.Quota

open Core Function

structure User where
  id : Int
  quota : Int
  affCount : Int
  affQuota : Int
  affHistoryQuota : Int
  deriving DecidableEq, Repr

instance : Row User := ⟨User.id⟩

structure AffSettings where
  quotaForInviter : Int
  quotaPerUnit : ℚ

inductive AffCall where
  | rest
  /-- `inviteUser` has read the inviter. -/
  | inviting (user : User)
  /-- `TransferAffQuotaToQuota` has read the user. -/
  | transferring (user : User) (quota : Int)
  deriving DecidableEq, Repr

structure AffState where
  users : Table User
  calls : Nat → AffCall

inductive AffAct where
  | increaseUserQuota (id quota : Int)
  | decreaseUserQuota (id quota : Int)
  | inviteRead (p : Nat) (inviterId : Int)
  | inviteSave (p : Nat)
  | transferRead (p : Nat) (id quota : Int)
  | transferSave (p : Nat)
  deriving DecidableEq, Repr

def User.invited (cfg : AffSettings) (u : User) : User :=
  { u with
    affCount := u.affCount + 1
    affQuota := u.affQuota + cfg.quotaForInviter
    affHistoryQuota := u.affHistoryQuota + cfg.quotaForInviter }

def User.transferred (u : User) (quota : Int) : User :=
  { u with affQuota := u.affQuota - quota, quota := u.quota + quota }

namespace AffState

def add (s : AffState) (id delta : Int) : AffState :=
  { s with
    users := s.users.modify (fun u => u.id = id) (fun u => { u with quota := u.quota + delta })
      fun _ => rfl }

def save (s : AffState) (p : Nat) (u : User) : AffState :=
  { users := s.users.save u, calls := Function.update s.calls p .rest }

/-- A step that cannot be taken, or a call that is refused, changes nothing. -/
def step (cfg : AffSettings) (s : AffState) : AffAct → AffState
  | .increaseUserQuota id quota => if quota < 0 then s else s.add id quota
  | .decreaseUserQuota id quota => if quota < 0 then s else s.add id (-quota)
  | .inviteRead p inviterId =>
    match s.calls p, (if inviterId = 0 then none else s.users.find? inviterId) with
    | .rest, some u => { s with calls := Function.update s.calls p (.inviting u) }
    | _, _ => s
  | .inviteSave p =>
    match s.calls p with
    | .inviting u => s.save p (u.invited cfg)
    | _ => s
  | .transferRead p id quota =>
    if (quota : ℚ) < cfg.quotaPerUnit then s
    else
      match s.calls p, s.users.find? id with
      | .rest, some u =>
        if u.affQuota < quota then s
        else { s with calls := Function.update s.calls p (.transferring u quota) }
      | _, _ => s
  | .transferSave p =>
    match s.calls p with
    | .transferring u quota => s.save p (u.transferred quota)
    | _ => s

/-! ## What a step does to a quota -/

def quotaOf (s : AffState) (id : Int) : Int := ((s.users.find? id).map User.quota).getD 0

def due (id : Int) (s : AffState) : AffAct → Int
  | .increaseUserQuota i quota => if i = id ∧ 0 ≤ quota then quota else 0
  | .decreaseUserQuota i quota => if i = id ∧ 0 ≤ quota then -quota else 0
  | .transferSave p =>
    match s.calls p with
    | .transferring u quota => if u.id = id then quota else 0
    | _ => 0
  | _ => 0

def overwritten (id : Int) (s : AffState) : AffAct → Int
  | .inviteSave p =>
    match s.calls p with
    | .inviting u => if u.id = id then s.quotaOf id - u.quota else 0
    | _ => 0
  | .transferSave p =>
    match s.calls p with
    | .transferring u _ => if u.id = id then s.quotaOf id - u.quota else 0
    | _ => 0
  | _ => 0

def Has (s : AffState) (id : Int) : Prop := (s.users.find? id).isSome

variable {s : AffState} {id : Int}

theorem has_add (h : s.Has id) (i delta : Int) : (s.add i delta).Has id := by
  unfold Has add
  rw [Table.find?_modify, Option.isSome_map]
  exact h

theorem find?_save (h : s.Has id) (p : Nat) (u : User) :
    (s.save p u).users.find? id = if u.id = id then some u else s.users.find? id := by
  by_cases hId : u.id = id
  · subst hId
    obtain ⟨old, hOld⟩ := Option.isSome_iff_exists.mp h
    rw [if_pos rfl]
    exact Table.find?_save_self hOld
  · rw [if_neg hId]
    exact Table.find?_save_of_ne hId

theorem has_save (h : s.Has id) (p : Nat) (u : User) : (s.save p u).Has id := by
  unfold Has
  rw [find?_save h]
  split
  · rfl
  · exact h

theorem has_step (cfg : AffSettings) (h : s.Has id) (a : AffAct) : (s.step cfg a).Has id := by
  cases a with simp only [step]
  | increaseUserQuota i quota | decreaseUserQuota i quota =>
    split
    · exact h
    · exact has_add h _ _
  | inviteRead p i => split <;> exact h
  | transferRead p i quota =>
    split
    · exact h
    · split
      · split <;> exact h
      · exact h
  | inviteSave p | transferSave p =>
    split
    · exact has_save h _ _
    · exact h

theorem quotaOf_add (h : s.Has id) (i delta : Int) :
    (s.add i delta).quotaOf id = s.quotaOf id + if i = id then delta else 0 := by
  obtain ⟨u, hFind⟩ := Option.isSome_iff_exists.mp h
  have hId : u.id = id := (Table.find?_eq_some.mp hFind).2
  unfold quotaOf add
  rw [Table.find?_modify, hFind]
  by_cases hi : i = id
  · simp [hi, hId]
  · simp [hi, hId, Ne.symm hi]

theorem quotaOf_save (h : s.Has id) (p : Nat) (u : User) :
    (s.save p u).quotaOf id = if u.id = id then u.quota else s.quotaOf id := by
  unfold quotaOf
  rw [find?_save h]
  split <;> rfl

/-- **What one step does to the quota**: it adds what it should, except for what a save
overwrites. -/
theorem quota_step (cfg : AffSettings) (s : AffState) (a : AffAct) (h : s.Has id) :
    (s.step cfg a).quotaOf id + overwritten id s a = s.quotaOf id + due id s a := by
  cases a with simp only [step, due, overwritten]
  | increaseUserQuota i quota | decreaseUserQuota i quota =>
    by_cases hNeg : quota < 0
    · rw [if_pos hNeg, if_neg fun hPos => by omega]
    · have hPos : 0 ≤ quota := by omega
      simp only [if_neg hNeg, quotaOf_add h, hPos, and_true, Int.add_zero]
  | inviteRead p i => split <;> rfl
  | transferRead p i quota =>
    split
    · rfl
    · split
      · split <;> rfl
      · rfl
  | inviteSave p =>
    cases hCall : s.calls p with
    | inviting u =>
      have hSave : (s.save p (u.invited cfg)).quotaOf id =
          if u.id = id then u.quota else s.quotaOf id := quotaOf_save h p _
      dsimp only
      split <;> omega
    | rest | transferring => simp
  | transferSave p =>
    cases hCall : s.calls p with
    | transferring u quota =>
      have hSave : (s.save p (u.transferred quota)).quotaOf id =
          if u.id = id then u.quota + quota else s.quotaOf id := quotaOf_save h p _
      dsimp only
      split <;> omega
    | rest | inviting => simp

/-! ## Every interleaving -/

/-- **No update of the quota is lost exactly if what the saves overwrite sums to nothing.** -/
theorem quota_conserved_iff (cfg : AffSettings) {start : AffState} (hUser : start.Has id)
    (acts : List AffAct) :
    (acts.foldl (step cfg) start).quotaOf id =
        start.quotaOf id +
          ((moves (step cfg) start acts).map fun m => due id m.1 m.2).sum ↔
      ((moves (step cfg) start acts).map fun m => overwritten id m.1 m.2).sum = 0 := by
  have hRun := foldl_add_sum_eq (step cfg) (fun s => s.quotaOf id)
    (fun s a h => has_step cfg h a) (fun s a h => quota_step cfg s a h) acts hUser
  omega

def solo : AffState where
  users := Table.empty.insert (fun id => ⟨id, 1000, 0, 800, 800⟩) fun _ => rfl
  calls _ := .rest

def demoAff : AffSettings := ⟨100, 500⟩

def serialCalls : List AffAct :=
  [.inviteRead 0 1, .inviteSave 0, .decreaseUserQuota 1 300, .transferRead 1 1 600, .transferSave 1]

theorem serial_conserved :
    (∀ p < 2, (serialCalls.foldl (step demoAff) solo).calls p = .rest) ∧
      (serialCalls.foldl (step demoAff) solo).quotaOf 1 =
        solo.quotaOf 1 +
          ((moves (step demoAff) solo serialCalls).map fun m => due 1 m.1 m.2).sum := by
  have hUser : solo.Has 1 := by
    show (solo.users.find? 1).isSome = true
    rfl
  refine ⟨by decide +kernel, ?_⟩
  exact (quota_conserved_iff demoAff hUser serialCalls).mpr (by decide +kernel)

def chargedMeanwhile : List AffAct :=
  [.inviteRead 0 1, .decreaseUserQuota 1 300, .inviteSave 0]

/-- **The save brings the charge back**, and all calls have finished. -/
theorem invitation_undoes_charge :
    (∀ p, (chargedMeanwhile.foldl (step demoAff) solo).calls p = .rest) ∧
      solo.quotaOf 1 = 1000 ∧
      ((moves (step demoAff) solo chargedMeanwhile).map fun m => due 1 m.1 m.2).sum = -300 ∧
      (chargedMeanwhile.foldl (step demoAff) solo).quotaOf 1 = 1000 := by
  refine ⟨fun p => ?_, rfl, by decide +kernel, by decide +kernel⟩
  by_cases hp : p = 0
  · subst hp
    decide +kernel
  · show update (update (fun _ => AffCall.rest) 0 _) 0 AffCall.rest p = .rest
    rw [update_of_ne hp, update_of_ne hp]

end AffState

end NewApi.Quota
