import NewApi.Subscription.Basic

/-!
# End times and quota resets

A custom period can wrap to a negative number of nanoseconds, so `catchUp` counts its rounds and
answers `none` when they run out; the operation then hangs.
-/

namespace NewApi.Subscription

open Core Go

/-! ## End of a plan -/

def calcPlanEndTime (loc : Location) (start : Time) (plan : SubscriptionPlan) :
    Except String Int :=
  if plan.durationValue ≤ 0 ∧ plan.durationUnit ≠ .custom then
    .error "duration_value must be > 0"
  else
    match plan.durationUnit with
    | .year => .ok (start.addDate loc plan.durationValue 0 0).unix
    | .month => .ok (start.addDate loc 0 plan.durationValue 0).unix
    | .day => .ok (start.add (duration plan.durationValue (24 * 3600 * nanosPerSecond))).unix
    | .hour => .ok (start.add (duration plan.durationValue (3600 * nanosPerSecond))).unix
    | .custom =>
      if plan.customSeconds ≤ 0 then .error "custom_seconds must be > 0"
      else .ok (start.add (duration plan.customSeconds nanosPerSecond)).unix
    | .other name => .error ("invalid duration_unit: " ++ name)

/-! ## The next reset -/

inductive ResetPeriod where
  | never
  | daily
  | weekly
  | monthly
  | custom
  deriving DecidableEq, Repr

def normalizeResetPeriod (period : String) : ResetPeriod :=
  let p := trimSpace period
  if p = "daily" then .daily
  else if p = "weekly" then .weekly
  else if p = "monthly" then .monthly
  else if p = "custom" then .custom
  else .never

def midnight (loc : Location) (t : Time) : Time :=
  let c := t.civil loc
  date loc c.1 c.2.1 c.2.2 0 0

/-- `calcNextResetTime`; 0 means that there is none. -/
def calcNextResetTime (loc : Location) (base : Time) (plan : SubscriptionPlan) (endUnix : Int) :
    Int :=
  -- A reset after the end of the subscription is no reset.
  let upTo (next : Time) : Int := if 0 < endUnix ∧ endUnix < next.unix then 0 else next.unix
  match normalizeResetPeriod plan.quotaResetPeriod with
  | .never => 0
  | .daily => upTo ((midnight loc base).addDate loc 0 0 1)
  | .weekly =>
    -- Monday is 1 and Sunday, 0 in Go, is 7: the next Monday is `8 - weekday` days on.
    let weekday := if base.weekday loc = 0 then 7 else base.weekday loc
    upTo ((midnight loc base).addDate loc 0 0 (8 - weekday))
  | .monthly =>
    let c := base.civil loc
    upTo ((date loc c.1 c.2.1 1 0 0).addDate loc 0 1 0)
  | .custom =>
    if plan.quotaResetCustomSeconds ≤ 0 then 0
    else upTo (base.add (duration plan.quotaResetCustomSeconds nanosPerSecond))

/-- The loop `for next > 0 && next <= now`, for at most the given number of rounds. -/
def catchUp (env : Env) (plan : SubscriptionPlan) (endUnix : Int) :
    Nat → Time → Int → Bool → Option (Time × Int × Bool)
  | 0, _, _, _ => none
  | fuel + 1, base, next, advanced =>
    if 0 < next ∧ next ≤ env.now then
      catchUp env plan endUnix fuel (unixTime next)
        (calcNextResetTime env.loc (unixTime next) plan endUnix) true
    else some (base, next, advanced)

/-- What `maybeResetUserSubscriptionWithPlanTx` decides. -/
inductive ResetOutcome where
  | keep
  | schedule (last next : Int)
  | reset (last next : Int)
  deriving DecidableEq, Repr

/-- The decision; `none` when the catch-up loop does not end. -/
def resetOutcome (env : Env) (sub : UserSubscription) (plan : SubscriptionPlan) :
    Option ResetOutcome :=
  if 0 < sub.nextResetTime ∧ env.now < sub.nextResetTime then some .keep
  else if normalizeResetPeriod plan.quotaResetPeriod = .never then some .keep
  else
    let base := unixTime (if sub.lastResetTime ≤ 0 then sub.startTime else sub.lastResetTime)
    let next := calcNextResetTime env.loc base plan sub.endTime
    match catchUp env plan sub.endTime env.fuel base next false with
    | none => none
    | some (base, next, true) => some (.reset base.unix next)
    | some (base, next, false) =>
      if sub.nextResetTime = 0 ∧ 0 < next then some (.schedule base.unix next) else some .keep

def ResetOutcome.apply (sub : UserSubscription) : ResetOutcome → UserSubscription
  | .keep => sub
  | .schedule last next => { sub with lastResetTime := last, nextResetTime := next }
  | .reset last next => { sub with amountUsed := 0, lastResetTime := last, nextResetTime := next }

def ResetOutcome.saveTo (sub : UserSubscription) (s : SubStore) : ResetOutcome → SubStore
  | .keep => s
  | .schedule last next =>
    { s with subs := s.subs.save ((ResetOutcome.schedule last next).apply sub) }
  | .reset last next =>
    { s with
      subs := s.subs.save ((ResetOutcome.reset last next).apply sub)
      resets := s.resets ++ [sub.id] }

def maybeResetUserSubscriptionWithPlanTx (env : Env) (saveFault : Option String)
    (sub : UserSubscription) (plan : SubscriptionPlan) : Prog SubStore UserSubscription :=
  match resetOutcome env sub plan with
  | none => Prog.hang
  | some .keep => pure sub
  | some outcome => do
    Prog.stmt saveFault (Prog.write fun s => outcome.saveTo sub s)
    pure (outcome.apply sub)

@[simp] theorem ResetOutcome.apply_id (sub : UserSubscription) (o : ResetOutcome) :
    (o.apply sub).id = sub.id := by
  cases o <;> rfl

variable {env : Env} {sub : UserSubscription} {s t : SubStore}

theorem maybeReset_ok {f : Option String} {sub' : UserSubscription} {plan : SubscriptionPlan}
    (h : maybeResetUserSubscriptionWithPlanTx env f sub plan s = (.ok sub', t)) :
    ∃ o, resetOutcome env sub plan = some o ∧ sub' = o.apply sub ∧ t = o.saveTo sub s := by
  unfold maybeResetUserSubscriptionWithPlanTx at h
  cases ho : resetOutcome env sub plan with
  | none => rw [ho] at h; cases h
  | some o =>
    rw [ho] at h
    refine ⟨o, rfl, ?_⟩
    cases o with
    | keep => cases h; exact ⟨rfl, rfl⟩
    | schedule last next | reset last next =>
      obtain ⟨_, _, hw, hp⟩ := Prog.bind_eq_ok.mp h
      obtain ⟨_, hw⟩ := Prog.stmt_eq_ok.mp hw
      cases hw; cases hp
      exact ⟨rfl, rfl⟩

/-! ## Several decisions in a row -/

/-- `Resets env s t`: from `s`, decisions about rows of the store one after another
lead to `t`. -/
inductive Resets (env : Env) : SubStore → SubStore → Prop
  | refl (s : SubStore) : Resets env s s
  | tail {s t : SubStore} {sub : UserSubscription} {plan : SubscriptionPlan} {o : ResetOutcome} :
      Resets env s t → sub ∈ t.subs.rows → resetOutcome env sub plan = some o →
      Resets env s (o.saveTo sub t)

variable {o : ResetOutcome}

namespace Resets

variable {env : Env} {s t u : SubStore}

theorem single {plan : SubscriptionPlan} (hMem : sub ∈ s.subs.rows)
    (ho : resetOutcome env sub plan = some o) : Resets env s (o.saveTo sub s) :=
  .tail (.refl s) hMem ho

theorem trans (h : Resets env s t) (g : Resets env t u) : Resets env s u := by
  induction g with
  | refl => exact h
  | tail _ hMem ho ih => exact .tail ih hMem ho

end Resets

theorem ResetOutcome.saveTo_frame (sub : UserSubscription) (s : SubStore) (o : ResetOutcome) :
    (o.saveTo sub s).records = s.records ∧ (o.saveTo sub s).plans = s.plans ∧
      (o.saveTo sub s).groups = s.groups := by
  cases o <;> exact ⟨rfl, rfl, rfl⟩

theorem ResetOutcome.mem_saveTo {x : UserSubscription} (hSub : sub ∈ s.subs.rows)
    (h : x ∈ (o.saveTo sub s).subs.rows) : x = o.apply sub ∨ (x ∈ s.subs.rows ∧ x.id ≠ sub.id) := by
  cases o with
  | keep =>
    by_cases hId : x.id = sub.id
    · exact .inl (s.subs.key_inj h hSub hId)
    · exact .inr ⟨h, hId⟩
  | schedule last next | reset last next => exact (Table.mem_save h).imp And.left id

theorem ResetOutcome.mem_saveTo_of_ne {x : UserSubscription} (hx : x ∈ s.subs.rows)
    (hne : x.id ≠ sub.id) : x ∈ (o.saveTo sub s).subs.rows := by
  cases o with
  | keep => exact hx
  | schedule last next | reset last next => exact Table.mem_save_of_ne hx hne

theorem ResetOutcome.apply_mem_saveTo (hSub : sub ∈ s.subs.rows) :
    o.apply sub ∈ (o.saveTo sub s).subs.rows := by
  cases o with
  | keep => exact hSub
  | schedule last next | reset last next => exact Table.mem_save_self hSub rfl

theorem Resets.frame (h : Resets env s t) :
    t.records = s.records ∧ t.plans = s.plans ∧ t.groups = s.groups := by
  induction h with
  | refl => exact ⟨rfl, rfl, rfl⟩
  | @tail t sub plan o _ _ _ ih =>
    obtain ⟨hRecords, hPlans, hGroups⟩ := o.saveTo_frame sub t
    exact ⟨hRecords.trans ih.1, hPlans.trans ih.2.1, hGroups.trans ih.2.2⟩

/-! ## The usage -/

def SubStore.usedOf (s : SubStore) (id : Int) : Option Int :=
  (s.subs.find? id).map UserSubscription.amountUsed

theorem usedOf_self (hMem : sub ∈ s.subs.rows) : s.usedOf sub.id = some sub.amountUsed := by
  have hFind : s.subs.find? sub.id = some sub := Table.find?_key hMem
  rw [SubStore.usedOf, hFind]
  rfl

theorem usedOf_save (hMem : sub ∈ s.subs.rows) (new : UserSubscription) (hId : new.id = sub.id)
    (i : Int) :
    ((s.subs.save new).find? i).map UserSubscription.amountUsed =
      if i = sub.id then some new.amountUsed else s.usedOf i := by
  by_cases hi : i = sub.id
  · have hOld : s.subs.find? (Row.key new) = some sub := by
      rw [key_eq_id, hId]
      exact Table.find?_key hMem
    have hFind : (s.subs.save new).find? new.id = some new := Table.find?_save_self hOld
    rw [if_pos hi, hi, ← hId, hFind]
    rfl
  · rw [if_neg hi, Table.find?_save_of_ne fun hEq => hi (hEq.symm.trans hId)]
    rfl

theorem usedOf_resets (h : Resets env s t) :
    ∃ ids, t.resets = s.resets ++ ids ∧
      ∀ i, t.usedOf i = (s.usedOf i).map fun used => if i ∈ ids then 0 else used := by
  induction h with
  | refl => exact ⟨[], by simp, by simp⟩
  | @tail t sub plan o _ hMem _ ih =>
    obtain ⟨ids, hIds, hUsed⟩ := ih
    cases o with
    | keep => exact ⟨ids, hIds, hUsed⟩
    | schedule last next =>
      refine ⟨ids, hIds, ?_⟩
      intro i
      have hSave := usedOf_save hMem ((ResetOutcome.schedule last next).apply sub) rfl i
      rw [← hUsed i]
      refine hSave.trans ?_
      split
      · next hi =>
        rw [hi, usedOf_self hMem]
        rfl
      · rfl
    | reset last next =>
      refine ⟨ids ++ [sub.id], ?_, ?_⟩
      · show t.resets ++ [sub.id] = _
        rw [hIds, List.append_assoc]
      intro i
      have hSave := usedOf_save hMem ((ResetOutcome.reset last next).apply sub) rfl i
      refine hSave.trans ?_
      by_cases hi : i = sub.id
      · have hOld := usedOf_self hMem
        rw [hUsed, ← hi] at hOld
        cases hStart : s.usedOf i with
        | none => rw [hStart] at hOld; cases hOld
        | some used => simp [hi, ResetOutcome.apply]
      · simp [hi, hUsed i]

end NewApi.Subscription
