import NewApi.Subscription.Reset

/-!
# Creating, resetting and ending subscriptions

`ResetDueSubscriptions`, `CreateUserSubscriptionFromPlanTx`, `downgradeUserGroupForSubscriptionTx`,
the two functions of administrators and `ExpireDueSubscriptions`.
-/

namespace NewApi.Subscription

open Core Go SubStore Prog Function

/-! ## `ResetDueSubscriptions` -/

structure ResetDueFaults where
  findSubs : Option String := none
  plan : Int → Option String := fun _ => none
  lock : Int → Option String := fun _ => none
  save : Int → Option String := fun _ => none
  commit : Int → Option String := fun _ => none

def resetDue (env : Env) (sub : UserSubscription) : Bool :=
  decide (0 < sub.nextResetTime ∧ sub.nextResetTime ≤ env.now)

def firstDue (env : Env) (id : Int) : Prog SubStore UserSubscription := fun s =>
  match (s.subs.find? id).filter (resetDue env) with
  | some sub => (.ok sub, s)
  | none => (.error (.err recordNotFound), s)

/-- Whether the row was decided about; one that is gone or no longer due is skipped. -/
def resetLocked (env : Env) (f : ResetDueFaults) (plan : SubscriptionPlan) (id : Int) :
    Prog SubStore Bool := do
  match ← Prog.attempt (Prog.stmt (f.lock id) (firstDue env id)) with
  | .error _ => pure false
  | .ok locked =>
    let _ ← maybeResetUserSubscriptionWithPlanTx env (f.save id) locked plan
    pure true

def resetDueLoop (env : Env) (f : ResetDueFaults) : List UserSubscription → Nat → Prog SubStore Nat
  | [], resetCount => pure resetCount
  | sub :: rest, resetCount => do
    match ← Prog.attempt (Prog.stmt (f.plan sub.id) (getSubscriptionPlanByIdTx sub.planId)) with
    | .error _ => resetDueLoop env f rest resetCount
    | .ok plan =>
      let counted ← Prog.transaction (f.commit sub.id) (resetLocked env f plan sub.id)
      resetDueLoop env f rest (if counted then resetCount + 1 else resetCount)

def resetDueSubscriptions (env : Env) (f : ResetDueFaults) (limit : Int) : Prog SubStore Nat := do
  let limit := if limit ≤ 0 then 200 else limit
  let subs ← Prog.stmt f.findSubs (Prog.read fun s =>
    (s.query (fun sub => resetDue env sub && decide (sub.status = .active)) nextResetAsc).take
      limit.toNat)
  resetDueLoop env f subs 0

theorem attempt_firstDue {env : Env} {fault : Option String} {id : Int} {s s' : SubStore}
    {found : Except String UserSubscription}
    (h : attempt (stmt fault (firstDue env id)) s = (.ok found, s')) :
    s' = s ∧ ∀ sub, found = .ok sub → sub ∈ s.subs.rows := by
  cases fault with
  | some text =>
    cases h
    exact ⟨rfl, by simp⟩
  | none =>
    rw [stmt_none] at h
    cases hRow : (s.subs.find? id).filter (resetDue env) with
    | none =>
      have hMiss : firstDue env id s = (.error (.err recordNotFound), s) := by rw [firstDue, hRow]
      rw [attempt_err hMiss] at h
      cases h
      exact ⟨rfl, by simp⟩
    | some sub =>
      rw [attempt_ok (by rw [firstDue, hRow])] at h
      cases h
      refine ⟨rfl, ?_⟩
      intro sub' hEq
      cases hEq
      exact (Table.find?_eq_some.mp (Option.filter_eq_some_iff.mp hRow).1).1

variable {s t : SubStore} {f : ExpireFaults}

theorem resetLocked_ok {env : Env} {f : ResetDueFaults} {plan : SubscriptionPlan} {id : Int}
    {b : Bool} (h : resetLocked env f plan id s = (.ok b, t)) :
    Resets env s t := by
  obtain ⟨found, s₁, hFound, hBody⟩ := bind_eq_ok.mp h
  obtain ⟨rfl, hMem⟩ := attempt_firstDue hFound
  cases found with
  | error e => cases hBody; exact .refl _
  | ok locked =>
    obtain ⟨sub', s₂, hReset, hRet⟩ := bind_eq_ok.mp hBody
    obtain ⟨o, ho, -, rfl⟩ := maybeReset_ok hReset
    cases hRet
    exact .single (hMem locked rfl) ho

theorem resetDueLoop_resets {env : Env} {f : ResetDueFaults} :
    ∀ (l : List UserSubscription) (n : Nat) (s : SubStore),
      Resets env s (resetDueLoop env f l n s).2 := by
  intro l
  induction l with
  | nil => exact fun n s => .refl s
  | cons sub rest ih =>
    intro n s
    have hPlan : (attempt (stmt (f.plan sub.id)
        (getSubscriptionPlanByIdTx sub.planId)) s).2 = s := by
      rw [attempt_snd]
      cases f.plan sub.id with
      | some text => rfl
      | none =>
        rw [stmt_none, getSubscriptionPlanByIdTx]
        split
        · rfl
        · cases s.plans sub.planId <;> rfl
    rw [resetDueLoop, bind_run]
    rcases hLookup : attempt (stmt (f.plan sub.id)
      (getSubscriptionPlanByIdTx sub.planId)) s with ⟨e | (e | plan), s'⟩ <;>
      rw [hLookup] at hPlan <;> cases hPlan
    · exact .refl _
    · exact ih n _
    show Resets env _ ((transaction (f.commit sub.id) (resetLocked env f plan sub.id) >>=
      fun counted => resetDueLoop env f rest (if counted then n + 1 else n)) _).2
    rcases transaction_cases (f.commit sub.id) (resetLocked env f plan sub.id) _ with
      ⟨e, hErr⟩ | ⟨b, t, hOk, hBody⟩
    · rw [bind_error hErr]; exact .refl _
    · rw [bind_ok hOk]
      exact (resetLocked_ok hBody).trans (ih _ t)

variable (env : Env)

/-- **`ResetDueSubscriptions` only takes reset decisions**, whether it returns or not. -/
theorem resetDue_resets (f : ResetDueFaults) (limit : Int) (s : SubStore) :
    Resets env s (resetDueSubscriptions env f limit s).2 := by
  unfold resetDueSubscriptions
  cases f.findSubs with
  | some text => exact .refl s
  | none => exact resetDueLoop_resets _ 0 s

/-! ## `CreateUserSubscriptionFromPlanTx` -/

structure CreateFaults where
  count : Option String := none
  group : Option String := none
  updateGroup : Option String := none
  create : Option String := none
  commit : Option String := none

def newSubscription (env : Env) (userId : Int) (plan : SubscriptionPlan) (source : String)
    (endUnix : Int) (prevGroup : String) (id : Int) : UserSubscription :=
  let nextReset := calcNextResetTime env.loc (unixTime env.now) plan endUnix
  { id := id
    userId := userId
    planId := plan.id
    amountTotal := plan.totalAmount
    amountUsed := 0
    startTime := (unixTime env.now).unix
    endTime := endUnix
    status := .active
    source := source
    lastResetTime := if 0 < nextReset then (unixTime env.now).unix else 0
    nextResetTime := nextReset
    upgradeGroup := trimSpace plan.upgradeGroup
    prevUserGroup := prevGroup }

@[simp] theorem newSubscription_prevUserGroup (userId : Int) (plan : SubscriptionPlan)
    (source : String) (endUnix : Int) (prevGroup : String) (id : Int) :
    (newSubscription env userId plan source endUnix prevGroup id).prevUserGroup = prevGroup := rfl

@[simp] theorem newSubscription_upgradeGroup (userId : Int) (plan : SubscriptionPlan)
    (source : String) (endUnix : Int) (prevGroup : String) (id : Int) :
    (newSubscription env userId plan source endUnix prevGroup id).upgradeGroup =
      trimSpace plan.upgradeGroup := rfl

def createSub (new : Int → UserSubscription) (hNew : ∀ k, (new k).id = k) :
    Prog SubStore UserSubscription := fun s =>
  (.ok (new s.subs.next), { s with subs := s.subs.insert new hNew })

def checkPurchaseLimit (f : CreateFaults) (userId : Int) (plan : SubscriptionPlan) :
    Prog SubStore Unit :=
  if 0 < plan.maxPurchasePerUser then do
    let count ← Prog.stmt f.count (Prog.read fun s =>
      s.subs.rows.countP fun sub => decide (sub.userId = userId ∧ sub.planId = plan.id))
    if plan.maxPurchasePerUser ≤ (count : Int) then Prog.fail "已达到该套餐购买上限" else pure ()
  else pure ()

/-- The group the user had, or the empty text when the user was not moved. -/
def upgradeUserGroup (f : CreateFaults) (userId : Int) (upgradeGroup : String) :
    Prog SubStore String :=
  if upgradeGroup = "" then pure ""
  else do
    let currentGroup ← Prog.stmt f.group (getUserGroupByIdTx userId)
    if currentGroup = upgradeGroup then pure ""
    else do
      Prog.stmt f.updateGroup (updateGroup userId upgradeGroup)
      pure currentGroup

def createUserSubscriptionFromPlanTx (env : Env) (f : CreateFaults) (userId : Int)
    (plan : SubscriptionPlan) (source : String) : Prog SubStore UserSubscription :=
  if plan.id = 0 then Prog.fail "invalid plan"
  else if userId ≤ 0 then Prog.fail "invalid user id"
  else do
    checkPurchaseLimit f userId plan
    match calcPlanEndTime env.loc (unixTime env.now) plan with
    | .error text => Prog.fail text
    | .ok endUnix =>
      let prevGroup ← upgradeUserGroup f userId (trimSpace plan.upgradeGroup)
      Prog.stmt f.create
        (createSub (newSubscription env userId plan source endUnix prevGroup) fun _ => rfl)

def createUserSubscription (env : Env) (f : CreateFaults) (userId : Int)
    (plan : SubscriptionPlan) (source : String) : Prog SubStore UserSubscription :=
  Prog.transaction f.commit (createUserSubscriptionFromPlanTx env f userId plan source)

def keptGroup (s : SubStore) (userId : Int) (upgradeGroup : String) : String :=
  if upgradeGroup = "" ∨ s.groups userId = upgradeGroup then "" else s.groups userId

def upgradedGroups (s : SubStore) (userId : Int) (upgradeGroup : String) : Int → String :=
  if upgradeGroup = "" then s.groups else Function.update s.groups userId upgradeGroup

theorem upgradeUserGroup_ok {f : CreateFaults} {userId : Int} {up prev : String}
    (h : upgradeUserGroup f userId up s = (.ok prev, t)) :
    prev = keptGroup s userId up ∧ t = { s with groups := upgradedGroups s userId up } := by
  unfold upgradeUserGroup at h
  split at h
  · next hUp =>
    cases h
    simp [keptGroup, upgradedGroups, hUp]
  rename_i hUp
  obtain ⟨current, s₁, hGroup, hMove⟩ := bind_eq_ok.mp h
  obtain ⟨rfl, hs₁⟩ := getUserGroupByIdTx_ok (stmt_eq_ok.mp hGroup).2
  rw [hs₁] at hMove
  split at hMove
  · next hSame =>
    cases hMove
    subst hSame
    simp [keptGroup, upgradedGroups]
  · next hSame =>
    obtain ⟨_, s₂, hWrite, hRet⟩ := bind_eq_ok.mp hMove
    have hWrite := (stmt_eq_ok.mp hWrite).2
    cases hWrite; cases hRet
    simp [keptGroup, upgradedGroups, hUp, hSame]

theorem checkPurchaseLimit_ok {f : CreateFaults} {userId : Int} {plan : SubscriptionPlan}
    {u : Unit} (h : checkPurchaseLimit f userId plan s = (.ok u, t)) : t = s := by
  unfold checkPurchaseLimit at h
  split at h
  · obtain ⟨count, s₁, hCount, hCheck⟩ := bind_eq_ok.mp h
    have hCount := (stmt_eq_ok.mp hCount).2
    cases hCount
    split at hCheck <;> cases hCheck
    rfl
  · cases h; rfl

/-- **A creation** fails, or adds one active row and moves the user to the plan's group. -/
theorem create_cases (f : CreateFaults) (userId : Int) (plan : SubscriptionPlan) (source : String)
    (s : SubStore) :
    (∃ e, createUserSubscription env f userId plan source s = (.error e, s)) ∨
    (∃ endUnix, 0 < userId ∧ calcPlanEndTime env.loc (unixTime env.now) plan = .ok endUnix ∧
      createUserSubscription env f userId plan source s
        = (.ok (newSubscription env userId plan source endUnix
              (keptGroup s userId (trimSpace plan.upgradeGroup)) s.subs.next),
          { s with
            groups := upgradedGroups s userId (trimSpace plan.upgradeGroup)
            subs := s.subs.insert (newSubscription env userId plan source endUnix
              (keptGroup s userId (trimSpace plan.upgradeGroup))) fun _ => rfl })) := by
  unfold createUserSubscription
  rcases transaction_cases f.commit
    (createUserSubscriptionFromPlanTx env f userId plan source) s with hErr | ⟨sub, t, hTx, hBody⟩
  · exact .inl hErr
  rw [hTx]
  unfold createUserSubscriptionFromPlanTx at hBody
  by_cases hPlan : plan.id = 0
  · rw [if_pos hPlan] at hBody; cases hBody
  by_cases hUser : userId ≤ 0
  · rw [if_neg hPlan, if_pos hUser] at hBody; cases hBody
  rw [if_neg hPlan, if_neg hUser] at hBody
  obtain ⟨_, s₁, hLimit, hRest⟩ := bind_eq_ok.mp hBody
  rw [checkPurchaseLimit_ok hLimit] at hRest
  cases hEnd : calcPlanEndTime env.loc (unixTime env.now) plan with
  | error text => rw [hEnd] at hRest; cases hRest
  | ok endUnix =>
    rw [hEnd] at hRest
    obtain ⟨prev, s₂, hUp, hCreate⟩ := bind_eq_ok.mp hRest
    obtain ⟨rfl, rfl⟩ := upgradeUserGroup_ok hUp
    have hCreate := (stmt_eq_ok.mp hCreate).2
    dsimp only [createSub] at hCreate
    cases hCreate
    exact .inr ⟨endUnix, by omega, rfl, rfl⟩

/-! ## The end of a subscription -/

def activeUpgraded (userId now : Int) (sub : UserSubscription) : Bool :=
  decide (sub.userId = userId ∧ sub.status = .active ∧ now < sub.endTime ∧ sub.upgradeGroup ≠ "")

structure DowngradeFaults where
  group : Option String := none
  active : Option String := none
  update : Option String := none

def downgradeUserGroupForSubscriptionTx (f : DowngradeFaults) (sub : UserSubscription)
    (now : Int) : Prog SubStore String :=
  let upgradeGroup := trimSpace sub.upgradeGroup
  if upgradeGroup = "" then pure ""
  else do
    let currentGroup ← Prog.stmt f.group (getUserGroupByIdTx sub.userId)
    if currentGroup ≠ upgradeGroup then pure ""
    else do
      let others ← Prog.read fun s =>
        s.subs.rows.any fun x => activeUpgraded sub.userId now x && decide (x.id ≠ sub.id)
      if f.active = none ∧ others then pure ""
      else
        let prevGroup := trimSpace sub.prevUserGroup
        if prevGroup = "" ∨ prevGroup = currentGroup then pure ""
        else do
          Prog.stmt f.update (updateGroup sub.userId prevGroup)
          pure prevGroup

def downgradedGroups (f : DowngradeFaults) (sub : UserSubscription) (now : Int) (s : SubStore) :
    Int → String :=
  if trimSpace sub.upgradeGroup ≠ "" ∧ s.groups sub.userId = trimSpace sub.upgradeGroup ∧
      trimSpace sub.prevUserGroup ≠ "" ∧
      ¬(f.active = none ∧ ∃ x ∈ s.subs.rows, activeUpgraded sub.userId now x ∧ x.id ≠ sub.id) then
    Function.update s.groups sub.userId (trimSpace sub.prevUserGroup)
  else s.groups

theorem downgrade_ok {f : DowngradeFaults} {sub : UserSubscription} {now : Int} {target : String}
    (h : downgradeUserGroupForSubscriptionTx f sub now s = (.ok target, t)) :
    t = { s with groups := downgradedGroups f sub now s } := by
  simp only [downgradeUserGroupForSubscriptionTx] at h
  split at h
  · next hUp =>
    cases h
    simp [downgradedGroups, hUp]
  rename_i hUp
  obtain ⟨current, s₁, hGroup, hRest⟩ := bind_eq_ok.mp h
  obtain ⟨rfl, hs₁⟩ := getUserGroupByIdTx_ok (stmt_eq_ok.mp hGroup).2
  rw [hs₁] at hRest
  by_cases hSame : s.groups sub.userId = trimSpace sub.upgradeGroup
  swap
  · rw [if_pos hSame] at hRest
    cases hRest
    simp [downgradedGroups, hSame]
  rw [if_neg (not_not.mpr hSame), bind_ok (read_run _ _)] at hRest
  by_cases hActive : f.active = none ∧
      ∃ x ∈ s.subs.rows, activeUpgraded sub.userId now x ∧ x.id ≠ sub.id
  · rw [if_pos (by simpa using hActive)] at hRest
    cases hRest
    have hGroups : downgradedGroups f sub now s = s.groups := if_neg fun hAll => hAll.2.2.2 hActive
    rw [hGroups]
  rw [if_neg (by simpa using hActive)] at hRest
  by_cases hPrev : trimSpace sub.prevUserGroup = ""
  · rw [if_pos (.inl hPrev)] at hRest
    cases hRest
    simp [downgradedGroups, hPrev]
  have hGroups : downgradedGroups f sub now s =
      update s.groups sub.userId (trimSpace sub.prevUserGroup) :=
    if_pos ⟨hUp, hSame, hPrev, hActive⟩
  rw [hGroups]
  split at hRest
  · next hEq =>
    -- The previous group is the current one: writing it changes nothing.
    cases hRest
    rw [hEq.resolve_left hPrev, update_eq_self]
  obtain ⟨_, s₂, hWrite, hRet⟩ := bind_eq_ok.mp hRest
  have hWrite := (stmt_eq_ok.mp hWrite).2
  cases hWrite; cases hRet
  rfl

def downgradeMessage (target : String) : String :=
  if target = "" then "" else "用户分组将回退到 " ++ target

structure AdminFaults where
  find : Option String := none
  write : Option String := none
  downgrade : DowngradeFaults := {}
  commit : Option String := none

def adminInvalidateUserSubscription (env : Env) (f : AdminFaults) (userSubscriptionId : Int) :
    Prog SubStore String :=
  if userSubscriptionId ≤ 0 then Prog.fail "invalid userSubscriptionId"
  else Prog.transaction f.commit do
    let sub ← Prog.stmt f.find (firstSub userSubscriptionId)
    let sub := { sub with status := .cancelled, endTime := env.now }
    Prog.stmt f.write (saveSub sub)
    let target ← downgradeUserGroupForSubscriptionTx f.downgrade sub env.now
    pure (downgradeMessage target)

def adminDeleteUserSubscription (env : Env) (f : AdminFaults) (userSubscriptionId : Int) :
    Prog SubStore String :=
  if userSubscriptionId ≤ 0 then Prog.fail "invalid userSubscriptionId"
  else Prog.transaction f.commit do
    let sub ← Prog.stmt f.find (firstSub userSubscriptionId)
    let target ← downgradeUserGroupForSubscriptionTx f.downgrade sub env.now
    Prog.stmt f.write (Prog.write fun s => { s with subs := s.subs.remove userSubscriptionId })
    pure (downgradeMessage target)

def cancelled (env : Env) (sub : UserSubscription) : UserSubscription :=
  { sub with status := .cancelled, endTime := env.now }

theorem admin_cases (f : AdminFaults) (id : Int) (body : UserSubscription → Prog SubStore String)
    (s : SubStore) {p : Prog SubStore String}
    (hp : p = if id ≤ 0 then fail "invalid userSubscriptionId"
      else transaction f.commit (stmt f.find (firstSub id) >>= body)) :
    (∃ e, p s = (.error e, s)) ∨
      ∃ sub text t, s.subs.find? id = some sub ∧ p s = (.ok text, t) ∧
        body sub s = (.ok text, t) := by
  rw [hp]
  split
  · exact .inl ⟨_, rfl⟩
  rcases transaction_cases f.commit (stmt f.find (firstSub id) >>= body) s with
    hErr | ⟨text, t, hTx, hBody⟩
  · exact .inl hErr
  · obtain ⟨sub, s₁, hFind, hRest⟩ := bind_eq_ok.mp hBody
    obtain ⟨hSub, rfl⟩ := firstSub_ok.mp (stmt_eq_ok.mp hFind).2
    exact .inr ⟨sub, text, t, hSub, hTx, hRest⟩

theorem invalidate_cases (f : AdminFaults) (id : Int) (s : SubStore) :
    (∃ e, adminInvalidateUserSubscription env f id s = (.error e, s)) ∨
    (∃ sub text, s.subs.find? id = some sub ∧
      adminInvalidateUserSubscription env f id s = (.ok text, { s with
          subs := s.subs.save (cancelled env sub)
          groups := downgradedGroups f.downgrade (cancelled env sub) env.now
            { s with subs := s.subs.save (cancelled env sub) } })) := by
  rcases admin_cases f id _ s (show adminInvalidateUserSubscription env f id = _ from rfl) with
    hErr | ⟨sub, text, t, hSub, hTx, hRest⟩
  · exact .inl hErr
  rw [hTx]
  obtain ⟨_, s₂, hWrite, hRest⟩ := bind_eq_ok.mp hRest
  have hWrite := (stmt_eq_ok.mp hWrite).2
  cases hWrite
  obtain ⟨target, s₃, hDown, hRet⟩ := bind_eq_ok.mp hRest
  cases hRet
  exact .inr ⟨sub, _, hSub, by rw [downgrade_ok hDown]; rfl⟩

theorem delete_cases (f : AdminFaults) (id : Int) (s : SubStore) :
    (∃ e, adminDeleteUserSubscription env f id s = (.error e, s)) ∨
    (∃ sub text, s.subs.find? id = some sub ∧
      adminDeleteUserSubscription env f id s = (.ok text, { s with
          subs := s.subs.remove id
          groups := downgradedGroups f.downgrade sub env.now s })) := by
  rcases admin_cases f id _ s (show adminDeleteUserSubscription env f id = _ from rfl) with
    hErr | ⟨sub, text, t, hSub, hTx, hRest⟩
  · exact .inl hErr
  rw [hTx]
  obtain ⟨target, s₂, hDown, hRest⟩ := bind_eq_ok.mp hRest
  rw [downgrade_ok hDown] at hRest
  obtain ⟨_, s₃, hWrite, hRet⟩ := bind_eq_ok.mp hRest
  have hWrite := (stmt_eq_ok.mp hWrite).2
  dsimp only [write] at hWrite
  cases hWrite; cases hRet
  exact .inr ⟨sub, _, hSub, rfl⟩

/-! ## `ExpireDueSubscriptions` -/

structure ExpireFaults where
  findSubs : Option String := none
  update : Int → Option String := fun _ => none
  active : Int → Option String := fun _ => none
  expired : Int → Option String := fun _ => none
  group : Int → Option String := fun _ => none
  updateGroup : Int → Option String := fun _ => none
  commit : Int → Option String := fun _ => none

def expireDue (now : Int) (sub : UserSubscription) : Bool :=
  decide (sub.status = .active ∧ 0 < sub.endTime ∧ sub.endTime ≤ now)

def SubStore.expireRows (s : SubStore) (now userId : Int) : SubStore :=
  { s with
    subs := s.subs.modify (fun sub => decide (sub.userId = userId) && expireDue now sub)
      (fun sub => { sub with status := .expired }) fun _ => rfl }

theorem mem_expireRows {s : SubStore} {now userId : Int} {x : UserSubscription} :
    x ∈ (s.expireRows now userId).subs.rows ↔
      (x ∈ s.subs.rows ∧ ¬(x.userId = userId ∧ expireDue now x)) ∨
      ∃ y ∈ s.subs.rows, (y.userId = userId ∧ expireDue now y) ∧
        { y with status := .expired } = x := by
  rw [expireRows, Table.mem_modify]
  constructor
  · rintro ⟨y, hy, hx⟩
    split at hx
    · next hDue => exact .inr ⟨y, hy, by simpa using hDue, hx⟩
    · next hDue => exact .inl ⟨hx ▸ hy, by subst hx; simpa using hDue⟩
  · rintro (⟨hx, hDue⟩ | ⟨y, hy, hDue, hx⟩)
    · exact ⟨x, hx, if_neg (by simpa using hDue)⟩
    · exact ⟨y, hy, by rw [if_pos (by simpa using hDue)]; exact hx⟩

def lastExpired (userId : Int) (s : SubStore) : Option UserSubscription :=
  (s.query (fun sub => decide (sub.userId = userId ∧ sub.status = .expired ∧ sub.upgradeGroup ≠ ""))
    endTimeDesc).head?

def expireDowngrade (f : ExpireFaults) (now userId : Int) : Prog SubStore Unit := do
  let active ← Prog.read fun s => s.subs.rows.any (activeUpgraded userId now)
  if f.active userId = none ∧ active then pure ()
  else do
    match ← Prog.read (lastExpired userId) with
    | none => pure ()
    | some last =>
      let upgradeGroup := trimSpace last.upgradeGroup
      let prevGroup := trimSpace last.prevUserGroup
      if f.expired userId ≠ none ∨ upgradeGroup = "" ∨ prevGroup = "" then pure ()
      else do
        let currentGroup ← Prog.stmt (f.group userId) (getUserGroupByIdTx userId)
        if currentGroup ≠ upgradeGroup ∨ currentGroup = prevGroup then pure ()
        else Prog.stmt (f.updateGroup userId) (updateGroup userId prevGroup)

def expireUser (f : ExpireFaults) (now userId : Int) : Prog SubStore Nat :=
  Prog.transaction (f.commit userId) do
    let count ← Prog.read fun s =>
      s.subs.rows.countP fun sub => decide (sub.userId = userId) && expireDue now sub
    Prog.stmt (f.update userId) (Prog.write fun s => s.expireRows now userId)
    expireDowngrade f now userId
    pure count

def expireUsers (f : ExpireFaults) (now : Int) : List Int → Nat → Prog SubStore Nat
  | [], expiredCount => pure expiredCount
  | userId :: rest, expiredCount => do
    let count ← expireUser f now userId
    expireUsers f now rest (expiredCount + count)

structure ExpiryMoves (f : ExpireFaults) (now userId : Int) (s : SubStore)
    (last : UserSubscription) : Prop where
  query : f.expired userId = none
  upgrade : trimSpace last.upgradeGroup ≠ ""
  current : s.groups userId = trimSpace last.upgradeGroup
  prev : trimSpace last.prevUserGroup ≠ ""
  no_active : ¬(f.active userId = none ∧ ∃ x ∈ s.subs.rows, activeUpgraded userId now x)

/-- An expiry moves the user by the last expired row, or changes nothing. -/
def ExpiredGroups (f : ExpireFaults) (now userId : Int) (s : SubStore)
    (groups : Int → String) : Prop :=
  (∃ last, lastExpired userId s = some last ∧ ExpiryMoves f now userId s last ∧
    groups = Function.update s.groups userId (trimSpace last.prevUserGroup)) ∨
  ((∀ last, lastExpired userId s = some last → ¬ExpiryMoves f now userId s last) ∧
    groups = s.groups)

theorem expireDowngrade_ok {now userId : Int} {u : Unit}
    (h : expireDowngrade f now userId s = (.ok u, t)) :
    ∃ groups, ExpiredGroups f now userId s groups ∧ t = { s with groups := groups } := by
  rw [expireDowngrade, bind_ok (read_run _ _)] at h
  by_cases hActive : f.active userId = none ∧ ∃ x ∈ s.subs.rows, activeUpgraded userId now x
  · rw [if_pos (by simpa using hActive)] at h
    cases h
    exact ⟨s.groups, .inr ⟨fun last _ hMoves => hMoves.no_active hActive, rfl⟩, rfl⟩
  rw [if_neg (by simpa using hActive)] at h
  obtain ⟨found, s₁, hFound, hRest⟩ := bind_eq_ok.mp h
  cases hFound
  cases hLast : lastExpired userId s with rw [hLast] at hRest
  | none =>
    cases hRest
    exact ⟨s.groups, .inr ⟨by simp [hLast], rfl⟩, rfl⟩
  | some last =>
    -- As soon as a check fails, the row does not move the user.
    have hStay : ¬ExpiryMoves f now userId s last → ExpiredGroups f now userId s s.groups := by
      intro hNot
      refine .inr ⟨?_, rfl⟩
      intro last' hLast'
      rw [hLast] at hLast'
      cases hLast'
      exact hNot
    simp only at hRest
    split at hRest
    · next hSkip =>
      cases hRest
      refine ⟨s.groups, hStay ?_, rfl⟩
      intro hMoves
      rcases hSkip with h | h | h
      · exact h hMoves.query
      · exact hMoves.upgrade h
      · exact hMoves.prev h
    · next hGo =>
      obtain ⟨current, s₂, hGroup, hMove⟩ := bind_eq_ok.mp hRest
      obtain ⟨rfl, hs₂⟩ := getUserGroupByIdTx_ok (stmt_eq_ok.mp hGroup).2
      rw [hs₂] at hMove
      push Not at hGo
      by_cases hCurrent : s.groups userId = trimSpace last.upgradeGroup
      swap
      · rw [if_pos (.inl hCurrent)] at hMove
        cases hMove
        exact ⟨s.groups, hStay fun hMoves => hCurrent hMoves.current, rfl⟩
      have hMoves : ExpiryMoves f now userId s last :=
        ⟨hGo.1, hGo.2.1, hCurrent, hGo.2.2, hActive⟩
      refine ⟨_, .inl ⟨last, hLast, hMoves, rfl⟩, ?_⟩
      split at hMove
      · next hEq =>
        cases hMove
        have hEq := hEq.resolve_left (not_not.mpr hCurrent)
        rw [← hEq, update_eq_self]
      · have hWrite := (stmt_eq_ok.mp hMove).2
        cases hWrite
        rfl

theorem expireUser_cases (f : ExpireFaults) (now userId : Int) (s : SubStore) :
    (∃ e, expireUser f now userId s = (.error e, s)) ∨
    (∃ n groups, ExpiredGroups f now userId (s.expireRows now userId) groups ∧
      expireUser f now userId s = (.ok n, { s.expireRows now userId with groups := groups })) := by
  unfold expireUser
  rcases transaction_cases (f.commit userId) _ s with hErr | ⟨n, t, hTx, hBody⟩
  · exact .inl hErr
  rw [hTx]
  obtain ⟨count, s₁, hCount, hRest⟩ := bind_eq_ok.mp hBody
  cases hCount
  obtain ⟨_, s₂, hWrite, hRest⟩ := bind_eq_ok.mp hRest
  have hWrite := (stmt_eq_ok.mp hWrite).2
  cases hWrite
  obtain ⟨_, s₃, hDown, hRet⟩ := bind_eq_ok.mp hRest
  cases hRet
  obtain ⟨groups, hGroups, ht⟩ := expireDowngrade_ok hDown
  exact .inr ⟨_, groups, hGroups, by rw [ht]⟩

theorem expireUsers_keeps {I : SubStore → Prop} {now : Int} :
    ∀ (users : List Int) (n : Nat) (s : SubStore),
      (∀ u ∈ users, ∀ t, I t → I (expireUser f now u t).2) → I s →
      I (expireUsers f now users n s).2 := by
  intro users
  induction users with
  | nil => exact fun n s _ hs => hs
  | cons u rest ih =>
    intro n s hKeep hs
    have hFirst := hKeep u List.mem_cons_self s hs
    rw [expireUsers, bind_run]
    rcases hRun : expireUser f now u s with ⟨e | count, t⟩
    · rw [hRun] at hFirst; exact hFirst
    · rw [hRun] at hFirst
      exact ih _ t (fun v hv => hKeep v (List.mem_cons_of_mem _ hv)) hFirst

structure MapOrder where
  order : List Int → List Int
  perm : ∀ l, (order l).Perm l

def dueUsers (env : Env) (limit : Int) (s : SubStore) : List Int :=
  let limit := if limit ≤ 0 then 200 else limit
  let subs := (s.query (expireDue env.now) endTimeAsc).take limit.toNat
  ((subs.map UserSubscription.userId).filter fun u => decide (0 < u)).dedup

def expireDueSubscriptions (env : Env) (f : ExpireFaults) (map : MapOrder) (limit : Int) :
    Prog SubStore Nat := do
  let users ← Prog.stmt f.findSubs (Prog.read (dueUsers env limit))
  expireUsers f env.now (map.order users) 0

theorem expire_keeps {I : SubStore → Prop} {env : Env} {map : MapOrder} {limit : Int}
    {s : SubStore} (hKeep : ∀ u t, I t → I (expireUser f env.now u t).2) (hs : I s) :
    I (expireDueSubscriptions env f map limit s).2 := by
  unfold expireDueSubscriptions
  cases f.findSubs with
  | some text => exact hs
  | none => exact expireUsers_keeps _ 0 s (fun u _ t ht => hKeep u t ht) hs

theorem expire_records (f : ExpireFaults) (map : MapOrder) (limit : Int) (s : SubStore) :
    (expireDueSubscriptions env f map limit s).2.records = s.records := by
  refine expire_keeps (I := fun t => t.records = s.records) ?_ rfl
  intro u t ht
  rcases expireUser_cases f env.now u t with ⟨e, hRun⟩ | ⟨n, groups, _, hRun⟩
  · rw [hRun]; exact ht
  · rw [hRun]; exact ht

end NewApi.Subscription
