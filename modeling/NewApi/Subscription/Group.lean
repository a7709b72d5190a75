import NewApi.Subscription.System

/-!
# The group a user comes back to

A plan with an upgrade group moves its buyer there, and the row keeps the group before, to which the
user goes back unless another upgraded subscription is active.  A renewal keeps no group, and an
upgrade to a second group keeps the first one; `GoesBack` leaves these two out.
-/

namespace NewApi.Subscription

open Core Go SubStore Function

inductive GroupOp where
  | create (env : Env) (f : CreateFaults) (userId : Int) (plan : SubscriptionPlan)
      (source : String)
  | invalidate (env : Env) (f : AdminFaults) (userSubscriptionId : Int)
  | delete (env : Env) (f : AdminFaults) (userSubscriptionId : Int)
  | expireUser (f : ExpireFaults) (now userId : Int)

def GroupOp.run (s : SubStore) : GroupOp → SubStore
  | .create env f userId plan source => (createUserSubscription env f userId plan source s).2
  | .invalidate env f id => (adminInvalidateUserSubscription env f id s).2
  | .delete env f id => (adminDeleteUserSubscription env f id s).2
  | .expireUser f now userId => (Subscription.expireUser f now userId s).2

def groupRuns (u : Int) (g : String) : System SubStore GroupOp :=
  System.ofFun GroupOp.run fun s =>
    ∃ plans groups, s = SubStore.initial plans groups ∧ groups u = g

def UpgradedRow (u : Int) (sub : UserSubscription) : Prop :=
  sub.userId = u ∧ sub.status = .active ∧ sub.upgradeGroup ≠ ""

def Upgraded (u : Int) (s : SubStore) : Prop := ∃ sub ∈ s.subs.rows, UpgradedRow u sub

/-- The user is in the group the row moved them to, and it kept the one before; or is back. -/
def MovedUser (u : Int) (g : String) (s : SubStore) (sub : UserSubscription) : Prop :=
  s.groups u = g ∨ (sub.upgradeGroup = s.groups u ∧ sub.prevUserGroup ≠ "")

def GoesBack (u : Int) (g : String) (s : SubStore) : GroupOp → Prop
  | .create _ _ userId plan _ =>
    -- Only a user without an active upgrade is moved, from a group with a proper name.
    userId = u → trimSpace plan.upgradeGroup ≠ "" → s.groups u ≠ trimSpace plan.upgradeGroup →
      ¬Upgraded u s ∧ s.groups u ≠ "" ∧ trimSpace (s.groups u) = s.groups u
  | .invalidate env f id =>
    Upgraded u s → ¬Upgraded u (GroupOp.run s (.invalidate env f id)) →
      ∀ sub ∈ s.subs.find? id, MovedUser u g s sub
  | .delete env f id =>
    Upgraded u s → ¬Upgraded u (GroupOp.run s (.delete env f id)) →
      ∀ sub ∈ s.subs.find? id, MovedUser u g s sub
  | .expireUser f now userId =>
    Upgraded u s → ¬Upgraded u (GroupOp.run s (.expireUser f now userId)) →
      f.expired u = none ∧
        ∀ sub ∈ lastExpired u (s.expireRows now u), MovedUser u g s sub

instance (u : Int) (sub : UserSubscription) : Decidable (UpgradedRow u sub) := by
  unfold UpgradedRow; infer_instance

instance (u : Int) (s : SubStore) : Decidable (Upgraded u s) := by
  unfold Upgraded; infer_instance

instance (u : Int) (g : String) (s : SubStore) (sub : UserSubscription) :
    Decidable (MovedUser u g s sub) := by
  unfold MovedUser; infer_instance

instance (u : Int) (g : String) (s : SubStore) (op : GroupOp) : Decidable (GoesBack u g s op) := by
  cases op <;> unfold GoesBack <;> infer_instance

/-! ## The invariant -/

/-- A row kept nothing or the original group, where the user is when not upgraded. -/
structure Restorable (u : Int) (g : String) (s : SubStore) : Prop where
  prev : ∀ sub ∈ s.subs.rows, sub.userId = u →
    sub.prevUserGroup = "" ∨ (sub.prevUserGroup = g ∧ trimSpace g = g)
  trimmed : ∀ sub ∈ s.subs.rows, trimSpace sub.upgradeGroup = sub.upgradeGroup
  back : ¬Upgraded u s → s.groups u = g

def SameGroups (x y : UserSubscription) : Prop :=
  x.userId = y.userId ∧ x.upgradeGroup = y.upgradeGroup ∧ x.prevUserGroup = y.prevUserGroup

variable {u : Int} {g : String} {s : SubStore} {sub : UserSubscription}

theorem Restorable.of_rows {s t : SubStore} (h : Restorable u g s)
    (hRows : ∀ x ∈ t.subs.rows, ∃ y ∈ s.subs.rows, SameGroups x y)
    (hBack : ¬Upgraded u t → t.groups u = g) : Restorable u g t where
  prev x hx hUser := by
    obtain ⟨y, hy, hU, _, hPrev⟩ := hRows x hx
    rw [hPrev]
    exact h.prev y hy (hU ▸ hUser)
  trimmed x hx := by
    obtain ⟨y, hy, _, hUp, _⟩ := hRows x hx
    rw [hUp]
    exact h.trimmed y hy
  back := hBack

theorem Restorable.downgraded {s t : SubStore} (h : Restorable u g s)
    (hSub : ∃ y ∈ s.subs.rows, SameGroups sub y) (f : DowngradeFaults) (now : Int) :
    downgradedGroups f sub now t u = t.groups u ∨ downgradedGroups f sub now t u = g := by
  unfold downgradedGroups
  split
  · next hAll =>
    by_cases hUser : sub.userId = u
    · obtain ⟨y, hy, hU, _, hPrev⟩ := hSub
      right
      rw [hUser, update_self, hPrev]
      rcases h.prev y hy (hU ▸ hUser) with hEmpty | ⟨hg, hTrim⟩
      · exact absurd (by rw [hPrev, hEmpty, trimSpace_empty]) hAll.2.2.1
      · rw [hg, hTrim]
    · left
      exact update_of_ne (fun hEq => hUser hEq.symm) ..
  · exact .inl rfl

theorem Restorable.downgraded_moved {s t : SubStore} (h : Restorable u g s)
    {sub y : UserSubscription} (hy : y ∈ s.subs.rows) (hSame : SameGroups sub y)
    (hUser : sub.userId = u) (hUp : sub.upgradeGroup ≠ "") (hMoved : MovedUser u g s y)
    (hGroups : t.groups = s.groups) (hLast : ∀ x ∈ t.subs.rows, UpgradedRow u x → x.id = sub.id)
    (f : DowngradeFaults) (now : Int) : downgradedGroups f sub now t u = g := by
  obtain ⟨hU, hUpEq, hPrevEq⟩ := hSame
  rcases hMoved with hIn | ⟨hCurrent, hPrev⟩
  · rcases h.downgraded ⟨y, hy, hU, hUpEq, hPrevEq⟩ f now (t := t) with hStay | hBack
    · rw [hStay, hGroups, hIn]
    · exact hBack
  obtain ⟨hg, hTrim⟩ := (h.prev y hy (hU ▸ hUser)).resolve_left hPrev
  have hUpTrim : trimSpace sub.upgradeGroup = sub.upgradeGroup := by
    rw [hUpEq]; exact h.trimmed y hy
  have hPrevTrim : trimSpace sub.prevUserGroup = g := by rw [hPrevEq, hg, hTrim]
  unfold downgradedGroups
  rw [if_pos, hUser, hPrevTrim, update_self]
  refine ⟨?_, ?_, ?_, ?_⟩
  · rw [hUpTrim]; exact hUp
  · rw [hUpTrim, hUser, hGroups, hUpEq, hCurrent]
  · rw [hPrevTrim, ← hg]; exact hPrev
  · rintro ⟨_, x, hx, hActive, hne⟩
    simp only [activeUpgraded, decide_eq_true_eq, hUser] at hActive
    exact hne (hLast x hx ⟨hActive.1, hActive.2.1, hActive.2.2.2⟩)

/-! ## One call -/

theorem Restorable.create (h : Restorable u g s) (env : Env) (f : CreateFaults) (userId : Int)
    (plan : SubscriptionPlan) (source : String)
    (hGo : GoesBack u g s (.create env f userId plan source)) :
    Restorable u g (GroupOp.run s (.create env f userId plan source)) := by
  rcases create_cases env f userId plan source s with ⟨e, hRun⟩ | ⟨endUnix, _, _, hRun⟩
  · rw [GroupOp.run, hRun]; exact h
  rw [GroupOp.run, hRun]
  have hMem : ∀ {x}, x ∈ (s.subs.insert (newSubscription env userId plan source endUnix
      (keptGroup s userId (trimSpace plan.upgradeGroup))) fun _ => rfl).rows ↔
      x ∈ s.subs.rows ∨ x = newSubscription env userId plan source endUnix
        (keptGroup s userId (trimSpace plan.upgradeGroup)) s.subs.next := Table.mem_insert _
  refine ⟨?_, ?_, ?_⟩
  · intro x hx hUser
    rcases hMem.mp hx with hOld | rfl
    · exact h.prev x hOld hUser
    subst hUser
    rw [newSubscription_prevUserGroup, keptGroup]
    split
    · exact .inl rfl
    · next hMove =>
      -- The row keeps the group the user is in, which is the original one.
      push Not at hMove
      obtain ⟨hNot, _, hTrim⟩ := hGo rfl hMove.1 hMove.2
      have hBack := h.back hNot
      exact .inr ⟨hBack, hBack ▸ hTrim⟩
  · intro x hx
    rcases hMem.mp hx with hOld | rfl
    · exact h.trimmed x hOld
    · rw [newSubscription_upgradeGroup, trimSpace_trimSpace]
  · intro hNot
    have hOld : ¬Upgraded u s := by
      rintro ⟨x, hx, hRow⟩
      exact hNot ⟨x, hMem.mpr (.inl hx), hRow⟩
    dsimp only [upgradedGroups]
    split
    · exact h.back hOld
    · next hUp =>
      by_cases hUser : u = userId
      · -- The new row itself is active and upgraded.
        exact absurd ⟨_, hMem.mpr (.inr rfl), hUser.symm, rfl, hUp⟩ hNot
      · rw [update_of_ne hUser]; exact h.back hOld

theorem Restorable.invalidate (h : Restorable u g s) (env : Env) (f : AdminFaults) (id : Int)
    (hGo : GoesBack u g s (.invalidate env f id)) :
    Restorable u g (GroupOp.run s (.invalidate env f id)) := by
  rcases invalidate_cases env f id s with ⟨e, hRun⟩ | ⟨sub, text, hSub, hRun⟩
  · rw [GroupOp.run, hRun]; exact h
  have hMem : sub ∈ s.subs.rows := (Table.find?_eq_some.mp hSub).1
  have hRows : ∀ x ∈ (s.subs.save (cancelled env sub)).rows, ∃ y ∈ s.subs.rows, SameGroups x y := by
    intro x hx
    rcases Table.mem_save hx with ⟨rfl, _⟩ | ⟨hOld, _⟩
    · exact ⟨sub, hMem, rfl, rfl, rfl⟩
    · exact ⟨x, hOld, rfl, rfl, rfl⟩
  simp only [GoesBack, GroupOp.run, hRun] at hGo
  rw [GroupOp.run, hRun]
  refine h.of_rows hRows ?_
  intro hNot
  have hNone : ∀ x ∈ (s.subs.save (cancelled env sub)).rows, ¬UpgradedRow u x :=
    fun x hx hRow => hNot ⟨x, hx, hRow⟩
  dsimp only
  by_cases hUp : Upgraded u s
  · -- The row that was upgraded is the one that was cancelled.
    obtain ⟨y, hy, hRow⟩ := hUp
    have hEq : y = sub := by
      by_contra hne
      have hId : y.id ≠ sub.id := fun hId => hne (s.subs.key_inj hy hMem hId)
      exact hNone y (Table.mem_save_of_ne hy hId) hRow
    subst hEq
    exact h.downgraded_moved (t := { s with subs := s.subs.save (cancelled env y) }) hMem
      ⟨rfl, rfl, rfl⟩ hRow.1 hRow.2.2 (hGo ⟨y, hy, hRow⟩ hNot y hSub) rfl
      (fun x hx hRow' => absurd hRow' (hNone x hx)) _ _
  · have hSame : ∃ y ∈ s.subs.rows, SameGroups (cancelled env sub) y := ⟨sub, hMem, rfl, rfl, rfl⟩
    rcases h.downgraded hSame f.downgrade env.now
      (t := { s with subs := s.subs.save (cancelled env sub) }) with hStay | hBack
    · rw [hStay]; exact h.back hUp
    · exact hBack

theorem Restorable.delete (h : Restorable u g s) (env : Env) (f : AdminFaults) (id : Int)
    (hGo : GoesBack u g s (.delete env f id)) :
    Restorable u g (GroupOp.run s (.delete env f id)) := by
  rcases delete_cases env f id s with ⟨e, hRun⟩ | ⟨sub, text, hSub, hRun⟩
  · rw [GroupOp.run, hRun]; exact h
  obtain ⟨hMem, hKey⟩ := Table.find?_eq_some.mp hSub
  simp only [GoesBack, GroupOp.run, hRun] at hGo
  rw [GroupOp.run, hRun]
  refine h.of_rows (fun x hx => ⟨x, (Table.mem_remove.mp hx).1, rfl, rfl, rfl⟩) ?_
  intro hNot
  have hOnly : ∀ x ∈ s.subs.rows, UpgradedRow u x → x = sub := by
    intro x hx hRow
    by_contra hne
    have hId : Row.key x ≠ id := fun hId => hne (s.subs.key_inj hx hMem (hId.trans hKey.symm))
    exact hNot ⟨x, Table.mem_remove.mpr ⟨hx, hId⟩, hRow⟩
  dsimp only
  by_cases hUp : Upgraded u s
  · obtain ⟨y, hy, hRow⟩ := hUp
    have hEq := hOnly y hy hRow
    subst hEq
    exact h.downgraded_moved hMem ⟨rfl, rfl, rfl⟩ hRow.1 hRow.2.2 (hGo ⟨y, hy, hRow⟩ hNot y hSub)
      rfl (fun x hx hRow' => by rw [hOnly x hx hRow']) _ _
  · rcases h.downgraded ⟨sub, hMem, rfl, rfl, rfl⟩ f.downgrade env.now (t := s) with hStay | hBack
    · rw [hStay]; exact h.back hUp
    · exact hBack

theorem lastExpired_some (h : lastExpired u s = some sub) :
    sub ∈ s.subs.rows ∧ sub.userId = u ∧ sub.status = .expired ∧ sub.upgradeGroup ≠ "" := by
  obtain ⟨hMem, hRow⟩ := mem_query.mp (List.mem_of_head? h)
  exact ⟨hMem, by simpa using hRow⟩

theorem lastExpired_ne_none (hMem : sub ∈ s.subs.rows) (hUser : sub.userId = u)
    (hStatus : sub.status = .expired) (hUp : sub.upgradeGroup ≠ "") : lastExpired u s ≠ none := by
  intro hNone
  have hEmpty := List.head?_eq_none_iff.mp hNone
  have hIn := (mem_query (s := s) (r := endTimeDesc)
    (p := fun sub => decide (sub.userId = u ∧ sub.status = .expired ∧ sub.upgradeGroup ≠ ""))).mpr
    ⟨hMem, by simp [hUser, hStatus, hUp]⟩
  rw [hEmpty] at hIn
  cases hIn

theorem expireRows_same {now userId : Int} {x : UserSubscription}
    (hx : x ∈ (s.expireRows now userId).subs.rows) : ∃ y ∈ s.subs.rows, SameGroups x y := by
  rcases mem_expireRows.mp hx with ⟨hOld, _⟩ | ⟨y, hy, _, rfl⟩
  · exact ⟨x, hOld, rfl, rfl, rfl⟩
  · exact ⟨y, hy, rfl, rfl, rfl⟩

theorem Restorable.expireOther (h : Restorable u g s) {f : ExpireFaults} {now userId : Int}
    (hne : userId ≠ u) {groups : Int → String}
    (hGroups : ExpiredGroups f now userId (s.expireRows now userId) groups) :
    Restorable u g { s.expireRows now userId with groups := groups } := by
  refine h.of_rows (fun x hx => expireRows_same hx) ?_
  intro hNot
  have hOld : ¬Upgraded u s := by
    rintro ⟨x, hx, hRow⟩
    refine hNot ⟨x, mem_expireRows.mpr (.inl ⟨hx, ?_⟩), hRow⟩
    exact fun hDue => hne (hDue.1.symm.trans hRow.1)
  show groups u = g
  rcases hGroups with ⟨last, _, _, rfl⟩ | ⟨_, rfl⟩
  · rw [update_of_ne hne.symm]; exact h.back hOld
  · exact h.back hOld

theorem Restorable.expireUser (h : Restorable u g s) (f : ExpireFaults) (now userId : Int)
    (hGo : GoesBack u g s (.expireUser f now userId)) :
    Restorable u g (GroupOp.run s (.expireUser f now userId)) := by
  rcases expireUser_cases f now userId s with ⟨e, hRun⟩ | ⟨n, groups, hGroups, hRun⟩
  · rw [GroupOp.run, hRun]; exact h
  simp only [GoesBack, GroupOp.run, hRun] at hGo
  rw [GroupOp.run, hRun]
  by_cases hUser : userId = u
  swap
  · exact h.expireOther hUser hGroups
  subst hUser
  refine h.of_rows (fun x hx => expireRows_same hx) ?_
  intro hNot
  show groups userId = g
  rcases hGroups with ⟨last, hLast, hMoves, rfl⟩ | ⟨hStay, rfl⟩
  · -- Whatever row decides, it kept the original group.
    obtain ⟨hMem, hUser, _, _⟩ := lastExpired_some hLast
    obtain ⟨y, hy, hU, _, hPrev⟩ := expireRows_same hMem
    rw [update_self]
    rcases h.prev y hy (hU ▸ hUser) with hEmpty | ⟨hg, hTrim⟩
    · exact absurd (by rw [hPrev, hEmpty, trimSpace_empty]) hMoves.prev
    · rw [hPrev, hg, hTrim]
  · by_cases hUp : Upgraded userId s
    swap
    · exact h.back hUp
    obtain ⟨hQuery, hMoved⟩ := hGo hUp hNot
    -- The rows that were active have expired, so there is a last one, and it moved the user.
    obtain ⟨y, hy, hU, hActive, hUpGroup⟩ := hUp
    have hDue : y.userId = userId ∧ expireDue now y := by
      by_contra hStill
      exact hNot ⟨y, mem_expireRows.mpr (.inl ⟨hy, hStill⟩), hU, hActive, hUpGroup⟩
    have hSome : lastExpired userId (s.expireRows now userId) ≠ none :=
      lastExpired_ne_none (mem_expireRows.mpr (.inr ⟨y, hy, hDue, rfl⟩)) hU rfl hUpGroup
    obtain ⟨last, hLast⟩ := Option.ne_none_iff_exists'.mp hSome
    obtain ⟨hMem, hLastUser, _, hLastUp⟩ := lastExpired_some hLast
    obtain ⟨z, hz, hU', hUpEq, hPrevEq⟩ := expireRows_same hMem
    have hTrim : trimSpace last.upgradeGroup = last.upgradeGroup := by
      rw [hUpEq]; exact h.trimmed z hz
    rcases hMoved last hLast with hIn | ⟨hCurrent, hPrev⟩
    · exact hIn
    refine absurd ⟨hQuery, ?_, ?_, ?_, ?_⟩ (hStay last hLast)
    · rw [hTrim]; exact hLastUp
    · rw [hTrim]; exact hCurrent.symm
    · rw [hPrevEq] at hPrev ⊢
      obtain ⟨hg, hgTrim⟩ := (h.prev z hz (hU' ▸ hLastUser)).resolve_left hPrev
      rw [hg, hgTrim, ← hg]
      exact hPrev
    · rintro ⟨_, x, hx, hRow⟩
      simp only [activeUpgraded, decide_eq_true_eq] at hRow
      exact hNot ⟨x, hx, hRow.1, hRow.2.1, hRow.2.2.2⟩

/-! ## Whole runs -/

theorem Restorable.run (h : Restorable u g s) (op : GroupOp) (hGo : GoesBack u g s op) :
    Restorable u g (op.run s) := by
  cases op with
  | create env f userId plan source => exact h.create env f userId plan source hGo
  | invalidate env f id => exact h.invalidate env f id hGo
  | delete env f id => exact h.delete env f id hGo
  | expireUser f now userId => exact h.expireUser f now userId hGo

theorem reach_restorable (h : ((groupRuns u g).only (GoesBack u g)).Reach s) :
    Restorable u g s := by
  refine h.invariant ?_ ?_
  · rintro s ⟨plans, groups, rfl, hg⟩
    exact ⟨by rintro sub ⟨⟩, by rintro sub ⟨⟩, fun _ => hg⟩
  · rintro s op t hs ⟨hGo, rfl⟩
    exact hs.run op hGo

theorem expireUsers_run (f : ExpireFaults) (now : Int) :
    ∀ (users : List Int) (n : Nat) (s : SubStore), ∃ done, done <+: users ∧
      (expireUsers f now users n s).2 =
        (done.map (GroupOp.expireUser f now)).foldl GroupOp.run s := by
  intro users
  induction users with
  | nil => exact fun n s => ⟨[], List.prefix_refl [], rfl⟩
  | cons u rest ih =>
    intro n s
    rcases hRun : expireUser f now u s with ⟨e | count, t⟩
    · refine ⟨[u], by simp, ?_⟩
      rw [expireUsers, Prog.bind_error hRun]
      simp [GroupOp.run, hRun]
    obtain ⟨done, hPrefix, hDone⟩ := ih (n + count) t
    refine ⟨u :: done, by simpa using hPrefix, ?_⟩
    rw [expireUsers, Prog.bind_ok hRun, hDone]
    simp [GroupOp.run, hRun]

theorem expireDue_run (env : Env) (f : ExpireFaults) (map : MapOrder) (limit : Int)
    (s : SubStore) :
    ∃ users : List Int, (expireDueSubscriptions env f map limit s).2 =
      (users.map (GroupOp.expireUser f env.now)).foldl GroupOp.run s := by
  unfold expireDueSubscriptions
  cases f.findSubs with
  | some text => exact ⟨[], rfl⟩
  | none =>
    obtain ⟨done, _, hDone⟩ := expireUsers_run f env.now (map.order (dueUsers env limit s)) 0 s
    exact ⟨done, hDone⟩

/-- **A user without an active upgrade is in the original group**, where nobody stacks upgrades and
the row that decides is one that moved the user. -/
theorem group_restored (u : Int) (g : String) (s : SubStore)
    (h : ((groupRuns u g).only (GoesBack u g)).Reach s) :
    ((∀ sub ∈ s.subs.rows, sub.userId = u → sub.status = .active → sub.upgradeGroup = "") →
      s.groups u = g) ∧
    ∀ (env : Env) (f : ExpireFaults) (map : MapOrder) (limit : Int), ∃ users : List Int,
      (expireDueSubscriptions env f map limit s).2 =
        (users.map (GroupOp.expireUser f env.now)).foldl GroupOp.run s := by
  refine ⟨?_, fun env f map limit => expireDue_run env f map limit s⟩
  intro hNone
  refine (reach_restorable h).back ?_
  rintro ⟨sub, hSub, hUser, hStatus, hUp⟩
  exact hUp (hNone sub hSub hUser hStatus)

def vipPlan : SubscriptionPlan := { hourPlan with upgradeGroup := "vip" }

def upgradeAndExpire : List GroupOp :=
  [.create (envAt 1000) {} 1 vipPlan "order", .expireUser {} 5000 1]

theorem upgradeAndExpire_restored :
    ((upgradeAndExpire.take 1).foldl GroupOp.run shop).groups 1 = "vip" ∧
      (upgradeAndExpire.foldl GroupOp.run shop).groups 1 = "default" := by
  refine ⟨by decide, ?_⟩
  refine (group_restored 1 "default" _
    (reach_only_foldl (s := shop) ⟨_, _, rfl, rfl⟩ upgradeAndExpire ?_)).1 ?_ <;> decide

def renewAndExpire : List GroupOp :=
  [.create (envAt 1000) {} 1 vipPlan "order", .create (envAt 2000) {} 1 vipPlan "order",
   .expireUser {} 5000 1, .expireUser {} 6000 1]

/-- The row that expires last is the renewal, which kept no group. -/
theorem renewal_keeps_upgrade :
    ∃ s, (groupRuns 1 "default").Reach s ∧
      (∀ sub ∈ s.subs.rows, sub.userId = 1 → sub.status = .active → sub.upgradeGroup = "") ∧
      s.groups 1 = "vip" :=
  ⟨_, reach_foldl (s := shop) ⟨_, _, rfl, rfl⟩ renewAndExpire, by decide, by decide⟩

end NewApi.Subscription
