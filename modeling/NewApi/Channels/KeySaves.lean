import NewApi.Channels.Keys
import NewApi.Core.Run

/-!
# Saving key statuses without the cache

A request that takes the next key writes back the `ChannelInfo` that it has loaded, and
`UpdateChannelStatus` reads the row, changes one entry and writes the row, with no lock in between.
`KeyHistory` counts the saves, so that a run can say what is written back too late.
-/

namespace NewApi.Channels

open Core Go

/-! ## The statements -/

inductive KeyWrite where
  /-- `SaveChannelInfo` -/
  | info (info : ChannelInfo)
  /-- `SaveWithoutKey`, of a row that was read for the call -/
  | row (row : Channel) (c : StatusCall)

/-- What was loaded for the write. -/
def KeyWrite.source : KeyWrite → ChannelInfo
  | .info i => i
  | .row r _ => r.channelInfo

structure KeyDb where
  stored : Channel
  /-- Who holds the polling lock of the channel. -/
  polling : Option Nat := none
  /-- The objects that requests have loaded. -/
  objects : Nat → Option Channel := fun _ => none
  writes : Nat → Option KeyWrite := fun _ => none

inductive KeyAct where
  | load (p : Nat)
  /-- `GetNextEnabledKey`, up to its write -/
  | select (p : Nat)
  | saveChannelInfo (p : Nat)
  /-- `UpdateChannelStatus`, up to its write -/
  | read (p : Nat) (c : StatusCall)
  | saveWithoutKey (p : Nat)

def Channel.withStatus (unmarshal : Unmarshal) (row : Channel) (c : StatusCall) : Channel :=
  if row.channelInfo.isMultiKey then row.handlerMultiKeyUpdate unmarshal c
  else { row with status := c.status }

namespace KeyDb

variable (unmarshal : Unmarshal)

def select (s : KeyDb) (p : Nat) : KeyDb :=
  match s.objects p, s.polling, s.writes p with
  | some ch, none, none =>
    match ch.getNextEnabledKey unmarshal (.ok s.stored.channelInfo) with
    | .error _ => s
    | .ok choice =>
      if ch.channelInfo.isMultiKey then
        let next := choice.next.elim ch.channelInfo.multiKeyPollingIndex Int.ofNat
        let info := { ch.channelInfo with multiKeyPollingIndex := next }
        { s with
          polling := some p
          objects := Function.update s.objects p (some { ch with channelInfo := info })
          writes := Function.update s.writes p (some (.info info)) }
      else s
  | _, _, _ => s

def step (s : KeyDb) : KeyAct → KeyDb
  | .load p => { s with objects := Function.update s.objects p (some s.stored.loaded) }
  | .select p => s.select unmarshal p
  | .saveChannelInfo p =>
    match s.writes p with
    | some (.info info) =>
      { s with
        stored := { s.stored with channelInfo := info }
        polling := none
        writes := Function.update s.writes p none }
    | _ => s
  | .read p c =>
    match s.writes p with
    | none =>
      if s.stored.status = c.status then s
      else { s with writes := Function.update s.writes p (some (.row s.stored.loaded c)) }
    | _ => s
  | .saveWithoutKey p =>
    match s.writes p with
    | some (.row row c) =>
      { s with
        stored := { row.withStatus unmarshal c with key := s.stored.key }
        writes := Function.update s.writes p none }
    | _ => s

end KeyDb

/-! ## What a write changes -/

def Channel.target (unmarshal : Unmarshal) (row : Channel) (c : StatusCall) : Option Nat :=
  if row.channelInfo.isMultiKey ∧ row.getKeys unmarshal ≠ [] then
    some (keyIndex (row.getKeys unmarshal) c.usingKey)
  else none

variable {unmarshal : Unmarshal}

theorem Channel.getStatus_withStatus (row : Channel) (c : StatusCall) (i : Nat) :
    (row.withStatus unmarshal c).channelInfo.getStatus i =
      if row.target unmarshal c = some i then c.status else row.channelInfo.getStatus i := by
  unfold withStatus target
  by_cases hMulti : row.channelInfo.isMultiKey = true
  · by_cases hKeys : row.getKeys unmarshal = []
    · simp [handlerMultiKeyUpdate, hKeys]
    · simp [handlerMultiKeyUpdate, hKeys, hMulti, ChannelInfo.getStatus_mark, eq_comm]
  · simp [hMulti]

namespace KeyDb

def Enables (unmarshal : Unmarshal) (s : KeyDb) (a : KeyAct) (i : Nat) : Prop :=
  ∃ p row c, a = .saveWithoutKey p ∧ s.writes p = some (.row row c) ∧ c.status = .enabled ∧
    row.target unmarshal c = some i

/-- A selection changes no status, and nothing but a call that enables a key ends that it is
disabled. -/
structure Keeps (unmarshal : Unmarshal) (s : KeyDb) (a : KeyAct) : Prop where
  selecting : ∀ p, a = .load p ∨ a = .select p ∨ a = .saveChannelInfo p →
    ∀ i, (s.step unmarshal a).stored.channelInfo.getStatus i = s.stored.channelInfo.getStatus i
  disabled : ∀ i ∈ s.stored.channelInfo.disabled,
    i ∈ (s.step unmarshal a).stored.channelInfo.disabled ∨ s.Enables unmarshal a i

variable {s : KeyDb} {a : KeyAct}

theorem keeps_of_stored (h : (s.step unmarshal a).stored = s.stored) : Keeps unmarshal s a :=
  ⟨fun _ _ _ => by rw [h], fun _ hi => .inl (by rwa [h])⟩

theorem select_cases (s : KeyDb) (p : Nat) : s.select unmarshal p = s ∨
    ∃ ch info, s.objects p = some ch ∧ s.writes p = none ∧
      (∀ i, info.getStatus i = ch.channelInfo.getStatus i) ∧
      s.select unmarshal p = { s with
        polling := some p
        objects := Function.update s.objects p (some { ch with channelInfo := info })
        writes := Function.update s.writes p (some (.info info)) } := by
  unfold select
  split
  · next ch hObject hPolling hWrite =>
    split
    · exact .inl rfl
    · next choice hChoice =>
      split
      · let next := choice.next.elim ch.channelInfo.multiKeyPollingIndex Int.ofNat
        exact .inr ⟨ch, { ch.channelInfo with multiKeyPollingIndex := next }, hObject, hWrite,
          fun _ => rfl, rfl⟩
      · exact .inl rfl
  · exact .inl rfl

theorem read_cases (s : KeyDb) (p : Nat) (c : StatusCall) : s.step unmarshal (.read p c) = s ∨
    s.writes p = none ∧ s.step unmarshal (.read p c) =
      { s with writes := Function.update s.writes p (some (.row s.stored.loaded c)) } := by
  unfold step
  dsimp only
  split
  · next hWrite =>
    split
    · exact .inl rfl
    · exact .inr ⟨hWrite, rfl⟩
  · exact .inl rfl

/-- The statuses that are stored. -/
def Agrees (s : KeyDb) (info : ChannelInfo) : Prop :=
  ∀ i, info.getStatus i = s.stored.channelInfo.getStatus i

theorem keeps_saveWithoutKey {p : Nat} {row : Channel} {c : StatusCall}
    (hWrite : s.writes p = some (.row row c)) (hRow : s.Agrees row.channelInfo) :
    Keeps unmarshal s (.saveWithoutKey p) := by
  refine ⟨fun q hq => by simp at hq, fun i hi => ?_⟩
  have hStored : (s.step unmarshal (.saveWithoutKey p)).stored.channelInfo.getStatus i =
      if row.target unmarshal c = some i then c.status else row.channelInfo.getStatus i := by
    rw [← Channel.getStatus_withStatus]
    simp [step, hWrite]
  rw [ChannelInfo.mem_disabled, hStored]
  split
  · next hTarget =>
    by_cases hOn : c.status = .enabled
    · exact .inr ⟨p, row, c, rfl, hWrite, hOn, hTarget⟩
    · exact .inl hOn
  · rw [hRow]
    exact .inl hi

end KeyDb

/-! ## Nothing late is written back -/

/-- How often statuses were saved, when a process loaded its object, and when it loaded what it is
about to write back. -/
structure KeyHistory where
  db : KeyDb
  saves : Nat := 0
  loaded : Nat → Nat := fun _ => 0
  basis : Nat → Nat := fun _ => 0

namespace KeyHistory

open KeyDb

def step (unmarshal : Unmarshal) (h : KeyHistory) (a : KeyAct) : KeyHistory :=
  let db := h.db.step unmarshal a
  match a with
  | .load p => { h with db, loaded := Function.update h.loaded p h.saves }
  | .select p =>
    if (h.db.writes p).isSome then { h with db }
    else { h with db, basis := Function.update h.basis p (h.loaded p) }
  | .saveChannelInfo _ => { h with db }
  | .read p _ =>
    if (h.db.writes p).isSome then { h with db }
    else { h with db, basis := Function.update h.basis p h.saves }
  | .saveWithoutKey p =>
    match h.db.writes p with
    | some (.row ..) => { h with db, saves := h.saves + 1 }
    | _ => { h with db }

/-- Since a process loaded what it writes back, nobody has saved a status. -/
def Current (h : KeyHistory) : KeyAct → Prop
  | .saveChannelInfo p => (h.db.writes p).isSome → h.basis p = h.saves
  | .saveWithoutKey p => (h.db.writes p).isSome → h.basis p = h.saves
  | _ => True

def system (unmarshal : Unmarshal) : System KeyHistory KeyAct where
  Init h := ∃ stored, h = { db := { stored } }
  Step h a t := t = h.step unmarshal a

/-- What was loaded after the last save of a status has the statuses that are stored. -/
structure Sync (h : KeyHistory) : Prop where
  objects : ∀ p ch, h.db.objects p = some ch → h.loaded p = h.saves → h.db.Agrees ch.channelInfo
  writes : ∀ p w, h.db.writes p = some w → h.basis p = h.saves → h.db.Agrees w.source
  loaded : ∀ p, h.loaded p ≤ h.saves
  basis : ∀ p, h.basis p ≤ h.saves

variable {h : KeyHistory} {a : KeyAct}

theorem Sync.keeps (hSync : h.Sync) (hCurrent : h.Current a) : Keeps unmarshal h.db a := by
  cases a with
  | load p => exact keeps_of_stored rfl
  | select p =>
    refine keeps_of_stored ?_
    rcases @select_cases unmarshal h.db p with hSame | ⟨_, _, _, _, _, hNext⟩
    · rw [KeyDb.step, hSame]
    · rw [KeyDb.step, hNext]
  | read p c =>
    refine keeps_of_stored ?_
    rcases @read_cases unmarshal h.db p c with hSame | ⟨_, hNext⟩
    · rw [hSame]
    · rw [hNext]
  | saveChannelInfo p =>
    cases hWrite : h.db.writes p with
    | none => exact keeps_of_stored (by simp [KeyDb.step, hWrite])
    | some w =>
      cases w with
      | row row c => exact keeps_of_stored (by simp [KeyDb.step, hWrite])
      | info info =>
        have hInfo : h.db.Agrees info := hSync.writes p _ hWrite (hCurrent (by simp [hWrite]))
        have hStored : (h.db.step unmarshal (.saveChannelInfo p)).stored.channelInfo = info := by
          simp [KeyDb.step, hWrite]
        refine ⟨fun _ _ i => by rw [hStored]; exact hInfo i, fun i hi => .inl ?_⟩
        rw [ChannelInfo.mem_disabled, hStored]
        exact (hInfo i).trans_ne hi
  | saveWithoutKey p =>
    cases hWrite : h.db.writes p with
    | none => exact keeps_of_stored (by simp [KeyDb.step, hWrite])
    | some w =>
      cases w with
      | info info => exact keeps_of_stored (by simp [KeyDb.step, hWrite])
      | row row c =>
        exact keeps_saveWithoutKey hWrite (hSync.writes p _ hWrite (hCurrent (by simp [hWrite])))

/-- Statements that leave the stored row alone and change one object and one write. -/
theorem Sync.of_updates (hSync : h.Sync) {t : KeyHistory} {p : Nat}
    (hStored : t.db.stored = h.db.stored) (hSaves : t.saves = h.saves)
    (hObjects : ∀ q ≠ p, t.db.objects q = h.db.objects q ∧ t.loaded q = h.loaded q)
    (hWrites : ∀ q ≠ p, t.db.writes q = h.db.writes q ∧ t.basis q = h.basis q)
    (hObject : ∀ ch, t.db.objects p = some ch → t.loaded p = t.saves → h.db.Agrees ch.channelInfo)
    (hWrite : ∀ w, t.db.writes p = some w → t.basis p = t.saves → h.db.Agrees w.source)
    (hLe : t.loaded p ≤ h.saves ∧ t.basis p ≤ h.saves) : t.Sync where
  objects q ch hq hLoaded := by
    rw [Agrees, hStored]
    by_cases hp : q = p
    · subst hp
      exact hObject ch hq hLoaded
    · rw [(hObjects q hp).1] at hq
      rw [(hObjects q hp).2, hSaves] at hLoaded
      exact hSync.objects q ch hq hLoaded
  writes q w hq hBasis := by
    rw [Agrees, hStored]
    by_cases hp : q = p
    · subst hp
      exact hWrite w hq hBasis
    · rw [(hWrites q hp).1] at hq
      rw [(hWrites q hp).2, hSaves] at hBasis
      exact hSync.writes q w hq hBasis
  loaded q := by
    rw [hSaves]
    by_cases hp : q = p
    · exact hp ▸ hLe.1
    · exact (hObjects q hp).2 ▸ hSync.loaded q
  basis q := by
    rw [hSaves]
    by_cases hp : q = p
    · exact hp ▸ hLe.2
    · exact (hWrites q hp).2 ▸ hSync.basis q

theorem Sync.step (hSync : h.Sync) (hCurrent : h.Current a) : (h.step unmarshal a).Sync := by
  cases a with
  | load p =>
    refine hSync.of_updates (p := p) rfl rfl ?_ (fun _ _ => ⟨rfl, rfl⟩) ?_ (hSync.writes p) ?_
    · intro q hq
      simp [KeyHistory.step, KeyDb.step, hq]
    · intro ch hch _
      obtain rfl : h.db.stored.loaded = ch := by simpa [KeyHistory.step, KeyDb.step] using hch
      exact fun _ => rfl
    · simp [KeyHistory.step, hSync.basis p]
  | select p =>
    cases hWrite : h.db.writes p with
    | some w =>
      have hSame : h.step unmarshal (.select p) = h := by
        rcases @select_cases unmarshal h.db p with hSame | ⟨_, _, _, hNone, _, _⟩
        · simp [KeyHistory.step, KeyDb.step, hWrite, hSame]
        · simp [hWrite] at hNone
      rwa [hSame]
    | none =>
      rcases @select_cases unmarshal h.db p with
        hSame | ⟨ch, info, hObject, -, hInfo, hNext⟩
      · refine hSync.of_updates (p := p) ?_ ?_ ?_ ?_ ?_ ?_ ?_ <;>
          simp +contextual [KeyHistory.step, KeyDb.step, hWrite, hSame, hSync.loaded p]
        exact hSync.objects p
      · have hAgrees (hLoaded : h.loaded p = h.saves) : h.db.Agrees info := fun i =>
          (hInfo i).trans (hSync.objects p ch hObject hLoaded i)
        refine hSync.of_updates (p := p) ?_ ?_ ?_ ?_ ?_ ?_ ?_ <;>
          simp +contextual [KeyHistory.step, KeyDb.step, hWrite, hNext, hSync.loaded p]
        · exact hAgrees
        · exact hAgrees
  | read p c =>
    cases hWrite : h.db.writes p with
    | some w => simpa [KeyHistory.step, KeyDb.step, hWrite] using hSync
    | none =>
      rcases @read_cases unmarshal h.db p c with hSame | ⟨-, hNext⟩
      · refine hSync.of_updates (p := p) ?_ ?_ ?_ ?_ ?_ ?_ ?_ <;>
          simp +contextual [KeyHistory.step, hWrite, hSame, hSync.loaded p]
        exact hSync.objects p
      · refine hSync.of_updates (p := p) ?_ ?_ ?_ ?_ ?_ ?_ ?_ <;>
          simp +contextual [KeyHistory.step, hWrite, hNext, hSync.loaded p]
        · exact hSync.objects p
        · exact fun _ => rfl
  | saveChannelInfo p =>
    cases hWrite : h.db.writes p with
    | none => simpa [KeyHistory.step, KeyDb.step, hWrite] using hSync
    | some w =>
      cases w with
      | row row c => simpa [KeyHistory.step, KeyDb.step, hWrite] using hSync
      | info info =>
        -- the write changes the polling index only
        have hInfo : h.db.Agrees info := hSync.writes p _ hWrite (hCurrent (by simp [hWrite]))
        have hStored : (h.step unmarshal (.saveChannelInfo p)).db.stored.channelInfo = info := by
          simp [KeyHistory.step, KeyDb.step, hWrite]
        have hAgrees {i : ChannelInfo} (hi : h.db.Agrees i) :
            (h.step unmarshal (.saveChannelInfo p)).db.Agrees i := fun k => by
          rw [hStored, hInfo k]
          exact hi k
        refine ⟨fun q ch hq hLoaded => hAgrees (hSync.objects q ch ?_ hLoaded),
          fun q w hq hBasis => hAgrees (hSync.writes q w ?_ hBasis), hSync.loaded, hSync.basis⟩
        · simpa [KeyHistory.step, KeyDb.step, hWrite] using hq
        · by_cases hp : q = p
          · simp [KeyHistory.step, KeyDb.step, hWrite, hp] at hq
          · simpa [KeyHistory.step, KeyDb.step, hWrite, hp] using hq
  | saveWithoutKey p =>
    cases hWrite : h.db.writes p with
    | none => simpa [KeyHistory.step, KeyDb.step, hWrite] using hSync
    | some w =>
      cases w with
      | info info => simpa [KeyHistory.step, KeyDb.step, hWrite] using hSync
      | row row c =>
        -- everything that is loaded is older now
        have hNext : h.step unmarshal (.saveWithoutKey p) =
            { h with db := h.db.step unmarshal (.saveWithoutKey p), saves := h.saves + 1 } := by
          simp [KeyHistory.step, hWrite]
        rw [hNext]
        refine ⟨fun q ch _ hLoaded => ?_, fun q w _ hBasis => ?_,
          fun q => Nat.le_succ_of_le (hSync.loaded q), fun q => Nat.le_succ_of_le (hSync.basis q)⟩
        · exact absurd hLoaded (Nat.ne_of_lt (Nat.lt_succ_of_le (hSync.loaded q)))
        · exact absurd hBasis (Nat.ne_of_lt (Nat.lt_succ_of_le (hSync.basis q)))

/-- **Disabled keys stay disabled until a call enables them, and selecting a key changes no
status**, in every run in which nobody saves a status between a load and the write of what was loaded. -/
theorem disabled_keys_stay (unmarshal : Unmarshal) {h : KeyHistory}
    (hReach : ((system unmarshal).only Current).Reach h) {a : KeyAct} (hCurrent : h.Current a) :
    Keeps unmarshal h.db a := by
  refine Sync.keeps ?_ hCurrent
  refine hReach.invariant ?_ ?_
  · rintro h ⟨stored, rfl⟩
    exact ⟨fun p ch hp => by simp at hp, fun p w hp => by simp at hp, fun _ => le_rfl,
      fun _ => le_rfl⟩
  · rintro h a t hSync ⟨hCurrent, rfl⟩
    exact hSync.step hCurrent

/-- A selection on an object that was loaded after the key was disabled. -/
def reloaded : KeyHistory :=
  [.load 0, .read 1 disableFirst, .saveWithoutKey 1, .load 0, .select 0].foldl
    (step fun _ => none) { db := { stored := pairChannel ∅ } }

theorem disabled_keys_stay_reloaded :
    (reloaded.db.writes 0).isSome = true ∧
      (reloaded.db.step (fun _ => none) (.saveChannelInfo 0)).stored.channelInfo.getStatus 0 =
        .autoDisabled := by
  have hNext {h : KeyHistory} (hReach : ((system fun _ => none).only Current).Reach h) (a : KeyAct)
      (hCurrent : h.Current a) : ((system fun _ => none).only Current).Reach
        (h.step (fun _ => none) a) := .step hReach ⟨hCurrent, rfl⟩
  have hRead := hNext (hNext (.init ⟨pairChannel ∅, rfl⟩) (.load 0) trivial) (.read 1 disableFirst)
    trivial
  have hSaved := hNext hRead (.saveWithoutKey 1) fun _ => by decide +kernel
  have hReach := hNext (hNext hSaved (.load 0) trivial) (.select 0) trivial
  have hKeeps := disabled_keys_stay _ hReach (a := .saveChannelInfo 0) fun _ => by decide +kernel
  exact ⟨by decide +kernel, (hKeeps.selecting 0 (.inr (.inr rfl)) 0).trans (by decide +kernel)⟩

end KeyHistory

namespace KeyDb

def lateSelection : List KeyAct :=
  [.load 0, .read 1 disableFirst, .saveWithoutKey 1, .select 0]

def pairDb : KeyDb := { stored := pairChannel ∅ }

def lateDb : KeyDb := lateSelection.foldl (step fun _ => none) pairDb

/-- **The selection enables the key again**: it writes back the list from before. -/
theorem late_selection_enables_key :
    lateDb.stored.channelInfo.getStatus 0 = .autoDisabled ∧
      (lateDb.step (fun _ => none) (.saveChannelInfo 0)).stored.channelInfo.getStatus 0 =
        .enabled ∧
      ¬ ∀ m ∈ moves (step fun _ => none) pairDb (lateSelection ++ [.saveChannelInfo 0]),
        Keeps (fun _ => none) m.1 m.2 := by
  have hOff : lateDb.stored.channelInfo.getStatus 0 = .autoDisabled := by decide +kernel
  have hOn : (lateDb.step (fun _ => none) (.saveChannelInfo 0)).stored.channelInfo.getStatus 0 =
      .enabled := by decide +kernel
  refine ⟨hOff, hOn, fun hAll => ?_⟩
  have hMove := mem_moves_append (step fun _ => none) lateSelection (.saveChannelInfo 0) [] pairDb
  have hSame := (hAll _ hMove).selecting 0 (.inr (.inr rfl)) 0
  rw [← lateDb] at hSame
  cases hSame

end KeyDb

end NewApi.Channels
