import NewApi.Core.Run
import NewApi.Core.Table
import NewApi.Go.Strings
import NewApi.Go.Time

/-!
# Two-factor codes

The two `Validate…AndUpdateUsage` check a code on a copy of the row that their caller has loaded,
and save the whole copy.  Each statement is one step, and calls may interleave.
-/

namespace NewApi.Account

open Core List

/-! ## Rows -/

def maxFailAttempts : Int := 5

def lockoutDuration : Int := 300

def backupCodeLength : Nat := 8

structure TwoFA where
  id : Int
  userId : Int
  secret : String
  isEnabled : Bool
  failedAttempts : Int
  lockedUntil : Option Go.Time
  lastUsedAt : Option Go.Time
  deriving DecidableEq

structure TwoFABackupCode where
  id : Int
  userId : Int
  codeHash : String
  isUsed : Bool
  usedAt : Option Go.Time
  deleted : Bool
  deriving DecidableEq

instance : Row TwoFABackupCode := ⟨TwoFABackupCode.id⟩

namespace TwoFA

def isLocked (t : TwoFA) (now : Go.Time) : Bool :=
  match t.lockedUntil with
  | none => false
  | some u => now.nanos < u.nanos

def incremented (t : TwoFA) (now : Go.Time) : TwoFA :=
  let failedAttempts := t.failedAttempts + 1
  { t with
    failedAttempts := failedAttempts
    lockedUntil :=
      if failedAttempts ≥ maxFailAttempts then
        some (now.add (Go.duration lockoutDuration Go.nanosPerSecond))
      else t.lockedUntil }

def reset (t : TwoFA) (now : Go.Time) : TwoFA :=
  { t with failedAttempts := 0, lockedUntil := none, lastUsedAt := some now }

end TwoFA

/-! ## Codes -/

structure Codes where
  toUpper : String → String
  totpValidate : String → String → Go.Time → Bool
  validatePasswordAndHash : String → String → Bool

namespace Codes

variable (env : Codes)

def validateTOTPCode (secret code : String) (now : Go.Time) : Bool :=
  let cleanCode := Go.replaceAll code " " ""
  if cleanCode.utf8ByteSize ≠ 6 then false else env.totpValidate cleanCode secret now

def cleanBackupCode (code : String) : String := env.toUpper (Go.replaceAll code "-" "")

def validateBackupCode (code : String) : Bool :=
  (env.cleanBackupCode code).utf8ByteSize = backupCodeLength &&
    (env.cleanBackupCode code).toList.all fun char =>
      ('A' ≤ char && char ≤ 'Z') || ('0' ≤ char && char ≤ '9')

def normalizeBackupCode (code : String) : String :=
  let cleanCode := env.cleanBackupCode code
  if cleanCode.utf8ByteSize = backupCodeLength then
    String.ofList (cleanCode.toList.take 4 ++ '-' :: cleanCode.toList.drop 4)
  else code

def findBackupCode (codes : Table TwoFABackupCode) (userId : Int) (code : String) :
    Option TwoFABackupCode :=
  (codes.rows.filter fun bc => bc.userId = userId && !bc.isUsed && !bc.deleted).find? fun bc =>
    env.validatePasswordAndHash (env.normalizeBackupCode code) bc.codeHash

variable {env}

theorem findBackupCode_spec {codes : Table TwoFABackupCode} {userId : Int} {code : String}
    {bc : TwoFABackupCode} (h : env.findBackupCode codes userId code = some bc) :
    codes.find? bc.id = some bc ∧ bc.isUsed = false := by
  have hMem := mem_of_find?_eq_some h
  rw [mem_filter] at hMem
  obtain ⟨hRow, hUnused⟩ := hMem
  simp only [Bool.and_eq_true, Bool.not_eq_true'] at hUnused
  exact ⟨Table.find?_eq_some.mpr ⟨hRow, rfl⟩, hUnused.1.2⟩

end Codes

/-! ## Calls -/

inductive Call where
  | totp (code : String)
  | backup (code : String)

inductive Outcome where
  | answered (valid : Bool)
  | locked
  /-- 验证码或备用码不正确. -/
  | malformed
  deriving DecidableEq

inductive Phase where
  | idle
  | loaded (t : TwoFA)
  /-- A backup code matches and is about to be saved as used. -/
  | matched (t : TwoFA) (bc : TwoFABackupCode)
  | saving (t : TwoFA) (valid : Bool)
  | done (outcome : Outcome)

def Phase.code? : Phase → Option TwoFABackupCode
  | .idle => none
  | .loaded _ => none
  | .matched _ bc => some bc
  | .saving .. => none
  | .done _ => none

def Phase.UnderWay : Phase → Prop
  | .idle => False
  | .loaded _ => True
  | .matched .. => True
  | .saving .. => True
  | .done _ => False

structure State where
  row : TwoFA
  codes : Table TwoFABackupCode
  phase : Nat → Phase
  /-- The backup codes that were accepted, one entry for each time. -/
  accepted : List Int
  /-- How many wrong codes were evaluated since a code was last accepted. -/
  wrong : Nat

inductive Act where
  | load (p : Nat)
  /-- The check of the lock and of the code; for a backup code this reads the unused ones. -/
  | evaluate (p : Nat) (now : Go.Time)
  | saveCode (p : Nat) (now : Go.Time)
  | save (p : Nat)

namespace State

def set (s : State) (p : Nat) (phase : Phase) : State :=
  { s with phase := Function.update s.phase p phase }

def fail (s : State) (p : Nat) (t : TwoFA) (now : Go.Time) : State :=
  { s.set p (.saving (t.incremented now) false) with wrong := s.wrong + 1 }

def check (env : Codes) (s : State) (p : Nat) (t : TwoFA) (now : Go.Time) : Call → State
  | .totp code =>
    if env.validateTOTPCode t.secret code now then
      { s.set p (.saving (t.reset now) true) with wrong := 0 }
    else s.fail p t now
  | .backup code =>
    if !env.validateBackupCode code then s.set p (.done .malformed)
    else
      match env.findBackupCode s.codes t.userId code with
      | some bc => s.set p (.matched t bc)
      | none => s.fail p t now

def step (env : Codes) (calls : Nat → Call) (s : State) : Act → State
  | .load p =>
    match s.phase p with
    | .idle => s.set p (.loaded s.row)
    | _ => s
  | .evaluate p now =>
    match s.phase p with
    | .loaded t =>
      if t.isLocked now then s.set p (.done .locked) else s.check env p t now (calls p)
    | _ => s
  | .saveCode p now =>
    match s.phase p with
    | .matched t bc =>
      { s.set p (.saving (t.reset now) true) with
        codes := s.codes.save { bc with isUsed := true, usedAt := some now }
        accepted := s.accepted ++ [bc.id]
        wrong := 0 }
    | _ => s
  | .save p =>
    match s.phase p with
    | .saving t valid =>
      -- a copy without an id is not saved, which is only logged
      { s.set p (.done (.answered valid)) with row := if t.id = 0 then s.row else t }
    | _ => s

def start (row : TwoFA) (codes : Table TwoFABackupCode) : State :=
  ⟨row, codes, fun _ => .idle, [], 0⟩

variable {env : Codes} {calls : Nat → Call} {s : State} {row : TwoFA}
  {codes : Table TwoFABackupCode}

inductive Moved (s : State) : Act → State → Prop
  | wait {a : Act} (hWait : ∀ p now, a = .saveCode p now → (s.phase p).code? = none) : Moved s a s
  | load {p : Nat} (hPhase : s.phase p = .idle) : Moved s (.load p) (s.set p (.loaded s.row))
  | lock {p : Nat} {now : Go.Time} {t : TwoFA} (hPhase : s.phase p = .loaded t)
      (hLocked : t.isLocked now = true) : Moved s (.evaluate p now) (s.set p (.done .locked))
  | reject {p : Nat} {now : Go.Time} {t : TwoFA} (hPhase : s.phase p = .loaded t)
      (hOpen : t.isLocked now = false) : Moved s (.evaluate p now) (s.set p (.done .malformed))
  | fail {p : Nat} {now : Go.Time} {t : TwoFA} (hPhase : s.phase p = .loaded t)
      (hOpen : t.isLocked now = false) : Moved s (.evaluate p now) (s.fail p t now)
  | accept {p : Nat} {now : Go.Time} {t : TwoFA} (hPhase : s.phase p = .loaded t)
      (hOpen : t.isLocked now = false) :
      Moved s (.evaluate p now) { s.set p (.saving (t.reset now) true) with wrong := 0 }
  | find {p : Nat} {now : Go.Time} {t : TwoFA} {bc : TwoFABackupCode}
      (hPhase : s.phase p = .loaded t) (hOpen : t.isLocked now = false)
      (hFound : s.codes.find? bc.id = some bc) (hUnused : bc.isUsed = false) :
      Moved s (.evaluate p now) (s.set p (.matched t bc))
  | spend {p : Nat} {now : Go.Time} {t : TwoFA} {bc : TwoFABackupCode}
      (hPhase : s.phase p = .matched t bc) :
      Moved s (.saveCode p now) { s.set p (.saving (t.reset now) true) with
        codes := s.codes.save { bc with isUsed := true, usedAt := some now }
        accepted := s.accepted ++ [bc.id]
        wrong := 0 }
  | save {p : Nat} {t : TwoFA} {valid : Bool} (hPhase : s.phase p = .saving t valid) :
      Moved s (.save p) { s.set p (.done (.answered valid)) with
        row := if t.id = 0 then s.row else t }

variable {t : State} {p : Nat} {now : Go.Time} {a : Act}

theorem check_moved {t : TwoFA} (hPhase : s.phase p = .loaded t) (hOpen : t.isLocked now = false)
    (call : Call) :
    s.Moved (.evaluate p now) (s.check env p t now call) := by
  cases call with rw [check]
  | totp code =>
    split
    · exact .accept hPhase hOpen
    · exact .fail hPhase hOpen
  | backup code =>
    split
    · exact .reject hPhase hOpen
    cases hFind : env.findBackupCode s.codes t.userId code with
    | none => exact .fail hPhase hOpen
    | some bc =>
      obtain ⟨hFound, hUnused⟩ := Codes.findBackupCode_spec hFind
      exact .find hPhase hOpen hFound hUnused

theorem step_moved (env : Codes) (calls : Nat → Call) (s : State) (a : Act) :
    s.Moved a (s.step env calls a) := by
  cases a with
  | load p =>
    cases hPhase : s.phase p <;> simp only [step, hPhase]
    case idle => exact .load hPhase
    all_goals exact .wait nofun
  | evaluate p now =>
    cases hPhase : s.phase p <;> simp only [step, hPhase]
    case loaded t =>
      cases hLocked : t.isLocked now with
      | true => exact .lock hPhase hLocked
      | false => exact check_moved hPhase hLocked (calls p)
    all_goals exact .wait nofun
  | saveCode p now =>
    cases hPhase : s.phase p <;> simp only [step, hPhase]
    case matched t bc => exact .spend hPhase
    all_goals
      refine .wait fun q now' hAct => ?_
      rw [← (Act.saveCode.inj hAct).1, hPhase]
      rfl
  | save p =>
    cases hPhase : s.phase p <;> simp only [step, hPhase]
    case saving t valid => exact .save hPhase
    all_goals exact .wait nofun

@[simp] theorem set_phase_self (s : State) (p : Nat) (new : Phase) :
    (s.set p new).phase p = new := Function.update_self ..

theorem set_phase_of_ne (s : State) {p q : Nat} (new : Phase) (h : q ≠ p) :
    (s.set p new).phase q = s.phase q := Function.update_of_ne h ..

/-! ## Backup codes -/

def Unspent (s : State) : Act → Prop
  | .saveCode p _ => ∀ bc, (s.phase p).code? = some bc →
      ∃ stored, s.codes.find? bc.id = some stored ∧ stored.isUsed = false
  | _ => True

structure Tracked (codes : Table TwoFABackupCode) (s : State) : Prop where
  untouched : ∀ id, id ∉ s.accepted → s.codes.find? id = codes.find? id
  used : ∀ id ∈ s.accepted, ∃ bc, s.codes.find? id = some bc ∧ bc.isUsed = true
  matched : ∀ p bc, (s.phase p).code? = some bc →
    ∃ first, codes.find? bc.id = some first ∧ first.isUsed = false

theorem code_of_set {p q : Nat} (new : Phase) (hNew : new.code? = none) {bc : TwoFABackupCode}
    (h : ((s.set p new).phase q).code? = some bc) : (s.phase q).code? = some bc := by
  rcases eq_or_ne q p with rfl | hne
  · rw [set_phase_self, hNew] at h
    cases h
  · rwa [set_phase_of_ne s new hne] at h

theorem Tracked.quiet (h : s.Tracked codes) (new : Phase) (hNew : new.code? = none)
    (hPhase : t.phase = (s.set p new).phase) (hCodes : t.codes = s.codes)
    (hAccepted : t.accepted = s.accepted) : t.Tracked codes := by
  refine ⟨?_, ?_, fun q bc hCode => ?_⟩
  · rw [hCodes, hAccepted]
    exact h.untouched
  · rw [hCodes, hAccepted]
    exact h.used
  · rw [hPhase] at hCode
    exact h.matched q bc (code_of_set new hNew hCode)

theorem Tracked.moved (h : s.Tracked codes) (m : s.Moved a t) :
    t.Tracked codes := by
  cases m with
  | wait => exact h
  | load => exact h.quiet (.loaded _) rfl rfl rfl rfl
  | lock | reject => exact h.quiet (.done _) rfl rfl rfl rfl
  | fail | accept => exact h.quiet (.saving ..) rfl rfl rfl rfl
  | save => exact h.quiet (.done _) rfl rfl rfl rfl
  | @find p now c bc hPhase hOpen hFound hUnused =>
    refine ⟨h.untouched, h.used, fun q bc' hCode => ?_⟩
    rcases eq_or_ne q p with rfl | hne
    · rw [set_phase_self] at hCode
      obtain rfl : bc = bc' := Option.some.inj hCode
      refine ⟨bc, ?_, hUnused⟩
      -- an accepted code would be stored as used
      rw [← h.untouched bc.id, hFound]
      intro hMem
      obtain ⟨stored, hStored, hUsed⟩ := h.used bc.id hMem
      rw [hFound] at hStored
      rw [← Option.some.inj hStored, hUnused] at hUsed
      cases hUsed
    · rw [set_phase_of_ne s _ hne] at hCode
      exact h.matched q bc' hCode
  | @spend p now c bc hPhase =>
    obtain ⟨stored, hStored⟩ : ∃ stored, s.codes.find? bc.id = some stored := by
      by_cases hMem : bc.id ∈ s.accepted
      · obtain ⟨stored, hStored, -⟩ := h.used bc.id hMem
        exact ⟨stored, hStored⟩
      · obtain ⟨first, hFirst, -⟩ := h.matched p bc (by rw [hPhase]; rfl)
        exact ⟨first, by rw [h.untouched bc.id hMem, hFirst]⟩
    refine ⟨fun id hId => ?_, fun id hId => ?_, fun q bc' hCode => ?_⟩
    · rw [mem_append, not_or, mem_singleton] at hId
      rw [← h.untouched id hId.1]
      exact Table.find?_save_of_ne (fun hEq => hId.2 hEq.symm)
    · rcases eq_or_ne id bc.id with rfl | hne
      · have hSelf : (s.codes.save { bc with isUsed := true, usedAt := some now }).find? bc.id =
            some { bc with isUsed := true, usedAt := some now } := Table.find?_save_self hStored
        exact ⟨_, hSelf, rfl⟩
      have hOld : id ∈ s.accepted := by
        rcases mem_append.mp hId with hOld | hNew
        · exact hOld
        · exact absurd (mem_singleton.mp hNew) hne
      obtain ⟨old, hFind, hUsed⟩ := h.used id hOld
      exact ⟨old, (Table.find?_save_of_ne fun hEq => hne hEq.symm).trans hFind, hUsed⟩
    · exact h.matched q bc' (code_of_set (p := p) (.saving ..) rfl hCode)

theorem Tracked.nodup_iff (h : s.Tracked codes) (hNodup : s.accepted.Nodup) (m : s.Moved a t) :
    t.accepted.Nodup ↔ s.Unspent a := by
  cases m with
  | wait hWait =>
    refine iff_of_true hNodup ?_
    cases a with
    | saveCode p now =>
      intro bc hCode
      rw [hWait p now rfl] at hCode
      cases hCode
    | _ => trivial
  | load | lock | reject | fail | accept | find | save => exact iff_of_true hNodup trivial
  | @spend p now c bc hPhase =>
    have hUnspent : s.Unspent (.saveCode p now) ↔
        ∃ stored, s.codes.find? bc.id = some stored ∧ stored.isUsed = false := by
      simp only [Unspent, hPhase, Phase.code?, Option.some_inj, forall_eq']
    rw [hUnspent, nodup_append]
    by_cases hMem : bc.id ∈ s.accepted
    · refine iff_of_false (fun hAll => hAll.2.2 bc.id hMem bc.id mem_cons_self rfl) ?_
      rintro ⟨stored, hStored, hUnused⟩
      obtain ⟨used, hFind, hUsed⟩ := h.used bc.id hMem
      rw [hStored] at hFind
      rw [Option.some.inj hFind, hUsed] at hUnused
      cases hUnused
    · refine iff_of_true ⟨hNodup, nodup_singleton _, fun x hx y hy => ?_⟩ ?_
      · rw [mem_singleton.mp hy]
        exact fun hEq => hMem (hEq ▸ hx)
      · rw [h.untouched bc.id hMem]
        exact h.matched p bc (by rw [hPhase]; rfl)

/-- **No backup code is accepted twice** exactly if each is unused when it is saved as used. -/
theorem accepted_nodup_iff (env : Codes) (calls : Nat → Call) (row : TwoFA)
    (codes : Table TwoFABackupCode) (acts : List Act) :
    (∀ t ∈ states (step env calls) (start row codes) acts, t.accepted.Nodup) ↔
      ∀ m ∈ moves (step env calls) (start row codes) acts, m.1.Unspent m.2 :=
  states_forall_iff (step env calls) (I := fun s => s.Tracked codes)
    (P := fun s => s.accepted.Nodup) (G := fun s a => s.Unspent a)
    (fun s a h => h.moved (step_moved env calls s a))
    (fun s a h hNodup => h.nodup_iff hNodup (step_moved env calls s a)) acts _
    ⟨fun _ _ => rfl, forall_mem_nil _, nofun⟩ nodup_nil

/-- **The table of backup codes records what was accepted**: these codes are used, and no other row
has changed, also where calls overlap. -/
theorem accepted_recorded (env : Codes) (calls : Nat → Call) (row : TwoFA)
    (codes : Table TwoFABackupCode) (acts : List Act) :
    let s := acts.foldl (step env calls) (start row codes)
    (∀ id ∈ s.accepted, ∃ bc, s.codes.find? id = some bc ∧ bc.isUsed = true) ∧
      ∀ id, id ∉ s.accepted → s.codes.find? id = codes.find? id := by
  intro s
  have hStart : (start row codes).Tracked codes := ⟨fun _ _ => rfl, nofun, nofun⟩
  have hTracked : s.Tracked codes :=
    List.foldlRecOn acts _ (motive := State.Tracked codes) hStart
      fun t h a _ => h.moved (step_moved env calls t a)
  exact ⟨hTracked.used, hTracked.untouched⟩

/-! ## Calls that do not overlap -/

/-- A call begins only while no other is under way. -/
def Alone (s : State) : Act → Prop
  | .load p => ∀ q ≠ p, ¬ (s.phase q).UnderWay
  | _ => True

def LockedAt (times : List Go.Time) (row : TwoFA) : Prop := ∀ t ∈ times, row.isLocked t = true

/-- A row that counts `wrong` wrong codes, and is locked if these have reached the limit. -/
structure Counts (times : List Go.Time) (wrong : Nat) (row : TwoFA) : Prop where
  id_ne : row.id ≠ 0
  nonneg : 0 ≤ row.failedAttempts
  counted : wrong ≤ row.failedAttempts
  locked : 0 < wrong → maxFailAttempts ≤ row.failedAttempts → LockedAt times row

/-- What is known while the only call that may be under way is in a phase. -/
def InCall (times : List Go.Time) (s : State) : Phase → Prop
  | .idle => Counts times s.wrong s.row
  | .loaded t => t = s.row ∧ Counts times s.wrong s.row
  | .matched t bc => t = s.row ∧ Counts times s.wrong s.row ∧
      s.codes.find? bc.id = some bc ∧ bc.isUsed = false
  | .saving t _ => Counts times s.wrong t
  | .done _ => Counts times s.wrong s.row

/-- **The invariant** of calls that do not overlap. -/
structure Counted (times : List Go.Time) (s : State) : Prop where
  bound : s.wrong ≤ maxFailAttempts
  single : ∃ p, (∀ q ≠ p, ¬ (s.phase q).UnderWay) ∧ InCall times s (s.phase p)

variable {times : List Go.Time} {wrong : Nat}

theorem Counted.inCall (h : s.Counted times) {phase : Phase} (hPhase : s.phase p = phase)
    (hUnder : phase.UnderWay) :
    (∀ q ≠ p, ¬ (s.phase q).UnderWay) ∧ InCall times s phase := by
  subst hPhase
  obtain ⟨p', hOthers, hCall⟩ := h.single
  rcases eq_or_ne p p' with rfl | hne
  · exact ⟨hOthers, hCall⟩
  · exact absurd hUnder (hOthers p hne)

theorem Counted.counts (h : s.Counted times) (hNone : ∀ p, ¬ (s.phase p).UnderWay) :
    Counts times s.wrong s.row := by
  obtain ⟨p, -, hCall⟩ := h.single
  cases hPhase : s.phase p with
  | idle | done outcome =>
    rw [hPhase] at hCall
    exact hCall
  | _ => exact absurd (by rw [hPhase]; trivial) (hNone p)

theorem counted_of_set (new : Phase) (hBound : t.wrong ≤ maxFailAttempts)
    (hOthers : ∀ q ≠ p, ¬ (s.phase q).UnderWay) (hPhase : t.phase = (s.set p new).phase)
    (hCall : InCall times t new) : t.Counted times := by
  refine ⟨hBound, p, fun q hne => ?_, ?_⟩
  · rw [hPhase, set_phase_of_ne s new hne]
    exact hOthers q hne
  · rw [hPhase, set_phase_self]
    exact hCall

/-- The times of a run are less than the lockout apart. -/
def OnePeriod (times : List Go.Time) : Prop :=
  ∀ t ∈ times, ∀ u ∈ times, u.nanos < t.nanos + lockoutDuration * Go.nanosPerSecond

section

variable (h : Counts times wrong row)
include h

theorem Counts.few (hNow : now ∈ times) (hOpen : row.isLocked now = false) :
    (wrong : Int) + 1 ≤ maxFailAttempts := by
  rcases Nat.eq_zero_or_pos wrong with rfl | hPos
  · decide
  have hLess : row.failedAttempts < maxFailAttempts := by
    by_contra hMany
    have hLocked := h.locked hPos (by omega) now hNow
    rw [hOpen] at hLocked
    cases hLocked
  have hCounted := h.counted
  omega

theorem Counts.lockedAt (hMax : (wrong : Int) = maxFailAttempts) :
    LockedAt times row := by
  have hCounted := h.counted
  refine h.locked ?_ (by omega)
  rw [maxFailAttempts] at hMax
  omega

theorem Counts.incremented (hPeriod : OnePeriod times) (hNow : now ∈ times) :
    Counts times (wrong + 1) (row.incremented now) := by
  have hCounted := h.counted
  refine ⟨h.id_ne, ?_, ?_, fun _ hMany t ht => ?_⟩
  · show 0 ≤ row.failedAttempts + 1
    omega
  · show ((wrong + 1 : Nat) : Int) ≤ row.failedAttempts + 1
    omega
  have hLock : (row.incremented now).lockedUntil =
      some (now.add (Go.duration lockoutDuration Go.nanosPerSecond)) := if_pos hMany
  have hDuration : Go.duration lockoutDuration Go.nanosPerSecond =
      lockoutDuration * Go.nanosPerSecond := by decide
  have hBefore := hPeriod now hNow t ht
  rw [TwoFA.isLocked, hLock]
  exact decide_eq_true hBefore

theorem Counts.reset :
    Counts times 0 (row.reset now) :=
  ⟨h.id_ne, Int.le_refl 0, Int.le_refl 0, fun hPos => absurd hPos (Nat.lt_irrefl 0)⟩

end

theorem zero_le_max : ((0 : Nat) : Int) ≤ maxFailAttempts := by decide

theorem Counted.moved (h : s.Counted times) (hPeriod : OnePeriod times)
    (hTimes : ∀ p now, a = .evaluate p now → now ∈ times) (hAlone : s.Alone a) (m : s.Moved a t) :
    t.Counted times := by
  cases m with
  | wait => exact h
  | @load p hPhase =>
    have hNone : ∀ q, ¬ (s.phase q).UnderWay := fun q => by
      rcases eq_or_ne q p with rfl | hne
      · rw [hPhase]
        exact id
      · exact hAlone q hne
    exact counted_of_set _ h.bound hAlone rfl ⟨rfl, h.counts hNone⟩
  | @lock p now c hPhase hLocked =>
    obtain ⟨hOthers, hCall⟩ := h.inCall hPhase trivial
    exact counted_of_set (.done .locked) h.bound hOthers rfl hCall.2
  | @reject p now c hPhase hOpen =>
    obtain ⟨hOthers, hCall⟩ := h.inCall hPhase trivial
    exact counted_of_set (.done .malformed) h.bound hOthers rfl hCall.2
  | @fail p now c hPhase hOpen =>
    obtain ⟨hOthers, hCall⟩ := h.inCall hPhase trivial
    obtain ⟨rfl, hCounts⟩ := hCall
    have hNow := hTimes p now rfl
    refine counted_of_set _ ?_ hOthers rfl (hCounts.incremented hPeriod hNow)
    exact_mod_cast hCounts.few hNow hOpen
  | @accept p now c hPhase hOpen =>
    obtain ⟨hOthers, hCall⟩ := h.inCall hPhase trivial
    obtain ⟨rfl, hCounts⟩ := hCall
    exact counted_of_set (.saving (s.row.reset now) true) zero_le_max hOthers rfl
      hCounts.reset
  | @find p now c bc hPhase hOpen hFound hUnused =>
    obtain ⟨hOthers, hCall⟩ := h.inCall hPhase trivial
    exact counted_of_set _ h.bound hOthers rfl ⟨hCall.1, hCall.2, hFound, hUnused⟩
  | @spend p now c bc hPhase =>
    obtain ⟨hOthers, hCall⟩ := h.inCall hPhase trivial
    obtain ⟨rfl, hCounts, -, -⟩ := hCall
    exact counted_of_set (.saving (s.row.reset now) true) zero_le_max hOthers rfl
      hCounts.reset
  | @save p c valid hPhase =>
    obtain ⟨hOthers, hCall⟩ := h.inCall hPhase trivial
    refine counted_of_set (.done (.answered valid)) h.bound hOthers rfl ?_
    rw [if_neg hCall.id_ne]
    exact hCall

theorem Counted.unspent (h : s.Counted times) (a : Act) : s.Unspent a := by
  cases a with
  | saveCode p now =>
    intro bc hCode
    cases hPhase : s.phase p with
    | matched t bc' =>
      obtain ⟨-, hCall⟩ := h.inCall hPhase trivial
      rw [hPhase] at hCode
      obtain rfl : bc' = bc := Option.some.inj hCode
      exact ⟨bc', hCall.2.2.1, hCall.2.2.2⟩
    | _ =>
      rw [hPhase] at hCode
      cases hCode
  | _ => trivial

def evaluations (acts : List Act) : List Go.Time :=
  acts.filterMap fun a =>
    match a with
    | .evaluate _ now => some now
    | _ => none

theorem Counted.moves (h : s.Counted times) (hPeriod : OnePeriod times) (acts : List Act)
    (hTimes : ∀ now ∈ evaluations acts, now ∈ times)
    (hAlone : ∀ m ∈ moves (step env calls) s acts, m.1.Alone m.2) :
    ∀ m ∈ moves (step env calls) s acts, m.1.Counted times := by
  induction acts generalizing s with
  | nil => exact forall_mem_nil _
  | cons a acts ih =>
    rw [Core.moves_cons, forall_mem_cons] at hAlone
    have hNext : (s.step env calls a).Counted times := by
      refine h.moved hPeriod (fun p now hAct => hTimes now ?_) hAlone.1 (step_moved env calls s a)
      obtain rfl : a = .evaluate p now := hAct
      exact mem_cons_self
    rw [Core.moves_cons, forall_mem_cons]
    refine ⟨h, ih hNext (fun now hNow => hTimes now ?_) hAlone.2⟩
    rw [evaluations, filterMap_cons]
    split
    · exact hNow
    · exact mem_cons_of_mem _ hNow

theorem counted_start {row : TwoFA} (codes : Table TwoFABackupCode) (hId : row.id ≠ 0)
    (hFailed : 0 ≤ row.failedAttempts) : (start row codes).Counted times :=
  ⟨zero_le_max, 0, fun _ _ => id, hId, hFailed, hFailed, fun hPos => absurd hPos (Nat.lt_irrefl 0)⟩

/-- **The bounds on codes**, for backup codes in any run, and for wrong ones where no calls overlap.
-/
theorem two_factor_bounds (env : Codes) (calls : Nat → Call) (row : TwoFA)
    (codes : Table TwoFABackupCode) (acts : List Act) :
    ((∀ t ∈ states (step env calls) (start row codes) acts, t.accepted.Nodup) ↔
      ∀ m ∈ moves (step env calls) (start row codes) acts, m.1.Unspent m.2) ∧
    (row.id ≠ 0 → 0 ≤ row.failedAttempts → OnePeriod (evaluations acts) →
      (∀ m ∈ moves (step env calls) (start row codes) acts, m.1.Alone m.2) →
      (∀ t ∈ states (step env calls) (start row codes) acts, t.accepted.Nodup) ∧
      ∀ m ∈ moves (step env calls) (start row codes) acts, m.1.wrong ≤ maxFailAttempts ∧
        (m.1.wrong = maxFailAttempts → ∀ p now t, m.2 = .evaluate p now →
          m.1.phase p = .loaded t → (m.1.step env calls m.2).phase p = .done .locked)) := by
  have hExact := accepted_nodup_iff env calls row codes acts
  refine ⟨hExact, fun hId hFailed hPeriod hAlone => ?_⟩
  have hCounted := (counted_start codes hId hFailed).moves hPeriod acts
    (fun _ h => h) hAlone
  refine ⟨hExact.mpr fun m hm => (hCounted m hm).unspent m.2, fun m hm => ?_⟩
  refine ⟨(hCounted m hm).bound, fun hMax p now t hAct hPhase => ?_⟩
  obtain ⟨-, hCall⟩ := (hCounted m hm).inCall hPhase trivial
  obtain ⟨rfl, hCounts⟩ := hCall
  have hNow : now ∈ evaluations acts := by
    have hMem : m.2 ∈ acts := by
      rw [← map_id acts, ← map_moves_snd (step env calls) id acts (start row codes)]
      exact mem_map_of_mem hm
    exact mem_filterMap.mpr ⟨m.2, hMem, by rw [hAct]⟩
  rw [hAct, step, hPhase]
  simp only [hCounts.lockedAt hMax now hNow, if_true, set_phase_self]

def sampleCodes : Codes := ⟨id, fun _ _ _ => false, fun _ _ => true⟩

def sampleRow : TwoFA := ⟨1, 7, "secret", true, 0, none, none⟩

def oneCode : Table TwoFABackupCode :=
  Table.empty.insert (fun id => ⟨id, 7, "hash", false, none, false⟩) fun _ => rfl

/-- Two wrong codes, one after the other. -/
def wrongInTurn : List Act :=
  [.load 0, .evaluate 0 ⟨0⟩, .save 0, .load 1, .evaluate 1 ⟨5⟩, .save 1]

theorem two_factor_bounds_inTurn :
    ∀ m ∈ moves (step sampleCodes fun _ => .totp "123456") (start sampleRow oneCode) wrongInTurn,
      m.1.wrong ≤ maxFailAttempts := by
  refine fun m hm => (((two_factor_bounds sampleCodes (fun _ => .totp "123456") sampleRow oneCode
    wrongInTurn).2 (by decide) (by decide) (by unfold OnePeriod; decide) ?_).2 m hm).1
  simp only [wrongInTurn, moves, forall_mem_cons]
  refine ⟨fun q _ => id, trivial, trivial, ?_, trivial, trivial, forall_mem_nil _⟩
  -- the first call is over, and nobody else has begun
  rintro (_ | q) _ <;> exact id

def twoBackups : State :=
  [Act.load 0, .load 1, .evaluate 0 ⟨0⟩, .evaluate 1 ⟨0⟩, .saveCode 0 ⟨0⟩, .saveCode 1 ⟨0⟩, .save 0,
    .save 1].foldl (step sampleCodes fun _ => .backup "ABCD-1234")
    (start sampleRow oneCode)

def sixWrong : State :=
  ((List.range 6).map Act.load ++ (List.range 6).map (fun p => Act.evaluate p ⟨0⟩) ++
    (List.range 6).map Act.save).foldl (step sampleCodes fun _ => .totp "123456")
    (start sampleRow oneCode)

/-- **Both bounds fail** for calls that overlap: six wrong codes leave a row that counts one. -/
theorem two_factor_overlap :
    twoBackups.accepted = [1, 1] ∧ sixWrong.wrong = 6 ∧
      sixWrong.row = { sampleRow with failedAttempts := 1 } := by
  decide +kernel

end State

end NewApi.Account
