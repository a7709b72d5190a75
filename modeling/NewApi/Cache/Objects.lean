import Mathlib.Data.List.Nodup
import NewApi.Core.Run
import NewApi.Redis.Hash

/-!
# Users and tokens in Redis

A user or a token is cached as a hash.  `RedisHIncrBy` and `RedisHSetField` ask for its lifetime
first and then change one field.  If the key is gone by then, this makes a hash with a single field
(`whole_iff`).
-/

namespace NewApi.Cache

open Core Redis List Option Function

/-! ## Records -/

/-- The types of fields that occur; the time of a `gorm.DeletedAt` is in seconds. -/
inductive FieldKind where
  | string
  | int
  | bool
  | stringPtr
  | deletedAt
  deriving DecidableEq, Repr

namespace FieldKind

def Value : FieldKind → Type
  | string => String
  | int => Int64
  | bool => Bool
  | stringPtr => Option String
  | deletedAt => Option Int

def zero : (kind : FieldKind) → kind.Value
  | string => ""
  | int => (0 : Int64)
  | bool => false
  | stringPtr => (none : Option String)
  | deletedAt => (none : Option Int)

/-- What `RedisHSetObj` stores for a value; a `gorm.DeletedAt` is skipped. -/
def format : (kind : FieldKind) → kind.Value → Option String
  | string, (s : String) => some s
  | int, (i : Int64) => some (toString i.toInt)
  | bool, (b : Bool) => some (if b then "true" else "false")
  | stringPtr, (p : Option String) => some (p.getD "")
  | deletedAt, _ => none

/-- What `RedisHGetObj` makes of a stored text, given the value that the field has. -/
def load (parseTime : String → Option Int) :
    (kind : FieldKind) → kind.Value → String → Option kind.Value
  | string, _, text => some text
  | int, _, text => (Go.parseInt text).map Int64.ofInt
  | bool, _, text => Go.parseBool text
  | stringPtr, (old : Option String), text => if text = "" then some old else some (some text)
  | deletedAt, (old : Option Int), text =>
    if text = "" then some old else (parseTime text).map some

/-- Every field but the deletion time is written. -/
def Written (kind : FieldKind) : Prop := kind ≠ deletedAt

instance (kind : FieldKind) : Decidable kind.Written := inferInstanceAs (Decidable (_ ≠ _))

theorem format_isSome {kind : FieldKind} (value : kind.Value) :
    (kind.format value).isSome = true ↔ kind.Written := by
  cases kind with
  | deletedAt => exact iff_of_false nofun (fun h => h rfl)
  | string | int | bool | stringPtr => exact iff_of_true rfl nofun

/-- What is left of a value: no time of a deletion and no pointer to an empty text. -/
def kept : (kind : FieldKind) → kind.Value → kind.Value
  | string, v | int, v | bool, v => v
  | stringPtr, (p : Option String) => if p = some "" then none else p
  | deletedAt, _ => (none : Option Int)

theorem load_format (parseTime : String → Option Int) (kind : FieldKind)
    (value : kind.Value) :
    (kind.format value).elim (some kind.zero) (kind.load parseTime kind.zero) =
      some (kind.kept value) := by
  cases kind with
  | string | deletedAt => rfl
  | int =>
    have hRange := And.intro (Int64.le_toInt value) (Int64.toInt_lt value)
    exact (congrArg (Option.map Int64.ofInt) (Go.parseInt_toString hRange)).trans
      (congrArg some (Int64.ofInt_toInt value))
  | bool => cases value <;> rfl
  | stringPtr =>
    rcases value with _ | text
    · rfl
    by_cases hText : text = ""
    · subst hText
      rfl
    · have hPtr : some text ≠ some "" := fun h => hText (some.inj h)
      exact (if_neg hText).trans (congrArg some (if_neg hPtr).symm)

end FieldKind

/-- A record type as `reflect` shows it: its fields in order, with their names and types. -/
class Reflected (F : Type) where
  fields : List F
  name : F → String
  kind : F → FieldKind
  mem_fields : ∀ f, f ∈ fields
  nodup_fields : fields.Nodup
  name_injective : Function.Injective name
  /-- No single field is all that is written. -/
  exists_other : ∀ n, ∃ f, (kind f).Written ∧ name f ≠ n

open Reflected

abbrev Object (F : Type) [Reflected F] := (f : F) → (kind f).Value

def zeroObject (F : Type) [Reflected F] : Object F := fun f => (kind f).zero

inductive UserBaseField where
  | id | group | email | quota | status | username | setting
  deriving DecidableEq, Repr

namespace UserBaseField

def all : List UserBaseField := [id, group, email, quota, status, username, setting]

def goName : UserBaseField → String
  | id => "Id"
  | group => "Group"
  | email => "Email"
  | quota => "Quota"
  | status => "Status"
  | username => "Username"
  | setting => "Setting"

def type : UserBaseField → FieldKind
  | id | quota | status => .int
  | group | email | username | setting => .string

theorem mem_all (f : UserBaseField) : f ∈ all := by cases f <;> decide

theorem goName_injective : Function.Injective goName := by
  intro f g h
  have hNodup : (all.map goName).Nodup := by decide
  exact inj_on_of_nodup_map hNodup (mem_all f) (mem_all g) h

theorem exists_other_name (n : String) : ∃ f, (type f).Written ∧ goName f ≠ n := by
  by_cases h : n = "Id"
  · exact ⟨status, by decide, by subst h; decide⟩
  · exact ⟨id, by decide, fun hn => h hn.symm⟩

instance : Reflected UserBaseField where
  fields := all
  name := goName
  kind := type
  mem_fields := mem_all
  nodup_fields := by decide
  name_injective := goName_injective
  exists_other := exists_other_name

end UserBaseField

abbrev UserBase := Object UserBaseField

inductive TokenField where
  | id | userId | key | status | name | createdTime | accessedTime | expiredTime | remainQuota
  | unlimitedQuota | modelLimitsEnabled | modelLimits | allowIps | usedQuota | group
  | crossGroupRetry | deletedAt
  deriving DecidableEq, Repr

namespace TokenField

def all : List TokenField :=
  [id, userId, key, status, name, createdTime, accessedTime, expiredTime, remainQuota,
    unlimitedQuota, modelLimitsEnabled, modelLimits, allowIps, usedQuota, group, crossGroupRetry,
    deletedAt]

def goName : TokenField → String
  | id => "Id"
  | userId => "UserId"
  | key => "Key"
  | status => "Status"
  | name => "Name"
  | createdTime => "CreatedTime"
  | accessedTime => "AccessedTime"
  | expiredTime => "ExpiredTime"
  | remainQuota => "RemainQuota"
  | unlimitedQuota => "UnlimitedQuota"
  | modelLimitsEnabled => "ModelLimitsEnabled"
  | modelLimits => "ModelLimits"
  | allowIps => "AllowIps"
  | usedQuota => "UsedQuota"
  | group => "Group"
  | crossGroupRetry => "CrossGroupRetry"
  | deletedAt => "DeletedAt"

def type : TokenField → FieldKind
  | id | userId | status | createdTime | accessedTime | expiredTime | remainQuota | usedQuota => .int
  | key | name | modelLimits | group => .string
  | unlimitedQuota | modelLimitsEnabled | crossGroupRetry => .bool
  | allowIps => .stringPtr
  | deletedAt => .deletedAt

theorem mem_all (f : TokenField) : f ∈ all := by cases f <;> decide

theorem goName_injective : Function.Injective goName := by
  intro f g h
  have hNodup : (all.map goName).Nodup := by decide
  exact inj_on_of_nodup_map hNodup (mem_all f) (mem_all g) h

theorem exists_other_name (n : String) : ∃ f, (type f).Written ∧ goName f ≠ n := by
  by_cases h : n = "Id"
  · exact ⟨status, by decide, by subst h; decide⟩
  · exact ⟨id, by decide, fun hn => h hn.symm⟩

instance : Reflected TokenField where
  fields := all
  name := goName
  kind := type
  mem_fields := mem_all
  nodup_fields := by decide
  name_injective := goName_injective
  exists_other := exists_other_name

end TokenField

abbrev Token := Object TokenField

/-! ## Writing and reading a record -/

section Record

variable {F : Type} [Reflected F]

def hSetData (obj : Object F) : List (String × String) :=
  (fields (F := F)).filterMap fun f => ((kind f).format (obj f)).map (name f, ·)

/-- The transaction; the lifetime is in seconds and is set only if it is positive. -/
def redisHSetObj (obj : Object F) (expiration : Int) : List Command :=
  .hSet (hSetData obj) :: if expiration > 0 then [.expire expiration.toNat] else []

inductive LoadError where
  /-- `key %s not found in Redis` -/
  | notFound
  /-- `failed to parse int field %s`, and so on -/
  | parse (kind : FieldKind) (field : String)
  deriving DecidableEq, Repr

theorem mem_hSetData_iff (obj : Object F) (f : F) :
    name f ∈ (hSetData obj).map Prod.fst ↔ (kind f).Written := by
  rw [List.mem_map]
  constructor
  · rintro ⟨entry, hMem, hName⟩
    obtain ⟨g, -, hEntry⟩ := mem_filterMap.mp hMem
    obtain ⟨text, hText, rfl⟩ := map_eq_some_iff.mp hEntry
    obtain rfl : g = f := name_injective hName
    exact (FieldKind.format_isSome (obj g)).mp (by rw [hText]; rfl)
  · intro hWritten
    obtain ⟨text, hText⟩ := isSome_iff_exists.mp ((FieldKind.format_isSome (obj f)).mpr hWritten)
    exact ⟨(name f, text), mem_filterMap.mpr ⟨f, mem_fields f, by rw [hText]; rfl⟩, rfl⟩

theorem hSetData_ne_nil (obj : Object F) : hSetData obj ≠ [] := by
  obtain ⟨f, hWritten, -⟩ := exists_other (F := F) ""
  intro hNil
  have hMem := (mem_hSetData_iff obj f).mpr hWritten
  rw [hNil] at hMem
  exact not_mem_nil hMem

theorem has_redisHSetObj (key : Key) (obj : Object F) (expiration : Int) {f : F}
    (hWritten : (kind f).Written) : (exec key (redisHSetObj obj expiration)).Has (name f) := by
  have hHSet : ((Command.hSet (hSetData obj)).run key).Has (name f) :=
    (has_hSet _ _ _ (hSetData_ne_nil obj)).mpr (.inl ((mem_hSetData_iff obj f).mpr hWritten))
  unfold redisHSetObj
  split
  · exact (has_expire _).mpr hHSet
  · exact hHSet

theorem setFields_written (obj : Object F) (f : F) {fs : List F} (field : String → Option String)
    (h : f ∈ fs ∨ field (name f) = ((kind f).format (obj f)).or (field (name f))) :
    setFields field (fs.filterMap fun g => ((kind g).format (obj g)).map (name g, ·)) (name f) =
      ((kind f).format (obj f)).or (field (name f)) := by
  induction fs generalizing field with
  | nil => exact h.resolve_left not_mem_nil
  | cons g rest ih =>
    cases hFormat : (kind g).format (obj g) with
    | none =>
      rw [filterMap_cons_none (by rw [hFormat]; rfl)]
      refine ih field (h.elim (fun hMem => (mem_cons.mp hMem).symm.imp_right ?_) .inr)
      rintro rfl
      rw [hFormat, none_or]
    | some text =>
      rw [filterMap_cons_some (b := (name g, text)) (by rw [hFormat]; rfl)]
      have hStep := ih (update field (name g) (some text))
      by_cases hName : f = g
      · subst hName
        rw [hFormat, some_or] at hStep ⊢
        exact hStep (.inr (update_self ..))
      · rw [update_of_ne (name_injective.ne hName)] at hStep
        exact hStep (h.imp_left fun hMem => (mem_cons.mp hMem).resolve_left hName)

theorem exec_redisHSetObj (key : Key) (obj : Object F) (expiration : Int) :
    ∃ hash, exec key (redisHSetObj obj expiration) = some hash ∧
      hash.field = setFields key.hash.field (hSetData obj) := by
  obtain ⟨entry, rest, hData⟩ := exists_cons_of_ne_nil (hSetData_ne_nil obj)
  unfold redisHSetObj
  rw [hData]
  split <;> exact ⟨_, rfl, rfl⟩

variable [DecidableEq F] (parseTime : String → Option Int)

def readFields (hash : Hash) : List F → Object F → Except LoadError (Object F)
  | [], obj => .ok obj
  | f :: rest, obj =>
    match hash.field (name f) with
    | none => readFields hash rest obj
    | some text =>
      match (kind f).load parseTime (obj f) text with
      | none => .error (.parse (kind f) (name f))
      | some value => readFields hash rest (Function.update obj f value)

/-- Redis has no empty hashes, so that `HGETALL` is empty only for a key that is not there. -/
def redisHGetObj (key : Key) (obj : Object F) : Except LoadError (Object F) :=
  match key with
  | none => .error .notFound
  | some hash => readFields parseTime hash fields obj

variable {parseTime} {hash : Hash}

theorem readFields_of_notMem {fs : List F} {obj obj' : Object F} {f : F}
    (h : readFields parseTime hash fs obj = .ok obj') (hf : f ∉ fs) : obj' f = obj f := by
  induction fs generalizing obj with
  | nil => cases h; rfl
  | cons g rest ih =>
    have hNe : f ≠ g := fun hEq => hf (hEq ▸ mem_cons_self)
    have hRest : f ∉ rest := fun hMem => hf (mem_cons_of_mem _ hMem)
    unfold readFields at h
    split at h
    · exact ih h hRest
    · split at h
      · cases h
      · rw [ih h hRest, update_of_ne hNe]

theorem readFields_of_mem {fs : List F} (hNodup : fs.Nodup) {obj obj' : Object F} {f : F}
    {text : String} (h : readFields parseTime hash fs obj = .ok obj') (hf : f ∈ fs)
    (hText : hash.field (name f) = some text) :
    (kind f).load parseTime (obj f) text = some (obj' f) := by
  induction fs generalizing obj with
  | nil => exact absurd hf not_mem_nil
  | cons g rest ih =>
    obtain ⟨hgRest, hRest⟩ := nodup_cons.mp hNodup
    unfold readFields at h
    rcases mem_cons.mp hf with rfl | hf
    · simp only [hText] at h
      split at h
      · cases h
      · rename_i value hLoad
        rw [hLoad, readFields_of_notMem h hgRest, update_self]
    · have hNe : f ≠ g := fun hEq => hgRest (hEq ▸ hf)
      split at h
      · exact ih hRest h hf
      split at h
      · cases h
      · have hLoad := ih hRest h hf
        rwa [update_of_ne hNe] at hLoad

variable (parseTime) in
theorem readFields_written (obj start : Object F)
    (hField : ∀ f, hash.field (name f) = (kind f).format (obj f)) {fs : List F}
    (hNodup : fs.Nodup) (hZero : ∀ f ∈ fs, start f = (kind f).zero) :
    ∃ obj', readFields parseTime hash fs start = .ok obj' ∧
      ∀ f ∈ fs, obj' f = (kind f).kept (obj f) := by
  induction fs generalizing start with
  | nil => exact ⟨start, rfl, nofun⟩
  | cons g rest ih =>
    obtain ⟨hgRest, hRest⟩ := nodup_cons.mp hNodup
    have hStart : start g = (kind g).zero := hZero g mem_cons_self
    -- whether the field is there or not, it is what is kept of it afterwards
    have hStep : readFields parseTime hash (g :: rest) start =
        readFields parseTime hash rest (update start g ((kind g).kept (obj g))) := by
      have hLoad := FieldKind.load_format parseTime (kind g) (obj g)
      rw [readFields, hField g, hStart]
      cases hFormat : (kind g).format (obj g) with
      | none =>
        rw [hFormat, elim_none] at hLoad
        rw [← some.inj hLoad, ← hStart, update_eq_self]
      | some text =>
        rw [hFormat, elim_some] at hLoad
        simp only [hLoad]
    have hNe : ∀ f ∈ rest, f ≠ g := fun f hf hEq => hgRest (hEq ▸ hf)
    obtain ⟨obj', hRead, hKept⟩ := ih _ hRest fun f hf =>
      (update_of_ne (hNe f hf) _ start).trans (hZero f (mem_cons_of_mem _ hf))
    refine ⟨obj', hStep.trans hRead, fun f hf => ?_⟩
    rcases mem_cons.mp hf with rfl | hf
    · rw [readFields_of_notMem hRead hgRest, update_self]
    · exact hKept f hf

variable (parseTime) in
/-- **What is written is read again**, over any key that has no field that is not written. -/
theorem redisHGetObj_redisHSetObj (key : Key) (obj : Object F) (expiration : Int)
    (hKey : ∀ f : F, ¬ (kind f).Written → ¬ key.Has (name f)) :
    redisHGetObj parseTime (exec key (redisHSetObj obj expiration)) (zeroObject F) =
      .ok fun f => (kind f).kept (obj f) := by
  obtain ⟨hash, hExec, hFields⟩ := exec_redisHSetObj key obj expiration
  have hField : ∀ f : F, hash.field (name f) = (kind f).format (obj f) := by
    intro f
    rw [hFields, hSetData, setFields_written obj f _ (.inl (mem_fields f))]
    cases hFormat : (kind f).format (obj f) with
    | some text => rfl
    | none =>
      have hNot : ¬ (kind f).Written := by
        rw [← FieldKind.format_isSome (obj f), hFormat]
        nofun
      exact not_isSome_iff_eq_none.mp (hKey f hNot)
  obtain ⟨obj', hRead, hKept⟩ :=
    readFields_written parseTime obj (zeroObject F) hField nodup_fields fun _ _ => rfl
  rw [hExec]
  exact hRead.trans (congrArg _ (funext fun f => hKept f (mem_fields f)))

end Record

/-! ## The calls of the caches

Each is one of four calls on the key of the user or of the token. -/

inductive Call (F : Type) [Reflected F] where
  | hSetObj (obj : Object F) (expiration : Int)
  | hIncrBy (field : String) (delta : Int64)
  | hSetField (field value : String)
  | delKey

def updateUserCache (syncFrequency : Int) (user : UserBase) : Call UserBaseField :=
  .hSetObj user syncFrequency

def invalidateUserCache : Call UserBaseField := .delKey

def cacheIncrUserQuota (delta : Int64) : Call UserBaseField := .hIncrBy "Quota" delta

def cacheDecrUserQuota (delta : Int64) : Call UserBaseField := cacheIncrUserQuota (-delta)

def updateUserStatusCache (status : Bool) : Call UserBaseField :=
  .hSetField "Status" (if status then "1" else "2")

def updateUserQuotaCache (quota : Int64) : Call UserBaseField :=
  .hSetField "Quota" (toString quota.toInt)

def updateUserGroupCache (group : String) : Call UserBaseField := .hSetField "Group" group

def updateUserNameCache (username : String) : Call UserBaseField := .hSetField "Username" username

def updateUserSettingCache (setting : String) : Call UserBaseField := .hSetField "Setting" setting

/-- The token is stored without its key. -/
def cacheSetToken (syncFrequency : Int) (token : Token) : Call TokenField :=
  .hSetObj (Function.update token .key "") syncFrequency

def cacheDeleteToken : Call TokenField := .delKey

def tokenFiledRemainQuota : String := "RemainQuota"

def cacheIncrTokenQuota (increment : Int64) : Call TokenField :=
  .hIncrBy tokenFiledRemainQuota increment

def cacheDecrTokenQuota (decrement : Int64) : Call TokenField := cacheIncrTokenQuota (-decrement)

def cacheSetTokenField (field value : String) : Call TokenField := .hSetField field value

def cacheGetUserBase (parseTime : String → Option Int) (key : Key) : Except LoadError UserBase :=
  redisHGetObj parseTime key (zeroObject UserBaseField)

def cacheGetTokenByKey (parseTime : String → Option Int) (key : Key) (tokenKey : String) :
    Except LoadError Token :=
  (redisHGetObj parseTime key (zeroObject TokenField)).map (Function.update · .key tokenKey)

/-! ## Interleaved calls -/

structure Pending where
  command : Command
  ttl : Nat

structure CacheState where
  key : Key
  waiting : List Pending

inductive CacheAct (F : Type) [Reflected F] where
  /-- The first step of a call, which is the only one of `RedisHSetObj` and `RedisDelKey`. -/
  | call (c : Call F)
  | transact (i : Nat)
  | elapse (milliseconds : Nat)

namespace CacheState

variable {F : Type} [DecidableEq F] [Reflected F]

/-- The question for the lifetime: only a positive one leads to the transaction. -/
def askTTL (s : CacheState) (command : Command) : CacheState :=
  if ttl s.key > 0 then { s with waiting := s.waiting ++ [⟨command, (ttl s.key).toNat⟩] } else s

def step (s : CacheState) : CacheAct F → CacheState
  | .call (.hSetObj obj expiration) => { s with key := exec s.key (redisHSetObj obj expiration) }
  | .call .delKey => { s with key := exec s.key [.del] }
  | .call (.hIncrBy field delta) => s.askTTL (.hIncrBy field delta.toInt)
  | .call (.hSetField field value) => s.askTTL (.hSet [(field, value)])
  | .transact i =>
    match s.waiting[i]? with
    | none => s
    | some pending =>
      { key := exec s.key [pending.command, .expire pending.ttl], waiting := s.waiting.eraseIdx i }
  | .elapse milliseconds => { s with key := elapse milliseconds s.key }

def start : CacheState := ⟨none, []⟩

variable (F) in
/-- The key is absent or has every field that `RedisHSetObj` writes. -/
def Whole (s : CacheState) : Prop :=
  s.key = none ∨ ∀ f : F, (kind f).Written → s.key.Has (name f)

/-- The key is still there when a call that asked for its lifetime executes its transaction. -/
def InTime (s : CacheState) : CacheAct F → Prop
  | .transact i => ∀ pending, s.waiting[i]? = some pending → s.key.isSome
  | _ => True

end CacheState

/-- **A cached record is read as it was written**, whatever happened to its key before.  A token is
stored without its key and gets it back; an empty list of addresses becomes none. -/
theorem cached_read_back (parseTime : String → Option Int) (s : CacheState) (syncFrequency : Int)
    (user : UserBase) (token : Token) :
    cacheGetUserBase parseTime (s.step (.call (updateUserCache syncFrequency user))).key =
        .ok user ∧
      (¬ s.key.Has "DeletedAt" →
        cacheGetTokenByKey parseTime (s.step (.call (cacheSetToken syncFrequency token))).key
            (token .key) = .ok fun f => (kind f).kept (token f)) := by
  constructor
  · refine (redisHGetObj_redisHSetObj _ s.key user syncFrequency ?_).trans (congrArg _ (funext ?_))
    · exact fun f hf => absurd (by cases f <;> decide) hf
    · intro f
      cases f <;> rfl
  · intro hDeleted
    have hRead := redisHGetObj_redisHSetObj parseTime s.key (update token .key "") syncFrequency
      fun f hf => by
        cases f with
        | deletedAt => exact hDeleted
        | _ => exact absurd (by decide) hf
    refine (congrArg _ hRead).trans (congrArg Except.ok (funext fun f => ?_))
    by_cases hKey : f = .key
    · subst hKey
      exact update_self ..
    · exact (update_of_ne hKey ..).trans (congrArg (kind f).kept (update_of_ne hKey ..))

inductive FieldWrite : Command → String → Prop
  | incr (field : String) (delta : Int64) : FieldWrite (.hIncrBy field delta.toInt) field
  | set (field value : String) : FieldWrite (.hSet [(field, value)]) field

theorem increased_absent (delta : Int64) : (increased none delta.toInt).isSome = true := by
  have hRange : -2 ^ 63 ≤ 0 + delta.toInt ∧ 0 + delta.toInt < 2 ^ 63 := by
    have hLow := Int64.le_toInt delta
    have hHigh := Int64.toInt_lt delta
    omega
  simp only [increased, bind_some, Go.int64?, if_pos hRange, map_some, isSome_some]

variable {command : Command} {field : String}

theorem FieldWrite.has (h : FieldWrite command field) {key : Key} {n : String} :
    (command.run key).Has n ↔ n = field ∨ key.Has n := by
  cases h with
  | incr field delta =>
    cases hNew : increased (key.hash.field field) delta.toInt with
    | some value => exact has_hIncrBy field delta.toInt (by rw [hNew]; rfl)
    | none =>
      simp only [Command.run, hNew]
      refine ⟨.inr, fun hn => hn.elim (fun hEq => ?_) id⟩
      subst hEq
      by_contra hAbsent
      rw [not_isSome_iff_eq_none.mp hAbsent] at hNew
      have hSome := increased_absent delta
      rw [hNew] at hSome
      cases hSome
  | set field value => simpa using has_hSet key n [(field, value)] (by simp)

variable {s : CacheState}

namespace CacheState

variable {F : Type} [Reflected F]

theorem askTTL_key (s : CacheState) (command : Command) : (s.askTTL command).key = s.key := by
  unfold askTTL
  split <;> rfl

theorem step_transact {i : Nat} {pending : Pending} (h : s.waiting[i]? = some pending) :
    s.step (.transact i : CacheAct F) =
      ⟨exec s.key [pending.command, .expire pending.ttl], s.waiting.eraseIdx i⟩ := by
  simp only [step, h]

theorem step_transact_of_none {i : Nat} (h : s.waiting[i]? = none) :
    s.step (.transact i : CacheAct F) = s := by
  simp only [step, h]

def WaitingWrites (s : CacheState) : Prop :=
  ∀ pending ∈ s.waiting, ∃ field, FieldWrite pending.command field

theorem WaitingWrites.askTTL (h : s.WaitingWrites) (hWrite : FieldWrite command field) :
    (s.askTTL command).WaitingWrites := by
  unfold CacheState.askTTL
  split
  · intro pending hMem
    rcases mem_append.mp hMem with hOld | hNew
    · exact h pending hOld
    · obtain rfl := mem_singleton.mp hNew
      exact ⟨field, hWrite⟩
  · exact h

theorem WaitingWrites.step (a : CacheAct F) (h : s.WaitingWrites) : (s.step a).WaitingWrites := by
  cases a with
  | call c =>
    cases c with
    | hSetObj obj expiration => exact h
    | hIncrBy field delta => exact h.askTTL (.incr field delta)
    | hSetField field value => exact h.askTTL (.set field value)
    | delKey => exact h
  | transact i =>
    cases hGet : s.waiting[i]? with
    | none => rwa [step_transact_of_none hGet]
    | some pending =>
      rw [step_transact hGet]
      exact fun other hMem => h other (mem_of_mem_eraseIdx hMem)
  | elapse milliseconds => exact h

theorem Whole.of_has {key : Key} (hHas : ∀ name, s.key.Has name → key.Has name)
    (hSome : s.key.isSome) (h : s.Whole F) (waiting : List Pending) :
    (⟨key, waiting⟩ : CacheState).Whole F := by
  rcases h with hNone | hAll
  · rw [hNone] at hSome
    cases hSome
  · exact .inr fun f hWritten => hHas _ (hAll f hWritten)

theorem whole_transact_iff (h : s.Whole F) (hWrite : FieldWrite command field) (ttl : Nat)
    (waiting : List Pending) :
    (⟨exec s.key [command, .expire ttl], waiting⟩ : CacheState).Whole F ↔ s.key.isSome := by
  have hHas : ∀ n, (exec s.key [command, .expire ttl]).Has n ↔ n = field ∨ s.key.Has n :=
    fun n => (has_expire ttl).trans hWrite.has
  constructor
  · intro hAfter
    by_contra hSome
    have hThere := isSome_of_has ((hHas field).mpr (.inl rfl))
    rcases hAfter with hGone | hAll
    · rw [show exec s.key [command, .expire ttl] = none from hGone] at hThere
      cases hThere
    · obtain ⟨f, hWritten, hOther⟩ := exists_other (F := F) field
      have hOld := ((hHas _).mp (hAll f hWritten)).resolve_left hOther
      exact hSome (isSome_of_has hOld)
  · exact fun hSome => h.of_has (fun n hn => (hHas n).mpr (.inr hn)) hSome waiting

/-- **One step** keeps the hash whole exactly when it is no transaction that comes too late. -/
theorem whole_step_iff (s : CacheState) (a : CacheAct F) (hWaiting : s.WaitingWrites)
    (h : s.Whole F) : (s.step a).Whole F ↔ s.InTime a := by
  cases a with
  | call c =>
    refine iff_of_true ?_ trivial
    cases c with
    | hSetObj obj expiration =>
      exact .inr fun f hWritten => has_redisHSetObj s.key obj expiration hWritten
    | hIncrBy field delta | hSetField field value =>
      show (s.askTTL _).Whole F
      unfold Whole
      rwa [askTTL_key]
    | delKey => exact .inl rfl
  | transact i =>
    cases hGet : s.waiting[i]? with
    | none =>
      rw [step_transact_of_none hGet]
      exact iff_of_true h fun pending hp => nomatch hGet.symm.trans hp
    | some pending =>
      obtain ⟨field, hWrite⟩ := hWaiting pending (mem_of_getElem? hGet)
      rw [step_transact hGet, whole_transact_iff h hWrite]
      exact ⟨fun hSome _ _ => hSome, fun hAll => hAll pending hGet⟩
  | elapse milliseconds =>
    refine iff_of_true ?_ trivial
    rcases has_elapse s.key milliseconds with hGone | ⟨-, hSame⟩
    · exact .inl hGone
    rcases h with hNone | hAll
    · left
      show elapse milliseconds s.key = none
      rw [hNone]
      rfl
    · exact .inr fun f hWritten => (hSame _).mpr (hAll f hWritten)

theorem load_of_whole [DecidableEq F] {parseTime : String → Option Int} {s : CacheState}
    (h : s.Whole F) {obj obj' : Object F} (hRead : redisHGetObj parseTime s.key obj = .ok obj')
    (f : F) (hWritten : (kind f).Written) :
    ∃ text, s.key.hash.field (name f) = some text ∧
      (kind f).load parseTime (obj f) text = some (obj' f) := by
  rcases h with hNone | hAll
  · rw [hNone] at hRead
    cases hRead
  have hHas := hAll f hWritten
  obtain ⟨hash, hKey⟩ := isSome_iff_exists.mp (isSome_of_has hHas)
  rw [hKey] at hRead hHas ⊢
  obtain ⟨text, hText⟩ := isSome_iff_exists.mp hHas
  exact ⟨text, hText, readFields_of_mem nodup_fields hRead (mem_fields f) hText⟩

/-- **The hash is absent or whole in every state exactly when every transaction finds the key.** -/
theorem whole_iff [DecidableEq F] (parseTime : String → Option Int) (acts : List (CacheAct F)) :
    ((∀ t ∈ states step start acts, t.Whole F) ↔
        ∀ m ∈ moves step start acts, m.1.InTime m.2) ∧
      ((∀ m ∈ moves step start acts, m.1.InTime m.2) →
        ∀ t ∈ states step start acts, ∀ obj, redisHGetObj parseTime t.key (zeroObject F) = .ok obj →
            ∀ f, (kind f).Written → ∃ text, t.key.hash.field (name f) = some text ∧
              (kind f).load parseTime (kind f).zero text = some (obj f)) := by
  have hIff : (∀ t ∈ states step start acts, t.Whole F) ↔
      ∀ m ∈ moves step start acts, m.1.InTime m.2 := by
    refine states_forall_iff step (I := WaitingWrites) (fun s a => .step a) whole_step_iff acts
      start ?_ (.inl rfl)
    exact fun pending hMem => absurd hMem not_mem_nil
  refine ⟨hIff, fun hInTime t ht obj hRead f hWritten => ?_⟩
  exact load_of_whole (hIff.mpr hInTime t ht) hRead f hWritten

def vipUser : UserBase
  | .id => (7 : Int64)
  | .group => "vip"
  | .email => "a@b.c"
  | .quota => (500 : Int64)
  | .status => (1 : Int64)
  | .username => "u"
  | .setting => ""

def lateCharge : List (CacheAct UserBaseField) :=
  [.call (updateUserCache 60 vipUser), .elapse 59000, .call (cacheDecrUserQuota 5), .elapse 1000,
    .transact 0]

/-- The hash has the quota alone then, and the user that is read from it has no status and no
group. -/
theorem lateCharge_leaves_quota_alone :
    ¬ (lateCharge.foldl step start).Whole UserBaseField ∧
      ttl (lateCharge.foldl step start).key = 1 ∧
      (cacheGetUserBase (fun _ => none) (lateCharge.foldl step start).key).toOption.map
        (fun user => ((user .quota : Int64), (user .status : Int64), (user .group : String))) =
          some (-5, 0, "") := by
  refine ⟨?_, by decide +kernel, by decide +kernel⟩
  rintro (hNone | hAll)
  · have hSome : (lateCharge.foldl step start).key.isSome = true := by decide +kernel
    rw [hNone] at hSome
    cases hSome
  · exact absurd (hAll .status (by decide)) (by decide +kernel)

end CacheState

end NewApi.Cache
