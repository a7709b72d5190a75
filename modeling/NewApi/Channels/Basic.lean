import NewApi.Core.Sparse
import NewApi.Core.Table
import NewApi.Go.Strings

/-!
# Channels and their keys

The rows of `model/channel.go`, and `GetNextEnabledKey`, which takes turns among the enabled keys.
Reading a JSON array of keys is a parameter.
-/

namespace NewApi.Channels

open Core Go

/-! ## Errors -/

structure NewAPIError where
  err : String
  errorCode : String
  statusCode : Int := 500
  skipRetry : Bool := false
  deriving DecidableEq, Repr

def isChannelError (e : NewAPIError) : Bool := hasPrefix e.errorCode "channel:"

def isSkipRetryError (e : NewAPIError) : Bool := e.skipRetry

/-! ## Rows -/

inductive ChannelStatus where
  | unknown
  | enabled
  | manuallyDisabled
  | autoDisabled
  deriving DecidableEq, Repr

structure ChannelInfo where
  isMultiKey : Bool := false
  multiKeySize : Int := 0
  multiKeyStatusList : Sparse ChannelStatus := ∅
  multiKeyDisabledReason : Sparse String := ∅
  multiKeyDisabledTime : Sparse Int := ∅
  multiKeyPollingIndex : Int := 0

structure Channel where
  id : Int
  key : String
  status : ChannelStatus
  models : String
  group : String
  priority : Option Int
  channelInfo : ChannelInfo := {}
  keys : List String := []

instance : Row Channel := ⟨Channel.id⟩

@[simp] theorem key_channel (ch : Channel) : Row.key ch = ch.id := rfl

def Channel.getPriority (ch : Channel) : Int := ch.priority.getD 0

/-! ## Keys -/

abbrev Unmarshal := String → Option (List String)

def Channel.getKeys (unmarshal : Unmarshal) (ch : Channel) : List String :=
  if ch.key = "" then []
  else if ch.keys.length > 0 then ch.keys
  else
    let trimmed := trimSpace ch.key
    match (if hasPrefix trimmed "[" then unmarshal trimmed else none) with
    | some arr => arr
    | none => split (trimChar ch.key '\n') '\n'

/-- The key, its position, and `MultiKeyPollingIndex` after a key was taken. -/
structure KeyChoice where
  key : String
  index : Nat
  next : Option Nat
  deriving DecidableEq, Repr

def ChannelInfo.getStatus (info : ChannelInfo) (idx : Nat) : ChannelStatus :=
  (info.multiKeyStatusList.lookup idx).getD .enabled

def noAvailableKey (text : String) : NewAPIError :=
  { err := text, errorCode := "channel:no_available_key" }

def pollKeys (info : ChannelInfo) (keys : List String) : KeyChoice :=
  let enabledIdx := (List.range keys.length).filter fun i => info.getStatus i = .enabled
  let start : Nat :=
    if info.multiKeyPollingIndex < 0 ∨ info.multiKeyPollingIndex ≥ keys.length then 0
    else info.multiKeyPollingIndex.toNat
  match ((List.range keys.length).map fun i => (start + i) % keys.length).find?
      fun idx => info.getStatus idx = .enabled with
  | some idx => ⟨keys.getD idx "", idx, some ((idx + 1) % keys.length)⟩
  | none => ⟨keys.getD (enabledIdx.headD 0) "", enabledIdx.headD 0, none⟩

/-- `cached` is what `CacheGetChannelInfo` returns for the channel. -/
def Channel.getNextEnabledKey (unmarshal : Unmarshal) (ch : Channel)
    (cached : Except String ChannelInfo) : Except NewAPIError KeyChoice :=
  if !ch.channelInfo.isMultiKey then .ok ⟨ch.key, 0, none⟩
  else
    let keys := ch.getKeys unmarshal
    if keys.length = 0 then .error (noAvailableKey "no keys available")
    else
      match cached with
      | .error text => .error { err := text, errorCode := "get_channel_failed", skipRetry := true }
      | .ok info =>
        if ∀ i < keys.length, info.getStatus i ≠ .enabled then
          .error (noAvailableKey "no enabled keys")
        else .ok (pollKeys info keys)

/-- A channel with several keys has an enabled one. -/
def Channel.HasKey (unmarshal : Unmarshal) (ch : Channel) : Prop :=
  ch.channelInfo.isMultiKey = true →
    ∃ i < (ch.getKeys unmarshal).length, ch.channelInfo.getStatus i = .enabled

instance (unmarshal : Unmarshal) (ch : Channel) : Decidable (ch.HasKey unmarshal) :=
  inferInstanceAs (Decidable (_ → _))

variable {unmarshal : Unmarshal} {ch : Channel}

/-- **A channel without a key says so with a channel error**, wherever its keys are polled. -/
theorem getNextEnabledKey_of_not_hasKey (h : ¬ ch.HasKey unmarshal) (next : Int) :
    ∃ text, ch.getNextEnabledKey unmarshal
      (.ok { ch.channelInfo with multiKeyPollingIndex := next }) =
        .error (noAvailableKey text) := by
  unfold Channel.HasKey at h
  push Not at h
  obtain ⟨hMulti, hNone⟩ := h
  unfold Channel.getNextEnabledKey
  rw [if_neg (by simp [hMulti])]
  by_cases hKeys : (ch.getKeys unmarshal).length = 0
  · exact ⟨_, if_pos hKeys⟩
  · refine ⟨"no enabled keys", (if_neg hKeys).trans ?_⟩
    exact if_pos hNone

theorem getNextEnabledKey_of_hasKey (h : ch.HasKey unmarshal) (next : Int) :
    ∃ choice, ch.getNextEnabledKey unmarshal
      (.ok { ch.channelInfo with multiKeyPollingIndex := next }) = .ok choice := by
  unfold Channel.getNextEnabledKey
  by_cases hMulti : ch.channelInfo.isMultiKey = true
  · obtain ⟨i, hi, hEnabled⟩ := h hMulti
    rw [if_neg (by simp [hMulti])]
    refine ⟨pollKeys { ch.channelInfo with multiKeyPollingIndex := next } (ch.getKeys unmarshal),
      (if_neg (by omega)).trans ?_⟩
    exact if_neg fun hNone => hNone i hi hEnabled
  · exact ⟨_, if_pos (by simpa using hMulti)⟩

theorem isChannelError_noAvailableKey (text : String) :
    isChannelError (noAvailableKey text) = true := by
  have hPrefix : hasPrefix "channel:no_available_key" "channel:" = true := by decide
  exact hPrefix

end NewApi.Channels
