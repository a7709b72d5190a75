import NewApi.Go.Decimal

/-!
# The price of realtime usage

`calculateAudioQuota`. Ratios and prices are exact decimals; the settings are one record,
`RatioSettings`, that stays the same during a session.
-/

namespace NewApi.Realtime

open Go

/-- `RealtimeUsage`; of the details, the counts that the handler adds up. -/
@[ext] structure RealtimeUsage where
  totalTokens : Int
  inputTokens : Int
  outputTokens : Int
  inputCached : Int
  inputText : Int
  inputAudio : Int
  outputText : Int
  outputAudio : Int
  deriving DecidableEq, Repr

namespace RealtimeUsage

def empty : RealtimeUsage := ⟨0, 0, 0, 0, 0, 0, 0, 0⟩

def add (u v : RealtimeUsage) : RealtimeUsage where
  totalTokens := u.totalTokens + v.totalTokens
  inputTokens := u.inputTokens + v.inputTokens
  outputTokens := u.outputTokens + v.outputTokens
  inputCached := u.inputCached + v.inputCached
  inputText := u.inputText + v.inputText
  inputAudio := u.inputAudio + v.inputAudio
  outputText := u.outputText + v.outputText
  outputAudio := u.outputAudio + v.outputAudio

/-- Tokens counted here and not by the upstream, as input. -/
def addInput (u : RealtimeUsage) (text audio : Int) : RealtimeUsage :=
  { u with
    totalTokens := u.totalTokens + (text + audio)
    inputTokens := u.inputTokens + (text + audio)
    inputText := u.inputText + text
    inputAudio := u.inputAudio + audio }

def addOutput (u : RealtimeUsage) (text audio : Int) : RealtimeUsage :=
  { u with
    totalTokens := u.totalTokens + (text + audio)
    outputTokens := u.outputTokens + (text + audio)
    outputText := u.outputText + text
    outputAudio := u.outputAudio + audio }

end RealtimeUsage

structure RatioSettings where
  quotaPerUnit : ℚ
  completionRatio : String → ℚ
  audioRatio : String → ℚ
  audioCompletionRatio : String → ℚ
  modelRatio : String → ℚ
  groupRatio : String → ℚ
  groupGroupRatio : String → String → Option ℚ

structure QuotaInfo where
  inputText : Int
  inputAudio : Int
  outputText : Int
  outputAudio : Int
  modelName : String
  usePrice : Bool
  modelPrice : ℚ
  modelRatio : ℚ
  groupRatio : ℚ

def weightedTokens (cfg : RatioSettings) (info : QuotaInfo) : ℚ :=
  info.inputText + info.outputText * cfg.completionRatio info.modelName +
    info.inputAudio * cfg.audioRatio info.modelName +
    info.outputAudio * cfg.audioRatio info.modelName * cfg.audioCompletionRatio info.modelName

def calculateAudioQuota (cfg : RatioSettings) (info : QuotaInfo) : Int :=
  if info.usePrice then Decimal.intPart (info.modelPrice * cfg.quotaPerUnit * info.groupRatio)
  else
    let ratio := info.groupRatio * info.modelRatio
    let quota := weightedTokens cfg info * ratio
    if ratio ≠ 0 ∧ quota ≤ 0 then Decimal.round 1 else Decimal.round quota

end NewApi.Realtime
