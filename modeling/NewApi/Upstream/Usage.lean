import Mathlib.Data.Int.Basic

/-!
# Usage

The token counts that an upstream reports, with the fields that billing and the translation to
other formats read.  A count that is absent is zero.
-/

namespace NewApi.Upstream

structure InputTokenDetails where
  cachedTokens : Int
  cachedCreationTokens : Int
  audioTokens : Int
  imageTokens : Int
  deriving DecidableEq, Repr

structure OutputTokenDetails where
  audioTokens : Int
  imageTokens : Int
  deriving DecidableEq, Repr

structure Usage where
  promptTokens : Int
  completionTokens : Int
  usageSemantic : String
  promptTokensDetails : InputTokenDetails
  completionTokenDetails : OutputTokenDetails
  claudeCacheCreation5mTokens : Int
  claudeCacheCreation1hTokens : Int
  deriving DecidableEq, Repr

def Usage.ofTokens (promptTokens completionTokens : Int) : Usage :=
  ⟨promptTokens, completionTokens, "", ⟨0, 0, 0, 0⟩, ⟨0, 0⟩, 0, 0⟩

end NewApi.Upstream
