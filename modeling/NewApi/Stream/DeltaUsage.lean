import Mathlib.Data.List.Induction
import Mathlib.Algebra.Order.Ring.Int
import NewApi.Stream.Claude

/-!
# The usage of a Claude stream

`FormatClaudeResponseInfo` keeps the latest counts, and `patchClaudeMessageDeltaUsageData` fills in
what a `message_delta` lacks.  The split of the cache tokens is made to add up, but not where the
event has one of its own.
-/

namespace NewApi.Stream

inductive UsageField where
  | inputTokens
  | cacheReadInputTokens
  | cacheCreationInputTokens
  | ephemeral5m
  | ephemeral1h

def UsageField.isSplit : UsageField → Bool
  | .ephemeral5m | .ephemeral1h => true
  | _ => false

def ClaudeUsage.tokens (usage : ClaudeUsage) : UsageField → Int
  | .inputTokens => usage.inputTokens
  | .cacheReadInputTokens => usage.cacheReadInputTokens
  | .cacheCreationInputTokens => usage.cacheCreationInputTokens
  | .ephemeral5m => (usage.cacheCreation.getD (0, 0)).1
  | .ephemeral1h => (usage.cacheCreation.getD (0, 0)).2

namespace DeltaUsage

inductive Event where
  | messageStart (usage : Option ClaudeUsage)
  | contentBlock
  | messageDelta (usage : Option ClaudeUsage)

def formatClaudeResponseInfo (info : UsageField → Int) : Event → UsageField → Int
  | .messageStart (some usage) => usage.tokens
  | .messageDelta (some usage) => fun f => if 0 < usage.tokens f then usage.tokens f else info f
  | _ => info

def buildMessageDeltaPatchUsage (usage : ClaudeUsage) (info : UsageField → Int) : ClaudeUsage :=
  let tokens f := if usage.tokens f = 0 ∧ 0 < info f then info f else usage.tokens f
  let split := usage.cacheCreation.getD (info .ephemeral5m, info .ephemeral1h)
  let split := normalizeCacheCreationSplit (tokens .cacheCreationInputTokens) split.1 split.2
  { usage with
    inputTokens := tokens .inputTokens
    cacheReadInputTokens := tokens .cacheReadInputTokens
    cacheCreationInputTokens := tokens .cacheCreationInputTokens
    cacheCreation :=
      if usage.cacheCreation.isSome ∨ 0 < split.1 ∨ 0 < split.2 then some split else none }

def setMessageDeltaUsageInt (upstreamValue localValue : Int) : Int :=
  if localValue ≤ 0 then upstreamValue
  else if 0 < upstreamValue then upstreamValue
  else localValue

def patchClaudeMessageDeltaUsageData (data usage : ClaudeUsage) (f : UsageField) : Int :=
  if f.isSplit ∧ usage.cacheCreation.isNone then data.tokens f
  else setMessageDeltaUsageInt (data.tokens f) (usage.tokens f)

/-- The counts the client gets in a `message_delta` after the events before it.  One without usage
is patched as one whose counts are all absent. -/
def patched (before : List Event) (usage : Option ClaudeUsage) : UsageField → Int :=
  let events := before ++ [.messageDelta usage]
  let info := events.foldl formatClaudeResponseInfo fun _ => 0
  let usage := usage.getD ⟨0, 0, 0, 0, none⟩
  patchClaudeMessageDeltaUsageData usage (buildMessageDeltaPatchUsage usage info)

/-! ## The latest counts -/

def Event.usage : Event → Option ClaudeUsage
  | .messageStart usage | .messageDelta usage => usage
  | .contentBlock => none

def Event.tokens (e : Event) (f : UsageField) : Int := (e.usage.map (·.tokens f)).getD 0

/-- The latest count that is not zero, 0 if there is none. -/
def latest (events : List Event) (f : UsageField) : Int :=
  ((events.map (·.tokens f)).filter (· ≠ 0)).getLast?.getD 0

/-- The split of the event, or the latest one before it if it has none. -/
def reported (before : List Event) (usage : Option ClaudeUsage) (f : UsageField) : Int :=
  if (usage.bind (·.cacheCreation)).isSome then (Event.messageDelta usage).tokens f
  else latest before f

/-- A stream has one start, its first event, and no count below zero. -/
def WellFormed : List Event → Prop
  | [] => False
  | start :: rest => (∃ usage, start = .messageStart usage) ∧
    (∀ e ∈ rest, ∀ usage, e ≠ .messageStart usage) ∧ ∀ e ∈ start :: rest, ∀ f, 0 ≤ e.tokens f

theorem latest_append (events : List Event) (e : Event) (f : UsageField) :
    latest (events ++ [e]) f = if e.tokens f = 0 then latest events f else e.tokens f := by
  by_cases h : e.tokens f = 0 <;> simp [latest, h]

theorem formatClaudeResponseInfo_eq {e : Event} (hStart : ∀ usage, e ≠ .messageStart usage)
    {f : UsageField} (hNonneg : 0 ≤ e.tokens f) (info : UsageField → Int) :
    formatClaudeResponseInfo info e f = if e.tokens f = 0 then info f else e.tokens f := by
  rcases e with usage | _ | (_ | usage)
  · exact absurd rfl (hStart usage)
  · rfl
  · rfl
  · simp only [formatClaudeResponseInfo, Event.tokens, Event.usage, Option.map_some,
      Option.getD_some] at hNonneg ⊢
    grind

theorem foldl_eq_latest {events : List Event} (h : WellFormed events) (f : UsageField) :
    events.foldl formatClaudeResponseInfo (fun _ => 0) f = latest events f := by
  rcases events with _ | ⟨start, rest⟩
  · exact h.elim
  obtain ⟨⟨usage, rfl⟩, hRest, hNonneg⟩ := h
  induction rest using List.reverseRecOn with
  | nil => cases usage <;> simp [latest, formatClaudeResponseInfo, Event.tokens, Event.usage]; grind
  | append_singleton rest e ih =>
    rw [← List.cons_append, List.foldl_append, latest_append, List.foldl_cons, List.foldl_nil,
      formatClaudeResponseInfo_eq (hRest e (by simp)) (hNonneg e (by simp) f)]
    rw [ih (fun e he => hRest e (by simp [he])) fun e he => hNonneg e (by grind)]

/-! ## What the client gets -/

section

variable {before : List Event} {usage : Option ClaudeUsage}

theorem tokens_getD (usage : Option ClaudeUsage) (f : UsageField) :
    (usage.getD ⟨0, 0, 0, 0, none⟩).tokens f = (Event.messageDelta usage).tokens f := by
  cases usage with
  | none => cases f <;> rfl
  | some usage => rfl

theorem latest_nonneg {events : List Event} {f : UsageField} (h : ∀ e ∈ events, 0 ≤ e.tokens f) :
    0 ≤ latest events f := by
  induction events using List.reverseRecOn with
  | nil => exact le_rfl
  | append_singleton events e ih =>
    rw [latest_append]
    split
    · exact ih fun e he => h e (by simp [he])
    · exact h e (by simp)

section

variable (h : WellFormed (before ++ [.messageDelta usage]))
include h

theorem WellFormed.nonneg (f : UsageField) :
    0 ≤ (Event.messageDelta usage).tokens f ∧ 0 ≤ latest before f := by
  have hAll : ∀ e ∈ before ++ [.messageDelta usage], 0 ≤ e.tokens f := by
    cases before with
    | nil | cons start rest => exact fun e he => h.2.2 e he f
  exact ⟨hAll (.messageDelta usage) (by simp), latest_nonneg fun e he => hAll e (by simp [he])⟩

theorem patched_eq :
    patched before usage = patchClaudeMessageDeltaUsageData (usage.getD ⟨0, 0, 0, 0, none⟩)
      (buildMessageDeltaPatchUsage (usage.getD ⟨0, 0, 0, 0, none⟩)
        (latest (before ++ [.messageDelta usage]))) := by
  rw [patched, funext (foldl_eq_latest h)]

theorem patched_of_not_isSplit {f : UsageField} (hSplit : f.isSplit = false) :
    patched before usage f = latest (before ++ [.messageDelta usage]) f := by
  have hNonneg := h.nonneg f
  have hBuild (usage : ClaudeUsage) (info) : (buildMessageDeltaPatchUsage usage info).tokens f =
      if usage.tokens f = 0 ∧ 0 < info f then info f else usage.tokens f := by
    cases f <;> first | rfl | cases hSplit
  simp only [patched_eq h, patchClaudeMessageDeltaUsageData, hSplit, hBuild,
    setMessageDeltaUsageInt, tokens_getD, latest_append]
  grind

theorem patched_split :
    patched before usage .ephemeral1h = reported before usage .ephemeral1h ∧
      patched before usage .ephemeral5m =
        if (Event.messageDelta usage).tokens .ephemeral5m = 0 then
          reported before usage .ephemeral5m +
            max (latest (before ++ [.messageDelta usage]) .cacheCreationInputTokens -
              reported before usage .ephemeral5m - reported before usage .ephemeral1h) 0
        else (Event.messageDelta usage).tokens .ephemeral5m := by
  have h5 := h.nonneg .ephemeral5m
  have h1 := h.nonneg .ephemeral1h
  have hTotal := h.nonneg .cacheCreationInputTokens
  rw [patched_eq h]
  rcases usage with _ | ⟨input, output, creation, read, _ | ⟨m5, m1⟩⟩
  all_goals
    simp only [patchClaudeMessageDeltaUsageData, UsageField.isSplit, reported, latest_append,
      Event.tokens, Event.usage, buildMessageDeltaPatchUsage, ClaudeUsage.tokens,
      setMessageDeltaUsageInt, normalizeCacheCreationSplit, Option.getD_some, Option.getD_none, Option.map_some,
      Option.map_none, Option.bind_some, Option.bind_none] at *
    grind

end

/-- Without a split of its own the event needs one before it that leaves nothing of the total, or
has no tokens for 5 minutes.  A split of its own lacks no 1h tokens seen earlier, and either has 5m
tokens and leaves nothing of the total, or what it leaves is the 5m tokens seen earlier, if any. -/
def Whole (before : List Event) (usage : Option ClaudeUsage) : Prop :=
  let total := latest (before ++ [.messageDelta usage]) .cacheCreationInputTokens
  match usage.bind (·.cacheCreation) with
  | none => latest before .ephemeral5m ≠ 0 →
      total ≤ latest before .ephemeral5m + latest before .ephemeral1h
  | some (own5m, own1h) =>
    (own1h = 0 → latest before .ephemeral1h = 0) ∧
    (own5m = 0 → latest before .ephemeral5m ≠ 0 → total = latest before .ephemeral5m + own1h) ∧
    (own5m ≠ 0 → total ≤ own5m + own1h)

/-- The client gets at least the count of the event, and the latest one if the event has none. -/
def Filled (before : List Event) (usage : Option ClaudeUsage) (f : UsageField) : Prop :=
  (Event.messageDelta usage).tokens f ≤ patched before usage f ∧
    ((Event.messageDelta usage).tokens f = 0 → latest before f ≠ 0 →
      patched before usage f = latest before f)

theorem filled_iff_split (h : WellFormed (before ++ [.messageDelta usage])) :
    (∀ f, Filled before usage f) ↔
      Filled before usage .ephemeral5m ∧ Filled before usage .ephemeral1h := by
  refine ⟨fun hAll => ⟨hAll _, hAll _⟩, fun hBoth f => ?_⟩
  cases hf : f.isSplit with
  | true =>
    cases f with
    | ephemeral5m => exact hBoth.1
    | ephemeral1h => exact hBoth.2
    | _ => cases hf
  | false =>
    have hNonneg := h.nonneg f
    rw [Filled, patched_of_not_isSplit h hf, latest_append]
    grind

/-- **The usage a client gets** keeps the counts of its event, fills in the latest ones and splits
the tokens written to the cache, exactly where the split is whole. -/
theorem patched_usage_iff (before : List Event) (usage : Option ClaudeUsage)
    (h : WellFormed (before ++ [.messageDelta usage])) :
    ((∀ f, Filled before usage f) ∧
    (reported before usage .ephemeral5m + reported before usage .ephemeral1h ≤
        patched before usage .cacheCreationInputTokens →
      patched before usage .ephemeral5m + patched before usage .ephemeral1h =
        patched before usage .cacheCreationInputTokens)) ↔ Whole before usage := by
  obtain ⟨hOne, hFive⟩ := patched_split h
  have h5 := h.nonneg .ephemeral5m
  have h1 := h.nonneg .ephemeral1h
  rw [filled_iff_split h, Filled, Filled,
    patched_of_not_isSplit h (f := .cacheCreationInputTokens) rfl, hOne, hFive]
  simp only [Whole]
  generalize latest (before ++ [.messageDelta usage]) .cacheCreationInputTokens = total
  rcases usage with _ | ⟨input, output, creation, read, _ | ⟨m5, m1⟩⟩
  all_goals
    simp only [reported, Event.tokens, Event.usage, ClaudeUsage.tokens, Option.getD_some,
      Option.getD_none, Option.map_some, Option.map_none, Option.bind_some, Option.bind_none,
      Option.isSome_some, Option.isSome_none] at *
    constructor <;> intro hAll <;> grind

end

theorem patched_usage_start :
    patched [.messageStart (some ⟨7, 1, 100, 5, some (60, 40)⟩)] (some ⟨0, 9, 0, 0, none⟩)
      .ephemeral1h = 40 := by
  refine (((patched_usage_iff _ _ ?_).mpr ?_).1 _).2 (by decide) (by decide)
  · refine ⟨⟨_, rfl⟩, by simp, fun e he f => ?_⟩
    rcases List.mem_pair.mp he with rfl | rfl <;> cases f <;> decide
  · intro _
    decide

/-- The delta's split of 30 stays as it is, though the total is 100. -/
theorem patched_short_split :
    ∃ sent, sent = patched [.messageStart (some ⟨7, 1, 100, 0, none⟩)]
        (some ⟨0, 9, 100, 0, some (10, 20)⟩) ∧
      sent .ephemeral5m + sent .ephemeral1h = 30 ∧ sent .cacheCreationInputTokens = 100 :=
  ⟨_, rfl, by decide⟩

end DeltaUsage

end NewApi.Stream
