import NewApi.Stream.Frame

/-!
# The blocks of a message

`Blocks.step` is a client of a Claude stream, which stops at an event that does not fit what is
open.  `Matches` relates the translator's state to it.  Tool calls go wrong in general: their blocks
are stopped when text follows, and later fragments go to blocks that were never started.
-/

namespace NewApi.Stream

open Upstream List Option

/-! ## A client -/

structure Blocks where
  started : List Int
  opened : List (Int × BlockType)
  deriving DecidableEq, Repr

namespace Blocks

def step (b : Blocks) : Event → Option Blocks
  | .messageStart .. => some b
  | .contentBlockStart i block =>
    if i ∈ b.started then none else some ⟨i :: b.started, (i, block.type) :: b.opened⟩
  | .contentBlockDelta i type _ => if (i, type) ∈ b.opened then some b else none
  | .contentBlockStop i =>
    if i ∈ b.opened.map Prod.fst then some { b with opened := b.opened.filter (·.1 ≠ i) } else none
  | .messageDelta .. => some b
  | .messageStop => if b.opened = [] then some b else none

def run (b : Blocks) (events : List Event) : Option Blocks := events.foldlM step b

end Blocks

/-- **Well nested**: the client gets through. -/
def WellNested (events : List Event) : Prop := (Blocks.run ⟨[], []⟩ events).isSome

instance (events : List Event) : Decidable (WellNested events) :=
  inferInstanceAs (Decidable (_ = true))

variable {base : Int} {n : Nat}

namespace Blocks

variable {b b' : Blocks} {events events' : List Event}

theorem run_append (h : b.run events = some b') : b.run (events ++ events') = b'.run events' := by
  rw [run, foldlM_append]
  rw [run] at h
  rw [h]
  rfl

theorem run_cons {e : Event} (h : b.step e = some b') : b.run (e :: events) = b'.run events := by
  rw [run, foldlM_cons, h]
  rfl

theorem run_singleton (e : Event) : b.run [e] = b.step e := by
  rw [run, foldlM_cons]
  cases b.step e <;> rfl

theorem run_start_delta {i : Int} (hNew : i ∉ b.started) (block : Block) (piece : String) :
    b.run [.contentBlockStart i block, .contentBlockDelta i block.type piece] =
      some ⟨i :: b.started, (i, block.type) :: b.opened⟩ := by
  have hStart : b.step (.contentBlockStart i block) =
      some ⟨i :: b.started, (i, block.type) :: b.opened⟩ := if_neg hNew
  rw [run_cons hStart, run_singleton]
  exact if_pos mem_cons_self

/-- The tool calls from `k` to `n` are open, and no others. -/
structure Tools (base : Int) (k n : Nat) (b : Blocks) : Prop where
  opened : ∀ x, x ∈ b.opened ↔ ∃ j : Nat, k ≤ j ∧ j < n ∧ x = (base + j, .toolUse)
  started : ∀ i ∈ b.started, i < base + n

theorem Tools.opened_nil (h : Tools base n n b) : b.opened = [] := by
  refine eq_nil_iff_forall_not_mem.mpr fun x hx => ?_
  obtain ⟨j, hLe, hLt, -⟩ := (h.opened x).mp hx
  omega

theorem tools_nil (hOpened : b.opened = []) (hStarted : ∀ i ∈ b.started, i < base) :
    Tools base 0 0 b := by
  refine ⟨fun x => ?_, fun i hi => ?_⟩
  · rw [hOpened]
    refine iff_of_false not_mem_nil ?_
    omega
  · have := hStarted i hi
    omega

theorem Tools.stop {k : Nat} (h : Tools base k n b) (hk : k < n) :
    ∃ b', b.step (.contentBlockStop (base + k)) = some b' ∧ Tools base (k + 1) n b' ∧
      b'.started = b.started := by
  have hMem : base + (k : Int) ∈ b.opened.map Prod.fst :=
    mem_map_of_mem ((h.opened (base + k, .toolUse)).mpr ⟨k, Nat.le_refl k, hk, rfl⟩)
  refine ⟨_, if_pos hMem, ⟨fun x => ?_, h.started⟩, rfl⟩
  rw [mem_filter, h.opened, decide_eq_true_iff]
  constructor
  · rintro ⟨⟨j, hLe, hLt, rfl⟩, hne⟩
    refine ⟨j, ?_, hLt, rfl⟩
    omega
  · rintro ⟨j, hLe, hLt, rfl⟩
    refine ⟨⟨j, by omega, hLt, rfl⟩, ?_⟩
    omega

theorem Tools.stops {k m : Nat} (h : Tools base k (k + m) b) :
    ∃ b', b.run ((List.range' k m).map fun j : Nat => .contentBlockStop (base + j)) = some b' ∧
      b'.opened = [] ∧ b'.started = b.started := by
  induction m generalizing k b with
  | zero => exact ⟨b, rfl, h.opened_nil, rfl⟩
  | succ m ih =>
    obtain ⟨b₁, hStep, hTools, hStarted⟩ := h.stop (by omega)
    rw [show k + (m + 1) = k + 1 + m by omega] at hTools
    obtain ⟨b', hRun, hOpened, hStarted'⟩ := ih hTools
    refine ⟨b', ?_, hOpened, hStarted'.trans hStarted⟩
    rw [range'_succ, map_cons, run_cons hStep]
    exact hRun

end Blocks

/-! ## Tool calls -/

/-- A new index has a name and comes next, and an index that is known has none. -/
def introduce (n : Nat) (x : Int × ToolCall) : Option Nat :=
  if x.1 = n ∧ x.2.name ≠ "" then some (n + 1)
  else if 0 ≤ x.1 ∧ x.1 < n ∧ x.2.name = "" then some n
  else none

def Chunk.fragments (c : Chunk) : List (Int × ToolCall) := ConvertInfo.offsets c.delta.toolCalls

variable {c : Chunk}

theorem Chunk.fragments_of_nil (h : c.delta.toolCalls = []) : c.fragments = [] := by
  rw [fragments, h]
  rfl

def Introduced (chunks : List Chunk) : Prop :=
  ((chunks.flatMap Chunk.fragments).foldlM introduce 0).isSome

instance (chunks : List Chunk) : Decidable (Introduced chunks) :=
  inferInstanceAs (Decidable (_ = true))

variable {n' : Nat}

theorem introduce_cases {x : Int × ToolCall} (h : introduce n x = some n') :
    (x.1 = n ∧ x.2.name ≠ "" ∧ n' = n + 1) ∨
      (∃ k : Nat, k < n ∧ x.1 = k ∧ x.2.name = "" ∧ n' = n) := by
  unfold introduce at h
  split at h
  · rename_i hNew
    exact .inl ⟨hNew.1, hNew.2, (some.inj h).symm⟩
  split at h
  · rename_i hOld
    exact .inr ⟨x.1.toNat, by omega, by omega, hOld.2.2, (some.inj h).symm⟩
  · cases h

variable {xs : List (Int × ToolCall)}

namespace Blocks

variable {b b' : Blocks}

theorem Tools.push (h : Tools base 0 n b) :
    Tools base 0 (n + 1) ⟨(base + n) :: b.started, (base + n, .toolUse) :: b.opened⟩ := by
  refine ⟨fun x => ?_, fun i hi => ?_⟩
  · rw [mem_cons, h.opened]
    constructor
    · rintro (rfl | ⟨j, hLe, hLt, rfl⟩)
      · exact ⟨n, Nat.zero_le n, Nat.lt_succ_self n, rfl⟩
      · exact ⟨j, hLe, Nat.lt_succ_of_lt hLt, rfl⟩
    · rintro ⟨j, hLe, hLt, rfl⟩
      rcases Nat.lt_succ_iff_lt_or_eq.mp hLt with hLt | rfl
      · exact .inr ⟨j, hLe, hLt, rfl⟩
      · exact .inl rfl
  · rcases mem_cons.mp hi with rfl | hi
    · omega
    · have := h.started i hi
      omega

theorem Tools.fragment {x : Int × ToolCall} (h : Tools base 0 n b) (hNew : introduce n x = some n') :
    ∃ b', b.run (ConvertInfo.ToolCall.events base x.1 x.2) = some b' ∧ Tools base 0 n' b' := by
  obtain ⟨i, call⟩ := x
  rcases introduce_cases hNew with ⟨rfl, hName, rfl⟩ | ⟨k, hk, rfl, hName, rfl⟩
  · -- the block is started
    have hFresh : base + n ∉ b.started := fun hMem => by
      have := h.started _ hMem
      omega
    have hStart : b.step (.contentBlockStart (base + n) (.toolUse call.id call.name)) =
        some ⟨(base + n) :: b.started, (base + n, .toolUse) :: b.opened⟩ := if_neg hFresh
    refine ⟨_, ?_, h.push⟩
    rw [ConvertInfo.ToolCall.events, if_pos hName, singleton_append, run_cons hStart]
    split
    · rw [run_singleton]
      exact if_pos mem_cons_self
    · rfl
  · -- the block is open
    have hOpen : (base + (k : Int), BlockType.toolUse) ∈ b.opened :=
      (h.opened _).mpr ⟨k, Nat.zero_le k, hk, rfl⟩
    refine ⟨b, ?_, h⟩
    rw [ConvertInfo.ToolCall.events, if_neg (not_not_intro hName), nil_append]
    split
    · rw [run_singleton]
      exact if_pos hOpen
    · rfl

theorem Tools.fragments (h : Tools base 0 n b) (hNew : xs.foldlM introduce n = some n') :
    ∃ b', b.run (xs.flatMap fun x => ConvertInfo.ToolCall.events base x.1 x.2) = some b' ∧
      Tools base 0 n' b' := by
  induction xs generalizing n b with
  | nil =>
    cases hNew
    exact ⟨b, rfl, h⟩
  | cons x xs ih =>
    rw [foldlM_cons, bind_eq_bind, bind_eq_some_iff] at hNew
    obtain ⟨n₁, hStep, hRest⟩ := hNew
    obtain ⟨b₁, hRun, hTools⟩ := h.fragment hStep
    obtain ⟨b', hRun', hTools'⟩ := ih hTools hRest
    refine ⟨b', ?_, hTools'⟩
    rw [flatMap_cons, run_append hRun]
    exact hRun'

end Blocks

theorem maxOffset_eq {m : Int} (hNew : xs.foldlM introduce n = some n')
    (hm : m = max ((n : Int) - 1) 0) :
    xs.foldl (fun m x => max m x.1) m = max ((n' : Int) - 1) 0 ∧ n ≤ n' := by
  induction xs generalizing n m with
  | nil =>
    cases hNew
    exact ⟨hm, Nat.le_refl _⟩
  | cons x xs ih =>
    rw [foldlM_cons, bind_eq_bind, bind_eq_some_iff] at hNew
    obtain ⟨n₁, hStep, hRest⟩ := hNew
    have hNext : max m x.1 = max ((n₁ : Int) - 1) 0 ∧ n ≤ n₁ := by
      rcases introduce_cases hStep with ⟨hx, -, rfl⟩ | ⟨k, hk, hx, -, rfl⟩
      · constructor <;> omega
      · omega
    obtain ⟨hMax, hLe⟩ := ih hRest hNext.1
    exact ⟨hMax, Nat.le_trans hNext.2 hLe⟩

theorem introduce_pos (hne : xs ≠ []) (hNew : xs.foldlM introduce 0 = some n') : 0 < n' := by
  cases xs with
  | nil => exact absurd rfl hne
  | cons x xs =>
    rw [foldlM_cons, bind_eq_bind, bind_eq_some_iff] at hNew
    obtain ⟨n₁, hStep, hRest⟩ := hNew
    have hLe := (maxOffset_eq hRest rfl).2
    rcases introduce_cases hStep with ⟨-, -, rfl⟩ | ⟨k, hk, -⟩ <;> omega

/-! ## The translator -/

variable {d : Delta}

namespace ConvertInfo

open Blocks

variable {n : Nat} {info : ConvertInfo} {b : Blocks} {r : Relay}

/-- What is open, and that the next block is new. There are `n` tool calls so far. -/
def Matches (n : Nat) (info : ConvertInfo) (b : Blocks) : Prop :=
  match info.lastMessagesType with
  | .none => Tools info.index 0 0 b
  | .text => b.opened = [(info.index, .text)] ∧ ∀ i ∈ b.started, i < info.index + 1
  | .thinking => b.opened = [(info.index, .thinking)] ∧ ∀ i ∈ b.started, i < info.index + 1
  | .tools => 0 < n ∧ info.toolCallMaxIndexOffset + 1 = n ∧ Tools info.toolCallBaseIndex 0 n b

theorem stop_single {i : Int} {type : BlockType} (hOpened : b.opened = [(i, type)])
    (hStarted : ∀ j ∈ b.started, j < i + 1) :
    ∃ b', b.run [.contentBlockStop i] = some b' ∧ Tools (i + 1) 0 0 b' := by
  refine ⟨{ b with opened := b.opened.filter (·.1 ≠ i) }, ?_, tools_nil ?_ hStarted⟩
  · rw [run_singleton]
    exact if_pos (by simp [hOpened])
  · simp [hOpened]

theorem Matches.stop (h : info.Matches n b) :
    ∃ b', b.run info.stopOpenBlocks = some b' ∧ Tools info.advance.index 0 0 b' := by
  unfold Matches at h
  unfold stopOpenBlocks advance
  cases hLast : info.lastMessagesType with simp only [hLast] at h ⊢
  | none => exact ⟨b, rfl, h⟩
  | text | thinking => exact stop_single h.1 h.2
  | tools =>
    obtain ⟨-, hMax, hTools⟩ := h
    have hCount : (info.toolCallMaxIndexOffset + 1).toNat = n := by omega
    rw [← Nat.zero_add n] at hTools
    obtain ⟨b', hRun, hOpened, hStarted⟩ := hTools.stops
    refine ⟨b', ?_, tools_nil hOpened fun i hi => ?_⟩
    · rw [hCount, range_eq_range']
      exact hRun
    · rw [hStarted] at hi
      have := hTools.started i hi
      omega

inductive Kind : LastMessageType → Block → Prop where
  | text : Kind .text .text
  | thinking : Kind .thinking .thinking

theorem matches_of_kind {last : LastMessageType} {block : Block} (h : Kind last block)
    (hLast : info.lastMessagesType = last) :
    info.Matches n b ↔
      b.opened = [(info.index, block.type)] ∧ ∀ i ∈ b.started, i < info.index + 1 := by
  unfold Matches
  rw [hLast]
  cases h <;> rfl

theorem Matches.sendPiece {last : LastMessageType} {block : Block} (hKind : Kind last block)
    (h : info.Matches n b) (piece : String) :
    ∃ b', b.run (info.sendPiece last block piece).2 = some b' ∧
      (info.sendPiece last block piece).1.Matches n b' := by
  unfold ConvertInfo.sendPiece
  split
  · obtain ⟨b₁, hRun, hTools⟩ := h.stop
    have hNew : info.advance.index ∉ b₁.started := fun hMem => by
      have := hTools.started _ hMem
      omega
    refine ⟨_, (run_append hRun).trans (run_start_delta hNew block piece), ?_⟩
    rw [matches_of_kind hKind rfl, hTools.opened_nil]
    refine ⟨rfl, fun i hi => ?_⟩
    rcases mem_cons.mp hi with rfl | hi
    · exact Int.lt_add_one_of_le (Int.le_refl _)
    · have := hTools.started i hi
      show i < info.advance.index + 1
      omega
  · rename_i hSame
    have hLast := not_not.mp hSame
    refine ⟨b, ?_, h⟩
    rw [run_singleton]
    exact if_pos (by rw [((matches_of_kind hKind hLast).mp h).1]; exact mem_singleton_self _)

section

variable (h : info.Matches n b)
include h

theorem Matches.openTools (hFirst : info.lastMessagesType ≠ .tools → n = 0) :
    ∃ b₁, b.run (if info.lastMessagesType ≠ .tools then info.stopOpenBlocks else []) = some b₁ ∧
      Tools info.openTools.toolCallBaseIndex 0 n b₁ ∧
      info.openTools.toolCallMaxIndexOffset = max ((n : Int) - 1) 0 ∧
      info.openTools.lastMessagesType = .tools := by
  unfold ConvertInfo.openTools
  split
  · rename_i hLast
    obtain ⟨b₁, hRun, hTools⟩ := h.stop
    cases hFirst hLast
    exact ⟨b₁, hRun, hTools, rfl, rfl⟩
  rename_i hLast
  have hLast := not_not.mp hLast
  simp only [Matches, hLast] at h
  obtain ⟨hPos, hMax, hTools⟩ := h
  exact ⟨b, rfl, hTools, by omega, hLast⟩

theorem Matches.sendTools {calls : List ToolCall} (hFirst : info.lastMessagesType ≠ .tools → n = 0)
    (hne : calls ≠ []) (hNew : (offsets calls).foldlM introduce n = some n') :
    ∃ b', b.run (info.sendTools calls).2 = some b' ∧ (info.sendTools calls).1.Matches n' b' ∧
      (info.sendTools calls).1.lastMessagesType = .tools := by
  obtain ⟨b₁, hRun, hTools, hMax, hLast⟩ := h.openTools hFirst
  obtain ⟨b', hRun', hTools'⟩ := hTools.fragments hNew
  obtain ⟨hMax', hLe⟩ := maxOffset_eq hNew hMax
  have hPos : 0 < n' := by
    rcases Nat.eq_zero_or_pos n with rfl | hn
    · refine introduce_pos ?_ hNew
      intro hNil
      rw [offsets] at hNil
      exact hne (by simpa using congrArg length hNil)
    · omega
  refine ⟨b', (run_append hRun).trans hRun', ?_, hLast⟩
  unfold ConvertInfo.sendTools Matches
  simp only [hLast]
  exact ⟨hPos, by omega, hTools'⟩

theorem Matches.sendDelta (hFirst : d.toolCalls ≠ [] → info.lastMessagesType ≠ .tools → n = 0)
    (hNew : (offsets d.toolCalls).foldlM introduce n = some n') :
    ∃ b', b.run (info.sendDelta d).2 = some b' ∧ (info.sendDelta d).1.Matches n' b' := by
  unfold ConvertInfo.sendDelta
  split
  · rename_i hCalls
    obtain ⟨b', hRun, hMatches, -⟩ := h.sendTools (hFirst hCalls) hCalls hNew
    exact ⟨b', hRun, hMatches⟩
  rename_i hCalls
  rw [not_not.mp hCalls] at hNew
  cases hNew
  split
  · exact h.sendPiece .thinking _
  · split
    · exact h.sendPiece .text _
    · exact ⟨b, rfl, h⟩

theorem Matches.stopped (usage : ClaudeUsage) (reason : String) :
    ∃ b', b.run (info.stopOpenBlocks ++ [.messageDelta usage reason, .messageStop]) = some b' ∧
      b.run (info.stopOpenBlocks ++ [.messageStop]) = some b' := by
  obtain ⟨b', hRun, hTools⟩ := h.stop
  have hStop : b'.step .messageStop = some b' := if_pos hTools.opened_nil
  refine ⟨b', ?_, ?_⟩
  · rw [run_append hRun, run_cons rfl, run_singleton, hStop]
  · rw [run_append hRun, run_singleton, hStop]

theorem Matches.close (usage : Option Usage) :
    ∃ b', b.run (info.close r usage) = some b' := by
  cases usage with
  | none =>
    obtain ⟨b', -, hRun⟩ := h.stopped ⟨0, 0, 0, 0, none⟩ ""
    rw [ConvertInfo.close, append_nil]
    exact ⟨b', hRun⟩
  | some u =>
    obtain ⟨b', hRun, -⟩ := h.stopped (buildClaudeUsageFromOpenAIUsage u)
      (r.stopReason info.finishReason)
    rw [ConvertInfo.close, append_assoc]
    exact ⟨b', hRun⟩

end

def Nested (n : Nat) (info : ConvertInfo) (b : Blocks) : Prop :=
  info.done = true ∨ info.Matches n b

structure Clear (n : Nat) (info : ConvertInfo) (c : Chunk) : Prop where
  first : c.delta.toolCalls ≠ [] → info.lastMessagesType ≠ .tools → n = 0
  sent : c.delta.toolCalls ≠ [] → c.finish ≠ none → c.usage ≠ none

theorem Clear.fragments (h : Clear n info c) (hFinish : c.finish ≠ none) (hUsage : c.usage = none) :
    c.fragments = [] := by
  refine Chunk.fragments_of_nil ?_
  by_contra hCalls
  exact h.sent hCalls hFinish hUsage

theorem nested_later (h : info.Matches n b) (hClear : Clear n info c)
    (hNew : c.fragments.foldlM introduce n = some n') :
    ∃ b', b.run (info.laterChunk r c).2 = some b' ∧ (info.laterChunk r c).1.Nested n' b' := by
  have hLater := later_laterChunk r info c
  generalize info.laterChunk r c = result at hLater ⊢
  cases hLater with
  | usage hChoices hUsage hReason =>
    obtain ⟨b', hRun, -⟩ := h.stopped _ _
    exact ⟨b', hRun, .inl rfl⟩
  | nothing hChoices hUsage =>
    rw [Chunk.fragments_of_nil (by rw [Chunk.delta, hChoices]; rfl)] at hNew
    cases hNew
    exact ⟨b, rfl, .inr h⟩
  | delta hChoices hFinish =>
    obtain ⟨b', hRun, hMatches⟩ := h.sendDelta hClear.first hNew
    exact ⟨b', hRun, .inr hMatches⟩
  | held hChoices hFinish hUsage =>
    rw [hClear.fragments (by simp [hFinish]) hUsage] at hNew
    cases hNew
    exact ⟨b, rfl, .inr h⟩
  | @closed reason u sent hChoices hFinish hUsage hSent =>
    have hMatches : { info with finishReason := reason }.Matches n b := h
    obtain ⟨b₁, hRun, hMatches⟩ := hMatches.sendDelta hClear.first hNew
    rw [hSent] at hRun hMatches
    obtain ⟨b', hRun'⟩ := hMatches.close (some u)
    exact ⟨b', (run_append hRun).trans hRun', .inl rfl⟩

end ConvertInfo

/-! ## Streams -/

def Chunk.Speaks (c : Chunk) : Prop :=
  c.delta.getReasoningContent ≠ "" ∨ c.delta.getContentString ≠ ""

/-- A chunk has tool calls or says nothing, and none are held back. -/
structure Chunk.Continues (c : Chunk) : Prop where
  silent : c.delta.toolCalls = [] → ¬ c.Speaks
  sent : c.delta.toolCalls ≠ [] → c.finish ≠ none → c.usage ≠ none

/-- **The tool calls of a stream are unbroken**: they come without text in between. -/
def Unbroken (chunks : List Chunk) : Prop :=
  ∃ before tools after, chunks = before ++ tools ++ after ∧
    (∀ c ∈ before, c.delta.toolCalls = []) ∧ (∀ c ∈ tools, c.Continues) ∧
    (∀ c ∈ after, c.delta.toolCalls = []) ∧
    (before = [] → ∀ c ∈ tools.head?, c.delta.toolCalls.length ≤ 1 ∧ ¬ c.Speaks)

variable {cs : List Chunk}

namespace ConvertInfo

open Blocks

variable {n n' : Nat} {info : ConvertInfo} {b : Blocks} {r : Relay}

def Ready (n : Nat) (info : ConvertInfo) : Prop := info.lastMessagesType ≠ .tools → n = 0

theorem sendDelta_silent (hCalls : d.toolCalls = [])
    (hSilent : ¬ (d.getReasoningContent ≠ "" ∨ d.getContentString ≠ "")) :
    info.sendDelta d = (info, []) := by
  rw [not_or] at hSilent
  rw [sendDelta, if_neg (not_not_intro hCalls), if_neg hSilent.1, if_neg hSilent.2]

theorem ready_sendDelta (h : info.Ready n)
    (hSilent : d.toolCalls = [] → ¬ (d.getReasoningContent ≠ "" ∨ d.getContentString ≠ ""))
    (hNew : (offsets d.toolCalls).foldlM introduce n = some n') :
    (info.sendDelta d).1.Ready n' := by
  by_cases hCalls : d.toolCalls = []
  · rw [sendDelta_silent hCalls (hSilent hCalls)]
    rw [hCalls] at hNew
    cases hNew
    exact h
  rw [sendDelta, if_pos hCalls]
  have hLast : info.openTools.lastMessagesType = .tools := by
    unfold openTools
    split
    · rfl
    · exact not_not.mp ‹_›
  exact fun hOther => absurd hLast hOther

theorem ready_later (h : info.Ready n) (hC : c.Continues)
    (hNew : c.fragments.foldlM introduce n = some n') :
    (info.laterChunk r c).1.done = true ∨ (info.laterChunk r c).1.Ready n' := by
  have hLater := later_laterChunk r info c
  generalize info.laterChunk r c = result at hLater ⊢
  have hClear : Clear n info c := ⟨fun _ => h, hC.sent⟩
  cases hLater with
  | usage hChoices hUsage hReason | closed hChoices hFinish hUsage hSent => exact .inl rfl
  | nothing hChoices hUsage =>
    rw [Chunk.fragments_of_nil (by rw [Chunk.delta, hChoices]; rfl)] at hNew
    cases hNew
    exact .inr h
  | delta hChoices hFinish => exact .inr (ready_sendDelta h hC.silent hNew)
  | held hChoices hFinish hUsage =>
    rw [hClear.fragments (by simp [hFinish]) hUsage] at hNew
    cases hNew
    exact .inr h

/-- The condition on the chunks that follow: they have no tool calls, or go on with them. -/
def Allowed (n : Nat) (info : ConvertInfo) (cs : List Chunk) : Prop :=
  (∀ c ∈ cs, c.delta.toolCalls = []) ∨
    ((info.done = true ∨ info.Ready n) ∧ ∀ c ∈ cs, c.Continues)

theorem nested_chunk (h : info.Nested n b) (hCount : 1 ≤ info.sendResponseCount)
    (hCs : info.Allowed n (c :: cs)) (hNew : c.fragments.foldlM introduce n = some n') :
    ∃ b', b.run (info.handleStreamFormat r c).2 = some b' ∧
      (info.handleStreamFormat r c).1.Nested n' b' ∧
      (info.handleStreamFormat r c).1.Allowed n' cs := by
  cases hOpen : info.done with
  | true =>
    have hNone : info.handleStreamFormat r c = (info.counted c, []) := by
      exact if_pos hOpen
    rw [hNone]
    refine ⟨b, rfl, .inl hOpen, ?_⟩
    rcases hCs with hNone | ⟨-, hTools⟩
    · exact .inl fun c hc => hNone c (mem_cons_of_mem _ hc)
    · exact .inr ⟨.inl hOpen, fun c hc => hTools c (mem_cons_of_mem _ hc)⟩
  | false =>
    have hMatches : (info.counted c).Matches n b := h.resolve_left (by simp [hOpen])
    rw [handleStreamFormat_later r c hOpen hCount]
    rcases hCs with hNone | ⟨hReady, hTools⟩
    · have hCalls := hNone c mem_cons_self
      obtain ⟨b', hRun, hNested⟩ := nested_later hMatches
        ⟨fun hSome => absurd hCalls hSome, fun hSome => absurd hCalls hSome⟩ hNew
      exact ⟨b', hRun, hNested, .inl fun c hc => hNone c (mem_cons_of_mem _ hc)⟩
    have hContinues := hTools c mem_cons_self
    have hReady : (info.counted c).Ready n := hReady.resolve_left (by simp [hOpen])
    obtain ⟨b', hRun, hNested⟩ := nested_later hMatches ⟨fun _ => hReady, hContinues.sent⟩ hNew
    exact ⟨b', hRun, hNested, .inr ⟨ready_later hReady hContinues hNew,
      fun c hc => hTools c (mem_cons_of_mem _ hc)⟩⟩

theorem relayed_nested (h : info.Nested n b) (hCount : 1 ≤ info.sendResponseCount)
    (hCs : info.Allowed n cs) (hNew : (cs.flatMap Chunk.fragments).foldlM introduce n = some n') :
    ∃ b', b.run (info.relayed r cs).2 = some b' ∧ (info.relayed r cs).1.Nested n' b' ∧
      1 ≤ (info.relayed r cs).1.sendResponseCount := by
  induction cs generalizing n info b with
  | nil =>
    cases hNew
    exact ⟨b, rfl, h, hCount⟩
  | cons c cs ih =>
    rw [flatMap_cons, foldlM_append, bind_eq_bind, bind_eq_some_iff] at hNew
    obtain ⟨n₁, hHead, hRest⟩ := hNew
    have hCount₁ : 1 ≤ (info.handleStreamFormat r c).1.sendResponseCount := by
      rw [handleStreamFormat_count]
      exact Nat.le_add_left ..
    obtain ⟨b₁, hRun, hNested, hCs₁⟩ := nested_chunk (r := r) h hCount hCs hHead
    obtain ⟨b', hRun', hRest'⟩ := ih hNested hCount₁ hCs₁ hRest
    exact ⟨b', (run_append hRun).trans hRun', hRest'⟩

theorem firstPiece_eq {last : LastMessageType} (h : info.lastMessagesType ≠ last) (block : Block)
    (piece : String) : info.firstPiece last block piece = info.sendPiece last block piece := by
  simp only [firstPiece, sendPiece, if_pos h]

theorem nested_firstDelta
    (hTools : d.toolCalls = [] ∨
      (d.toolCalls.length ≤ 1 ∧ ¬ (d.getReasoningContent ≠ "" ∨ d.getContentString ≠ "")))
    (hNew : (offsets d.toolCalls).foldlM introduce 0 = some n')
    (hLast : info.lastMessagesType = .none) :
    ∃ b', Blocks.run ⟨[], []⟩ ((info.firstTool d.toolCalls).2 ++
        ((info.firstTool d.toolCalls).1.firstContent d).2) = some b' ∧
      ((info.firstTool d.toolCalls).1.firstContent d).1.Matches n' b' ∧
      ((info.firstTool d.toolCalls).1.firstContent d).1.Ready n' := by
  have hEmpty : ∀ base : Int, Tools base 0 0 ⟨[], []⟩ := fun base =>
    tools_nil rfl (forall_mem_nil _)
  cases hCalls : d.toolCalls with
  | nil =>
    rw [hCalls] at hNew
    cases hNew
    have hMatches : info.Matches 0 ⟨[], []⟩ := by
      simp only [Matches, hLast]
      exact hEmpty _
    have hReady : ∀ info' : ConvertInfo, info'.Ready 0 := fun _ _ => rfl
    rw [firstTool]
    unfold firstContent
    split
    · rw [firstPiece_eq (by simp [hLast])]
      obtain ⟨b', hRun, hMatches⟩ := hMatches.sendPiece .thinking d.getReasoningContent
      exact ⟨b', hRun, hMatches, hReady _⟩
    split
    · rw [firstPiece_eq (by simp [hLast])]
      obtain ⟨b', hRun, hMatches⟩ := hMatches.sendPiece .text d.getContentString
      exact ⟨b', hRun, hMatches, hReady _⟩
    · exact ⟨_, rfl, hMatches, hReady _⟩
  | cons call calls =>
    obtain ⟨hOne, hSilent⟩ := hTools.resolve_left (by simp [hCalls])
    rw [hCalls, length_cons] at hOne
    have hNil : calls = [] := length_eq_zero_iff.mp (by omega)
    rw [hCalls, hNil] at hNew
    obtain ⟨hOffset, hName, rfl⟩ : ToolCall.offset call 0 = 0 ∧ call.name ≠ "" ∧ n' = 1 := by
      have hStep : introduce 0 (ToolCall.offset call 0, call) = some n' := by
        simpa [offsets] using hNew
      rcases introduce_cases hStep with hFirst | ⟨k, hk, -⟩
      · exact hFirst
      · omega
    have hStep : introduce 0 (0, call) = some 1 := if_pos ⟨rfl, hName⟩
    obtain ⟨b', hRun, hOpen⟩ := (hEmpty 0).fragment hStep
    have hEvents : (info.firstTool (call :: calls)).2 = ToolCall.events 0 0 call := by
      rw [ToolCall.events, if_pos hName]
      rfl
    rw [not_or] at hSilent
    rw [firstContent, if_neg hSilent.1, if_neg hSilent.2, append_nil, hEvents]
    exact ⟨b', hRun, ⟨Nat.one_pos, rfl, hOpen⟩, fun hOther => absurd rfl hOther⟩

/-- The client gets through the first chunks of a stream, which have `n` tool calls. -/
def Through (r : Relay) (n : Nat) (chunks : List Chunk) : Prop :=
  ∃ b, Blocks.run ⟨[], []⟩ (start.relayed r chunks).2 = some b ∧
    (start.relayed r chunks).1.Nested n b ∧ 1 ≤ (start.relayed r chunks).1.sendResponseCount

theorem Through.append {chunks : List Chunk} (h : Through r n chunks)
    (hCs : (start.relayed r chunks).1.Allowed n cs)
    (hNew : (cs.flatMap Chunk.fragments).foldlM introduce n = some n') :
    Through r n' (chunks ++ cs) := by
  obtain ⟨b, hRun, hNested, hCount⟩ := h
  obtain ⟨b', hRun', hRest⟩ := relayed_nested (r := r) hNested hCount hCs hNew
  rw [Through, relayed_append]
  exact ⟨b', (run_append hRun).trans hRun', hRest⟩

theorem Through.wellNested {chunks : List Chunk} (h : Through r n chunks) :
    WellNested (start.relayed r chunks).2 := by
  obtain ⟨b, hRun, -⟩ := h
  rw [WellNested, hRun]
  rfl

theorem nested_first (hTools : c.delta.toolCalls = [] ∨ (c.delta.toolCalls.length ≤ 1 ∧ ¬ c.Speaks))
    (hNew : c.fragments.foldlM introduce 0 = some n') :
    Through r n' [c] ∧ (start.relayed r [c]).1.Ready n' := by
  have hCount : (start.relayed r [c]).1.sendResponseCount = 1 := handleStreamFormat_count r c
  obtain ⟨b₁, hRun, hMatches, hReady⟩ :=
    nested_firstDelta hTools hNew (show (start.counted c).lastMessagesType = .none from rfl)
  rw [Through]
  rw [relayed_first] at hCount ⊢
  unfold firstChunk at hCount ⊢
  dsimp only at hCount ⊢
  generalize ((start.counted c).firstTool c.delta.toolCalls).1.firstContent c.delta = content at *
  rw [run_cons rfl, run_append hRun, hCount]
  unfold firstFinish
  split
  · rename_i reason hFinish
    have hMatches' : { content.1 with finishReason := reason }.Matches n' b₁ := hMatches
    obtain ⟨b', hRun'⟩ := hMatches'.close _
    exact ⟨⟨b', hRun', .inl rfl, Nat.le_refl 1⟩, hReady⟩
  · exact ⟨⟨b₁, rfl, .inr hMatches, Nat.le_refl 1⟩, hReady⟩

end ConvertInfo

theorem fragments_eq_nil (h : ∀ c ∈ cs, c.delta.toolCalls = []) :
    cs.flatMap Chunk.fragments = [] :=
  flatMap_eq_nil_iff.mpr fun c hc => Chunk.fragments_of_nil (h c hc)

end NewApi.Stream
