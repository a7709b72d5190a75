import NewApi.Stream.Responses

/-!
# The frame of a message

A Claude stream begins with one `message_start` and ends with one `message_delta`, which has the
stop reason, and one `message_stop`. `oaiStream_framed_iff` says when the handler frames a stream.
-/

namespace NewApi.Stream

open Upstream List

def Event.isMessage : Event → Bool
  | .messageStart .. => true
  | .contentBlockStart .. => false
  | .contentBlockDelta .. => false
  | .contentBlockStop _ => false
  | .messageDelta .. => true
  | .messageStop => true

def Quiet (events : List Event) : Prop := ∀ e ∈ events, e.isMessage = false

def Ends (events : List Event) : Prop :=
  ∃ body usage reason, events = body ++ [.messageDelta usage reason, .messageStop] ∧ reason ≠ "" ∧
    Quiet body

/-- The events begin with the message and end with its end. -/
def Framed (events : List Event) : Prop :=
  ∃ id model usage rest, events = .messageStart id model usage :: rest ∧ Ends rest

/-! ## Events of blocks -/

theorem quiet_nil : Quiet [] := List.forall_mem_nil _

theorem Quiet.append {events events' : List Event} (h : Quiet events) (h' : Quiet events') :
    Quiet (events ++ events') := by
  intro e he
  rcases mem_append.mp he with he | he
  · exact h e he
  · exact h' e he

theorem Quiet.ends {events events' : List Event} (h : Quiet events) (h' : Ends events') :
    Ends (events ++ events') := by
  obtain ⟨body, usage, reason, rfl, hReason, hBody⟩ := h'
  exact ⟨events ++ body, usage, reason, (append_assoc ..).symm, hReason, h.append hBody⟩

variable {events : List Event}

theorem not_ends_of_quiet (h : Quiet events) : ¬ Ends events := by
  rintro ⟨body, usage, reason, rfl, -, -⟩
  have := h .messageStop (by simp)
  cases this

theorem not_ends_of_stop (h : Quiet events) :
    ¬ Ends (events ++ [.messageStop]) := by
  rintro ⟨body, usage, reason, hEq, -, -⟩
  have hSplit : events ++ [.messageStop] = (body ++ [.messageDelta usage reason]) ++
      [Event.messageStop] := by rw [hEq, append_assoc]; rfl
  rw [append_cancel_right hSplit] at h
  have := h (.messageDelta usage reason) (by simp)
  cases this

variable {id model : String}

theorem framed_cons_iff {usage : ClaudeUsage} {rest : List Event} :
    Framed (.messageStart id model usage :: rest) ↔ Ends rest := by
  constructor
  · rintro ⟨id', model', usage', rest', hEq, hEnds⟩
    rw [(cons.inj hEq).2]
    exact hEnds
  · intro hEnds
    exact ⟨id, model, usage, rest, rfl, hEnds⟩

theorem not_framed_of_unstarted (h : Quiet events ∨ Ends events) :
    ¬ Framed events := by
  rintro ⟨id, model, usage, rest, rfl, -⟩
  rcases h with hQuiet | ⟨body, usage', reason, hEq, -, hBody⟩
  · cases hQuiet (.messageStart id model usage) (by simp)
  cases body with cases (cons.inj hEq).1
  | cons e body => cases hBody (.messageStart id model usage) (by simp)

theorem not_framed_of_start {usage : ClaudeUsage} {e : Event}
    (h : Event.messageStart id model usage ∈ events) : ¬ Framed (e :: events) := by
  rintro ⟨id', model', usage', rest, hEq, body, u, reason, rfl, -, hBody⟩
  rw [(cons.inj hEq).2] at h
  simp only [mem_append, mem_cons, not_mem_nil, or_false, reduceCtorEq] at h
  cases hBody _ h

namespace ConvertInfo

variable (info : ConvertInfo)

theorem quiet_stopOpenBlocks : Quiet info.stopOpenBlocks := by
  intro e he
  unfold stopOpenBlocks at he
  split at he
  · cases he
  · rw [mem_singleton.mp he]
    rfl
  · rw [mem_singleton.mp he]
    rfl
  · obtain ⟨offset, -, rfl⟩ := mem_map.mp he
    rfl

/-- What is sent does not touch the usage, the end, the count and the finish reason. -/
structure SameFrame (info info' : ConvertInfo) : Prop where
  usage : info'.usage = info.usage
  done : info'.done = info.done
  count : info'.sendResponseCount = info.sendResponseCount
  reason : info'.finishReason = info.finishReason

structure Calm (result : ConvertInfo × List Event) : Prop extends info.SameFrame result.1 where
  quiet : Quiet result.2

theorem calm_nil : info.Calm (info, []) := ⟨⟨rfl, rfl, rfl, rfl⟩, quiet_nil⟩

theorem calm_advance : info.Calm (info.advance, info.stopOpenBlocks) := by
  refine ⟨?_, info.quiet_stopOpenBlocks⟩
  unfold advance
  split <;> exact ⟨rfl, rfl, rfl, rfl⟩

variable (calls : List ToolCall) (last : LastMessageType) (block : Block) (piece : String)
  (d : Delta)

theorem calm_firstTool : info.Calm (info.firstTool calls) := by
  cases calls with
  | nil => exact info.calm_nil
  | cons call calls =>
    refine ⟨⟨rfl, rfl, rfl, rfl⟩, ?_⟩
    rw [firstTool]
    split <;> simp [Quiet, Event.isMessage]

theorem calm_firstPiece : info.Calm (info.firstPiece last block piece) := by
  unfold firstPiece
  split
  · obtain ⟨⟨hUsage, hDone, hCount, hReason⟩, hQuiet⟩ := info.calm_advance
    exact ⟨⟨hUsage, hDone, hCount, hReason⟩, hQuiet.append (by simp [Quiet, Event.isMessage])⟩
  · exact ⟨⟨rfl, rfl, rfl, rfl⟩, by simp [Quiet, Event.isMessage]⟩

theorem calm_firstContent : info.Calm (info.firstContent d) := by
  unfold firstContent
  split
  · exact info.calm_firstPiece _ _ _
  · split
    · exact info.calm_firstPiece _ _ _
    · exact info.calm_nil

theorem calm_sendTools : info.Calm (info.sendTools calls) := by
  have hQuiet (base : Int) :
      Quiet ((offsets calls).flatMap fun x => ToolCall.events base x.1 x.2) := by
    intro e he
    obtain ⟨x, -, hx⟩ := mem_flatMap.mp he
    rw [ToolCall.events, mem_append] at hx
    rcases hx with hx | hx <;> split at hx
    · rw [mem_singleton.mp hx]
      rfl
    · cases hx
    · rw [mem_singleton.mp hx]
      rfl
    · cases hx
  unfold sendTools openTools
  split
  · obtain ⟨⟨hUsage, hDone, hCount, hReason⟩, hStopped⟩ := info.calm_advance
    exact ⟨⟨hUsage, hDone, hCount, hReason⟩, hStopped.append (hQuiet _)⟩
  · exact ⟨⟨rfl, rfl, rfl, rfl⟩, hQuiet _⟩

theorem calm_sendPiece : info.Calm (info.sendPiece last block piece) := by
  unfold sendPiece
  split
  · obtain ⟨⟨hUsage, hDone, hCount, hReason⟩, hQuiet⟩ := info.calm_advance
    exact ⟨⟨hUsage, hDone, hCount, hReason⟩, hQuiet.append (by simp [Quiet, Event.isMessage])⟩
  · exact ⟨⟨rfl, rfl, rfl, rfl⟩, by simp [Quiet, Event.isMessage]⟩

theorem calm_sendDelta : info.Calm (info.sendDelta d) := by
  unfold sendDelta
  split
  · exact info.calm_sendTools _
  split
  · exact info.calm_sendPiece _ _ _
  · split
    · exact info.calm_sendPiece _ _ _
    · exact info.calm_nil

end ConvertInfo

/-! ## One chunk -/

theorem Relay.stopReason_ne {r : Relay} {reason : String} (h : reason ≠ "") :
    r.stopReason reason ≠ "" := by
  unfold stopReason
  dsimp only
  repeat' split
  all_goals first | decide | exact h

theorem Chunk.finish_ne {c : Chunk} {reason : String} (h : c.finish = some reason) :
    reason ≠ "" := by
  obtain ⟨choice, -, hChoice⟩ := Option.bind_eq_some_iff.mp h
  simpa using (Option.filter_eq_some_iff.mp hChoice).2

theorem Chunk.finish_of_nil {c : Chunk} (h : c.choices = []) : c.finish = none := by
  rw [finish, h]
  rfl

/-- Without choices when a usage is known, or with a finish reason and a usage of its own. -/
def Chunk.Closes (seen : Prop) (c : Chunk) : Prop :=
  (c.choices = [] ∧ seen) ∨ (c.finish ≠ none ∧ c.usage ≠ none)

namespace ConvertInfo

variable (r : Relay) {info : ConvertInfo} (c : Chunk)

theorem ends_close {usage : Usage} (h : info.finishReason ≠ "") :
    Ends (info.close r (some usage)) :=
  ⟨info.stopOpenBlocks, buildClaudeUsageFromOpenAIUsage usage, r.stopReason info.finishReason,
    by simp [close], Relay.stopReason_ne h, info.quiet_stopOpenBlocks⟩

structure StaysOpen (info info' : ConvertInfo) : Prop where
  usage : info'.usage = info.usage
  done : info'.done = false
  count : info'.sendResponseCount = info.sendResponseCount

theorem later_cases (hOpen : info.done = false) :
    (¬ c.Closes (c.usage.or info.usage ≠ none) ∧ Quiet (info.laterChunk r c).2 ∧
      info.StaysOpen (info.laterChunk r c).1) ∨
    (c.Closes (c.usage.or info.usage ≠ none) ∧ Ends (info.laterChunk r c).2 ∧
      (info.laterChunk r c).1.done = true) := by
  have hLater := later_laterChunk r info c
  generalize info.laterChunk r c = result at hLater ⊢
  cases hLater with
  | usage hChoices hUsage hReason =>
    refine .inr ⟨.inl ⟨hChoices, by simp [hUsage]⟩, ?_, rfl⟩
    exact ⟨info.stopOpenBlocks, _, _, rfl, hReason, info.quiet_stopOpenBlocks⟩
  | nothing hChoices hUsage =>
    refine .inl ⟨?_, quiet_nil, rfl, hOpen, rfl⟩
    rintro (⟨-, hSeen⟩ | ⟨hSome, -⟩)
    · exact hSeen hUsage
    · exact hSome (Chunk.finish_of_nil hChoices)
  | delta hChoices hFinish =>
    have hCalm := info.calm_sendDelta c.delta
    refine .inl ⟨?_, hCalm.quiet, hCalm.usage, hCalm.done.trans hOpen, hCalm.count⟩
    rintro (⟨hNil, -⟩ | ⟨hSome, -⟩)
    · exact hChoices hNil
    · exact hSome hFinish
  | held hChoices hFinish hUsage =>
    refine .inl ⟨?_, quiet_nil, rfl, hOpen, rfl⟩
    rintro (⟨hNil, -⟩ | ⟨-, hSome⟩)
    · exact hChoices hNil
    · exact hSome hUsage
  | closed hChoices hFinish hUsage hSent =>
    refine .inr ⟨.inr ⟨by rw [hFinish]; simp, by rw [hUsage]; simp⟩, ?_, rfl⟩
    rw [← hSent]
    refine Quiet.ends (calm_sendDelta _ _).quiet (ends_close _ ?_)
    rw [(calm_sendDelta _ _).reason]
    exact Chunk.finish_ne hFinish

theorem first_cases (hOpen : info.done = false) :
    ∃ id model usage rest, (info.firstChunk r c).2 = .messageStart id model usage :: rest ∧
      ((c.finish = none ∧ Quiet rest ∧ info.StaysOpen (info.firstChunk r c).1) ∨
        (c.finish ≠ none ∧ (info.firstChunk r c).1.done = true ∧
          (Ends rest ↔ c.usage.or info.usage ≠ none))) := by
  refine ⟨_, _, _, _, rfl, ?_⟩
  have hTool := info.calm_firstTool c.delta.toolCalls
  obtain ⟨hContent, hRest⟩ := (info.firstTool c.delta.toolCalls).1.calm_firstContent c.delta
  have hQuiet := hTool.quiet.append hRest
  rw [firstChunk]
  generalize ((info.firstTool c.delta.toolCalls).1.firstContent c.delta).1 = last at hContent ⊢
  have hUsage : last.usage = info.usage := hContent.usage.trans hTool.usage
  cases hFinish : c.finish with simp only [firstFinish, hFinish]
  | none =>
    refine .inl ⟨trivial, hQuiet.append quiet_nil, hUsage, ?_, hContent.count.trans hTool.count⟩
    rw [hContent.done, hTool.done, hOpen]
  | some reason =>
    refine .inr ⟨by simp, trivial, ?_⟩
    rw [hUsage]
    cases c.usage.or info.usage with
    | none =>
      refine iff_of_false ?_ (by simp)
      rw [close, ← append_assoc, append_nil]
      exact not_ends_of_stop (hQuiet.append (quiet_stopOpenBlocks _))
    | some u =>
      refine iff_of_true (hQuiet.ends (ends_close _ ?_)) (by simp)
      exact Chunk.finish_ne hFinish

theorem handleStreamFormat_count :
    (info.handleStreamFormat r c).1.sendResponseCount = info.sendResponseCount + 1 := by
  show ((info.counted c).streamResponseOpenAI2Claude r c).1.sendResponseCount =
    (info.counted c).sendResponseCount
  generalize info.counted c = info
  unfold streamResponseOpenAI2Claude
  split
  · rfl
  split
  · have hTool := info.calm_firstTool c.delta.toolCalls
    have hContent := (info.firstTool c.delta.toolCalls).1.calm_firstContent c.delta
    unfold firstChunk firstFinish
    split <;> exact hContent.count.trans hTool.count
  have hLater := later_laterChunk r info c
  generalize info.laterChunk r c = result at hLater ⊢
  cases hLater with
  | delta hChoices hFinish => exact (info.calm_sendDelta _).count
  | closed hChoices hFinish hUsage hSent =>
    rw [← hSent]
    exact (calm_sendDelta _ _).count
  | _ => rfl

/-! ## Chunks one after the other -/

def ClosesIn (seen : Prop) (cs : List Chunk) : Prop :=
  ∃ earlier c later, cs = earlier ++ c :: later ∧
    c.Closes (seen ∨ ∃ d ∈ earlier ++ [c], d.usage ≠ none)

theorem closesIn_cons {seen : Prop} {c : Chunk} {cs : List Chunk} :
    ClosesIn seen (c :: cs) ↔
      c.Closes (seen ∨ c.usage ≠ none) ∨ ClosesIn (seen ∨ c.usage ≠ none) cs := by
  constructor
  · rintro ⟨earlier, d, later, hEq, hCloses⟩
    rcases cons_eq_append_iff.mp hEq with ⟨rfl, hCons⟩ | ⟨earlier', rfl, hRest⟩
    · rw [(cons.inj hCons).1] at hCloses
      exact .inl (by simpa using hCloses)
    · refine .inr ⟨earlier', d, later, hRest, ?_⟩
      simpa [or_assoc] using hCloses
  · rintro (hCloses | ⟨earlier, d, later, hEq, hCloses⟩)
    · exact ⟨[], c, cs, rfl, by simpa using hCloses⟩
    · refine ⟨c :: earlier, d, later, by rw [hEq, cons_append], ?_⟩
      simpa [or_assoc] using hCloses

theorem not_closesIn_nil {seen : Prop} : ¬ ClosesIn seen [] := by
  rintro ⟨earlier, c, later, hEq, -⟩
  simp at hEq

theorem or_ne_none {α : Type} {x y : Option α} : x.or y ≠ none ↔ y ≠ none ∨ x ≠ none := by
  cases x <;> cases y <;> simp

theorem relayed_cases (cs : List Chunk) (hOpen : info.done = false)
    (hCount : 1 ≤ info.sendResponseCount) :
    (¬ ClosesIn (info.usage ≠ none) cs ∧ Quiet (info.relayed r cs).2 ∧
      (info.relayed r cs).1.done = false ∧
      (info.relayed r cs).1.sendResponseCount = info.sendResponseCount + cs.length) ∨
    (ClosesIn (info.usage ≠ none) cs ∧ Ends (info.relayed r cs).2 ∧
      (info.relayed r cs).1.done = true) := by
  induction cs generalizing info with
  | nil => exact .inl ⟨not_closesIn_nil, quiet_nil, hOpen, rfl⟩
  | cons c cs ih =>
    have hSeen : c.usage.or (info.counted c).usage ≠ none ↔
        (info.usage ≠ none ∨ c.usage ≠ none) := by
      show c.usage.or (c.usage.or info.usage) ≠ none ↔ _
      rw [or_ne_none, or_ne_none, or_assoc, or_self]
    rw [closesIn_cons, relayed, handleStreamFormat_later r c hOpen hCount]
    rcases later_cases r c (show (info.counted c).done = false from hOpen) with
      ⟨hNot, hQuiet, hStays⟩ | ⟨hCloses, hEnds, hDone⟩
    · have hUsage : ((info.counted c).laterChunk r c).1.usage ≠ none ↔
          (info.usage ≠ none ∨ c.usage ≠ none) := by
        rw [hStays.usage]
        exact or_ne_none
      rw [hSeen] at hNot
      rcases ih hStays.done (by rw [hStays.count]; exact Nat.le_add_left ..) with
        ⟨hNone, hRest, hOpen', hCount'⟩ | ⟨hSome, hRest, hDone⟩
      · rw [hUsage] at hNone
        refine .inl ⟨fun h => h.elim hNot hNone, hQuiet.append hRest, hOpen', ?_⟩
        rw [hCount', hStays.count, length_cons]
        show info.sendResponseCount + 1 + cs.length = _
        omega
      · rw [hUsage] at hSome
        exact .inr ⟨.inr hSome, hQuiet.ends hRest, hDone⟩
    · obtain ⟨hNil, hDone'⟩ := relayed_done r hDone cs
      rw [hSeen] at hCloses
      refine .inr ⟨.inl hCloses, ?_, hDone'⟩
      rw [hNil, append_nil]
      exact hEnds

end ConvertInfo

/-! ## The handler -/

variable {info : ConvertInfo}

namespace StreamRelay

variable (env : StreamRelay)

theorem handleFinalResponse_done (h : info.done = true) (c : Chunk) (usage : Usage) :
    env.handleFinalResponse info c usage = [] := by
  exact congrArg Prod.snd (if_pos h)

theorem final_cases (hOpen : info.done = false) (hCount : info.sendResponseCount ≠ 1) (c : Chunk)
    (usage : Usage) :
    (¬ c.Closes True ∧ Quiet (env.handleFinalResponse info c usage)) ∨
      (c.Closes True ∧ Ends (env.handleFinalResponse info c usage)) := by
  rw [handleFinalResponse, ConvertInfo.streamResponseOpenAI2Claude, if_neg (by simp [hOpen]),
    if_neg hCount]
  have hSeen : c.usage.or (some usage) ≠ none ↔ True := by cases c.usage <;> simp
  have hOpen' : { info with usage := some usage }.done = false := hOpen
  rcases ConvertInfo.later_cases env.toRelay c hOpen' with ⟨hNot, hQuiet, -⟩ | ⟨hCloses, hEnds, -⟩
  · rw [hSeen] at hNot
    exact .inl ⟨hNot, hQuiet⟩
  · rw [hSeen] at hCloses
    exact .inr ⟨hCloses, hEnds⟩

/-- **When a stream is framed.** A first chunk with a finish reason needs a usage and a chunk after
it. Otherwise a later one of at least three chunks closes the message. -/
def Frames : List Chunk → Prop
  | [] => False
  | [_] => False
  | first :: second :: rest =>
    (first.finish ≠ none ∧ first.usage ≠ none) ∨
    (first.finish = none ∧ rest ≠ [] ∧
      ∃ earlier c later, second :: rest = earlier ++ c :: later ∧
        c.Closes (later = [] ∨ ∃ d ∈ first :: earlier ++ [c], d.usage ≠ none))

theorem closes_concat_iff {first : Chunk} {cs : List Chunk} {last : Chunk} :
    (∃ earlier c later, cs ++ [last] = earlier ++ c :: later ∧
        c.Closes (later = [] ∨ ∃ d ∈ first :: earlier ++ [c], d.usage ≠ none)) ↔
      ConvertInfo.ClosesIn (first.usage ≠ none) cs ∨ last.Closes True := by
  constructor
  · rintro ⟨earlier, c, later, hEq, hCloses⟩
    cases later using reverseRecOn with
    | nil =>
      rw [(append_inj' hEq rfl).2.symm |> cons.inj |>.1] at hCloses
      exact .inr (by simpa using hCloses)
    | append_singleton later d =>
      rw [← cons_append, ← append_assoc] at hEq
      refine .inl ⟨earlier, c, later, (append_inj' hEq rfl).1, ?_⟩
      simpa using hCloses
  · rintro (⟨earlier, c, later, rfl, hCloses⟩ | hCloses)
    · refine ⟨earlier, c, later ++ [last], by simp, ?_⟩
      simpa using hCloses
    · exact ⟨cs, last, [], rfl, by simpa using hCloses⟩

theorem frames_concat_iff (first : Chunk) (middle : List Chunk) (last : Chunk) :
    Frames (first :: middle ++ [last]) ↔
      (first.finish ≠ none ∧ first.usage ≠ none) ∨
      (first.finish = none ∧ middle ≠ [] ∧
        (ConvertInfo.ClosesIn (first.usage ≠ none) middle ∨ last.Closes True)) := by
  cases middle with
  | nil => simp [Frames]
  | cons second middle =>
    rw [← closes_concat_iff]
    simp [Frames]

theorem framed_open_iff (hOpen : info.done = false) (hCount : info.sendResponseCount = 1)
    {sent : List Event} (hQuiet : Quiet sent) {u : ClaudeUsage} (middle : List Chunk) (last : Chunk)
    (usage : Usage) :
    Framed (.messageStart id model u :: sent ++ (info.relayed env.toRelay middle).2 ++
        env.handleFinalResponse (info.relayed env.toRelay middle).1 last usage) ↔
      middle ≠ [] ∧ (ConvertInfo.ClosesIn (info.usage ≠ none) middle ∨ last.Closes True) := by
  by_cases hMiddle : middle = []
  · -- the last chunk is taken for the first one and starts the message again
    subst hMiddle
    refine iff_of_false ?_ (by simp)
    rw [ConvertInfo.relayed, handleFinalResponse, ConvertInfo.streamResponseOpenAI2Claude,
      if_neg (by simp [hOpen]), if_pos hCount]
    have hOpen' : { info with usage := some usage }.done = false := hOpen
    obtain ⟨id', model', u', rest, hFirst, -⟩ := ConvertInfo.first_cases env.toRelay last hOpen'
    have hAgain : .messageStart id' model' u' ∈
        sent ++ [] ++ .messageStart id' model' u' :: rest := by
      simp
    rw [hFirst]
    exact not_framed_of_start hAgain
  · rw [cons_append, cons_append, framed_cons_iff]
    rcases ConvertInfo.relayed_cases env.toRelay middle hOpen (Nat.le_of_eq hCount.symm) with
      ⟨hNot, hMid, hOpen', hCount'⟩ | ⟨hCloses, hEnds, hDone⟩
    · have hLength := length_pos_of_ne_nil hMiddle
      rcases env.final_cases hOpen' (by omega) last usage with ⟨hLast, hFinal⟩ | ⟨hLast, hFinal⟩
      · refine iff_of_false (not_ends_of_quiet ((hQuiet.append hMid).append hFinal)) ?_
        rintro ⟨-, h | h⟩
        · exact hNot h
        · exact hLast h
      · exact iff_of_true ((hQuiet.append hMid).ends hFinal) ⟨hMiddle, .inr hLast⟩
    · rw [env.handleFinalResponse_done hDone, append_nil]
      exact iff_of_true (hQuiet.ends hEnds) ⟨hMiddle, .inl hCloses⟩

theorem oaiStream_framed_iff (chunks : List Chunk) :
    Framed (env.oaiStreamHandler chunks) ↔ Frames chunks := by
  cases chunks using reverseRecOn with
  | nil => exact iff_of_false (not_framed_of_unstarted (.inl quiet_nil)) id
  | append_singleton cs last =>
    obtain ⟨usage, hSent⟩ := env.oaiStreamHandler_concat cs last
    rw [hSent]
    cases cs with
    | nil =>
      -- nothing has been counted, so the only chunk is not taken for the first one
      refine iff_of_false (not_framed_of_unstarted ?_) id
      have hOpen : ConvertInfo.start.done = false := rfl
      rcases env.final_cases hOpen (by decide) last usage with ⟨-, hQuiet⟩ | ⟨-, hEnds⟩
      · exact .inl hQuiet
      · exact .inr hEnds
    | cons first middle =>
      rw [frames_concat_iff, ← singleton_append, ConvertInfo.relayed_append,
        ConvertInfo.relayed_first]
      obtain ⟨id, model, u, rest, hFirst, ⟨hFinish, hQuiet, hStays⟩ | ⟨hFinish, hDone, hEnds⟩⟩ :=
        ConvertInfo.first_cases env.toRelay first
          (show (ConvertInfo.start.counted first).done = false from rfl)
      · rw [hFirst, env.framed_open_iff hStays.done hStays.count hQuiet, hStays.usage]
        simp [hFinish, ConvertInfo.counted, ConvertInfo.start]
      obtain ⟨hNil, hDone'⟩ := ConvertInfo.relayed_done env.toRelay hDone middle
      rw [hFirst, hNil, env.handleFinalResponse_done hDone', append_nil, append_nil,
        framed_cons_iff, hEnds]
      simp [hFinish, ConvertInfo.counted, ConvertInfo.start]

end StreamRelay

/-! ## Responses -/

namespace ResponsesRelay

variable (env : ResponsesRelay) {s : ResponsesState}

/-- A choice and no usage, and the first chunk has no finish reason. -/
structure Plain (s : ResponsesState) : Prop where
  chunks : ∀ x ∈ s.sent, x.chunk.choices ≠ [] ∧ x.chunk.usage = none
  first : ∀ x ∈ s.sent.head?, x.chunk.finish = none
  started : s.sentStart = true → s.sent ≠ []

theorem Plain.of_same {s' : ResponsesState} (h : Plain s) (hSent : s'.sent = s.sent)
    (hStart : s'.sentStart = s.sentStart) : Plain s' :=
  ⟨hSent ▸ h.chunks, hSent ▸ h.first, fun hStarted => hSent ▸ h.started (hStart ▸ hStarted)⟩

theorem Plain.append {s' : ResponsesState} {x : Sent} (h : Plain s)
    (hSent : s'.sent = s.sent ++ [x]) (hChunk : x.chunk.choices ≠ [] ∧ x.chunk.usage = none)
    (hFirst : s.sent ≠ [] ∨ x.chunk.finish = none) : Plain s' := by
  refine ⟨?_, ?_, fun _ => by rw [hSent]; simp⟩ <;> intro y hy
  · rw [hSent, mem_append, mem_singleton] at hy
    rcases hy with hy | rfl
    · exact h.chunks y hy
    · exact hChunk
  · rw [hSent, head?_append, Option.mem_def, Option.or_eq_some_iff] at hy
    rcases hy with hy | ⟨hNil, hy⟩
    · exact h.first y hy
    · rw [← Option.some.inj hy]
      exact hFirst.resolve_left (not_not_intro (head?_eq_none_iff.mp hNil))

section

variable (h : Plain s)
include h

theorem Plain.sendDelta (d : Delta) : Plain (env.sendDelta s d) :=
  h.append rfl ⟨by simp, rfl⟩ (.inr rfl)

theorem Plain.sendStartIfNeeded :
    Plain (env.sendStartIfNeeded s) ∧ (env.sendStartIfNeeded s).sentStart = true := by
  unfold ResponsesRelay.sendStartIfNeeded
  split
  · exact ⟨h, by assumption⟩
  · refine ⟨h.append rfl ⟨?_, rfl⟩ (.inr rfl), rfl⟩
    simp [generateStartEmptyResponse]

theorem Plain.sendStop (hStart : s.sentStart = true) : Plain (env.sendStop s) := by
  unfold ResponsesRelay.sendStop
  split
  · exact h
  · refine h.append rfl ⟨?_, rfl⟩ (.inl (h.started hStart))
    simp [generateStopResponse]

end

theorem plain_keeps : env.KeepsCalls Plain where
  note h _ _ _ _ _ _ := h.of_same rfl rfl
  start h := (h.sendStartIfNeeded env).1
  summary h _ := h.sendDelta env _
  register h _ _ _ _ _ _ _ := h.of_same rfl rfl
  call h _ := h.sendDelta env _

theorem Plain.onEvent (h : Plain s) (event : ResponsesEvent) : Plain (env.onEvent s event) := by
  unfold ResponsesRelay.onEvent
  split
  · exact h
  refine env.plain_keeps.onType h (fun delta => ?_) (fun ht => ?_) fun _ => h.of_same rfl rfl
  · unfold sendOutputTextDelta
    split
    · refine Plain.sendDelta env ?_ _
      exact (h.sendStartIfNeeded env).1.of_same rfl rfl
    · exact (h.sendStartIfNeeded env).1
  · have hStart := ht.sendStartIfNeeded env
    exact hStart.1.sendStop env hStart.2

theorem plain_handler (events : List ResponsesEvent) :
    Plain (env.oaiResponsesToChatStreamHandler events) := by
  have hRun : ∀ s, Plain s → Plain (events.foldl env.onEvent s) := by
    induction events with
    | nil => exact fun _ h => h
    | cons event events ih => exact fun s h => ih _ (h.onEvent env event)
  have hEnd := hRun env.start ⟨by simp [start], by simp [start], by simp [start]⟩
  unfold oaiResponsesToChatStreamHandler
  generalize events.foldl env.onEvent env.start = s at hEnd ⊢
  unfold afterStream
  split
  · exact hEnd
  have hSame : Plain { s with
      usage := if s.totalTokens = 0 then env.responseText2Usage s.usageText else s.usage } :=
    hEnd.of_same rfl rfl
  have hStart := hSame.sendStartIfNeeded env
  exact hStart.1.sendStop env hStart.2

theorem quiet_toClaude (hOpen : info.done = false) (hCount : 1 ≤ info.sendResponseCount)
    (xs : List Sent) (h : ∀ x ∈ xs, x.chunk.choices ≠ [] ∧ x.chunk.usage = none) :
    Quiet (env.toClaude info xs) := by
  induction xs generalizing info with
  | nil => exact quiet_nil
  | cons x xs ih =>
    obtain ⟨hChoices, hUsage⟩ := h x mem_cons_self
    have hOpen' : ((give info x.usage).counted x.chunk).done = false := hOpen
    have hLater : (give info x.usage).handleStreamFormat env.toRelay x.chunk =
        ((give info x.usage).counted x.chunk).laterChunk env.toRelay x.chunk :=
      ConvertInfo.handleStreamFormat_later env.toRelay x.chunk hOpen hCount
    rw [toClaude, sendToClaude, hLater]
    rcases ConvertInfo.later_cases env.toRelay x.chunk hOpen' with
      ⟨-, hQuiet, hStays⟩ | ⟨hCloses, -, -⟩
    · refine hQuiet.append (ih hStays.done ?_ fun y hy => h y (mem_cons_of_mem _ hy))
      rw [hStays.count]
      exact Nat.le_add_left ..
    · rcases hCloses with ⟨hNil, -⟩ | ⟨-, hSome⟩
      · exact absurd hNil hChoices
      · exact absurd hUsage hSome

/-- **A Claude client of a Responses upstream** is never told that the message has ended. -/
theorem responses_not_framed (events : List ResponsesEvent) :
    ¬ Framed (env.claudeStream events) := by
  have hPlain := env.plain_handler events
  unfold claudeStream
  cases hSent : (env.oaiResponsesToChatStreamHandler events).sent with
  | nil => exact not_framed_of_unstarted (.inl quiet_nil)
  | cons x xs =>
    have hChunks : ∀ y ∈ xs, y.chunk.choices ≠ [] ∧ y.chunk.usage = none := by
      intro y hy
      exact hPlain.chunks y (hSent ▸ mem_cons_of_mem _ hy)
    have hFinish : x.chunk.finish = none := hPlain.first x (by rw [hSent]; rfl)
    have hOpen : ((give .start x.usage).counted x.chunk).done = false := rfl
    have hFirst : env.sendToClaude .start x =
        ((give .start x.usage).counted x.chunk).firstChunk env.toRelay x.chunk := rfl
    rw [toClaude, hFirst]
    obtain ⟨id, model, u, rest, hRest, ⟨-, hQuiet, hStays⟩ | ⟨hSome, -⟩⟩ :=
      ConvertInfo.first_cases env.toRelay x.chunk hOpen
    · rw [hRest, cons_append, framed_cons_iff]
      refine not_ends_of_quiet (hQuiet.append (env.quiet_toClaude hStays.done ?_ xs hChunks))
      rw [hStays.count]
      exact Nat.le_refl 1
    · exact absurd hFinish hSome

end ResponsesRelay

/-! ## Both handlers -/

/-- **A stream of chunks is framed exactly when `Frames`**, and one of Responses events never. -/
theorem message_framed_iff (env : StreamRelay) (chunks : List Chunk) (responses : ResponsesRelay)
    (events : List ResponsesEvent) :
    (Framed (env.oaiStreamHandler chunks) ↔ StreamRelay.Frames chunks) ∧
      ¬ Framed (responses.claudeStream events) :=
  ⟨env.oaiStream_framed_iff chunks, responses.responses_not_framed events⟩

/-- A text, its finish reason and no usage: the client is not told that the message has ended. -/
theorem message_left_open :
    demoRelay.oaiStreamHandler [demoChunk (demoText "") none none,
        demoChunk (demoText "hi") none none, demoChunk noDelta (some "stop") none] =
      [.messageStart "chatcmpl-1" "gpt" ⟨5, 0, 0, 0, none⟩, .contentBlockStart 0 .text,
        .contentBlockDelta 0 .text "hi"] ∧
    ¬ Framed (demoRelay.oaiStreamHandler [demoChunk (demoText "") none none,
        demoChunk (demoText "hi") none none, demoChunk noDelta (some "stop") none]) ∧
    demoResponses.claudeStream [.outputTextDelta "hi", .completed none] =
      [.messageStart "chatcmpl-1" "gpt" ⟨5, 0, 0, 0, none⟩, .contentBlockStart 0 .text,
        .contentBlockDelta 0 .text "hi"] ∧
    ¬ Framed (demoResponses.claudeStream [.outputTextDelta "hi", .completed none]) := by
  have hChat : demoRelay.oaiStreamHandler [demoChunk (demoText "") none none,
        demoChunk (demoText "hi") none none, demoChunk noDelta (some "stop") none] =
      [.messageStart "chatcmpl-1" "gpt" ⟨5, 0, 0, 0, none⟩, .contentBlockStart 0 .text,
        .contentBlockDelta 0 .text "hi"] := by decide
  refine ⟨hChat, ?_, by decide, demoResponses.responses_not_framed _⟩
  rw [hChat, framed_cons_iff]
  exact not_ends_of_quiet (by simp [Quiet, Event.isMessage])

end NewApi.Stream
