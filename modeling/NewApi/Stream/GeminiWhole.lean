import NewApi.Stream.Content
import NewApi.Stream.Gemini

/-!
# A Gemini stream and the whole answer

Line breaks do not count.  `Sums` holds after each event: the content is the text of the events
without a thought, the reasoning all the text of the others, and each tool call has its own index.
-/

namespace NewApi.Stream

open Upstream Go List

inductive Piece where
  | text (s : String)
  | thought (s : String)
  | call (name arguments : String)
  deriving DecidableEq, Repr

namespace Piece

def part : Piece → GeminiPart
  | text s => ⟨none, none, false, s, none, none⟩
  | thought s => ⟨none, none, true, s, none, none⟩
  | call name arguments => ⟨none, some (name, some arguments), false, "", none, none⟩

def texts : Piece → List String
  | text s => if s ≠ "\n" then [s] else []
  | thought _ | call .. => []

def thoughts : Piece → List String
  | thought s => [s]
  | text _ | call .. => []

def said : Piece → List String
  | text s => if s ≠ "\n" then [s] else []
  | thought s => [s]
  | call .. => []

def calls : Piece → List (String × String)
  | call name arguments => [(name, arguments)]
  | text _ | thought _ => []

def isThought : Piece → Bool
  | thought _ => true
  | text _ | call .. => false

end Piece

def strip (s : String) : List Char := s.toList.filter (· ≠ '\n')

def Blank (s : String) : Prop := strip s = []

instance (s : String) : Decidable (Blank s) := inferInstanceAs (Decidable (_ = _))

theorem strip_append (s t : String) : strip (s ++ t) = strip s ++ strip t := by
  rw [strip, String.toList_append, filter_append]
  rfl

theorem strip_join (texts : List String) : strip (join texts '\n') = texts.flatMap strip := by
  induction texts with
  | nil => rfl
  | cons s rest ih =>
    cases rest with
    | nil => simp [join]
    | cons t rest =>
      have hJoin : (join (s :: t :: rest) '\n').toList =
          s.toList ++ '\n' :: (join (t :: rest) '\n').toList := by
        simp [join]
      rw [flatMap_cons, ← ih]
      simp [strip, hJoin]

def reasoningOf (chunks : List Chunk) : String :=
  chunks.foldl (fun acc c => acc ++ c.delta.getReasoningContent) ""

variable (chunks : List Chunk)

theorem reasoningOf_concat (c : Chunk) :
    reasoningOf (chunks ++ [c]) = reasoningOf chunks ++ c.delta.getReasoningContent := by
  simp [reasoningOf]

def begun (chunks : List Chunk) : List (Option Int) :=
  ((chunks.flatMap fun c => c.delta.toolCalls).filter (·.id ≠ "")).map (·.index)

variable (n k : Nat) (xs : List (String × String)) (pieces : List Piece)
  (calls : List (String × String)) (seen : List (List Piece))

namespace GeminiRelay

variable (env : GeminiRelay)

def callsFrom (n k : Nat) : List (String × String) → List ToolCall
  | [] => []
  | (name, arguments) :: rest =>
    ⟨some k, env.callID n, name, arguments⟩ :: callsFrom (n + 1) (k + 1) rest

def chatCalls (n : Nat) : List (String × String) → List ChatCall
  | [] => []
  | (name, arguments) :: rest => ⟨env.callID n, name, arguments⟩ :: chatCalls (n + 1) rest

theorem callID_ne : env.callID n ≠ "" := by
  intro h
  have hLength := congrArg String.length h
  simp [callID] at hLength

theorem callID_injective (h : Function.Injective env.uuid) : Function.Injective env.callID := by
  intro m n hmn
  have hList := congrArg String.toList hmn
  simp only [callID, String.toList_append] at hList
  exact h (String.toList_injective (append_cancel_left hList))

/-! ## The loops over the parts -/

@[simp] theorem callsFrom_length : (env.callsFrom n k xs).length = xs.length := by
  induction xs generalizing n k with
  | nil => rfl
  | cons x xs ih => simp [callsFrom, ih]

theorem streamParts_eq (l : StreamLoop) :
    (pieces.map Piece.part).foldl env.streamPart l =
      { texts := l.texts ++ pieces.flatMap Piece.said
        isTools := l.isTools || (pieces.flatMap Piece.calls).length > 0
        isThought := l.isThought || pieces.any Piece.isThought
        toolCalls := l.toolCalls ++
          env.callsFrom l.made l.toolCalls.length (pieces.flatMap Piece.calls)
        made := l.made + (pieces.flatMap Piece.calls).length } := by
  induction pieces generalizing l with
  | nil => simp [callsFrom]
  | cons p pieces ih =>
    rw [map_cons, foldl_cons, ih]
    cases p with
    | text s =>
      by_cases hs : s = "\n" <;>
        simp [streamPart, Piece.part, Piece.said, Piece.calls, Piece.isThought, hs]
    | thought s => simp [streamPart, Piece.part, Piece.said, Piece.calls, Piece.isThought]
    | call name arguments =>
      simp [streamPart, Piece.part, Piece.said, Piece.calls, Piece.isThought, getResponseToolCall,
        callsFrom]
      omega

theorem wholeParts_eq (l : WholeLoop) :
    ((pieces.map Piece.part).foldl env.wholePart l).texts =
        l.texts ++ pieces.flatMap Piece.texts ∧
      ((pieces.map Piece.part).foldl env.wholePart l).reasoning =
        (pieces.flatMap Piece.thoughts).getLastD l.reasoning ∧
      ((pieces.map Piece.part).foldl env.wholePart l).toolCalls.map ToolCall.chat =
        l.toolCalls.map ToolCall.chat ++ env.chatCalls l.made (pieces.flatMap Piece.calls) := by
  induction pieces generalizing l with
  | nil => simp [chatCalls]
  | cons p pieces ih =>
    obtain ⟨hTexts, hReasoning, hCalls⟩ := ih (env.wholePart l p.part)
    rw [map_cons, foldl_cons, hTexts, hReasoning, hCalls]
    cases p with
    | text s =>
      by_cases hs : s = "\n" <;>
        simp [wholePart, Piece.part, Piece.texts, Piece.calls, Piece.thoughts, hs]
    | thought s =>
      simp [wholePart, Piece.part, Piece.texts, Piece.calls, Piece.thoughts, getLast?_cons]
    | call name arguments =>
      simp [wholePart, Piece.part, Piece.texts, Piece.calls, Piece.thoughts, getResponseToolCall,
        chatCalls, ToolCall.chat]

theorem responseGeminiChat2OpenAI_eq :
    env.responseGeminiChat2OpenAI ⟨pieces.map Piece.part, some "STOP"⟩ =
      ⟨(pieces.flatMap Piece.thoughts).getLastD "", join (pieces.flatMap Piece.texts) '\n',
        env.chatCalls 0 (pieces.flatMap Piece.calls),
        if pieces.flatMap Piece.calls ≠ [] then "tool_calls" else "stop"⟩ := by
  obtain ⟨hTexts, hReasoning, hCalls⟩ := env.wholeParts_eq pieces ⟨[], [], "", "stop", 0⟩
  have hNil : ((pieces.map Piece.part).foldl env.wholePart ⟨[], [], "", "stop", 0⟩).toolCalls = [] ↔
      pieces.flatMap Piece.calls = [] := by
    rw [← map_eq_nil_iff (f := ToolCall.chat), hCalls]
    cases pieces.flatMap Piece.calls <;> simp [chatCalls]
  have hStop : finishOf "STOP" = "stop" := by decide
  simp only [responseGeminiChat2OpenAI, hTexts, hReasoning, hCalls, map_nil, nil_append, ne_eq,
    hNil, Option.map_some, Option.getD_some, hStop]

/-! ## One event -/

def saidIn (pieces : List Piece) : String := join (pieces.flatMap Piece.said) '\n'

def callsIn (pieces : List Piece) : List (String × String) := pieces.flatMap Piece.calls

def eventDelta (pieces : List Piece) (calls : List ToolCall) : Delta :=
  if pieces.any Piece.isThought then ⟨none, some (saidIn pieces), none, calls⟩
  else ⟨some (saidIn pieces), none, none, calls⟩

theorem streamLoop_eq (made : Nat) (pieces : List Piece) (reason : Option String) :
    env.streamLoop made ⟨pieces.map Piece.part, reason⟩ =
      ⟨pieces.flatMap Piece.said, (callsIn pieces).length > 0, pieces.any Piece.isThought,
        env.callsFrom made 0 (callsIn pieces), made + (callsIn pieces).length⟩ := by
  simp [streamLoop, streamParts_eq, callsIn]

theorem streamChoice_eq (made : Nat) (pieces : List Piece) {reason : Option String}
    (hReason : reason = none ∨ reason = some "STOP") :
    env.streamChoice made ⟨pieces.map Piece.part, reason⟩ =
      ⟨eventDelta pieces (env.callsFrom made 0 (callsIn pieces)),
        if (callsIn pieces).length > 0 then some "tool_calls" else none⟩ := by
  have hNone : (reason.filter (· ≠ "STOP")).map finishOf = none := by
    rcases hReason with rfl | rfl <;> rfl
  simp only [streamChoice, streamLoop_eq, hNone, decide_eq_true_eq]
  rfl

/-- The indexes are known of the first `n` ids, and only of them. -/
structure Known (m : ToolIndexes) (n : Nat) : Prop where
  next : m.next = n
  index : ∀ i, m.index (env.callID i) = if i < n then some i else none

variable {env}

theorem Known.assignAll (hUUID : Function.Injective env.uuid) (calls : List (String × String)) :
    ∀ {m : ToolIndexes} {n : Nat} (k : Nat), Known env m n →
      (m.assignAll (env.callsFrom n k calls)).2 = env.callsFrom n n calls ∧
        Known env (m.assignAll (env.callsFrom n k calls)).1 (n + calls.length) := by
  induction calls with
  | nil => exact fun k h => ⟨rfl, h⟩
  | cons call calls ih =>
    intro m n k h
    have hNew : m.index (env.callID n) = none := by rw [h.index, if_neg (lt_irrefl n)]
    have hAssign : m.assign ⟨some k, env.callID n, call.1, call.2⟩ =
        (⟨Function.update m.index (env.callID n) (some m.next), m.next + 1⟩,
          ⟨some n, env.callID n, call.1, call.2⟩) := by
      rw [ToolIndexes.assign, if_neg (env.callID_ne n), hNew, h.next]
    have hKnown : Known env ⟨Function.update m.index (env.callID n) (some m.next), m.next + 1⟩
        (n + 1) := by
      refine ⟨by rw [h.next], fun i => ?_⟩
      show Function.update m.index (env.callID n) (some m.next) (env.callID i) = _
      by_cases hi : i = n
      · subst hi
        rw [Function.update_self, h.next, if_pos (Nat.lt_succ_self _)]
      · rw [Function.update_of_ne (fun hId => hi (env.callID_injective hUUID hId)), h.index]
        congr 1
        exact propext ⟨fun hlt => by omega, fun hlt => by omega⟩
    obtain ⟨hCalls, hRest⟩ := ih (k + 1) hKnown
    simp only [callsFrom, ToolIndexes.assignAll, hAssign, hCalls]
    rw [length_cons, show n + (calls.length + 1) = n + 1 + calls.length by omega]
    exact ⟨trivial, hRest⟩

variable (env)

/-! ## What a client makes of the calls -/

theorem foldl_addCall_new (n : Nat) (acc : List ChatCall) :
    (env.callsFrom n acc.length calls).foldl addCall acc = acc ++ env.chatCalls n calls := by
  induction calls generalizing n acc with
  | nil => simp [callsFrom, chatCalls]
  | cons call calls ih =>
    have hAdd : addCall acc ⟨some acc.length, env.callID n, call.1, call.2⟩ =
        acc ++ [⟨env.callID n, call.1, call.2⟩] := by
      simp [addCall]
    have hRest := ih (n + 1) (acc ++ [⟨env.callID n, call.1, call.2⟩])
    rw [length_append, length_singleton] at hRest
    rw [callsFrom, foldl_cons, hAdd, hRest, append_assoc]
    rfl

theorem modify_length_append {α : Type} (f : α → α) (done : List α) (x : α) (rest : List α) :
    (done ++ x :: rest).modify done.length f = done ++ f x :: rest := by
  induction done with
  | nil => rfl
  | cons y done ih => simp [ih]

theorem foldl_addCall_fill (n : Nat) (done : List ChatCall) :
    ((env.callsFrom n done.length calls).map fun t => { t with id := "", name := "" }).foldl addCall
        (done ++ env.chatCalls n (calls.map fun c => (c.1, ""))) =
      done ++ env.chatCalls n calls := by
  induction calls generalizing n done with
  | nil => simp [callsFrom]
  | cons call calls ih =>
    have hAdd : addCall (done ++ ⟨env.callID n, call.1, ""⟩ ::
          env.chatCalls (n + 1) (calls.map fun c => (c.1, "")))
        ⟨some done.length, "", "", call.2⟩ =
        (done ++ [⟨env.callID n, call.1, call.2⟩]) ++
          env.chatCalls (n + 1) (calls.map fun c => (c.1, "")) := by
      simp [addCall, modify_length_append]
    have hRest := ih (n + 1) (done ++ [⟨env.callID n, call.1, call.2⟩])
    rw [length_append, length_singleton] at hRest
    simp only [callsFrom, map_cons, foldl_cons, chatCalls]
    rw [hAdd, hRest, append_assoc]
    rfl

theorem callsFrom_emptied : (env.callsFrom n k calls).map (fun t => { t with arguments := "" }) =
      env.callsFrom n k (calls.map fun c => (c.1, "")) := by
  induction calls generalizing n k with
  | nil => rfl
  | cons call calls ih => simp [callsFrom, ih]

theorem begun_callsFrom :
    ((env.callsFrom n k calls).filter (·.id ≠ "")).map (·.index) =
      (List.range' k calls.length).map fun i : Nat => some (i : Int) := by
  induction calls generalizing n k with
  | nil => rfl
  | cons call calls ih =>
    rw [callsFrom, filter_cons_of_pos (by simpa using env.callID_ne n), map_cons, ih, length_cons,
      range'_succ, map_cons]

/-! ## A run -/

def shown (pieces : List Piece) : List Char :=
  if pieces.any Piece.isThought then [] else (pieces.flatMap Piece.said).flatMap strip

def thinking (pieces : List Piece) : List Char :=
  if pieces.any Piece.isThought then (pieces.flatMap Piece.said).flatMap strip else []

/-- What chunks add up to, without the line breaks: the text, the reasoning, the tool calls and the
indexes with which they began. -/
@[ext]
structure Totals where
  content : List Char
  reasoning : List Char
  calls : List ChatCall
  begun : List (Option Int)

def totals (chunks : List Chunk) : Totals where
  content := strip (accumulate chunks).content
  reasoning := strip (reasoningOf chunks)
  calls := (accumulate chunks).toolCalls
  begun := Stream.begun chunks

theorem totals_concat (id model : String) (choice : Choice) :
    totals (chunks ++ [⟨id, model, [choice], none⟩]) =
      ⟨(totals chunks).content ++ strip choice.delta.getContentString,
        (totals chunks).reasoning ++ strip choice.delta.getReasoningContent,
        choice.delta.toolCalls.foldl addCall (totals chunks).calls,
        (totals chunks).begun ++ (choice.delta.toolCalls.filter (·.id ≠ "")).map (·.index)⟩ := by
  rw [totals, accumulate_concat, reasoningOf_concat, Completion.add, strip_append, strip_append]
  simp [totals, Stream.begun, Chunk.delta]

def eventTotals (seen : List (List Piece)) : Totals where
  content := seen.flatMap shown
  reasoning := seen.flatMap thinking
  calls := env.chatCalls 0 (seen.flatMap callsIn)
  begun := (List.range' 0 (seen.flatMap callsIn).length).map fun i : Nat => some (i : Int)

structure Sums (s : GeminiState) (seen : List (List Piece)) : Prop where
  known : Known env s.indexes (seen.flatMap callsIn).length
  made : s.made = (seen.flatMap callsIn).length
  count : s.sendResponseCount = 0 ↔ seen = []
  totals : totals s.sent = env.eventTotals seen
  finish : s.finishReason = if callsIn (seen.head?.getD []) ≠ [] then "tool_calls" else "stop"

theorem sums_start : Sums env start [] :=
  ⟨⟨rfl, fun _ => rfl⟩, rfl, by simp [start], rfl, rfl⟩

theorem strip_eventDelta (calls : List ToolCall) :
    strip (eventDelta pieces calls).getContentString = shown pieces ∧
      strip (eventDelta pieces calls).getReasoningContent = thinking pieces ∧
      (eventDelta pieces calls).toolCalls = calls := by
  unfold eventDelta shown thinking saidIn
  split
  · exact ⟨rfl, strip_join _, rfl⟩
  · exact ⟨strip_join _, rfl, rfl⟩

theorem chatCalls_append (ys : List (String × String)) :
    env.chatCalls n (xs ++ ys) = env.chatCalls n xs ++ env.chatCalls (n + xs.length) ys := by
  induction xs generalizing n with
  | nil => rfl
  | cons x xs ih =>
    simp only [cons_append, chatCalls, ih, length_cons]
    rw [show n + 1 + xs.length = n + (xs.length + 1) by omega]

theorem chatCalls_length : (env.chatCalls n xs).length = xs.length := by
  induction xs generalizing n with
  | nil => rfl
  | cons x xs ih => simp [chatCalls, ih]

variable {env}

theorem eventDelta_toolCalls (calls tools : List ToolCall) :
    { eventDelta pieces calls with toolCalls := tools } = eventDelta pieces tools := by
  unfold eventDelta
  split <;> rfl

def eventFinish (pieces : List Piece) : Option String :=
  if (callsIn pieces).length > 0 then some "tool_calls" else none

theorem eventTotals_concat (pieces : List Piece) :
    env.eventTotals (seen ++ [pieces]) =
      ⟨(env.eventTotals seen).content ++ shown pieces,
        (env.eventTotals seen).reasoning ++ thinking pieces,
        (env.eventTotals seen).calls ++
          env.chatCalls (seen.flatMap callsIn).length (callsIn pieces),
        (env.eventTotals seen).begun ++
          (List.range' (seen.flatMap callsIn).length (callsIn pieces).length).map
            fun i : Nat => some (i : Int)⟩ := by
  have hRange := range'_append_1 (s := 0) (m := (seen.flatMap callsIn).length)
    (n := (callsIn pieces).length)
  simp only [eventTotals, chatCalls_append, Nat.zero_add, length_append, ← hRange, map_append,
    flatMap_append, flatMap_cons, flatMap_nil, append_nil]

theorem Sums.of_handleStream {s : GeminiState} {chunk : Chunk} {seen : List (List Piece)}
    (hSeen : seen ≠ []) (hKnown : Known env s.indexes (seen.flatMap callsIn).length)
    (hMade : s.made = (seen.flatMap callsIn).length)
    (hTotals : GeminiRelay.totals (s.sent ++ [chunk]) = env.eventTotals seen)
    (hFinish : s.finishReason =
      if callsIn (seen.head?.getD []) ≠ [] then "tool_calls" else "stop") :
    Sums env (handleStream s chunk) seen :=
  ⟨hKnown, hMade, iff_of_false (Nat.succ_ne_zero _) hSeen, hTotals, hFinish⟩

theorem handleStream_sent (s : GeminiState) (chunk : Chunk) :
    (handleStream s chunk).sent = s.sent ++ [chunk] := rfl

variable (env) in
theorem sendFirst_calls (s : GeminiState) (pieces : List Piece) (finish : Option String)
    {calls : List ToolCall} (hCalls : calls ≠ []) :
    ∃ finish', env.sendFirst s ⟨eventDelta pieces calls, finish⟩ =
      (handleStream { s with finishReason := "tool_calls" }
          ⟨env.id, env.model,
            [⟨⟨some "", none, none, calls.map fun t => { t with arguments := "" }⟩, none⟩], none⟩,
        ⟨eventDelta pieces (calls.map fun t => { t with id := "", name := "" }), finish'⟩) := by
  have hDelta : (eventDelta pieces calls).toolCalls = calls := (strip_eventDelta pieces calls).2.2
  refine ⟨if (Choice.finish ⟨eventDelta pieces calls, finish⟩).isSome then none else finish, ?_⟩
  unfold sendFirst clearToolCalls
  rw [hDelta, if_pos hCalls, eventDelta_toolCalls]

section Step

variable {s : GeminiState} {seen : List (List Piece)} (hUUID : Function.Injective env.uuid)
  (h : Sums env s seen) (pieces : List Piece) {reason : Option String}
  (hReason : reason = none ∨ reason = some "STOP")

include hUUID h hReason

theorem Sums.sendParts_eq :
    ∃ indexes, Known env indexes ((seen ++ [pieces]).flatMap callsIn).length ∧
      env.sendParts s ⟨pieces.map Piece.part, reason⟩ =
        (let s' : GeminiState :=
          { s with indexes := indexes, made := ((seen ++ [pieces]).flatMap callsIn).length }
         let calls := env.callsFrom s.made s.made (callsIn pieces)
         let choice : Choice := ⟨eventDelta pieces calls, eventFinish pieces⟩
         let sent := if s.sendResponseCount = 0 then env.sendFirst s' choice else (s', choice)
         handleStream sent.1 ⟨env.id, env.model, [sent.2], none⟩) := by
  have hKnown := h.known
  rw [← h.made] at hKnown
  obtain ⟨hTools, hNew⟩ := hKnown.assignAll hUUID (callsIn pieces) 0
  have hDelta : (eventDelta pieces (env.callsFrom s.made 0 (callsIn pieces))).toolCalls =
      env.callsFrom s.made 0 (callsIn pieces) := (strip_eventDelta pieces _).2.2
  have hMade : ((seen ++ [pieces]).flatMap callsIn).length =
      s.made + (callsIn pieces).length := by
    rw [flatMap_append, flatMap_singleton, length_append, h.made]
  rw [hMade]
  refine ⟨_, hNew, ?_⟩
  simp only [sendParts, env.streamChoice_eq s.made pieces hReason, streamLoop_eq, hDelta, hTools,
    eventDelta_toolCalls]
  rfl

theorem Sums.later (hSeen : seen ≠ []) :
    Sums env (env.sendParts s ⟨pieces.map Piece.part, reason⟩) (seen ++ [pieces]) := by
  obtain ⟨indexes, hKnown, hParts⟩ := h.sendParts_eq hUUID pieces hReason
  have hCount : s.sendResponseCount ≠ 0 := fun hZero => hSeen (h.count.mp hZero)
  simp only [if_neg hCount] at hParts
  obtain ⟨hContent, hReasoning, hCalls⟩ :=
    strip_eventDelta pieces (env.callsFrom s.made s.made (callsIn pieces))
  have hLength : (env.eventTotals seen).calls.length = s.made := by
    rw [eventTotals, chatCalls_length, h.made]
  rw [hParts]
  refine .of_handleStream (by simp) hKnown rfl ?_ ?_
  · rw [totals_concat, eventTotals_concat, h.totals, hContent, hReasoning, hCalls, begun_callsFrom,
      ← h.made, ← hLength, foldl_addCall_new]
  · obtain ⟨first, rest, rfl⟩ := exists_cons_of_ne_nil hSeen
    exact h.finish

omit h hUUID hReason in
theorem begun_cleared (calls : List ToolCall) :
    ((calls.map fun t => { t with id := "", name := "" }).filter (·.id ≠ "")).map (·.index) =
      [] := by
  rw [map_eq_nil_iff, filter_eq_nil_iff]
  intro t ht
  obtain ⟨t', -, rfl⟩ := mem_map.mp ht
  simp

theorem Sums.first (hSeen : seen = []) :
    Sums env (env.sendParts s ⟨pieces.map Piece.part, reason⟩) (seen ++ [pieces]) := by
  obtain ⟨indexes, hKnown, hParts⟩ := h.sendParts_eq hUUID pieces hReason
  subst hSeen
  have hMade : s.made = 0 := h.made
  simp only [if_pos (h.count.mpr rfl), hMade] at hParts
  rw [hParts]
  by_cases hNone : callsIn pieces = []
  · obtain ⟨hContent, hReasoning, hCalls⟩ := strip_eventDelta pieces []
    simp only [hNone, callsFrom, sendFirst, hCalls, ne_eq, not_true, if_false]
    refine .of_handleStream (by simp) hKnown rfl ?_ ?_
    · rw [handleStream_sent, generateStartEmptyResponse, totals_concat, totals_concat,
        eventTotals_concat, h.totals, hContent, hReasoning, hCalls, hNone]
      rfl
    · rw [nil_append, head?_cons, Option.getD_some, hNone]
      exact h.finish
  · have hSome : env.callsFrom 0 0 (callsIn pieces) ≠ [] := by
      intro hNil
      have hLength := env.callsFrom_length 0 0 (callsIn pieces)
      rw [hNil] at hLength
      exact hNone (length_eq_zero_iff.mp hLength.symm)
    obtain ⟨finish, hFirst⟩ := sendFirst_calls env
      { s with indexes := indexes, made := (([] ++ [pieces]).flatMap callsIn).length } pieces
      (eventFinish pieces) hSome
    rw [hFirst]
    refine .of_handleStream (by simp) hKnown rfl ?_ ?_
    · obtain ⟨hContent, hReasoning, hCalls⟩ := strip_eventDelta pieces
        ((env.callsFrom 0 0 (callsIn pieces)).map fun t => { t with id := "", name := "" })
      have hFill := env.foldl_addCall_fill (callsIn pieces) 0 []
      have hNew := env.foldl_addCall_new ((callsIn pieces).map fun c => (c.1, "")) 0 []
      rw [handleStream_sent, totals_concat, totals_concat, eventTotals_concat, h.totals, hContent,
        hReasoning, hCalls, begun_cleared, callsFrom_emptied, begun_callsFrom, length_map,
        append_nil]
      refine Totals.ext rfl rfl ?_ rfl
      exact (congrArg (fun calls => foldl addCall calls _) hNew).trans hFill
    · rw [nil_append, head?_cons, Option.getD_some, if_pos hNone]
      rfl

theorem Sums.step :
    Sums env (env.sendParts s ⟨pieces.map Piece.part, reason⟩) (seen ++ [pieces]) := by
  by_cases hSeen : seen = []
  · exact h.first hUUID pieces hReason hSeen
  · exact h.later hUUID pieces hReason hSeen

end Step

/-! ## The end of a stream -/

/-- The events of an answer: the last one has the reason `STOP`. -/
def answerEvents (events : List (List Piece)) (last : List Piece) : List GeminiCandidate :=
  (events.map fun pieces => ⟨pieces.map Piece.part, none⟩) ++
    [⟨last.map Piece.part, some "STOP"⟩]

theorem sums_run (hUUID : Function.Injective env.uuid) (events : List (List Piece)) :
    ∀ {s : GeminiState} {seen : List (List Piece)}, Sums env s seen →
      Sums env ((events.map fun pieces => (⟨pieces.map Piece.part, none⟩ : GeminiCandidate)).foldl
        env.onEvent s) (seen ++ events) := by
  induction events with intro s seen h
  | nil => rwa [append_nil]
  | cons pieces events ih =>
    have hParts : Sums env (env.onEvent s ⟨pieces.map Piece.part, none⟩) (seen ++ [pieces]) :=
      h.step hUUID pieces (.inl rfl)
    have hRest := ih hParts
    rwa [append_assoc] at hRest

def received (chunks : List Chunk) : ChatMessage := ⟨reasoningOf chunks, accumulate chunks⟩

theorem received_usage (id model : String) (usage : Option Usage) :
    received (chunks ++ (usage.map (generateFinalUsageResponse id model)).toList) =
        received chunks ∧
      totals (chunks ++ (usage.map (generateFinalUsageResponse id model)).toList) =
        totals chunks := by
  cases usage with
  | none => simp
  | some usage =>
    simp [received, totals, accumulate_concat, reasoningOf_concat, Completion.add, Stream.begun,
      generateFinalUsageResponse, Chunk.delta, Chunk.finish, Delta.getContentString,
      Delta.getReasoningContent]

theorem geminiChatStream_eq (hUUID : Function.Injective env.uuid) (usage : Option Usage)
    (events : List (List Piece)) (last : List Piece) :
    totals (env.geminiChatStream usage (answerEvents events last)) =
        env.eventTotals (events ++ [last]) ∧
      (received (env.geminiChatStream usage (answerEvents events last))).completion.finishReason =
        if callsIn ((events ++ [last]).head?.getD []) ≠ [] then "tool_calls" else "stop" := by
  have hRun := sums_run hUUID events env.sums_start
  have hLast : Sums env (env.sendParts _ ⟨last.map Piece.part, some "STOP"⟩) (events ++ [last]) :=
    hRun.step hUUID last (.inr rfl)
  generalize hState : env.sendParts _ ⟨last.map Piece.part, some "STOP"⟩ = s at hLast
  have hSent : env.geminiChatStream usage (answerEvents events last) =
      s.sent ++ [generateStopResponse env.id env.model s.finishReason] ++
        (usage.map (generateFinalUsageResponse env.id env.model)).toList := by
    rw [geminiChatStream, answerEvents, foldl_append, foldl_cons, foldl_nil, onEvent, hState]
    rfl
  have hFinish : s.finishReason ≠ "" := by
    rw [hLast.finish]
    split <;> decide
  obtain ⟨hReceived, hTotals⟩ := received_usage
    (s.sent ++ [generateStopResponse env.id env.model s.finishReason]) env.id env.model usage
  rw [hSent, hReceived, hTotals]
  refine ⟨?_, ?_⟩
  · rw [generateStopResponse, totals_concat, hLast.totals]
    exact Totals.ext (append_nil _) (append_nil _) rfl (append_nil _)
  · rw [received, accumulate_concat, ← hLast.finish]
    simp [Completion.add, generateStopResponse, Chunk.finish, Choice.finish, Option.filter, hFinish]

/-! ## The comparison -/

/-- Texts are the same up to line breaks, calls in names and arguments. -/
structure SameMessage (m m' : ChatMessage) : Prop where
  reasoning : strip m.reasoning = strip m'.reasoning
  content : strip m.completion.content = strip m'.completion.content
  toolCalls : m.completion.toolCalls.map (fun c => (c.name, c.arguments)) =
    m'.completion.toolCalls.map fun c => (c.name, c.arguments)
  finishReason : m.completion.finishReason = m'.completion.finishReason

theorem flatMap_strip_eq_last_iff (thoughts : List String) :
    thoughts.flatMap strip = strip (thoughts.getLastD "") ↔ ∀ t ∈ thoughts.dropLast, Blank t := by
  rcases eq_nil_or_concat thoughts with rfl | ⟨others, last, rfl⟩
  · simp [strip]
  · simp [Blank]

def textIn (pieces : List Piece) : List Char := (pieces.flatMap Piece.texts).flatMap strip

def thoughtIn (pieces : List Piece) : List Char := (pieces.flatMap Piece.thoughts).flatMap strip

theorem textIn_eq_nil_iff : textIn pieces = [] ↔ ∀ s, Piece.text s ∈ pieces → Blank s := by
  induction pieces with
  | nil => simp [textIn]
  | cons p pieces ih =>
    have hCons : textIn (p :: pieces) = p.texts.flatMap strip ++ textIn pieces := by
      simp [textIn]
    rw [hCons, append_eq_nil_iff, ih]
    cases p with
    | text s =>
      by_cases hs : s = "\n"
      · subst hs
        have hBlank : Blank "\n" := by decide
        simp [Piece.texts, hBlank]
      · simp [Piece.texts, hs, Blank]
    | thought s | call name arguments => simp [Piece.texts]

theorem said_of_no_thought {pieces : List Piece} (h : pieces.any Piece.isThought = false) :
    pieces.flatMap Piece.said = pieces.flatMap Piece.texts ∧
      pieces.flatMap Piece.thoughts = [] := by
  induction pieces with
  | nil => exact ⟨rfl, rfl⟩
  | cons p pieces ih =>
    rw [any_cons, Bool.or_eq_false_iff] at h
    obtain ⟨hSaid, hThoughts⟩ := ih h.2
    rw [flatMap_cons, flatMap_cons, flatMap_cons, hSaid, hThoughts]
    cases p with
    | text s => exact ⟨rfl, rfl⟩
    | thought s => exact absurd h.1 (by simp [Piece.isThought])
    | call name arguments => exact ⟨rfl, rfl⟩

theorem said_of_blank {pieces : List Piece} (h : ∀ s, Piece.text s ∈ pieces → Blank s) :
    (pieces.flatMap Piece.said).flatMap strip = thoughtIn pieces := by
  induction pieces with
  | nil => rfl
  | cons p pieces ih =>
    have hRest := ih fun s hs => h s (mem_cons_of_mem _ hs)
    rw [thoughtIn, flatMap_cons, flatMap_cons, flatMap_append, flatMap_append, hRest]
    cases p with
    | text s =>
      have hBlank : strip s = [] := h s mem_cons_self
      by_cases hs : s = "\n" <;> simp [Piece.said, Piece.thoughts, thoughtIn, hBlank]
    | thought s | call name arguments => rfl

theorem shown_prefix_textIn : shown pieces <+: textIn pieces := by
  unfold shown
  split
  · exact List.nil_prefix
  · rename_i h
    rw [(said_of_no_thought (Bool.not_eq_true _ ▸ h)).1]
    exact List.prefix_rfl

theorem shown_eq_textIn_iff :
    shown pieces = textIn pieces ↔
      ∀ t, Piece.thought t ∈ pieces → ∀ s, Piece.text s ∈ pieces → Blank s := by
  cases hAny : pieces.any Piece.isThought with
  | true =>
    obtain ⟨p, hMem, hThought⟩ := any_eq_true.mp hAny
    obtain ⟨t, rfl⟩ : ∃ t, p = .thought t := by
      cases p with
      | thought t => exact ⟨t, rfl⟩
      | text | call => cases hThought
    rw [shown, if_pos hAny, eq_comm, textIn_eq_nil_iff]
    exact ⟨fun h _ _ => h, fun h => h t hMem⟩
  | false =>
    rw [shown, if_neg (by simp [hAny]), (said_of_no_thought hAny).1]
    refine iff_of_true rfl fun t ht => ?_
    rw [any_eq_false] at hAny
    exact absurd rfl (hAny _ ht)

theorem thinking_eq {pieces : List Piece} (h : shown pieces = textIn pieces) :
    thinking pieces = thoughtIn pieces := by
  cases hAny : pieces.any Piece.isThought with
  | true =>
    rw [shown, if_pos hAny] at h
    rw [thinking, if_pos hAny, said_of_blank ((textIn_eq_nil_iff pieces).mp h.symm)]
  | false =>
    rw [thinking, if_neg (by simp [hAny]), thoughtIn, (said_of_no_thought hAny).2]
    rfl

theorem chatCalls_pairs : (env.chatCalls n calls).map (fun c => (c.name, c.arguments)) = calls := by
  induction calls generalizing n with
  | nil => rfl
  | cons call calls ih => simp [chatCalls, ih]

theorem flatMap_flatten {β : Type} (f : Piece → List β) :
    seen.flatten.flatMap f = seen.flatMap fun event => event.flatMap f := by
  induction seen with
  | nil => rfl
  | cons event seen ih => rw [flatten_cons, flatMap_append, ih, flatMap_cons]

theorem strip_flatten (f : Piece → List String) :
    (seen.flatten.flatMap f).flatMap strip =
      seen.flatMap fun event => (event.flatMap f).flatMap strip := by
  rw [flatMap_flatten, flatMap_assoc]

theorem nodup_begun : (env.eventTotals seen).begun.Nodup := by
  refine List.Nodup.map ?_ (nodup_range' ..)
  intro i j hij
  exact Int.ofNat_inj.mp (Option.some.inj hij)

theorem finish_eq_iff {p q : Prop} [Decidable p] [Decidable q] :
    ((if p then "tool_calls" else "stop") = if q then "tool_calls" else "stop") ↔ (p ↔ q) := by
  by_cases hp : p <;> by_cases hq : q <;> simp [hq]

/-- **A stream says the same as the whole answer exactly when** no event mixes a thought with text,
all thoughts but the last are blank, and the first event has a call if any has. -/
theorem stream_eq_whole_iff (hUUID : Function.Injective env.uuid) (usage : Option Usage)
    (events : List (List Piece)) (last : List Piece) :
    (SameMessage (received (env.geminiChatStream usage (answerEvents events last)))
        (env.responseGeminiChat2OpenAI
          ⟨(events ++ [last]).flatten.map Piece.part, some "STOP"⟩) ∧
      (begun (env.geminiChatStream usage (answerEvents events last))).Nodup) ↔
      (∀ event ∈ events ++ [last], ∀ t, Piece.thought t ∈ event →
          ∀ s, Piece.text s ∈ event → Blank s) ∧
        (∀ t ∈ ((events ++ [last]).flatten.flatMap Piece.thoughts).dropLast, Blank t) ∧
        ((events ++ [last]).flatten.flatMap Piece.calls ≠ [] →
          callsIn ((events ++ [last]).head?.getD []) ≠ []) := by
  obtain ⟨hTotals, hFinish⟩ := geminiChatStream_eq hUUID usage events last
  generalize env.geminiChatStream usage (answerEvents events last) = chunks at hTotals hFinish ⊢
  generalize events ++ [last] = seen at hTotals hFinish ⊢
  have hContent : strip (accumulate chunks).content = seen.flatMap shown :=
    congrArg Totals.content hTotals
  have hReasoning : strip (reasoningOf chunks) = seen.flatMap thinking :=
    congrArg Totals.reasoning hTotals
  have hCalls : (accumulate chunks).toolCalls = env.chatCalls 0 (seen.flatMap callsIn) :=
    congrArg Totals.calls hTotals
  have hBegun : (begun chunks).Nodup := by
    rw [show begun chunks = (env.eventTotals seen).begun from congrArg Totals.begun hTotals]
    exact nodup_begun seen
  have hAllCalls : seen.flatten.flatMap Piece.calls = seen.flatMap callsIn :=
    flatMap_flatten seen Piece.calls
  -- the three conditions are those for the content, the reasoning and the finish reason
  have hShort : ∀ event ∈ seen, shown event <+: textIn event :=
    fun event _ => shown_prefix_textIn event
  have hText : (seen.flatMap shown = seen.flatMap textIn) ↔
      ∀ event ∈ seen, ∀ t, Piece.thought t ∈ event → ∀ s, Piece.text s ∈ event → Blank s := by
    rw [flatMap_eq_iff hShort]
    exact forall₂_congr fun event _ => shown_eq_textIn_iff event
  have hThought : seen.flatMap shown = seen.flatMap textIn → (seen.flatMap thinking =
      strip ((seen.flatten.flatMap Piece.thoughts).getLastD "") ↔
        ∀ t ∈ (seen.flatten.flatMap Piece.thoughts).dropLast, Blank t) := by
    intro hShown
    have hEach := (flatMap_eq_iff hShort).mp hShown
    rw [← flatMap_strip_eq_last_iff, strip_flatten,
      flatMap_congr fun event hEvent => thinking_eq (hEach event hEvent)]
    rfl
  have hReason : (callsIn (seen.head?.getD []) ≠ [] ↔ seen.flatten.flatMap Piece.calls ≠ []) ↔
      (seen.flatten.flatMap Piece.calls ≠ [] → callsIn (seen.head?.getD []) ≠ []) := by
    refine ⟨fun h => h.mpr, fun h => ⟨fun hHead => ?_, h⟩⟩
    rw [hAllCalls]
    cases seen with
    | nil => exact absurd rfl hHead
    | cons event rest =>
      exact fun hNil => hHead (append_eq_nil_iff.mp hNil).1
  have hWhole : strip (join (seen.flatten.flatMap Piece.texts) '\n') = seen.flatMap textIn := by
    rw [strip_join, strip_flatten]
    rfl
  rw [responseGeminiChat2OpenAI_eq]
  constructor
  · rintro ⟨⟨hR, hC, -, hF⟩, -⟩
    have hShown := (hContent.symm.trans hC).trans hWhole
    rw [hFinish] at hF
    exact ⟨hText.mp hShown, (hThought hShown).mp (hReasoning.symm.trans hR),
      hReason.mp (finish_eq_iff.mp hF)⟩
  · rintro ⟨h1, h2, h3⟩
    have hShown := hText.mpr h1
    refine ⟨⟨?_, ?_, ?_, ?_⟩, hBegun⟩
    · exact hReasoning.trans ((hThought hShown).mpr h2)
    · exact (hContent.trans hShown).trans hWhole.symm
    · rw [received, hCalls, chatCalls_pairs, chatCalls_pairs, hAllCalls]
    · rw [hFinish]
      exact finish_eq_iff.mpr (hReason.mpr h3)

def counting : GeminiRelay := ⟨"id", "model", fun n => String.ofList (List.replicate n 'u')⟩

def callFirst : List (List Piece) := [[.thought "a", .call "f" "\x7b\x7d"], [.text "b"]]

theorem callFirst_stream_eq_whole :
    Function.Injective counting.uuid ∧
      SameMessage (received (counting.geminiChatStream none (answerEvents callFirst [.text "c"])))
        (counting.responseGeminiChat2OpenAI
          ⟨(callFirst ++ [[Piece.text "c"]]).flatten.map Piece.part, some "STOP"⟩) := by
  have hUUID : Function.Injective counting.uuid := by
    intro m n h
    simpa [counting] using congrArg String.length h
  refine ⟨hUUID, ((stream_eq_whole_iff hUUID none callFirst _).mpr ⟨?_, by decide, by decide⟩).1⟩
  intro event hEvent t hThought s hText
  simp only [callFirst, cons_append, nil_append, mem_cons, not_mem_nil, or_false] at hEvent
  rcases hEvent with rfl | rfl | rfl <;> simp at hThought
  · simp at hText

/-- A thought beside text, two thoughts, and a call that is not in the first event. -/
theorem stream_differs :
    received (counting.geminiChatStream none (answerEvents [] [.thought "a", .text "b"])) =
        ⟨"a\nb", "", [], "stop"⟩ ∧
      counting.responseGeminiChat2OpenAI
          ⟨[Piece.thought "a", .text "b"].map Piece.part, some "STOP"⟩ =
        ⟨"a", "b", [], "stop"⟩ ∧
      (received (counting.geminiChatStream none
        (answerEvents [[.thought "a"]] [.thought "b"]))).reasoning = "ab" ∧
      (counting.responseGeminiChat2OpenAI
        ⟨[Piece.thought "a", .thought "b"].map Piece.part, some "STOP"⟩).reasoning = "b" ∧
      (received (counting.geminiChatStream none
        (answerEvents [[.text "a"]] [.call "f" "1"]))).completion.finishReason = "stop" ∧
      (counting.responseGeminiChat2OpenAI
        ⟨[Piece.text "a", .call "f" "1"].map Piece.part, some "STOP"⟩).completion.finishReason =
        "tool_calls" := by
  decide +kernel

end GeminiRelay

end NewApi.Stream
