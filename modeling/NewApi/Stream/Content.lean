import NewApi.Stream.Handler

/-!
# What a client is told

`Content` is what some events or chunks say; a fragment of a tool call is found by the index of its
block.  A call sends on less than its chunk when that has several things to say.
-/

namespace NewApi.Stream

open Upstream ConvertInfo List

/-! ## Content -/

@[ext]
structure Content where
  text : List Char
  thinking : List Char
  tools : Int → List Char

namespace Content

def empty : Content := ⟨[], [], fun _ => []⟩

def concat (xs : List Content) : Content :=
  ⟨xs.flatMap text, xs.flatMap thinking, fun j => xs.flatMap (·.tools j)⟩

instance : Append Content :=
  ⟨fun x y => ⟨x.text ++ y.text, x.thinking ++ y.thinking, fun j => x.tools j ++ y.tools j⟩⟩

variable (x y : Content)

@[simp] theorem empty_append : empty ++ x = x := rfl

@[simp] theorem append_empty : x ++ empty = x := by
  ext1
  · exact append_nil _
  · exact append_nil _
  · exact funext fun j => append_nil _

theorem concat_append (xs ys : List Content) : concat (xs ++ ys) = concat xs ++ concat ys := by
  ext1
  · exact flatMap_append
  · exact flatMap_append
  · exact funext fun j => flatMap_append

theorem concat_eq_empty {xs : List Content} (h : ∀ x ∈ xs, x = empty) : concat xs = empty := by
  induction xs with
  | nil => rfl
  | cons x xs ih =>
    rw [forall_mem_cons] at h
    show x ++ concat xs = empty
    rw [h.1, ih h.2, empty_append]

end Content

/-- What an event says, when the first tool call has the block `base`. -/
def Event.said (base : Int) : Event → Content
  | .contentBlockDelta _ .text piece => ⟨piece.toList, [], fun _ => []⟩
  | .contentBlockDelta _ .thinking piece => ⟨[], piece.toList, fun _ => []⟩
  | .contentBlockDelta i .toolUse piece =>
    ⟨[], [], fun j => if i - base = j then piece.toList else []⟩
  | _ => .empty

def contentOf (base : Int) (events : List Event) : Content := .concat (events.map (Event.said base))

def argumentsOf (calls : List (Int × ToolCall)) (j : Int) : List Char :=
  calls.flatMap fun x => if x.1 = j then x.2.arguments.toList else []

def Delta.said (d : Delta) : Content :=
  ⟨d.getContentString.toList, d.getReasoningContent.toList, argumentsOf (offsets d.toolCalls)⟩

@[simp] theorem contentOf_nil (base : Int) : contentOf base [] = .empty := rfl

@[simp] theorem contentOf_cons (base : Int) (e : Event) (events : List Event) :
    contentOf base (e :: events) = e.said base ++ contentOf base events := rfl

theorem contentOf_append (base : Int) (events events' : List Event) :
    contentOf base (events ++ events') = contentOf base events ++ contentOf base events' := by
  rw [contentOf, map_append, Content.concat_append]
  rfl

/-! ## What a call forwards -/

def Delta.first (d : Delta) : Content where
  text := if d.getReasoningContent ≠ "" then [] else d.getContentString.toList
  thinking := d.getReasoningContent.toList
  tools := argumentsOf ((d.toolCalls.take 1).map fun call => (0, call))

def Delta.later (d : Delta) : Content :=
  if d.toolCalls ≠ [] then ⟨[], [], argumentsOf (offsets d.toolCalls)⟩
  else if d.getReasoningContent ≠ "" then ⟨[], d.getReasoningContent.toList, fun _ => []⟩
  else ⟨d.getContentString.toList, [], fun _ => []⟩

/-- **What a call forwards**: nothing after the end, or of a chunk with a finish reason and no
usage. -/
def ConvertInfo.forwarded (info : ConvertInfo) (c : Chunk) : Content :=
  if info.done then .empty
  else if info.sendResponseCount = 1 then c.delta.first
  else if c.finish ≠ none ∧ c.usage = none then .empty
  else c.delta.later

namespace ConvertInfo

variable (r : Relay) (info : ConvertInfo) (base : Int)

theorem contentOf_stopOpenBlocks : contentOf base info.stopOpenBlocks = .empty := by
  refine Content.concat_eq_empty fun x hx => ?_
  obtain ⟨e, he, rfl⟩ := mem_map.mp hx
  unfold stopOpenBlocks at he
  split at he
  · cases he
  · rw [mem_singleton.mp he]
    rfl
  · rw [mem_singleton.mp he]
    rfl
  · obtain ⟨offset, -, rfl⟩ := mem_map.mp he
    rfl

theorem contentOf_close (usage : Option Usage) : contentOf base (info.close r usage) = .empty := by
  cases usage with
  | none | some u =>
    rw [close, contentOf_append, contentOf_append, contentOf_stopOpenBlocks]
    rfl

theorem contentOf_sendPiece (last : LastMessageType) (block : Block) (piece : String) :
    ∃ i, contentOf base (info.sendPiece last block piece).2 =
      (Event.contentBlockDelta i block.type piece).said base := by
  unfold sendPiece
  split
  · refine ⟨info.advance.index, ?_⟩
    rw [contentOf_append, contentOf_stopOpenBlocks]
    exact Content.append_empty _
  · exact ⟨info.index, Content.append_empty _⟩

theorem contentOf_firstPiece (last : LastMessageType) (block : Block) (piece : String) :
    ∃ i, contentOf base (info.firstPiece last block piece).2 =
      (Event.contentBlockDelta i block.type piece).said base := by
  have hStopped :
      contentOf base (if info.lastMessagesType ≠ last then info.stopOpenBlocks else []) =
        .empty := by
    split
    · exact info.contentOf_stopOpenBlocks base
    · rfl
  refine ⟨(if info.lastMessagesType ≠ last then info.advance else info).index, ?_⟩
  rw [firstPiece, contentOf_append, hStopped]
  exact Content.append_empty _

theorem contentOf_toolCall (offset : Int) (call : ToolCall) :
    contentOf base (ToolCall.events base offset call) =
      ⟨[], [], argumentsOf [(offset, call)]⟩ := by
  have hArgs : ∀ j, argumentsOf [(offset, call)] j =
      if offset = j then call.arguments.toList else [] := fun j => append_nil _
  have hStart : contentOf base
      (if call.name ≠ "" then [.contentBlockStart (base + offset) (.toolUse call.id call.name)]
        else []) = .empty := by
    split <;> rfl
  rw [ToolCall.events, contentOf_append, hStart, Content.empty_append]
  split
  · refine Content.ext rfl rfl (funext fun j => ?_)
    show _ = argumentsOf [(offset, call)] j
    rw [hArgs]
    simp [Event.said]
  rename_i hEmpty
  refine Content.ext rfl rfl (funext fun j => ?_)
  show _ = argumentsOf [(offset, call)] j
  rw [hArgs, not_not.mp hEmpty]
  simp [Content.empty]

theorem contentOf_toolCalls (xs : List (Int × ToolCall)) :
    contentOf base (xs.flatMap fun x => ToolCall.events base x.1 x.2) =
      ⟨[], [], argumentsOf xs⟩ := by
  induction xs with
  | nil => rfl
  | cons x xs ih =>
    rw [flatMap_cons, contentOf_append, contentOf_toolCall, ih]
    refine Content.ext rfl rfl (funext fun j => ?_)
    exact flatMap_append.symm

theorem contentOf_sendTools (calls : List ToolCall) :
    contentOf (info.sendTools calls).1.toolCallBaseIndex (info.sendTools calls).2 =
      ⟨[], [], argumentsOf (offsets calls)⟩ := by
  have hStopped : contentOf info.openTools.toolCallBaseIndex
      (if info.lastMessagesType ≠ .tools then info.stopOpenBlocks else []) = .empty := by
    split
    · exact info.contentOf_stopOpenBlocks _
    · rfl
  rw [sendTools, contentOf_append, hStopped, contentOf_toolCalls, Content.empty_append]

theorem contentOf_sendDelta (d : Delta) :
    contentOf (info.sendDelta d).1.toolCallBaseIndex (info.sendDelta d).2 = d.later := by
  unfold sendDelta Delta.later
  split
  · exact info.contentOf_sendTools _
  split
  · exact (info.contentOf_sendPiece _ .thinking .thinking _).choose_spec
  split
  · exact (info.contentOf_sendPiece _ .text .text _).choose_spec
  · rename_i hEmpty
    rw [not_not.mp hEmpty]
    rfl

theorem contentOf_firstContent (d : Delta) :
    contentOf base (info.firstContent d).2 =
      ⟨if d.getReasoningContent ≠ "" then [] else d.getContentString.toList,
        d.getReasoningContent.toList, fun _ => []⟩ := by
  unfold firstContent
  split
  · exact (info.contentOf_firstPiece _ .thinking .thinking _).choose_spec
  rename_i hReasoning
  rw [not_not.mp hReasoning]
  split
  · exact (info.contentOf_firstPiece _ .text .text _).choose_spec
  · rename_i hEmpty
    rw [not_not.mp hEmpty]
    rfl

theorem firstContent_base {d : Delta} (hLast : info.lastMessagesType = .tools)
    (hBase : info.toolCallBaseIndex = 0) : (info.firstContent d).1.toolCallBaseIndex = 0 := by
  unfold firstContent firstPiece advance
  rw [hLast]
  split
  · rfl
  · split
    · rfl
    · exact hBase

theorem contentOf_first (d : Delta) :
    contentOf ((info.firstTool d.toolCalls).1.firstContent d).1.toolCallBaseIndex
      ((info.firstTool d.toolCalls).2 ++ ((info.firstTool d.toolCalls).1.firstContent d).2) =
      d.first := by
  rw [contentOf_append, contentOf_firstContent, Delta.first]
  cases hCalls : d.toolCalls with
  | nil => rfl
  | cons call calls =>
    have hBase : ((info.firstTool (call :: calls)).1.firstContent d).1.toolCallBaseIndex = 0 :=
      firstContent_base _ rfl rfl
    have hTool : contentOf 0 (info.firstTool (call :: calls)).2 =
        ⟨[], [], argumentsOf [(0, call)]⟩ := by
      have hStart : contentOf 0
          (if call.name ≠ "" then [.contentBlockStart 0 (.toolUse call.id call.name)] else []) =
          .empty := by
        split <;> rfl
      rw [← contentOf_toolCall 0 0 call, ToolCall.events, contentOf_append, Int.add_zero, hStart]
      rfl
    rw [hBase, hTool]
    refine Content.ext rfl rfl (funext fun j => ?_)
    exact append_nil _

theorem contentOf_firstFinish (c : Chunk) :
    (info.firstFinish r c).1.toolCallBaseIndex = info.toolCallBaseIndex ∧
      contentOf base (info.firstFinish r c).2 = .empty := by
  unfold firstFinish
  split
  · exact ⟨rfl, contentOf_close ..⟩
  · exact ⟨rfl, rfl⟩

theorem contentOf_firstChunk (c : Chunk) :
    contentOf (info.firstChunk r c).1.toolCallBaseIndex (info.firstChunk r c).2 =
      c.delta.first := by
  rw [← info.contentOf_first, firstChunk]
  generalize (info.firstTool c.delta.toolCalls).1.firstContent c.delta = content
  obtain ⟨hBase, hNone⟩ := content.1.contentOf_firstFinish r content.1.toolCallBaseIndex c
  rw [contentOf_cons, hBase, contentOf_append, hNone, Content.append_empty]
  rfl

theorem later_of_nil {c : Chunk} (h : c.choices = []) : c.delta.later = .empty := by
  rw [Chunk.delta, h]
  rfl

theorem contentOf_laterChunk (c : Chunk) :
    contentOf (info.laterChunk r c).1.toolCallBaseIndex (info.laterChunk r c).2 =
      if c.finish ≠ none ∧ c.usage = none then .empty else c.delta.later := by
  have hLater := later_laterChunk r info c
  generalize info.laterChunk r c = result at hLater ⊢
  cases hLater with
  | usage hChoices hUsage hReason =>
    rw [contentOf_append, contentOf_stopOpenBlocks, later_of_nil hChoices, ite_self]
    rfl
  | nothing hChoices hUsage =>
    rw [later_of_nil hChoices, ite_self]
    rfl
  | delta hChoices hFinish =>
    rw [if_neg fun h => h.1 hFinish]
    exact info.contentOf_sendDelta _
  | held hChoices hFinish hUsage =>
    rw [if_pos ⟨by simp [hFinish], hUsage⟩]
    rfl
  | closed hChoices hFinish hUsage hSent =>
    rw [if_neg fun h => by simp [hUsage] at h, contentOf_append, contentOf_close,
      Content.append_empty, ← hSent]
    exact contentOf_sendDelta _ _

theorem content_call (c : Chunk) :
    contentOf (info.streamResponseOpenAI2Claude r c).1.toolCallBaseIndex
      (info.streamResponseOpenAI2Claude r c).2 = info.forwarded c := by
  unfold streamResponseOpenAI2Claude forwarded
  split
  · rfl
  · split
    · exact info.contentOf_firstChunk r c
    · exact info.contentOf_laterChunk r c

end ConvertInfo

/-! ## Pieces that are dropped -/

section

variable {α β : Type} {f g : α → List β} {xs : List α}

theorem length_flatMap_le (h : ∀ x ∈ xs, f x <+: g x) :
    (xs.flatMap f).length ≤ (xs.flatMap g).length := by
  induction xs with
  | nil => exact Nat.le_refl _
  | cons x xs ih =>
    rw [forall_mem_cons] at h
    rw [flatMap_cons, flatMap_cons, length_append, length_append]
    exact Nat.add_le_add h.1.length_le (ih h.2)

theorem flatMap_eq_iff (h : ∀ x ∈ xs, f x <+: g x) :
    xs.flatMap f = xs.flatMap g ↔ ∀ x ∈ xs, f x = g x := by
  constructor
  · intro hEq
    induction xs with
    | nil => exact forall_mem_nil _
    | cons x xs ih =>
      rw [forall_mem_cons] at h ⊢
      obtain ⟨rest, hRest⟩ := h.1
      rw [flatMap_cons, flatMap_cons, ← hRest, append_assoc] at hEq
      have hTail := append_cancel_left hEq
      have hNil : rest = [] := by
        have hLe := length_flatMap_le h.2
        rw [hTail, length_append] at hLe
        exact length_eq_zero_iff.mp (by omega)
      rw [hNil] at hTail
      exact ⟨by rw [← hRest, hNil, append_nil], ih h.2 hTail⟩
  · intro hEach
    exact flatMap_congr hEach

end

/-- A call only drops things; the first one can mistake a tool call. -/
structure Content.Within (x y : Content) : Prop where
  text : x.text <+: y.text
  thinking : x.thinking <+: y.thinking
  tools : ∀ j ≠ 0, x.tools j <+: y.tools j
  first : (∀ j ≠ 0, x.tools j = y.tools j) → x.tools 0 <+: y.tools 0

theorem Content.concat_eq_iff {α : Type} {f g : α → Content} {xs : List α}
    (h : ∀ x ∈ xs, (f x).Within (g x)) :
    concat (xs.map f) = concat (xs.map g) ↔ ∀ x ∈ xs, f x = g x := by
  constructor
  · intro hEq
    have hParts : ∀ part : Content → List Char, (∀ x ∈ xs, part (f x) <+: part (g x)) →
        (xs.map f).flatMap part = (xs.map g).flatMap part → ∀ x ∈ xs, part (f x) = part (g x) := by
      intro part hPart hSame
      rw [flatMap_map, flatMap_map] at hSame
      exact (flatMap_eq_iff hPart).mp hSame
    have hText := hParts Content.text (fun x hx => (h x hx).text) (congrArg Content.text hEq)
    have hThinking := hParts Content.thinking (fun x hx => (h x hx).thinking)
      (congrArg Content.thinking hEq)
    have hTools : ∀ j ≠ 0, ∀ x ∈ xs, (f x).tools j = (g x).tools j := fun j hj =>
      hParts (·.tools j) (fun x hx => (h x hx).tools j hj) (congrFun (congrArg Content.tools hEq) j)
    have hFirst := hParts (·.tools 0) (fun x hx => (h x hx).first fun j hj => hTools j hj x hx)
      (congrFun (congrArg Content.tools hEq) 0)
    intro x hx
    refine Content.ext (hText x hx) (hThinking x hx) (funext fun j => ?_)
    by_cases hj : j = 0
    · rw [hj]
      exact hFirst x hx
    · exact hTools j hj x hx
  · intro hEach
    rw [map_congr_left hEach]

theorem Content.empty_within (y : Content) : empty.Within y :=
  ⟨List.nil_prefix, nil_prefix, fun _ _ => nil_prefix, fun _ => nil_prefix⟩

theorem Delta.later_within (d : Delta) : d.later.Within d.said := by
  unfold later
  split
  · exact ⟨List.nil_prefix, nil_prefix, fun _ _ => prefix_rfl, fun _ => prefix_rfl⟩
  · split
    · exact ⟨List.nil_prefix, prefix_rfl, fun _ _ => nil_prefix, fun _ => nil_prefix⟩
    · exact ⟨prefix_rfl, nil_prefix, fun _ _ => nil_prefix, fun _ => nil_prefix⟩

theorem Delta.first_tools {d : Delta} {call : ToolCall} {calls : List ToolCall}
    (h : d.toolCalls = call :: calls) (j : Int) :
    d.first.tools j = (if 0 = j then call.arguments.toList else []) ∧
      (if ToolCall.offset call 0 = j then call.arguments.toList else []) <+: d.said.tools j := by
  constructor
  · show argumentsOf ((d.toolCalls.take 1).map fun call => (0, call)) j = _
    rw [h]
    exact append_nil _
  · show _ <+: argumentsOf (offsets d.toolCalls) j
    rw [h]
    exact prefix_append ..

theorem Delta.first_within (d : Delta) : d.first.Within d.said := by
  have hText : d.first.text <+: d.said.text := by
    unfold first
    split
    · exact nil_prefix
    · exact prefix_rfl
  cases hCalls : d.toolCalls with
  | nil =>
    have hNone : ∀ j, d.first.tools j = [] := by
      intro j
      show argumentsOf ((d.toolCalls.take 1).map fun call => (0, call)) j = _
      rw [hCalls]
      rfl
    exact ⟨hText, prefix_rfl, fun j _ => hNone j ▸ nil_prefix, fun _ => hNone 0 ▸ nil_prefix⟩
  | cons call calls =>
    refine ⟨hText, prefix_rfl, fun j hj => ?_, fun hOther => ?_⟩
    · rw [(first_tools hCalls j).1, if_neg hj.symm]
      exact nil_prefix
    rw [(first_tools hCalls 0).1]
    by_cases hOffset : ToolCall.offset call 0 = 0
    · have hPrefix := (first_tools hCalls 0).2
      rwa [if_pos hOffset] at hPrefix
    -- its arguments would be missing at its own index
    have hOwn := (first_tools hCalls (ToolCall.offset call 0)).2
    rw [if_pos rfl, ← hOther _ hOffset, (first_tools hCalls _).1, if_neg (Ne.symm hOffset)] at hOwn
    rw [prefix_nil.mp hOwn]
    exact nil_prefix

theorem ConvertInfo.forwarded_within (info : ConvertInfo) (c : Chunk) :
    (info.forwarded c).Within c.delta.said := by
  unfold forwarded
  split
  · exact Content.empty_within _
  split
  · exact c.delta.first_within
  · split
    · exact Content.empty_within _
    · exact c.delta.later_within

/-! ## The calls of the handler -/

structure Call where
  info : ConvertInfo
  chunk : Chunk

namespace Call

def events (r : Relay) (x : Call) : List Event := (x.info.streamResponseOpenAI2Claude r x.chunk).2

def told (r : Relay) (x : Call) : Content :=
  contentOf (x.info.streamResponseOpenAI2Claude r x.chunk).1.toolCallBaseIndex (x.events r)

end Call

def ConvertInfo.calls (r : Relay) (info : ConvertInfo) : List Chunk → List Call
  | [] => []
  | c :: cs => ⟨info.counted c, c⟩ :: (info.handleStreamFormat r c).1.calls r cs

theorem ConvertInfo.relayed_calls (r : Relay) (info : ConvertInfo) (cs : List Chunk) :
    (info.relayed r cs).2 = (info.calls r cs).flatMap (Call.events r) ∧
      (info.calls r cs).map Call.chunk = cs := by
  induction cs generalizing info with
  | nil => exact ⟨rfl, rfl⟩
  | cons c cs ih =>
    obtain ⟨hEvents, hChunks⟩ := ih (info.handleStreamFormat r c).1
    rw [relayed, calls, map_cons, hChunks, hEvents]
    exact ⟨rfl, rfl⟩

namespace StreamRelay

variable (env : StreamRelay)

def calls (chunks : List Chunk) : List Call :=
  let s := chunks.foldl env.onData .start
  match s.lastStreamData with
  | some last =>
    ConvertInfo.start.calls env.toRelay chunks.dropLast ++
      [⟨{ s.info with usage := some (env.finalUsage s last) }, last⟩]
  | none => []

theorem oaiStreamHandler_calls (chunks : List Chunk) :
    env.oaiStreamHandler chunks = (env.calls chunks).flatMap (Call.events env.toRelay) ∧
      (env.calls chunks).map Call.chunk = chunks := by
  cases chunks using reverseRecOn with
  | nil => exact ⟨rfl, rfl⟩
  | append_singleton cs c =>
    obtain ⟨hLast, hInfo, hSent⟩ := env.foldl_onData cs c
    obtain ⟨hEvents, hChunks⟩ := ConvertInfo.start.relayed_calls env.toRelay cs
    simp only [oaiStreamHandler, calls, hLast, hSent, hEvents, dropLast_concat, flatMap_append,
      map_append, hChunks]
    exact ⟨by simp [handleFinalResponse, Call.events], rfl⟩

def told (chunks : List Chunk) : Content := .concat ((env.calls chunks).map (Call.told env.toRelay))

/-- **The client is told everything** exactly if each call forwards all that its chunk says. -/
theorem content_conserved_iff (chunks : List Chunk) :
    env.oaiStreamHandler chunks = (env.calls chunks).flatMap (Call.events env.toRelay) ∧
      (env.told chunks = .concat (chunks.map (·.delta.said)) ↔
        ∀ x ∈ env.calls chunks, x.info.forwarded x.chunk = x.chunk.delta.said) := by
  obtain ⟨hEvents, hChunks⟩ := env.oaiStreamHandler_calls chunks
  refine ⟨hEvents, ?_⟩
  have hTold : ∀ x ∈ env.calls chunks, x.told env.toRelay = x.info.forwarded x.chunk := fun x _ =>
    x.info.content_call env.toRelay x.chunk
  have hSaid : chunks.map (·.delta.said) = (env.calls chunks).map fun x => x.chunk.delta.said := by
    conv_lhs => rw [← hChunks, map_map]
    rfl
  rw [told, map_congr_left hTold, hSaid]
  exact Content.concat_eq_iff fun x _ => x.info.forwarded_within x.chunk

/-- Text that shares a chunk with a tool call is dropped. -/
theorem content_dropped :
    (demoRelay.told [demoChunk (demoText "") none none,
        demoChunk ⟨some "hi", none, none, [⟨some 0, "call_1", "f", "1"⟩]⟩ none none,
        demoChunk (demoText "") (some "tool_calls") (some (.ofTokens 5 1))]).text = [] ∧
    (Content.concat ([demoChunk (demoText "") none none,
        demoChunk ⟨some "hi", none, none, [⟨some 0, "call_1", "f", "1"⟩]⟩ none none,
        demoChunk (demoText "") (some "tool_calls") (some (.ofTokens 5 1))].map
          (·.delta.said))).text = ['h', 'i'] := by
  decide

end StreamRelay

end NewApi.Stream
