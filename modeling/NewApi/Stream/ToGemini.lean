import Mathlib.Data.List.Nodup

/-!
# Chat chunks as Gemini responses

`StreamResponseOpenAI2Gemini` converts each chunk by itself.  Every fragment of a tool call becomes
a function call, with the text of the fragment as arguments if that is no JSON object; a delta with
tool calls is sent without its text.
-/

namespace NewApi.Stream.ToGemini

open List

structure ToolCall where
  index : Nat
  name : String
  arguments : String
  deriving DecidableEq, Repr

structure Choice where
  index : Nat
  content : String
  toolCalls : Option (List ToolCall)
  finishReason : Option String

/-- What a text decodes to, the empty object, and the one that holds a text under `arguments`.  An
empty text is no JSON. -/
structure Objects (α : Type) where
  unmarshal : String → Option α
  unmarshal_empty : unmarshal "" = none
  empty : α
  withArguments : String → α

inductive Part (α : Type) where
  | text (text : String)
  | functionCall (name : String) (arguments : α)

variable {α : Type} (env : Objects α)

def convertToolCall (t : ToolCall) : Part α :=
  .functionCall t.name <|
    if t.arguments ≠ "" then (env.unmarshal t.arguments).getD (env.withArguments t.arguments)
    else env.empty

def convertChoice (choice : Choice) : List (Part α) :=
  match choice.toolCalls with
  | some toolCalls => toolCalls.map (convertToolCall env)
  | none => if choice.content ≠ "" then [.text choice.content] else []

/-- The parts of the candidates; `none` where nothing is sent. -/
def streamResponseOpenAI2Gemini (choices : List Choice) : Option (List (List (Part α))) :=
  if choices.any (fun c => c.content ≠ "" ∨ c.toolCalls.getD [] ≠ []) ∨
      choices.any (·.finishReason.isSome) then
    some (choices.map (convertChoice env))
  else none

def received (chunks : List (List Choice)) : List (Part α) :=
  chunks.flatMap fun choices => ((streamResponseOpenAI2Gemini env choices).getD []).flatten

def Part.call? : Part α → Option (String × α)
  | .functionCall name arguments => some (name, arguments)
  | .text _ => none

def Part.text? : Part α → Option String
  | .functionCall .. => none
  | .text t => some t

/-! ## What the upstream said -/

/-- The number of the choice and the fragment. -/
abbrev Fragment := Nat × ToolCall

def Fragment.key (t : Fragment) : Nat × Nat := (t.1, t.2.index)

/-- A fragment continues the call of the same choice and index, or begins one. -/
def assemble (calls : List Fragment) (t : Fragment) : List Fragment :=
  if ∃ c ∈ calls, c.key = t.key then
    calls.map fun c =>
      if c.key = t.key then
        (c.1, ⟨c.2.index, c.2.name ++ t.2.name, c.2.arguments ++ t.2.arguments⟩)
      else c
  else calls ++ [t]

def fragments (chunks : List (List Choice)) : List Fragment :=
  chunks.flatMap fun choices => choices.flatMap fun c => (c.toolCalls.getD []).map (c.index, ·)

def texts (chunks : List (List Choice)) : List String :=
  chunks.flatMap fun choices => choices.flatMap fun c => if c.content ≠ "" then [c.content] else []

theorem received_eq (chunks : List (List Choice)) :
    received env chunks = chunks.flatMap fun choices => choices.flatMap (convertChoice env) := by
  refine flatMap_congr fun choices _ => ?_
  unfold streamResponseOpenAI2Gemini
  split
  · rw [Option.getD_some, flatMap_def]
  rename_i hNone
  -- a chunk that is skipped has no parts
  refine (flatMap_eq_nil_iff.mpr fun c hc => ?_).symm
  simp only [any_eq_true, not_or, not_exists, not_and, decide_eq_true_eq, not_not] at hNone
  obtain ⟨hContent, hCalls⟩ := hNone.1 c hc
  unfold convertChoice
  cases hTool : c.toolCalls with
  | none => simp [hContent]
  | some toolCalls =>
    rw [hTool] at hCalls
    simp [show toolCalls = [] from hCalls]

theorem assemble_distinct {ts calls : List Fragment} (h : ((calls ++ ts).map Fragment.key).Nodup) :
    ts.foldl assemble calls = calls ++ ts := by
  induction ts generalizing calls with
  | nil => simp
  | cons t ts ih =>
    have hNew : ¬∃ c ∈ calls, c.key = t.key := by
      rintro ⟨c, hc, hIndex⟩
      rw [map_append, nodup_append] at h
      exact h.2.2 _ (mem_map_of_mem hc) _ (mem_map_of_mem mem_cons_self) hIndex
    rw [foldl_cons, assemble, if_neg hNew, ih (by simpa using h)]
    simp

theorem length_assemble_le (ts calls : List Fragment) :
    (ts.foldl assemble calls).length ≤ calls.length + ts.length := by
  induction ts generalizing calls with
  | nil => exact Nat.le_refl _
  | cons t ts ih =>
    have hStep : (assemble calls t).length ≤ calls.length + 1 := by
      unfold assemble
      split
      · rw [length_map]
        exact Nat.le_succ _
      · rw [length_append]
        exact Nat.le_refl _
    have hRest := ih (assemble calls t)
    rw [foldl_cons, length_cons]
    omega

/-- Only calls in one piece are as many as their fragments. -/
theorem nodup_of_length_assemble {ts calls : List Fragment} (h : (calls.map Fragment.key).Nodup)
    (hLength : (ts.foldl assemble calls).length = calls.length + ts.length) :
    ((calls ++ ts).map Fragment.key).Nodup := by
  induction ts generalizing calls with
  | nil => simpa using h
  | cons t ts ih =>
    rw [foldl_cons, length_cons] at hLength
    have hBound := length_assemble_le ts (assemble calls t)
    by_cases hOld : ∃ c ∈ calls, c.key = t.key
    · have hSame : (assemble calls t).length = calls.length := by
        rw [assemble, if_pos hOld, length_map]
      omega
    · have hNew : assemble calls t = calls ++ [t] := if_neg hOld
      rw [hNew] at hLength
      have hKeys : ((calls ++ [t]).map Fragment.key).Nodup := by
        rw [map_append, nodup_append]
        refine ⟨h, nodup_singleton _, ?_⟩
        rintro x hx y hy rfl
        obtain ⟨c, hc, rfl⟩ := mem_map.mp hx
        exact hOld ⟨c, hc, mem_singleton.mp hy⟩
      have hAll := ih hKeys (by rw [hLength, length_append, length_singleton]; omega)
      rwa [append_assoc] at hAll

theorem flatMap_sublist {β γ : Type} {f g : β → List γ} {l : List β} (h : ∀ x ∈ l, f x <+ g x) :
    l.flatMap f <+ l.flatMap g := by
  induction l with
  | nil => exact .slnil
  | cons x l ih =>
    rw [flatMap_cons, flatMap_cons]
    exact (h x mem_cons_self).append (ih fun y hy => h y (mem_cons_of_mem _ hy))

theorem flatMap_eq_iff_of_sublist {β γ : Type} {f g : β → List γ} {l : List β}
    (h : ∀ x ∈ l, f x <+ g x) : l.flatMap f = l.flatMap g ↔ ∀ x ∈ l, f x = g x := by
  refine ⟨fun hEq => ?_, flatMap_congr⟩
  induction l with
  | nil => exact nofun
  | cons x l ih =>
    have hHead := h x mem_cons_self
    have hRest := fun y hy => h y (mem_cons_of_mem x hy)
    have hTail := flatMap_sublist hRest
    rw [flatMap_cons, flatMap_cons] at hEq
    have hLength := congrArg length hEq
    rw [length_append, length_append] at hLength
    have hHeadLe := hHead.length_le
    have hTailLe := hTail.length_le
    rw [forall_mem_cons]
    exact ⟨hHead.eq_of_length (by omega),
      ih hRest (hTail.eq_of_length (by omega))⟩

theorem calls_received (chunks : List (List Choice)) :
    (received env chunks).filterMap Part.call? =
      (fragments chunks).filterMap fun t => (convertToolCall env t.2).call? := by
  rw [received_eq, fragments]
  simp only [filterMap_flatMap]
  refine flatMap_congr fun choices _ => flatMap_congr fun c _ => ?_
  cases hTool : c.toolCalls with
  | none => by_cases hEmpty : c.content = "" <;> simp [convertChoice, hTool, hEmpty, Part.call?]
  | some toolCalls =>
    simp only [convertChoice, hTool, filterMap_map, Option.getD_some]
    rfl

theorem texts_received_iff (chunks : List (List Choice)) :
    (received env chunks).filterMap Part.text? = texts chunks ↔
      ∀ choices ∈ chunks, ∀ c ∈ choices, c.content ≠ "" → c.toolCalls = none := by
  have hChoice (c : Choice) : (convertChoice env c).filterMap Part.text? =
      if c.toolCalls = none then (if c.content ≠ "" then [c.content] else []) else [] := by
    cases hTool : c.toolCalls with
    | none => by_cases hEmpty : c.content = "" <;> simp [convertChoice, hTool, hEmpty, Part.text?]
    | some toolCalls =>
      simp [convertChoice, hTool, convertToolCall, Function.comp_def, Part.text?]
  have hSub (c : Choice) : (convertChoice env c).filterMap Part.text? <+
      if c.content ≠ "" then [c.content] else [] := by
    rw [hChoice]
    split
    · exact Sublist.refl _
    · exact nil_sublist _
  have hOne (c : Choice) : (convertChoice env c).filterMap Part.text? =
      (if c.content ≠ "" then [c.content] else []) ↔ (c.content ≠ "" → c.toolCalls = none) := by
    rw [hChoice]
    by_cases hTool : c.toolCalls = none <;> by_cases hEmpty : c.content = "" <;>
      simp [hTool, hEmpty]
  rw [received_eq, texts]
  simp only [filterMap_flatMap]
  rw [flatMap_eq_iff_of_sublist fun choices _ => ?_]
  · refine forall₂_congr fun choices _ => ?_
    rw [flatMap_eq_iff_of_sublist fun c _ => hSub c]
    exact forall₂_congr fun c _ => hOne c
  · exact flatMap_sublist fun c _ => hSub c

/-- **Calls and text arrive** exactly if every call comes in one piece and no delta has both. -/
theorem received_calls_and_texts_iff (chunks : List (List Choice))
    (hValid : ∀ c ∈ (fragments chunks).foldl assemble [], (env.unmarshal c.2.arguments).isSome) :
    ((received env chunks).filterMap Part.call? = ((fragments chunks).foldl assemble []).filterMap
        (fun c => (env.unmarshal c.2.arguments).map (c.2.name, ·)) ∧
      (received env chunks).filterMap Part.text? = texts chunks) ↔
    ((fragments chunks).map Fragment.key).Nodup ∧
      ∀ choices ∈ chunks, ∀ c ∈ choices, c.content ≠ "" → c.toolCalls = none := by
  rw [texts_received_iff, calls_received]
  refine and_congr_left fun _ => ⟨fun hEq => ?_, fun hPieces => ?_⟩
  · have hLength := congrArg length hEq
    have hLeft : ((fragments chunks).filterMap fun t => (convertToolCall env t.2).call?).length =
        (fragments chunks).length := by
      rw [length_filterMap_eq_countP, countP_eq_length]
      exact fun t _ => rfl
    have hRight : (((fragments chunks).foldl assemble []).filterMap fun c =>
        (env.unmarshal c.2.arguments).map (c.2.name, ·)).length =
          ((fragments chunks).foldl assemble []).length := by
      rw [length_filterMap_eq_countP, countP_eq_length]
      exact fun c hc => by simpa using hValid c hc
    rw [hLeft, hRight] at hLength
    have hCount : ((fragments chunks).foldl assemble []).length =
        ([] : List Fragment).length + (fragments chunks).length := by
      rw [← hLength, length_nil, Nat.zero_add]
    simpa using nodup_of_length_assemble (by simp) hCount
  · rw [assemble_distinct (by simpa using hPieces), nil_append] at hValid ⊢
    refine filterMap_congr fun t ht => ?_
    obtain ⟨v, hv⟩ := Option.isSome_iff_exists.mp (hValid t ht)
    have hSome : t.2.arguments ≠ "" := fun hEmpty => by
      rw [hEmpty, env.unmarshal_empty] at hv
      cases hv
    simp [convertToolCall, Part.call?, hSome, hv]

def braced : Objects String where
  unmarshal s := if s = "\x7b\x7d" then some s else none
  unmarshal_empty := by decide
  empty := "\x7b\x7d"
  withArguments s := "\x7b\"arguments\":\"" ++ s ++ "\"\x7d"

theorem received_calls_and_texts_whole :
    (received braced [[⟨0, "a", none, none⟩], [⟨0, "", some [⟨0, "f", "\x7b\x7d"⟩], none⟩,
      ⟨1, "", some [⟨0, "g", "\x7b\x7d"⟩], none⟩]]).filterMap Part.call? =
        [("f", "\x7b\x7d"), ("g", "\x7b\x7d")] :=
  ((received_calls_and_texts_iff braced _ (by decide)).mpr ⟨by decide, by decide⟩).1.trans
    (by decide)

def splitCall : List (List Choice) :=
  [[⟨0, "a", some [⟨0, "f", "\x7b"⟩], none⟩], [⟨0, "", some [⟨0, "", "\x7d"⟩], none⟩]]

/-- **Arguments in two pieces** are two calls, and the text of a delta with a call is dropped. -/
theorem received_split :
    (received braced splitCall).filterMap Part.call? =
      [("f", "\x7b\"arguments\":\"\x7b\"\x7d"), ("", "\x7b\"arguments\":\"\x7d\"\x7d")] ∧
      (received braced splitCall).filterMap Part.text? = [] := by
  decide

end NewApi.Stream.ToGemini
