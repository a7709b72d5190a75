import NewApi.Go.Strings

/-!
# The scanner of an upstream stream

`StreamScannerHandler` hands payloads from one goroutine through a channel of capacity ten to
another.  There is no timeout, no client that leaves and no handler that stops.  No move changes
what will have been delivered in the end (`outcome_step`). Five bytes are cut from a bare `[DONE]`
line as well.
-/

namespace NewApi.Stream

open Go List

inductive StreamEndReason
  | done
  | eof
  deriving DecidableEq, Repr

inductive Scanned
  | skip
  | payload (data : String)
  | done
  deriving DecidableEq, Repr

def scanLine (line : String) : Scanned :=
  if line.utf8ByteSize < 6 then .skip
  else if !hasPrefix line "data:" && !hasPrefix line "[DONE]" then .skip
  else
    let data := trimSpace (String.ofList (line.toList.drop 5))
    if data = "" then .skip
    else if !hasPrefix data "[DONE]" then .payload data
    else .done

structure Scanner where
  lines : List String
  dataChan : List String := []
  delivered : List String := []
  endReason : Option StreamEndReason := none
  deriving DecidableEq, Repr

inductive Goroutine
  | scanner
  | handler

namespace Scanner

/-- One move of a goroutine; a full channel blocks the scanner, an empty one the handler. -/
def step (s : Scanner) : Goroutine → Scanner
  | .scanner =>
    if s.endReason.isSome then s
    else match s.lines with
      | [] => { s with endReason := some .eof }
      | line :: rest =>
        match scanLine line with
        | .skip => { s with lines := rest }
        | .payload data =>
          if s.dataChan.length < 10 then
            { s with lines := rest, dataChan := s.dataChan ++ [data] }
          else s
        | .done => { s with lines := rest, endReason := some .done }
  | .handler =>
    match s.dataChan with
    | [] => s
    | data :: queue => { s with dataChan := queue, delivered := s.delivered ++ [data] }

abbrev Finished (s : Scanner) : Prop := s.endReason.isSome ∧ s.dataChan = []

def scanAll : List String → List String × StreamEndReason
  | [] => ([], .eof)
  | line :: rest =>
    match scanLine line with
    | .skip => scanAll rest
    | .payload data => (data :: (scanAll rest).1, (scanAll rest).2)
    | .done => ([], .done)

def outcome (s : Scanner) : List String × StreamEndReason :=
  match s.endReason with
  | some reason => (s.delivered ++ s.dataChan, reason)
  | none => (s.delivered ++ s.dataChan ++ (scanAll s.lines).1, (scanAll s.lines).2)

theorem outcome_step (s : Scanner) (g : Goroutine) : outcome (s.step g) = outcome s := by
  obtain ⟨lines, dataChan, delivered, endReason⟩ := s
  cases g with
  | handler => cases dataChan <;> simp [step, outcome]
  | scanner =>
    cases endReason with
    | some reason => simp [step]
    | none =>
      cases lines with
      | nil => simp [step, outcome, scanAll]
      | cons line rest =>
        cases hLine : scanLine line with
        | skip | done => simp [step, outcome, scanAll, hLine]
        | payload data =>
          by_cases hRoom : dataChan.length < 10 <;> simp [step, outcome, scanAll, hLine, hRoom]

theorem outcome_run (s : Scanner) (moves : List Goroutine) :
    outcome (moves.foldl step s) = outcome s := by
  induction moves generalizing s with
  | nil => rfl
  | cons g moves ih => rw [foldl_cons, ih, outcome_step]

def left (s : Scanner) : Nat :=
  2 * s.lines.length + s.dataChan.length + if s.endReason.isSome then 0 else 1

theorem exists_left_lt {s : Scanner} (h : ¬ Finished s) : ∃ g, left (s.step g) < left s := by
  obtain ⟨lines, dataChan, delivered, endReason⟩ := s
  cases dataChan with
  | cons data queue => exact ⟨.handler, by cases endReason <;> simp [step, left]⟩
  | nil =>
    refine ⟨.scanner, ?_⟩
    cases endReason with
    | some reason => simp [Finished] at h
    | none =>
      cases lines with
      | nil => simp [step, left]
      | cons line rest => cases hLine : scanLine line <;> simp [step, left, hLine] <;> omega

theorem exists_finished (s : Scanner) :
    ∃ moves : List Goroutine, Finished (moves.foldl step s) := by
  induction hn : left s using Nat.strong_induction_on generalizing s with
  | _ n ih =>
    by_cases h : Finished s
    · exact ⟨[], h⟩
    · obtain ⟨g, hg⟩ := exists_left_lt h
      obtain ⟨moves, hMoves⟩ := ih _ (hn ▸ hg) (s.step g) rfl
      exact ⟨g :: moves, hMoves⟩

theorem eq_outcome_of_finished {s : Scanner} (h : Finished s) :
    s.delivered = (outcome s).1 ∧ s.endReason = some (outcome s).2 := by
  obtain ⟨hEnd, hChan⟩ := h
  obtain ⟨reason, hReason⟩ := Option.isSome_iff_exists.mp hEnd
  simp [outcome, hReason, hChan]

/-- **The goroutines do what one loop would do**: in every interleaving the handler has seen a
beginning of what the lines hold, in order, and at the end all of it. -/
theorem interleaving_scans (lines : List String) (moves : List Goroutine) :
    let s := moves.foldl step { lines }
    s.delivered <+: (scanAll lines).1 ∧
      (Finished s → s.delivered = (scanAll lines).1 ∧ s.endReason = some (scanAll lines).2) := by
  intro s
  have hOutcome : outcome s = scanAll lines := outcome_run { lines } moves
  rw [← hOutcome]
  refine ⟨?_, eq_outcome_of_finished⟩
  unfold outcome
  split
  · exact prefix_append ..
  · rw [append_assoc]
    exact prefix_append ..

end Scanner

/-! ## What was meant -/

def content (line : String) : String := trimSpace (trimPrefix line "data:")

def endMarker (line : String) : Bool :=
  line == "[DONE]" || (hasPrefix line "data:" && content line == "[DONE]")

/-- The contents of the `data:` lines that precede the first end marker. -/
def payloads (lines : List String) : List String :=
  (((lines.takeWhile fun line => !endMarker line).filter (hasPrefix · "data:")).map content).filter
    (· ≠ "")

/-- A line that does not start with `[DONE]`, nor with more than that after `data:`. -/
abbrev Plain (line : String) : Prop :=
  hasPrefix line "[DONE]" = false ∧
    (hasPrefix line "data:" → hasPrefix (content line) "[DONE]" → content line = "[DONE]")

theorem content_eq {line : String} (h : hasPrefix line "data:") :
    trimSpace (String.ofList (line.toList.drop 5)) = content line := by
  rw [hasPrefix] at h
  rw [content, trimPrefix, if_pos h]
  rfl

/-- A line as short as that is `data:` itself. -/
theorem content_eq_empty {line : String} (h : hasPrefix line "data:")
    (hShort : line.utf8ByteSize < 6) : content line = "" := by
  obtain ⟨rest, hRest⟩ := isPrefixOf_iff_prefix.mp h
  have hLine : line = "data:" ++ String.ofList rest := by
    simp [← String.toList_inj, ← hRest]
  have hEmpty : String.ofList rest = "" := by
    rw [hLine, String.utf8ByteSize_append] at hShort
    rw [← String.utf8ByteSize_eq_zero_iff]
    have hFive : "data:".utf8ByteSize = 5 := by decide
    omega
  rw [hLine, hEmpty]
  decide

theorem scanLine_eq {line : String} (h : Plain line) :
    scanLine line = if endMarker line then .done
      else if hasPrefix line "data:" ∧ content line ≠ "" then .payload (content line)
      else .skip := by
  have hBare : line ≠ "[DONE]" := by
    rintro rfl
    exact absurd h.1 (by decide)
  by_cases hData : hasPrefix line "data:"
  · have hMarker : hasPrefix (content line) "[DONE]" ↔ content line = "[DONE]" :=
      ⟨h.2 hData, fun hDone => by rw [hDone]; decide⟩
    by_cases hShort : line.utf8ByteSize < 6
    · simp [scanLine, hShort, endMarker, hBare, content_eq_empty hData hShort]
    · by_cases hEmpty : content line = "" <;> by_cases hDone : content line = "[DONE]" <;>
        simp_all [scanLine, content_eq hData, endMarker]
  · simp [scanLine, hData, h.1, endMarker, hBare]

theorem scanAll_eq {lines : List String}
    (h : ∀ line ∈ lines.take (lines.findIdx endMarker + 1), Plain line) :
    Scanner.scanAll lines = (payloads lines, if lines.any endMarker then .done else .eof) := by
  induction lines with
  | nil => rfl
  | cons line rest ih =>
    have hLine := scanLine_eq (h line (by simp))
    rw [Scanner.scanAll, hLine]
    by_cases hMarker : endMarker line
    · simp [hMarker, payloads]
    · rw [ih fun l hl => h l (by simp [findIdx_cons, hMarker, hl])]
      by_cases hData : hasPrefix line "data:" <;> by_cases hEmpty : content line = "" <;>
        simp [hMarker, hData, hEmpty, payloads]

theorem rdropWhile_cons_of_not {p : Char → Bool} {c : Char} (h : p c = false) (l : List Char) :
    ∃ more, (c :: l).rdropWhile p = c :: more := by
  rw [rdropWhile, reverse_cons, dropWhile_append]
  split
  · exact ⟨[], by simp [h]⟩
  · exact ⟨_, by rw [reverse_append]; rfl⟩

/-- The five bytes that are cut from a bare `[DONE]` leave the bracket, which is delivered. -/
theorem scanLine_of_bare {line : String} (h : hasPrefix line "[DONE]") :
    (∃ data, scanLine line = .payload data) ∧ hasPrefix line "data:" = false := by
  obtain ⟨rest, hRest⟩ := isPrefixOf_iff_prefix.mp h
  have hLine : line = "[DONE]" ++ String.ofList rest := by
    simp [← String.toList_inj, ← hRest]
  have hSize : ¬ line.utf8ByteSize < 6 := by
    have hSix : "[DONE]".utf8ByteSize = 6 := by decide
    rw [hLine, String.utf8ByteSize_append]
    omega
  obtain ⟨more, hMore⟩ := rdropWhile_cons_of_not (p := isSpace) (c := ']') (by decide) rest
  have hCut : trimSpace (String.ofList (line.toList.drop 5)) = String.ofList (']' :: more) := by
    have hBlank : isSpace ']' = false := by decide
    simp [hLine, trimSpace, hBlank, hMore]
  refine ⟨⟨String.ofList (']' :: more), ?_⟩, ?_⟩
  · rw [scanLine, if_neg hSize, if_neg (by simp [h])]
    dsimp only
    rw [hCut, if_neg (by simp), if_pos (by simp [hasPrefix, isPrefixOf])]
  · simp [hLine, hasPrefix, isPrefixOf]

theorem scanLine_payload {line data : String} (h : scanLine line = .payload data) :
    hasPrefix data "[DONE]" = false := by
  unfold scanLine at h
  dsimp only at h
  split_ifs at h with _ _ _ hDone
  rw [← Scanned.payload.inj h]
  simpa using hDone

theorem not_hasPrefix_of_mem_scanAll {lines : List String} {data : String}
    (h : data ∈ (Scanner.scanAll lines).1) : hasPrefix data "[DONE]" = false := by
  induction lines with
  | nil => cases h
  | cons line rest ih =>
    rw [Scanner.scanAll] at h
    cases hLine : scanLine line with
    | skip => exact ih (by simpa [hLine] using h)
    | done => simp [hLine] at h
    | payload d =>
      rcases (by simpa [hLine] using h : data = d ∨ data ∈ (Scanner.scanAll rest).1) with rfl | h
      · exact scanLine_payload hLine
      · exact ih h

theorem not_endMarker {line : String} (hBare : ¬ hasPrefix line "[DONE]")
    (hMore : content line ≠ "[DONE]") : endMarker line = false := by
  have hNe : line ≠ "[DONE]" := by
    rintro rfl
    exact hBare (by decide)
  simp [endMarker, hNe, hMore]

theorem mem_payloads {lines : List String} {line : String}
    (hLine : line ∈ lines.take (lines.findIdx endMarker + 1)) (hMarker : endMarker line = false)
    (hData : hasPrefix line "data:") (hDone : hasPrefix (content line) "[DONE]") :
    content line ∈ payloads lines := by
  have hSome : content line ≠ "" := by
    intro hEmpty
    rw [hEmpty] at hDone
    exact absurd hDone (by decide)
  induction lines with
  | nil => simp at hLine
  | cons first rest ih =>
    rw [findIdx_cons] at hLine
    cases hFirst : endMarker first with
    | true => simp_all
    | false =>
      rw [hFirst, cond_false, take_succ_cons] at hLine
      rcases mem_cons.mp hLine with rfl | hRest
      · simp [payloads, hFirst, hData, hSome]
      · have hMem := ih hRest
        simp only [payloads, takeWhile_cons, hFirst, Bool.not_false, if_true, filter_cons]
        split <;> simp_all [payloads]

/-- Without a payload that starts like the end marker nothing is cut off, and every line that starts
with `[DONE]` adds a payload. -/
theorem length_payloads_le {lines : List String}
    (h : ∀ data ∈ payloads lines, hasPrefix data "[DONE]" = false) :
    (payloads lines).length +
        (lines.take (lines.findIdx endMarker + 1)).countP (hasPrefix · "[DONE]") ≤
      (Scanner.scanAll lines).1.length := by
  induction lines with
  | nil => simp [payloads]
  | cons line rest ih =>
    by_cases hBare : hasPrefix line "[DONE]"
    · obtain ⟨⟨data, hLine⟩, hData⟩ := scanLine_of_bare hBare
      by_cases hMarker : endMarker line
      · simp [Scanner.scanAll, hLine, hMarker, payloads, findIdx_cons, hBare]
      · have hSame : payloads (line :: rest) = payloads rest := by
          simp [payloads, hMarker, hData]
        rw [hSame] at h ⊢
        have hRest := ih h
        simp only [findIdx_cons, hMarker, cond_false, take_succ_cons, countP_cons, hBare,
          Scanner.scanAll, hLine, length_cons, if_true]
        omega
    · have hPlain : Plain line := by
        refine ⟨by simpa using hBare, fun hData hDone => ?_⟩
        by_contra hMore
        have hMem := @mem_payloads (line :: rest) line (by simp) (not_endMarker hBare hMore) hData
          hDone
        simp [h _ hMem] at hDone
      have hLine := scanLine_eq hPlain
      rw [Scanner.scanAll, hLine]
      by_cases hMarker : endMarker line
      · simp [hMarker, payloads, findIdx_cons, hBare]
      · have hRest := ih fun data hMem => h data (by
          revert hMem
          by_cases hData : hasPrefix line "data:" <;> by_cases hEmpty : content line = "" <;>
            simp +contextual [hMarker, hData, hEmpty, payloads])
        by_cases hData : hasPrefix line "data:" <;> by_cases hEmpty : content line = "" <;>
          simp [hMarker, hData, hEmpty, payloads, findIdx_cons, hBare] <;>
          simp [payloads] at hRest <;> omega

theorem plain_of_scanAll {lines : List String} (h : (Scanner.scanAll lines).1 = payloads lines) :
    ∀ line ∈ lines.take (lines.findIdx endMarker + 1), Plain line := by
  have hData : ∀ data ∈ payloads lines, hasPrefix data "[DONE]" = false :=
    fun data hMem => not_hasPrefix_of_mem_scanAll (h ▸ hMem)
  have hLength := length_payloads_le hData
  rw [h] at hLength
  have hNone := countP_eq_zero.mp (by omega :
    (lines.take (lines.findIdx endMarker + 1)).countP (hasPrefix · "[DONE]") = 0)
  intro line hLine
  have hBare : ¬ hasPrefix line "[DONE]" := hNone line hLine
  refine ⟨by simpa using hBare, fun hPrefix hDone => ?_⟩
  by_contra hMore
  have hMem : content line ∈ payloads lines :=
    mem_payloads hLine (not_endMarker hBare hMore) hPrefix hDone
  simp [hData _ hMem] at hDone

/-- **The handler sees the payloads and the right end in every completed interleaving exactly if up
to the first end marker every line is plain**; every interleaving can be completed. -/
theorem streamScannerHandler_delivers_iff (lines : List String) :
    (∀ moves : List Goroutine,
      (∃ more : List Goroutine, Scanner.Finished ((moves ++ more).foldl Scanner.step { lines })) ∧
        (Scanner.Finished (moves.foldl Scanner.step { lines }) →
          (moves.foldl Scanner.step { lines }).delivered = payloads lines ∧
            (moves.foldl Scanner.step { lines }).endReason =
              some (if lines.any endMarker then .done else .eof))) ↔
      ∀ line ∈ lines.take (lines.findIdx endMarker + 1), Plain line := by
  constructor
  · intro h
    obtain ⟨moves, hMoves⟩ := Scanner.exists_finished { lines }
    have hOutcome := Scanner.eq_outcome_of_finished hMoves
    rw [Scanner.outcome_run] at hOutcome
    exact plain_of_scanAll
      (by simpa [Scanner.outcome] using hOutcome.1.symm.trans ((h moves).2 hMoves).1)
  · intro h moves
    refine ⟨?_, fun hFinished => ?_⟩
    · obtain ⟨more, hMore⟩ := Scanner.exists_finished (moves.foldl Scanner.step { lines })
      exact ⟨more, by rwa [foldl_append]⟩
    · have hOutcome := Scanner.eq_outcome_of_finished hFinished
      rw [Scanner.outcome_run] at hOutcome
      simpa [Scanner.outcome, scanAll_eq h] using hOutcome

/-- A bare end marker is delivered as `]`, and so is what follows it. -/
theorem streamScannerHandler_delivers_bare :
    (([.scanner, .scanner, .handler, .handler, .scanner] : List Goroutine).foldl Scanner.step
        { lines := ["[DONE]", "data: b"] }) =
      { lines := [], delivered := ["]", "b"], endReason := some .eof } ∧
      payloads ["[DONE]", "data: b"] = [] := by
  decide

end NewApi.Stream
