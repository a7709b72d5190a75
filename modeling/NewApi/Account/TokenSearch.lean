import NewApi.Go.Strings

/-!
# The search pattern for tokens

`sanitizeLikePattern` escapes `!` and `_` for a `LIKE` with `ESCAPE '!'` and refuses wildcards that
are neighbours, too many or too vague.  How the database compares two characters is a parameter.
-/

namespace NewApi.Account

open Go List

def sanitizeLikePattern (input : String) : Except String String :=
  let input := replaceAll (replaceAll input "!" "!!") "_" "!_"
  let count := input.toList.count '%'
  if contains input "%%" then .error "搜索模式中不允许包含连续的 % 通配符"
  else if 2 < count then .error "搜索模式中最多允许包含 2 个 % 通配符"
  else if 0 < count ∧ (replaceAll input "%" "").utf8ByteSize < 2 then
    .error "使用模糊搜索时，关键词长度至少为 2 个字符"
  else .ok input

/-- The text begins with a character that is `ok`, and the rest matches. -/
def takes (ok : Char → Bool) (rest : List Char → Bool) : List Char → Bool
  | [] => false
  | d :: text => ok d && rest text

section Like

variable (same : Char → Char → Bool)

/-- `text LIKE pattern ESCAPE '!'`.  An escape at the end of the pattern matches nothing. -/
def like : List Char → List Char → Bool
  | [], text => text.isEmpty
  | c :: pattern, text =>
    if c = '%' then text.tails.any (like pattern)
    else if c = '_' then takes (fun _ => true) (like pattern) text
    else if c = '!' then
      match pattern with
      | [] => false
      | escaped :: pattern => takes (same escaped) (like pattern) text
    else takes (same c) (like pattern) text

/-- **The input as its author reads it**: `%` stands for any text, every other character for
itself. -/
def hasGaps : List Char → List Char → Bool
  | [], text => text.isEmpty
  | c :: input, text =>
    if c = '%' then text.tails.any (hasGaps input) else takes (same c) (hasGaps input) text

theorem replaceChars_singleton (c : Char) (new l : List Char) :
    replaceChars [c] new 0 l = l.flatMap fun d => if d = c then new else [d] := by
  induction l with
  | nil => rfl
  | cons d l ih =>
    rw [flatMap_cons, ← ih, replaceChars]
    by_cases h : d = c
    · simp [h]
    · simp [h, Ne.symm h]

def escapeChar (c : Char) : List Char :=
  if c = '!' then ['!', '!'] else if c = '_' then ['!', '_'] else [c]

theorem toList_escaped (input : String) :
    (replaceAll (replaceAll input "!" "!!") "_" "!_").toList = input.toList.flatMap escapeChar := by
  simp only [replaceAll, String.toList_ofList]
  rw [show "!".toList = ['!'] from rfl, show "_".toList = ['_'] from rfl, replaceChars_singleton,
    replaceChars_singleton, flatMap_assoc]
  congr 1
  funext c
  unfold escapeChar
  split_ifs <;> simp_all

/-- No pair made by the escaping reads as a wildcard, whatever stands around it. -/
theorem like_escaped (input text : List Char) :
    like same (input.flatMap escapeChar) text = hasGaps same input text := by
  induction input generalizing text with
  | nil => rfl
  | cons c input ih =>
    have hRest : like same (input.flatMap escapeChar) = hasGaps same input := funext ih
    rw [flatMap_cons, escapeChar, hasGaps]
    generalize input.flatMap escapeChar = pattern at hRest
    cases pattern <;> split_ifs <;> simp_all [like]

theorem count_escaped (input : List Char) :
    (input.flatMap escapeChar).count '%' = input.count '%' := by
  induction input with
  | nil => rfl
  | cons c input ih =>
    rw [flatMap_cons, count_append, ih, count_cons, escapeChar, Nat.add_comm]
    split_ifs <;> simp_all

/-- **An accepted input matches what its author reads in it**, and has at most two gaps. -/
theorem like_sanitizeLikePattern {input pattern : String}
    (h : sanitizeLikePattern input = .ok pattern) (text : String) :
    like same pattern.toList text.toList = hasGaps same input.toList text.toList ∧
      input.toList.count '%' ≤ 2 := by
  unfold sanitizeLikePattern at h
  dsimp only at h
  split_ifs at h with _ hCount
  rw [toList_escaped, count_escaped] at hCount
  rw [← Except.ok.inj h, toList_escaped]
  exact ⟨like_escaped same _ _, not_lt.mp hCount⟩

end Like

theorem like_sanitizeLikePattern_percent :
    like (· == ·) "a!_%".toList "a_1".toList = true := by
  have hOk : sanitizeLikePattern "a_%" = .ok "a!_%" := by decide
  rw [(like_sanitizeLikePattern _ hOk "a_1").1]
  decide

end NewApi.Account
