import Mathlib.Data.List.DropRight
import Mathlib.Data.List.Infix

/-!
# The `strings` package

The functions as the Go library documents them; `Trim`, `Split` and `Join` on one character.
`split_trimChar_join_iff` says which lists of lines survive being joined, trimmed and split, and
`cut_eq_some_iff` that a text is cut at the first separator.
-/

namespace Go

open List

def isSpace (c : Char) : Bool :=
  let n := c.toNat
  (0x9 ≤ n && n ≤ 0xd) || n == 0x20 || n == 0x85 || n == 0xa0 || n == 0x1680 ||
    (0x2000 ≤ n && n ≤ 0x200a) || n == 0x2028 || n == 0x2029 || n == 0x202f || n == 0x205f ||
    n == 0x3000

def trimSpace (s : String) : String :=
  String.ofList ((s.toList.dropWhile isSpace).rdropWhile isSpace)

def trimPrefix (s start : String) : String :=
  if start.toList.isPrefixOf s.toList then String.ofList (s.toList.drop start.length) else s

def contains (s sub : String) : Bool := decide (sub.toList <:+: s.toList)

def hasPrefix (s start : String) : Bool := start.toList.isPrefixOf s.toList

def hasSuffix (s ending : String) : Bool := ending.toList.isSuffixOf s.toList

def trimSuffix (s ending : String) : String :=
  if hasSuffix s ending then String.ofList (s.toList.take (s.length - ending.length)) else s

/-- The replacement; `skip` characters belong to the last match. -/
def replaceChars (old new : List Char) : Nat → List Char → List Char
  | _, [] => []
  | skip + 1, _ :: rest => replaceChars old new skip rest
  | 0, c :: rest =>
    if old.isPrefixOf (c :: rest) then new ++ replaceChars old new (old.length - 1) rest
    else c :: replaceChars old new 0 rest

/-- `strings.ReplaceAll` of a text that is not empty. -/
def replaceAll (s old new : String) : String :=
  String.ofList (replaceChars old.toList new.toList 0 s.toList)

example : replaceAll "/x/{model}/{model}" "{model}" "m" = "/x/m/m" := by decide

def trimChar (s : String) (c : Char) : String :=
  String.ofList ((s.toList.dropWhile (· == c)).rdropWhile (· == c))

def split (s : String) (sep : Char) : List String := (s.toList.splitOn sep).map String.ofList

def join (parts : List String) (sep : Char) : String :=
  String.ofList ([sep].intercalate (parts.map String.toList))

theorem split_ne_nil (s : String) (sep : Char) : split s sep ≠ [] := by
  rw [split, Ne, map_eq_nil_iff]
  exact splitOn_ne_nil sep _

@[simp] theorem trimSpace_empty : trimSpace "" = "" := by decide

theorem dropWhile_rdropWhile_dropWhile (l : List Char) :
    ((l.dropWhile isSpace).rdropWhile isSpace).dropWhile isSpace =
      (l.dropWhile isSpace).rdropWhile isSpace := by
  rw [dropWhile_eq_self_iff]
  intro hPos hSpace
  have hLeft : 0 < (l.dropWhile isSpace).length :=
    lt_of_lt_of_le hPos (List.rdropWhile_prefix isSpace _).length_le
  have hHead : ((l.dropWhile isSpace).rdropWhile isSpace)[0] = (l.dropWhile isSpace)[0] :=
    (List.rdropWhile_prefix isSpace _).getElem hPos
  have hNot := dropWhile_get_zero_not isSpace l hLeft
  rw [hHead] at hSpace
  exact hNot hSpace

@[simp] theorem trimSpace_trimSpace (s : String) : trimSpace (trimSpace s) = trimSpace s := by
  unfold trimSpace
  rw [String.toList_ofList, dropWhile_rdropWhile_dropWhile, rdropWhile_idempotent]

theorem trimSpace_eq_self_iff (s : String) :
    trimSpace s = s ↔ (∀ c ∈ s.toList.head?, isSpace c = false) ∧
      ∀ c ∈ s.toList.getLast?, isSpace c = false := by
  have hText : trimSpace s = s ↔ (s.toList.dropWhile isSpace).rdropWhile isSpace = s.toList := by
    rw [← String.toList_inj, trimSpace, String.toList_ofList]
  rw [hText]
  generalize s.toList = l
  have hHead : l.dropWhile isSpace = l ↔ ∀ c ∈ l.head?, isSpace c = false := by
    cases l <;> simp
  have hLast : l.rdropWhile isSpace = l ↔ ∀ c ∈ l.getLast?, isSpace c = false := by
    rw [List.rdropWhile_eq_self_iff]
    by_cases hl : l = []
    · simp [hl]
    · simp [hl, List.getLast?_eq_some_getLast hl]
  rw [← hHead, ← hLast]
  constructor
  · intro h
    have hDrop : l.dropWhile isSpace = l := by
      refine (List.dropWhile_suffix isSpace).eq_of_length (le_antisymm ?_ ?_)
      · exact (List.dropWhile_suffix isSpace).length_le
      · calc l.length = _ := congrArg List.length h.symm
          _ ≤ _ := (List.rdropWhile_prefix isSpace _).length_le
    exact ⟨hDrop, by rwa [hDrop] at h⟩
  · rintro ⟨hDrop, hKeep⟩
    rw [hDrop, hKeep]

/-! ## Joining and splitting -/

theorem join_split (s : String) (sep : Char) : join (split s sep) sep = s := by
  have hMap : ((s.toList.splitOn sep).map String.ofList).map String.toList =
      s.toList.splitOn sep := by
    rw [map_map]
    exact (map_congr_left fun l _ => String.toList_ofList).trans (map_id _)
  rw [join, split, hMap, intercalate_splitOn, String.ofList_toList]

theorem split_join {parts : List String} {sep : Char} (h : ∀ p ∈ parts, sep ∉ p.toList)
    (hne : parts ≠ []) : split (join parts sep) sep = parts := by
  have hSplit : ([sep].intercalate (parts.map String.toList)).splitOn sep =
      parts.map String.toList := by
    refine splitOn_intercalate sep (fun l hl => ?_) (by simpa using hne)
    obtain ⟨p, hp, rfl⟩ := mem_map.mp hl
    exact h p hp
  rw [split, join, String.toList_ofList, hSplit, map_map]
  exact (map_congr_left fun p _ => String.ofList_toList).trans (map_id _)

theorem not_mem_of_mem_splitOn {α : Type} [DecidableEq α] {sep : α} {s l : List α}
    (h : l ∈ s.splitOn sep) : sep ∉ l := by
  rw [splitOn] at h
  induction s generalizing l with
  | nil =>
    rw [splitOnP_nil, mem_singleton] at h
    simp [h]
  | cons x xs ih =>
    rw [splitOnP_cons_eq_if_modifyHead] at h
    split at h
    · rcases mem_cons.mp h with rfl | hMem
      · exact not_mem_nil
      · exact ih hMem
    rename_i hx
    obtain ⟨first, others, hSplit⟩ := exists_cons_of_ne_nil (splitOnP_ne_nil (· == sep) xs)
    rw [hSplit] at h ih
    rcases mem_cons.mp h with rfl | hMem
    · intro hMem
      rcases mem_cons.mp hMem with rfl | hIn
      · exact hx (beq_self_eq_true _)
      · exact ih mem_cons_self hIn
    · exact ih (mem_cons_of_mem _ hMem)

section Ends

variable {α : Type} {sep : α} {ls : List (List α)}

theorem head?_intercalate_eq (hne : [sep].intercalate ls ≠ []) (h : ∀ l ∈ ls, sep ∉ l) :
    ([sep].intercalate ls).head? = some sep ↔ ls.head? = some [] := by
  match ls with
  | [] => simp at hne
  | [l] =>
    rw [intercalate_singleton] at hne ⊢
    refine iff_of_false (fun hHead => ?_) (by simpa using hne)
    exact h l mem_cons_self (mem_of_mem_head? hHead)
  | l :: m :: rest =>
    cases l with
    | nil => simp
    | cons c l =>
      have hc : c ≠ sep := fun hEq => h (c :: l) mem_cons_self (by simp [hEq])
      simp [hc]

theorem getLast?_intercalate_eq (hne : [sep].intercalate ls ≠ []) (h : ∀ l ∈ ls, sep ∉ l) :
    ([sep].intercalate ls).getLast? = some sep ↔ ls.getLast? = some [] := by
  induction ls with
  | nil => simp at hne
  | cons l ls ih =>
    cases ls with
    | nil =>
      rw [intercalate_singleton] at hne ⊢
      refine iff_of_false (fun hLast => ?_) (by simpa using hne)
      exact h l mem_cons_self (mem_of_getLast? hLast)
    | cons m rest =>
      rw [intercalate_cons_cons, getLast?_append, getLast?_cons_cons]
      by_cases hRest : [sep].intercalate (m :: rest) = []
      · cases rest with
        | nil =>
          rw [intercalate_singleton] at hRest
          simp [hRest]
        | cons _ _ => simp [intercalate_cons_cons] at hRest
      · rw [← ih hRest fun l hl => h l (mem_cons_of_mem _ hl)]
        cases hLast : ([sep].intercalate (m :: rest)).getLast? with
        | none => exact absurd (getLast?_eq_none_iff.mp hLast) hRest
        | some c => simp

end Ends

theorem trimChar_eq_self_iff (s : String) (c : Char) :
    trimChar s c = s ↔ s.toList.head? ≠ some c ∧ s.toList.getLast? ≠ some c := by
  rw [trimChar, ← String.toList_inj, String.toList_ofList]
  generalize s.toList = l
  have hDrop : l.dropWhile (· == c) = l ↔ l.head? ≠ some c := by cases l <;> simp
  have hLast : l.rdropWhile (· == c) = l ↔ l.getLast? ≠ some c := by
    rw [rdropWhile_eq_self_iff]
    refine ⟨fun h hEq => ?_, fun h hne hEq => h ?_⟩
    · obtain ⟨hne, hc⟩ := mem_getLast?_eq_getLast hEq
      exact h hne (by simp [hc])
    · rw [getLast?_eq_some_getLast hne, beq_iff_eq.mp hEq]
  constructor
  · intro h
    have hSame : l.dropWhile (· == c) = l := by
      refine (dropWhile_suffix _).eq_of_length_le ?_
      calc l.length = ((l.dropWhile (· == c)).rdropWhile (· == c)).length := by rw [h]
        _ ≤ _ := (List.rdropWhile_prefix _ _).length_le
    rw [hSame] at h
    exact ⟨hDrop.mp hSame, hLast.mp h⟩
  · rintro ⟨hHead, hEnd⟩
    rw [hDrop.mpr hHead, hLast.mpr hEnd]

/-- **Which lines survive** being joined, trimmed and split again. -/
theorem split_trimChar_join_iff {parts : List String} {sep : Char} (hText : join parts sep ≠ "") :
    split (trimChar (join parts sep) sep) sep = parts ↔
      (∀ p ∈ parts, sep ∉ p.toList) ∧ parts.head? ≠ some "" ∧ parts.getLast? ≠ some "" := by
  have hne : [sep].intercalate (parts.map String.toList) ≠ [] := fun h =>
    hText (by rw [join, h])
  have hEnds : (∀ p ∈ parts, sep ∉ p.toList) →
      (trimChar (join parts sep) sep = join parts sep ↔
        parts.head? ≠ some "" ∧ parts.getLast? ≠ some "") := by
    intro hFree
    have hFree' : ∀ l ∈ parts.map String.toList, sep ∉ l := by
      intro l hl
      obtain ⟨p, hp, rfl⟩ := mem_map.mp hl
      exact hFree p hp
    have hEmpty : ∀ o : Option String, o.map String.toList = some [] ↔ o = some "" := by
      intro o
      cases o <;> simp
    rw [trimChar_eq_self_iff, join, String.toList_ofList, Ne, Ne, head?_intercalate_eq hne hFree',
      getLast?_intercalate_eq hne hFree', head?_map,
      getLast?_map, hEmpty, hEmpty]
  constructor
  · intro h
    have hFree : ∀ p ∈ parts, sep ∉ p.toList := by
      intro p hp
      rw [← h] at hp
      obtain ⟨l, hl, rfl⟩ := mem_map.mp hp
      rw [String.toList_ofList]
      exact not_mem_of_mem_splitOn hl
    refine ⟨hFree, (hEnds hFree).mp ?_⟩
    conv_rhs => rw [← h]
    exact (join_split _ _).symm
  · rintro ⟨hFree, hBoth⟩
    rw [(hEnds hFree).mpr hBoth]
    refine split_join hFree ?_
    rintro rfl
    exact hne (by simp)

/-! ## Searching -/

theorem append_cons_cancel {α : Type*} {c : α} {a a' b b' : List α} (ha : c ∉ a) (ha' : c ∉ a')
    (h : a ++ c :: b = a' ++ c :: b') : a = a' ∧ b = b' := by
  induction a generalizing a' with
  | nil =>
    cases a' with
    | nil => exact ⟨rfl, (cons.inj h).2⟩
    | cons x a' => exact absurd ((cons.inj h).1 ▸ mem_cons_self) ha'
  | cons x a ih =>
    cases a' with
    | nil => exact absurd ((cons.inj h).1 ▸ mem_cons_self) ha
    | cons x' a' =>
      obtain ⟨rfl, hRest⟩ := cons.inj h
      obtain ⟨rfl, rfl⟩ := ih (fun hc => ha (mem_cons_of_mem _ hc))
        (fun hc => ha' (mem_cons_of_mem _ hc)) hRest
      exact ⟨rfl, rfl⟩

/-- What stands before and after the first `sub`, as `strings.Cut` gives it. -/
def cut (sub : List Char) : List Char → Option (List Char × List Char)
  | [] => if sub = [] then some ([], []) else none
  | c :: rest =>
    if sub.isPrefixOf (c :: rest) then some ([], (c :: rest).drop sub.length)
    else (cut sub rest).map fun p => (c :: p.1, p.2)

def index (s sub : List Char) : Option Nat := (cut sub s).map fun p => p.1.length

theorem cut_eq_none_iff {sub s : List Char} : cut sub s = none ↔ ¬ sub <:+: s := by
  induction s with
  | nil =>
    rw [cut]
    split <;> simp [*]
  | cons c rest ih =>
    rw [cut, infix_cons_iff, ← isPrefixOf_iff_prefix]
    by_cases h : sub.isPrefixOf (c :: rest)
    · simp [h]
    · simp [h, ih]

/-- **The text is cut at the first place.** -/
theorem cut_eq_some_iff {sub s before after : List Char} :
    cut sub s = some (before, after) ↔ s = before ++ (sub ++ after) ∧
      ∀ before' after', s = before' ++ (sub ++ after') → before.length ≤ before'.length := by
  induction s generalizing before with rw [cut]
  | nil =>
    split
    · next h =>
      subst h
      constructor
      · intro hEq
        obtain ⟨rfl, rfl⟩ := Prod.mk.inj (Option.some.inj hEq)
        exact ⟨rfl, fun _ _ _ => Nat.zero_le _⟩
      · simp_all
    · next h => simp_all
  | cons c rest ih =>
    split
    · next hHead =>
      obtain ⟨tail, hTail⟩ := isPrefixOf_iff_prefix.mp hHead
      rw [← hTail, drop_left]
      constructor
      · intro hEq
        obtain ⟨rfl, rfl⟩ := Prod.mk.inj (Option.some.inj hEq)
        exact ⟨rfl, fun _ _ _ => Nat.zero_le _⟩
      · rintro ⟨hEq, hFirst⟩
        obtain rfl := length_eq_zero_iff.mp (Nat.le_zero.mp (hFirst [] tail rfl))
        rw [append_cancel_left hEq]
    · next hHead =>
      rw [Option.map_eq_some_iff]
      constructor
      · rintro ⟨⟨b, a⟩, hCut, hEq⟩
        obtain ⟨rfl, rfl⟩ := Prod.mk.inj hEq
        obtain ⟨hRest, hFirst⟩ := ih.mp hCut
        refine ⟨by rw [hRest, cons_append], ?_⟩
        rintro (_ | ⟨d, before'⟩) after' hEq'
        · exact absurd (List.isPrefixOf_iff_prefix.mpr ⟨after', hEq'.symm⟩) hHead
        · exact Nat.succ_le_succ (hFirst before' after' (cons.inj hEq').2)
      · rintro ⟨hEq, hFirst⟩
        cases before with
        | nil => exact absurd (List.isPrefixOf_iff_prefix.mpr ⟨after, hEq.symm⟩) hHead
        | cons d b =>
          obtain ⟨rfl, hRest⟩ := cons.inj hEq
          refine ⟨(b, after), ih.mpr ⟨hRest, fun b' a' hEq' => ?_⟩, rfl⟩
          exact Nat.le_of_succ_le_succ
            (hFirst (c :: b') a' (by rw [hEq', cons_append]))

theorem suffix_of_cut {sub s before after before' after' : List Char}
    (h : cut sub s = some (before, after)) (h' : s = before' ++ (sub ++ after')) :
    after' <:+ after := by
  obtain ⟨hText, hFirst⟩ := cut_eq_some_iff.mp h
  have hLe := hFirst before' after' h'
  have hLength := congrArg length (h'.symm.trans hText)
  simp only [length_append] at hLength
  have hSuffix : after <:+ s := ⟨before ++ sub, by rw [hText, append_assoc]⟩
  have hSuffix' : after' <:+ s := ⟨before' ++ sub, by rw [h', append_assoc]⟩
  exact suffix_of_suffix_length_le hSuffix' hSuffix (by omega)

theorem cut_append_of_notMem {c : Char} {skipped : List Char} (h : c ∉ skipped)
    (sub s : List Char) :
    cut (c :: sub) (skipped ++ s) = (cut (c :: sub) s).map fun p => (skipped ++ p.1, p.2) := by
  induction skipped with
  | nil => simp
  | cons d skipped ih =>
    obtain ⟨hHead, hRest⟩ := not_or.mp (fun hMem => h (mem_cons.mpr hMem))
    rw [cons_append, cut, if_neg (by simp [hHead]), ih hRest, Option.map_map]
    rfl

theorem cut_singleton {c : Char} {before : List Char} (h : c ∉ before) (after : List Char) :
    cut [c] (before ++ c :: after) = some (before, after) := by
  rw [cut_append_of_notMem h, cut]
  simp

theorem notMem_of_cut {c : Char} {s before after : List Char}
    (h : cut [c] s = some (before, after)) : c ∉ before := by
  intro hMem
  obtain ⟨x, y, rfl⟩ := append_of_mem hMem
  obtain ⟨hText, hFirst⟩ := cut_eq_some_iff.mp h
  have hLength := hFirst x (y ++ c :: after) (by rw [hText]; simp)
  rw [length_append, length_cons] at hLength
  omega

theorem cut_pair {a b : Char} (hab : a ≠ b) {before : List Char} (h : ¬ [a, b] <:+: before)
    (after : List Char) : cut [a, b] (before ++ ([a, b] ++ after)) = some (before, after) := by
  induction before with
  | nil => simp [cut]
  | cons c before ih =>
    have hHead : ¬ [a, b].isPrefixOf (c :: before ++ ([a, b] ++ after)) := by
      intro hPrefix
      cases before with
      | nil => simp_all
      | cons d before =>
        obtain ⟨rfl, rfl⟩ : a = c ∧ b = d := by simpa using hPrefix
        exact h ⟨[], before, rfl⟩
    have hRest : ¬ [a, b] <:+: before := fun hInfix => h (infix_cons hInfix)
    rw [cons_append, cut, ← cons_append, if_neg hHead, ih hRest]
    rfl

end Go
