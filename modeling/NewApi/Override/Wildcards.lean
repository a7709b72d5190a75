import Mathlib.Data.List.Sort
import NewApi.Override.Move

/-!
# Paths with wildcards

`expandWildcardPaths` walks through the document and joins the keys on the way with dots, without
escaping them.
-/

namespace NewApi.Override

open Go Doc List

def atoi (s : String) : Option Nat :=
  match s.toList with
  | '+' :: digits => index? (String.ofList digits)
  | '-' :: digits => (index? (String.ofList digits)).filter (· = 0)
  | _ => index? s

def collectWildcardPaths : List String → Doc → List (List String)
  | [], _ => [[]]
  | segment :: rest, node =>
    let segment := trimSpace segment
    if segment = "" then []
    else match node with
      | .scalar _ => []
      | .object keys value =>
        if segment = "*" then
          (keys.insertionSort (· ≤ ·)).flatMap fun key =>
            (collectWildcardPaths rest (value key)).map (key :: ·)
        else if rest = [] then [[segment]]
        else if segment ∈ keys then
          (collectWildcardPaths rest (value segment)).map (segment :: ·)
        else []
      | .array items =>
        if segment = "*" then
          items.zipIdx.flatMap fun (item, i) =>
            (collectWildcardPaths rest item).map (i.repr :: ·)
        else
          (((atoi segment).bind (items[·]?)).map fun item =>
            (collectWildcardPaths rest item).map (segment :: ·)).getD []

def expandWildcardPaths (path : String) (j : Doc) : List String :=
  ((collectWildcardPaths (segments path) j).map (join · '.')).eraseDups

def Fits (pattern s : String) : Prop := trimSpace pattern = "*" ∨ trimSpace pattern = s

/-- Every segment leads to a node, except that an object may not have the last key yet. -/
def Addressed : List String → Doc → Prop
  | [], _ => True
  | [_], .object .. => True
  | s :: path, j => ∃ c, child s j = some c ∧ Addressed path c

/-- A segment that `gjson` and `sjson` read as a key or an index: no pattern, pipe, query or escape,
and no modifier, literal, multipath or forced key at its beginning. -/
def plainSegment (s : String) : Bool :=
  s.toList.all (fun c => c ∉ ['*', '?', '|', '#', '\\']) &&
    s.toList.head?.all fun c => c ∉ ['@', '!', '\x7b', '[', '(', ':']

/-- The keys that a path is read as; `none` if it is more than keys. -/
def readPath (path : String) : Option (List String) :=
  if (segments path).all plainSegment then some (segments path) else none

/-- Every item of an array on the path is named by digits alone. -/
def Indexed : List String → Doc → Prop
  | [], _ => True
  | s :: path, .array items =>
    (index? s).isSome ∧ ∀ c, child s (.array items) = some c → Indexed path c
  | s :: path, j => ∀ c, child s j = some c → Indexed path c

theorem Addressed.cons {s : String} {path : List String} {j c : Doc} (hc : child s j = some c)
    (h : Addressed path c) : Addressed (s :: path) j := by
  cases path with
  | nil => cases j with
    | object => trivial
    | _ => exact ⟨c, hc, h⟩
  | cons => exact ⟨c, hc, h⟩

theorem Addressed.indexed {path : List String} {j : Doc} (h : Addressed path j) :
    Indexed path j := by
  induction path generalizing j with
  | nil => trivial
  | cons s path ih =>
    have hStep (hTail : ∃ c, child s j = some c ∧ Addressed path c) :
        ∀ c, child s j = some c → Indexed path c := by
      intro c hc
      obtain ⟨c', hc', hPath⟩ := hTail
      cases hc.symm.trans hc'
      exact ih hPath
    cases j with
    | scalar => exact nofun
    | array items =>
      have hTail : ∃ c, child s (.array items) = some c ∧ Addressed path c := by
        cases path <;> exact h
      refine ⟨?_, hStep hTail⟩
      obtain ⟨c, hc, _⟩ := hTail
      obtain ⟨i, hi, _⟩ := Option.bind_eq_some_iff.mp hc
      rw [hi]
      rfl
    | object keys value =>
      cases path with
      | nil => exact fun c _ => trivial
      | cons => exact hStep h

theorem index?_repr (n : Nat) : index? n.repr = some n := by
  have hDigits : n.repr.toList = Nat.toDigits 10 n := String.toList_ofList
  have hne : n.repr ≠ "" := fun h => Nat.toDigits_ne_nil (by rw [← hDigits, h]; rfl)
  have hAll : (Nat.toDigits 10 n).all Char.isDigit := all_eq_true.mpr fun c hc =>
    Nat.isDigit_of_mem_toDigits (by decide) (by decide) hc
  rw [index?, hDigits, if_pos ⟨hne, hAll⟩, Nat.ofDigitChars_toDigits (by decide) (by decide)]

theorem atoi_eq {s : String} (h : (index? s).isSome) : atoi s = index? s := by
  have hDigits : s.toList.all Char.isDigit := by
    by_contra hNot
    rw [index?, if_neg fun hAll => hNot hAll.2] at h
    cases h
  unfold atoi
  split
  · rename_i hPlus
    rw [hPlus] at hDigits
    simp at hDigits
  · rename_i hMinus
    rw [hMinus] at hDigits
    simp at hDigits
  · rfl

theorem collected {pattern : List String} {j : Doc} {p : List String}
    (hp : p ∈ collectWildcardPaths pattern j) :
    Forall₂ Fits pattern p ∧ (Indexed p j → Addressed p j) := by
  induction pattern generalizing j p with
  | nil =>
    cases mem_singleton.mp hp
    exact ⟨.nil, fun _ => trivial⟩
  | cons segment rest ih =>
    -- a node that was found under a segment
    have hStep : ∀ {s c q}, q ∈ collectWildcardPaths rest c → p = s :: q → Fits segment s →
        (Indexed p j → child s j = some c) →
        Forall₂ Fits (segment :: rest) p ∧ (Indexed p j → Addressed p j) := by
      rintro s c q hq rfl hFits hc
      obtain ⟨hRest, hAddressed⟩ := ih hq
      refine ⟨.cons hFits hRest, fun hIndexed => .cons (hc hIndexed) (hAddressed ?_)⟩
      cases j with
      | array items => exact hIndexed.2 c (hc hIndexed)
      | _ => exact hIndexed c (hc hIndexed)
    unfold collectWildcardPaths at hp
    dsimp only at hp
    split at hp
    · cases hp
    cases j with dsimp only at hp
    | scalar => cases hp
    | object keys value =>
      split_ifs at hp with hStar hLast hMem
      · obtain ⟨key, hKey, hp⟩ := mem_flatMap.mp hp
        obtain ⟨q, hq, rfl⟩ := mem_map.mp hp
        exact hStep hq rfl (.inl hStar) fun _ => if_pos ((mem_insertionSort _).mp hKey)
      · subst hLast
        cases mem_singleton.mp hp
        exact ⟨.cons (.inr rfl) .nil, fun _ => trivial⟩
      · obtain ⟨q, hq, rfl⟩ := mem_map.mp hp
        exact hStep hq rfl (.inr rfl) fun _ => if_pos hMem
      · cases hp
    | array items =>
      split_ifs at hp with hStar
      · obtain ⟨⟨item, i⟩, hItem, hp⟩ := mem_flatMap.mp hp
        obtain ⟨q, hq, rfl⟩ := mem_map.mp hp
        refine hStep hq rfl (.inl hStar) fun _ => ?_
        rw [child, index?_repr]
        exact mem_zipIdx_iff_getElem?.mp hItem
      · cases hItem : (atoi (trimSpace segment)).bind (items[·]?) with
        | none => rw [hItem] at hp; cases hp
        | some item =>
          rw [hItem] at hp
          obtain ⟨q, hq, rfl⟩ := mem_map.mp hp
          refine hStep hq rfl (.inr rfl) fun hIndexed => ?_
          rw [child, ← atoi_eq hIndexed.1, hItem]

theorem readPath_join_iff {p : List String} (hne : p ≠ []) :
    readPath (join p '.') = some p ↔ ∀ s ∈ p, '.' ∉ s.toList ∧ plainSegment s := by
  constructor
  · intro hRead
    obtain ⟨hAll, hEq⟩ := Option.ite_none_right_eq_some.mp hRead
    rw [Option.some.injEq] at hEq
    rw [hEq] at hAll
    intro s hs
    refine ⟨?_, all_eq_true.mp hAll s hs⟩
    rw [← hEq] at hs
    obtain ⟨l, hl, rfl⟩ := mem_map.mp hs
    rw [String.toList_ofList]
    exact not_mem_of_mem_splitOn hl
  · intro hPlain
    have hSegments : segments (join p '.') = p := split_join (fun s hs => (hPlain s hs).1) hne
    rw [readPath, hSegments, if_pos (all_eq_true.mpr fun s hs => (hPlain s hs).2)]

def nested (key : String) : Doc := .object ["a"] fun _ => .object [key] fun _ => .scalar "1"

end NewApi.Override
