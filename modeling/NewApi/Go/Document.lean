import NewApi.Go.Strings

/-!
# Paths into JSON documents

What `gjson.Get`, `sjson.Set` and `sjson.Delete` are documented to do for a path whose segments have
no special characters.
-/

namespace Go

open Function List Option

inductive Doc where
  | scalar (raw : String)
  | array (items : List Doc)
  | object (keys : List String) (value : String → Doc)

namespace Doc

def index? (s : String) : Option Nat :=
  if s ≠ "" ∧ s.toList.all Char.isDigit then some (Nat.ofDigitChars 10 s.toList 0) else none

def child (s : String) : Doc → Option Doc
  | .scalar _ => none
  | .array items => (index? s).bind (items[·]?)
  | .object keys value => if s ∈ keys then some (value s) else none

def get : List String → Doc → Option Doc
  | [], j => some j
  | s :: path, j => (child s j).bind (get path)

/-- Missing items are `null`; a scalar gives way to an array or an object. -/
def setChild (s : String) (v : Doc) : Doc → Option Doc
  | .object keys value => some (.object (if s ∈ keys then keys else keys ++ [s]) (update value s v))
  | .array items => (index? s).map (fill items)
  | .scalar _ => some (((index? s).map (fill [])).getD (.object [s] fun _ => v))
where
  fill (items : List Doc) (i : Nat) : Doc :=
    .array ((items ++ List.replicate (i + 1 - items.length) (scalar "null")).set i v)

/-- `none` is an error: a segment that is no index of an array. -/
def set : List String → Doc → Doc → Option Doc
  | [], v, _ => some v
  | s :: path, v, j =>
    (set path v ((child s j).getD (.scalar "null"))).bind fun c => setChild s c j

def delete : List String → Doc → Doc
  | [], j => j
  | [s], .object keys value => .object (keys.filter (· ≠ s)) value
  | [s], .array items => .array (((index? s).map items.eraseIdx).getD items)
  | [_], .scalar raw => .scalar raw
  | s :: path, j => (((child s j).map (delete path)).bind fun c => setChild s c j).getD j

theorem child_setChild {s : String} {v j j' : Doc} (h : setChild s v j = some j') :
    child s j' = some v := by
  have hFill (items : List Doc) (i : Nat) (hi : index? s = some i) :
      child s (setChild.fill v items i) = some v := by
    simp only [setChild.fill, child, hi, bind_some]
    rw [getElem?_set_self (by simp; omega)]
  cases j with
  | scalar raw =>
    cases hi : index? s with
    | none =>
      obtain rfl : object [s] (fun _ => v) = j' := by simpa [setChild, hi] using h
      simp [child]
    | some i =>
      obtain rfl : setChild.fill v [] i = j' := by simpa [setChild, hi] using h
      exact hFill [] i hi
  | array items =>
    obtain ⟨i, hi, rfl⟩ := map_eq_some_iff.mp h
    exact hFill items i hi
  | object keys value =>
    cases h
    by_cases hs : s ∈ keys <;> simp [child, hs]

theorem child_setChild_of_ne {s t : String} {c v j j' : Doc} (hst : s ≠ t)
    (hIndex : ∀ i, index? s = some i → index? t ≠ some i) (hc : child s j = some c)
    (hSet : setChild s v j = some j') : child t j' = child t j := by
  cases j with
  | scalar => cases hc
  | array items =>
    obtain ⟨i, hi, rfl⟩ := map_eq_some_iff.mp hSet
    have hLt : i < items.length := by
      rw [child, hi] at hc
      exact (List.getElem?_eq_some_iff.mp hc).1
    have hZero : i + 1 - items.length = 0 := by omega
    cases hk : index? t with
    | none => simp [child, setChild.fill, hk]
    | some k =>
      have hne : i ≠ k := fun h => hIndex i hi (h ▸ hk)
      simp [child, setChild.fill, hk, hZero, getElem?_set_ne hne]
  | object keys value =>
    cases hSet
    by_cases hMem : s ∈ keys <;> simp [child, hMem, Ne.symm hst]

variable {path : List String}

theorem get_set {v j j' : Doc} (h : set path v j = some j') :
    get path j' = some v := by
  induction path generalizing j j' with
  | nil => exact h.symm
  | cons s path ih =>
    obtain ⟨c, hc, hSet⟩ := bind_eq_some_iff.mp h
    rw [get, child_setChild hSet, bind_some, ih hc]

theorem delete_cons (s : String) (h : path ≠ []) (j : Doc) :
    child s j = none ∧ delete (s :: path) j = j ∨
      ∃ c j', child s j = some c ∧ setChild s (delete path c) j = some j' ∧
        delete (s :: path) j = j' := by
  obtain ⟨r, path, rfl⟩ := exists_cons_of_ne_nil h
  cases hc : child s j with
  | none => exact .inl ⟨rfl, by simp [delete, hc]⟩
  | some c =>
    obtain ⟨j', hSet⟩ : ∃ j', setChild s (delete (r :: path) c) j = some j' := by
      cases j with
      | array items =>
        obtain ⟨i, hi, -⟩ := Option.bind_eq_some_iff.mp hc
        exact ⟨_, congrArg (Option.map _) hi⟩
      | _ => exact ⟨_, rfl⟩
    exact .inr ⟨c, j', rfl, hSet, by simp [delete, hc, hSet]⟩

theorem child_delete_self {s : String} (h : path ≠ []) (j : Doc) :
    child s (delete (s :: path) j) = (child s j).map (delete path) := by
  rcases delete_cons s h j with ⟨hc, hEq⟩ | ⟨c, j', hc, hSet, hEq⟩
  · rw [hEq, hc, map_none]
  · rw [hEq, hc, child_setChild hSet, map_some]

theorem child_delete_of_ne {s t : String} (h : s ≠ t)
    (hIndex : ∀ i, index? s = some i → index? t ≠ some i) (hLast : path = [] → index? s = none)
    (j : Doc) : child t (delete (s :: path) j) = child t j := by
  by_cases hPath : path = []
  · subst hPath
    cases j with
    | scalar raw => rfl
    | array items => simp [delete, hLast rfl]
    | object keys value => simp [delete, child, Ne.symm h]
  · rcases delete_cons s hPath j with ⟨-, hEq⟩ | ⟨c, j', hc, hSet, hEq⟩ <;> rw [hEq]
    · exact child_setChild_of_ne h hIndex hc hSet

/-! ## What stands at a path -/

inductive Label where
  | scalar (raw : String)
  | array
  | object
deriving DecidableEq

def label : Doc → Label
  | .scalar raw => .scalar raw
  | .array _ => .array
  | .object .. => .object

def labelAt (path : List String) (j : Doc) : Option Label := (get path j).map label

theorem label_delete (path : List String) (j : Doc) : label (delete path j) = label j := by
  rcases path with - | ⟨s, - | ⟨r, path⟩⟩
  · rfl
  · cases j <;> rfl
  rcases delete_cons s (cons_ne_nil r path) j with ⟨-, hEq⟩ | ⟨c, j', hc, hSet, hEq⟩
  · rw [hEq]
  rw [hEq]
  cases j with
  | scalar => cases hc
  | array =>
    obtain ⟨i, -, rfl⟩ := map_eq_some_iff.mp hSet
    rfl
  | object =>
    cases hSet
    rfl

theorem get_append (path rest : List String) (j : Doc) :
    get (path ++ rest) j = (get path j).bind (get rest) := by
  induction path generalizing j with
  | nil => rfl
  | cons s path ih =>
    rw [cons_append, get, get]
    cases child s j with
    | none => rfl
    | some c => exact ih c

theorem labelAt_append (path rest : List String) (j : Doc) :
    labelAt (path ++ rest) j = (get path j).bind (labelAt rest) := by
  rw [labelAt, get_append]
  cases get path j <;> rfl

/-! ## Paths of object keys -/

def Keys (path : List String) : Prop := ∀ s ∈ path, index? s = none

/-- What a deletion leaves: everything that is not at the path or below it. -/
theorem labelAt_delete_keys {path target : List String} {j : Doc} (hne : path ≠ [])
    (hPath : Keys path) :
    labelAt target (delete path j) = if path <+: target then none else labelAt target j := by
  induction path generalizing target j with
  | nil => exact absurd rfl hne
  | cons s path ih =>
    have hs := hPath s mem_cons_self
    cases target with
    | nil => simp [labelAt, get, label_delete]
    | cons t target =>
      by_cases hst : s = t
      · subst hst
        rw [labelAt, labelAt, get, get]
        by_cases hPathNil : path = []
        · subst hPathNil
          cases j <;> simp [delete, child, hs]
        rw [child_delete_self hPathNil]
        cases hc : child s j with
        | none => simp
        | some c =>
          simpa [prefix_cons_inj, labelAt] using
            ih hPathNil (fun r hr => hPath r (mem_cons_of_mem _ hr))
      · rw [labelAt, get, child_delete_of_ne hst (by simp [hs]) fun _ => hs, if_neg (by simp [hst])]
        rfl

theorem labelAt_deletes_keys {paths : List (List String)} {target : List String} {j : Doc}
    (hPaths : ∀ p ∈ paths, p ≠ [] ∧ Keys p) :
    labelAt target (paths.foldl (fun j p => delete p j) j) =
      if ∃ p ∈ paths, p <+: target then none else labelAt target j := by
  induction paths generalizing j with
  | nil => simp
  | cons p paths ih =>
    obtain ⟨hne, hKeys⟩ := hPaths p mem_cons_self
    rw [foldl_cons, ih fun q hq => hPaths q (mem_cons_of_mem _ hq), labelAt_delete_keys hne hKeys]
    by_cases h : p <+: target <;> simp [h]

/-! ## Encoding the scalars again -/

def Label.map (f : String → String) : Label → Label
  | .scalar raw => .scalar (f raw)
  | .array => .array
  | .object => .object

mutual

def mapScalars (f : String → String) : Doc → Doc
  | .scalar raw => .scalar (f raw)
  | .array items => .array (mapItems f items)
  | .object keys value => .object keys fun key => mapScalars f (value key)

def mapItems (f : String → String) : List Doc → List Doc
  | [] => []
  | item :: items => mapScalars f item :: mapItems f items

end

theorem mapItems_eq_map (f : String → String) (items : List Doc) :
    mapItems f items = items.map (mapScalars f) := by
  induction items with
  | nil => rfl
  | cons item items ih => rw [mapItems, ih, map_cons]

theorem labelAt_mapScalars (f : String → String) (path : List String) (j : Doc) :
    labelAt path (mapScalars f j) = (labelAt path j).map (Label.map f) := by
  induction path generalizing j with
  | nil => cases j <;> simp [labelAt, get, mapScalars, label, Label.map]
  | cons s path ih =>
    have hChild : child s (mapScalars f j) = (child s j).map (mapScalars f) := by
      cases j with
      | scalar => simp [mapScalars, child]
      | array items =>
        simp only [mapScalars, child, mapItems_eq_map]
        cases index? s <;> simp
      | object keys value =>
        simp only [mapScalars, child]
        split <;> rfl
    rw [labelAt, labelAt, get, get, hChild]
    cases child s j with
    | none => rfl
    | some c => exact ih c

end Doc

end Go
