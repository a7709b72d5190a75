import NewApi.Go.Document

/-!
# Moving parameters

`moveValue` writes a value to its new place and then deletes the old one, and `mapParamValue`
deletes all its sources.  What is deleted may be the new place, or above it, or in the value.  A
moved value is decoded and encoded again, with its numbers as `float64`.
-/

namespace NewApi.Override

open Go Doc

def segments (path : String) : List String := split path '.'

/-- `encode` is what `sjson.Set` writes for the `Value()` of a scalar. -/
def moveValue (encode : String → String) (j : Doc) (fromPath toPath : String) : Option Doc :=
  (get (segments fromPath) j).bind fun sourceValue =>
    (set (segments toPath) (mapScalars encode sourceValue) j).map (delete (segments fromPath))

/-- `present` and `resolve` are `isMapParamSourceValuePresent` and `resolveMapParamValue`. -/
structure MapParamOptions where
  sources : List String
  deleteSources : Bool
  keepOrigin : Bool
  present : Doc → Bool
  resolve : Doc → Option Doc

def findMapParamSource (options : MapParamOptions) (j : Doc) : Option (String × Doc) :=
  options.sources.findSome? fun source =>
    let path := trimSpace source
    if path = "" then none
    else ((get (segments path) j).filter options.present).map (path, ·)

def deletedSources (sources : List String) (sourcePath targetPath : String) : List String :=
  sources.filter (fun path => path ≠ "" ∧ path ≠ targetPath) ++
    if sourcePath ≠ "" ∧ sourcePath ≠ targetPath ∧ sourcePath ∉ sources then [sourcePath] else []

def mapParamValue (options : MapParamOptions) (targetPath : String) (j : Doc) : Option Doc :=
  if options.keepOrigin ∧ (get (segments targetPath) j).isSome then some j
  else match findMapParamSource options j with
    | none => some j
    | some (sourcePath, sourceValue) =>
      match options.resolve sourceValue with
      | none => some j
      | some mappedValue =>
        (set (segments targetPath) mappedValue j).map fun result =>
          if options.deleteSources then
            (deletedSources options.sources sourcePath targetPath).foldl
              (fun j path => delete (segments path) j) result
          else result

/-- The deleted path is not the target, not above it and not at anything in the value. -/
structure Harmless (target : String) (v : Doc) (path : String) : Prop where
  above : ¬ segments path <+: segments target
  inside : ∀ rest, segments path = segments target ++ rest → get rest v = none

theorem segments_ne_nil (path : String) : segments path ≠ [] := split_ne_nil path '.'

/-- What is read at the target and below it after the deletions. -/
theorem labelAt_target {paths : List String} {target : String} {v j : Doc}
    (hKeys : ∀ path ∈ paths, Keys (segments path)) (hGet : get (segments target) j = some v)
    (q : List String) :
    labelAt (segments target ++ q) (paths.foldl (fun j path => delete (segments path) j) j) =
      if ∃ path ∈ paths, segments path <+: segments target ++ q then none else labelAt q v := by
  have hFold := @labelAt_deletes_keys (paths.map segments) (segments target ++ q) j (by
      intro p hp
      obtain ⟨path, hPath, rfl⟩ := List.mem_map.mp hp
      exact ⟨segments_ne_nil path, hKeys path hPath⟩)
  rw [List.foldl_map] at hFold
  rw [hFold, labelAt_append, hGet, Option.bind_some]
  simp only [List.mem_map, exists_exists_and_eq_and]

theorem harmless_iff {target path : String} {v : Doc} :
    Harmless target v path ↔
      ∀ q, segments path <+: segments target ++ q → labelAt q v = none := by
  have hLabel (q : List String) : labelAt q v = none ↔ get q v = none := Option.map_eq_none_iff
  constructor
  · rintro ⟨hAbove, hInside⟩ q hPrefix
    obtain ⟨below, hBelow⟩ := hPrefix
    rcases List.append_eq_append_iff.mp hBelow with ⟨rest, hEq, _⟩ | ⟨rest, hEq, rfl⟩
    · exact absurd ⟨rest, hEq.symm⟩ hAbove
    · rw [labelAt_append, hInside rest hEq, Option.bind_none]
  · intro hAll
    refine ⟨fun hAbove => ?_, fun rest hEq => (hLabel rest).mp (hAll rest (hEq ▸ List.prefix_rfl))⟩
    have hNone := hAll [] (hAbove.trans (List.prefix_append _ _))
    cases hNone

/-- Two texts have one value if their normal forms `norm` are the same; encoding keeps the value of
every scalar. -/
def KeptBy (encode norm : String → String) (v : Doc) : Prop :=
  ∀ q raw, labelAt q v = some (.scalar raw) → norm (encode raw) = norm raw

theorem labels_kept_iff {encode norm : String → String} {target path : String} {v : Doc} :
    (∀ q, (if segments path <+: segments target ++ q then none
        else (labelAt q v).map (Label.map encode)).map (Label.map norm) =
          (labelAt q v).map (Label.map norm)) ↔
      Harmless target v path ∧ KeptBy encode norm v := by
  rw [harmless_iff]
  constructor
  · intro hAll
    have hNone : ∀ q, segments path <+: segments target ++ q → labelAt q v = none := by
      intro q hPrefix
      have hq := hAll q
      rw [if_pos hPrefix] at hq
      exact Option.map_eq_none_iff.mp hq.symm
    refine ⟨hNone, fun q raw hRaw => ?_⟩
    have hNot : ¬ segments path <+: segments target ++ q := fun hPrefix => by
      rw [hNone q hPrefix] at hRaw
      cases hRaw
    have hq := hAll q
    rw [if_neg hNot, hRaw] at hq
    simpa [Label.map] using hq
  · rintro ⟨hNone, hKept⟩ q
    split
    · next hPrefix => rw [hNone q hPrefix, Option.map_none]
    · cases hLabel : labelAt q v with
      | none => rfl
      | some label =>
        cases label with
        | scalar raw => simp [Label.map, hKept q raw hLabel]
        | array => rfl
        | object => rfl

def oneKey : Doc := .object ["a"] fun _ => .scalar "1"

end NewApi.Override
