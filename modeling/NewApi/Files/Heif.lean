import NewApi.Files.Source

/-!
# The dimensions of a HEIF image

`parseHEIFDimensions` walks over the boxes of a file to `meta`, and `findISPE` over the boxes in it
to `ispe`. The size of a box can be a number of 64 bits.  If adding it to the offset wraps, the test
whether the box ends inside the data passes and the program panics.
-/

namespace NewApi.Files

/-! ## Slices and integers -/

/-- An `int` that has been computed without regard to its 64 bits. -/
def wrap (i : Int) : Int := i.bmod (2 ^ 64)

def slice (data : Bytes) (low high : Int) : Option Bytes :=
  if 0 ≤ low ∧ low ≤ high ∧ high ≤ data.length then
    some ((data.drop low.toNat).take (high - low).toNat)
  else none

def bigEndian (bytes : Bytes) : Nat := bytes.foldl (fun n b => 256 * n + b.toNat) 0

/-- The type of a HEIF file, or none; the outer `none` is a panic. -/
def detectHEIF (data : Bytes) : Option (Option Bytes) :=
  if data.length < 12 then some none
  else
    match slice data 4 8, slice data 8 12 with
    | some box, some brand =>
      if box ≠ ascii "ftyp" then some none
      else if brand ∈ [ascii "heic", ascii "heix", ascii "hevc", ascii "hevx", ascii "heim",
          ascii "heis"] then some (some (ascii "image/heic"))
      else if brand ∈ [ascii "mif1", ascii "msf1"] then some (some (ascii "image/heif"))
      else some none
    | _, _ => none

/-! ## The loops -/

/-- What a search ends with: the width and height or nothing, a panic, or no end in sight. -/
inductive Search where
  | result (dimensions : Option (Nat × Nat))
  | panicked
  | outOfFuel
  deriving DecidableEq, Repr

inductive BoxStep where
  | stop
  /-- The content of a box is searched, and then the next box. -/
  | box (type content : Bytes) (next : Int)
  deriving DecidableEq, Repr

def topBoxSize (data : Bytes) (offset : Int) (short long : Nat) : Option (Int × Int) :=
  if short = 1 then
    if wrap (offset + 16) > data.length then none else some (wrap long, 16)
  else if short = 0 then some (wrap (data.length - offset), 8)
  else some (short, 8)

def longSize (data : Bytes) (offset : Int) (short : Nat) : Option Nat :=
  if short = 1 ∧ ¬ wrap (offset + 16) > data.length then
    (slice data (wrap (offset + 8)) (wrap (offset + 16))).map bigEndian
  else some 0

/-- A box of a known size.  The content is cut out only for the box `meta`. -/
def cutBox (data : Bytes) (offset : Int) (type : Bytes) (boxSize headerLen : Int) :
    Option BoxStep :=
  if boxSize < headerLen ∨ wrap (offset + boxSize) > data.length then some .stop
  else if type = ascii "meta" then
    (slice data (wrap (offset + headerLen)) (wrap (offset + boxSize))).map fun content =>
      .box type content (wrap (offset + boxSize))
  else some (.box type [] (wrap (offset + boxSize)))

def topBox (data : Bytes) (offset : Int) : Option BoxStep := do
  let sizeBytes ← slice data offset (wrap (offset + 4))
  let type ← slice data (wrap (offset + 4)) (wrap (offset + 8))
  let long ← longSize data offset (bigEndian sizeBytes)
  match topBoxSize data offset (bigEndian sizeBytes) long with
  | none => some .stop
  | some (boxSize, headerLen) => cutBox data offset type boxSize headerLen

def innerBox (data : Bytes) (offset : Int) : Option BoxStep := do
  let sizeBytes ← slice data offset (wrap (offset + 4))
  let type ← slice data (wrap (offset + 4)) (wrap (offset + 8))
  let boxSize : Int := bigEndian sizeBytes
  if boxSize < 8 ∨ wrap (offset + boxSize) > data.length then some .stop
  else do
    let content ← slice data (wrap (offset + 8)) (wrap (offset + boxSize))
    some (.box type content (wrap (offset + boxSize)))

def IsContainer (type : Bytes) : Prop := type = ascii "iprp" ∨ type = ascii "ipco"

instance (type : Bytes) : Decidable (IsContainer type) := inferInstanceAs (Decidable (_ ∨ _))

def ispeDimensions (content : Bytes) : Option (Option (Nat × Nat)) :=
  if content.length ≥ 12 then
    match slice content 4 8, slice content 8 12 with
    | some width, some height =>
      if bigEndian width > 0 ∧ bigEndian height > 0 then
        some (some (bigEndian width, bigEndian height))
      else some none
    | _, _ => none
  else some none

def findISPE : Nat → Bytes → Int → Search
  | 0, _, _ => .outOfFuel
  | fuel + 1, data, offset =>
    if wrap (offset + 8) ≤ data.length then
      match innerBox data offset with
      | none => .panicked
      | some .stop => .result none
      | some (.box type content next) =>
        if IsContainer type then
          match findISPE fuel content 0 with
          | .result none => findISPE fuel data next
          | found => found
        else if type = ascii "ispe" then
          match ispeDimensions content with
          | none => .panicked
          | some (some dimensions) => .result (some dimensions)
          | some none => findISPE fuel data next
        else findISPE fuel data next
    else .result none

def walkTop : Nat → Bytes → Int → Search
  | 0, _, _ => .outOfFuel
  | fuel + 1, data, offset =>
    if wrap (offset + 8) ≤ data.length then
      match topBox data offset with
      | none => .panicked
      | some .stop => .result none
      | some (.box type content next) =>
        if type = ascii "meta" then
          if content.length < 4 then .result none else findISPE fuel (content.drop 4) 0
        else walkTop fuel data next
    else .result none

def parseHEIFDimensions (data : Bytes) : Search :=
  if data.length < 12 then .result none else walkTop (data.length + 2) data 0

/-! ## The heads of the loops -/

inductive Head where
  | top (offset : Int)
  | inner (data : Bytes) (offset : Int)

namespace Head

def offset : Head → Int
  | top offset => offset
  | inner _ offset => offset

def within (data : Bytes) : Head → Bytes
  | top _ => data
  | inner content _ => content

inductive Next (data : Bytes) : Head → Head → Prop
  | top {offset next : Int} {type content : Bytes} :
      wrap (offset + 8) ≤ data.length → topBox data offset = some (.box type content next) →
      type ≠ ascii "meta" → Next data (top offset) (top next)
  | inner {content type content' : Bytes} {offset next : Int} :
      wrap (offset + 8) ≤ content.length →
      innerBox content offset = some (.box type content' next) →
      Next data (inner content offset) (inner content next)

inductive Enter (data : Bytes) : Head → Head → Prop
  | top {offset next : Int} {type content : Bytes} :
      wrap (offset + 8) ≤ data.length → topBox data offset = some (.box type content next) →
      type = ascii "meta" → 4 ≤ content.length →
      Enter data (top offset) (inner (content.drop 4) 0)
  | inner {content type content' : Bytes} {offset next : Int} :
      wrap (offset + 8) ≤ content.length →
      innerBox content offset = some (.box type content' next) → IsContainer type →
      Enter data (inner content offset) (inner content' 0)

def Visited (data : Bytes) : Head → Prop :=
  Relation.ReflTransGen (fun h h' => Next data h h' ∨ Enter data h h') (top 0)

end Head

/-- The box at an offset has a long size that ends beyond the largest `int`. -/
def Overflows (data : Bytes) (offset : Int) : Prop :=
  ∃ sizeBytes long, wrap (offset + 8) ≤ data.length ∧
    slice data offset (wrap (offset + 4)) = some sizeBytes ∧ bigEndian sizeBytes = 1 ∧
    slice data (wrap (offset + 8)) (wrap (offset + 16)) = some long ∧
    16 ≤ wrap (bigEndian long) ∧ 2 ^ 63 ≤ offset + wrap (bigEndian long)

/-! ## Sizes and slices in range -/

theorem wrap_of_range {i : Int} (hLow : -2 ^ 63 ≤ i) (hHigh : i < 2 ^ 63) : wrap i = i := by
  unfold wrap Int.bmod
  dsimp only
  split <;> omega

theorem wrap_of_large {i : Int} (hLow : 2 ^ 63 ≤ i) (hHigh : i < 2 ^ 64) : wrap i = i - 2 ^ 64 := by
  unfold wrap Int.bmod
  dsimp only
  split <;> omega

theorem wrap_range (i : Int) : -2 ^ 63 ≤ wrap i ∧ wrap i < 2 ^ 63 := by
  unfold wrap Int.bmod
  dsimp only
  constructor <;> split <;> omega

variable {low high : Int}

theorem exists_slice (data : Bytes) (hLow : 0 ≤ low) (h : low ≤ high) (hHigh : high ≤ data.length) :
    ∃ part, slice data low high = some part ∧ (part.length : Int) = high - low := by
  refine ⟨_, if_pos ⟨hLow, h, hHigh⟩, ?_⟩
  rw [List.length_take, List.length_drop]
  omega

variable {data : Bytes}

theorem slice_eq_some {part : Bytes} (h : slice data low high = some part) :
    0 ≤ low ∧ low ≤ high ∧ high ≤ data.length ∧ (part.length : Int) = high - low := by
  unfold slice at h
  split at h
  · rename_i hRange
    cases h
    rw [List.length_take, List.length_drop]
    omega
  · cases h

theorem bigEndian_lt (bytes : Bytes) : bigEndian bytes < 256 ^ bytes.length := by
  have hFold : ∀ (bytes : Bytes) (n k : Nat), n < 256 ^ k →
      bytes.foldl (fun n b => 256 * n + b.toNat) n < 256 ^ (k + bytes.length) := by
    intro bytes
    induction bytes with
    | nil => exact fun n k h => h
    | cons b rest ih =>
      intro n k h
      have hNext : 256 * n + b.toNat < 256 ^ (k + 1) := by
        have hb := b.toNat_lt
        omega
      rw [List.length_cons, show k + (rest.length + 1) = k + 1 + rest.length by omega]
      exact ih _ _ hNext
  simpa [bigEndian] using hFold bytes 0 0 (by decide)

/-! ## One box -/

def BoxStep.Inside (data : Bytes) (offset : Int) : BoxStep → Prop
  | .stop => True
  | .box _ content next =>
    offset + 8 ≤ next ∧ next ≤ data.length ∧ (content.length : Int) ≤ data.length - offset - 8

section Bodies

variable {data : Bytes} {offset : Int} (hSize : data.length < 2 ^ 62) (hOffset : 0 ≤ offset)
  (hHead : offset + 8 ≤ data.length)

include hSize hOffset hHead

theorem exists_header :
    ∃ sizeBytes type, slice data offset (wrap (offset + 4)) = some sizeBytes ∧
      slice data (wrap (offset + 4)) (wrap (offset + 8)) = some type ∧
      bigEndian sizeBytes < 2 ^ 32 := by
  have h4 : wrap (offset + 4) = offset + 4 := wrap_of_range (by omega) (by omega)
  have h8 : wrap (offset + 8) = offset + 8 := wrap_of_range (by omega) (by omega)
  rw [h4, h8]
  obtain ⟨sizeBytes, hSizeBytes, hLength⟩ :=
    exists_slice data hOffset (show offset ≤ offset + 4 by omega) (by omega)
  obtain ⟨type, hType, -⟩ :=
    exists_slice data (show 0 ≤ offset + 4 by omega) (show offset + 4 ≤ offset + 8 by omega)
      hHead
  refine ⟨sizeBytes, type, hSizeBytes, hType, ?_⟩
  have hFour : sizeBytes.length = 4 := by omega
  have hLt := bigEndian_lt sizeBytes
  rw [hFour] at hLt
  exact hLt

theorem cutBox_inside {type : Bytes} {boxSize headerLen : Int} (hLow : -2 ^ 63 ≤ boxSize)
    (hHigh : offset + boxSize < 2 ^ 63) (hHeader : 8 ≤ headerLen) (hHeader' : headerLen ≤ 16) :
    ∃ step, cutBox data offset type boxSize headerLen = some step ∧ step.Inside data offset := by
  unfold cutBox
  split
  · exact ⟨.stop, rfl, trivial⟩
  · next hStop =>
    obtain ⟨hFits, hEnd⟩ := not_or.mp hStop
    have hWrap : wrap (offset + boxSize) = offset + boxSize := wrap_of_range (by omega) hHigh
    have hWrap' : wrap (offset + headerLen) = offset + headerLen :=
      wrap_of_range (by omega) (by omega)
    rw [hWrap] at hEnd ⊢
    rw [hWrap']
    split
    · obtain ⟨content, hContent, hLength⟩ := exists_slice data
        (show 0 ≤ offset + headerLen by omega)
        (show offset + headerLen ≤ offset + boxSize by omega) (by omega)
      rw [hContent]
      exact ⟨_, rfl, by omega, by omega, by omega⟩
    · exact ⟨_, rfl, by omega, by omega, by simp; omega⟩

theorem innerBox_inside : ∃ step, innerBox data offset = some step ∧ step.Inside data offset := by
  obtain ⟨sizeBytes, type, hSizeBytes, hType, hLt⟩ := exists_header hSize hOffset hHead
  unfold innerBox
  rw [hSizeBytes, hType]
  simp only [Option.bind_eq_bind, Option.bind_some]
  split
  · exact ⟨.stop, rfl, trivial⟩
  · next hStop =>
    obtain ⟨hFits, hEnd⟩ := not_or.mp hStop
    have hWrap : wrap (offset + bigEndian sizeBytes) = offset + bigEndian sizeBytes :=
      wrap_of_range (by omega) (by omega)
    have h8 : wrap (offset + 8) = offset + 8 := wrap_of_range (by omega) (by omega)
    rw [hWrap] at hEnd ⊢
    rw [h8]
    obtain ⟨content, hContent, hLength⟩ := exists_slice data (show 0 ≤ offset + 8 by omega)
      (show offset + 8 ≤ offset + bigEndian sizeBytes by omega) (by omega)
    rw [hContent]
    exact ⟨_, rfl, by omega, by omega, by omega⟩

omit hHead in
theorem topBox_long {sizeBytes long : Bytes}
    (hSizeBytes : slice data offset (wrap (offset + 4)) = some sizeBytes)
    (hOne : bigEndian sizeBytes = 1)
    (hLong : slice data (wrap (offset + 8)) (wrap (offset + 16)) = some long) :
    ∃ type, topBox data offset = cutBox data offset type (wrap (bigEndian long)) 16 := by
  obtain ⟨-, hLe, hEnd, -⟩ := slice_eq_some hLong
  have hData := (slice_eq_some hSizeBytes).2
  have hHead : offset + 8 ≤ data.length := by
    rw [wrap_of_range (by omega) (by omega)] at hLe
    omega
  obtain ⟨-, type, -, hType, -⟩ := exists_header hSize hOffset hHead
  refine ⟨type, ?_⟩
  have hSome : longSize data offset (bigEndian sizeBytes) = some (bigEndian long) := by
    rw [longSize, if_pos ⟨hOne, not_lt.mpr hEnd⟩, hLong]
    rfl
  have hBoxSize : topBoxSize data offset (bigEndian sizeBytes) (bigEndian long) =
      some (wrap (bigEndian long), 16) := by
    rw [topBoxSize, if_pos hOne, if_neg (not_lt.mpr hEnd)]
  unfold topBox
  rw [hSizeBytes, hType]
  simp only [Option.bind_eq_bind, Option.bind_some, hSome, hBoxSize]

theorem topBox_inside (hFits : ¬ Overflows data offset) :
    ∃ step, topBox data offset = some step ∧ step.Inside data offset := by
  obtain ⟨sizeBytes, type, hSizeBytes, hType, hLt⟩ := exists_header hSize hOffset hHead
  have h8 : wrap (offset + 8) = offset + 8 := wrap_of_range (by omega) (by omega)
  have h16 : wrap (offset + 16) = offset + 16 := wrap_of_range (by omega) (by omega)
  by_cases hLong : bigEndian sizeBytes = 1 ∧ offset + 16 ≤ data.length
  · obtain ⟨hOne, hEnd⟩ := hLong
    obtain ⟨long, hSlice, -⟩ := exists_slice data (show 0 ≤ offset + 8 by omega)
      (show offset + 8 ≤ offset + 16 by omega) hEnd
    rw [← h8, ← h16] at hSlice
    obtain ⟨type, hTop⟩ := topBox_long hSize hOffset hSizeBytes hOne hSlice
    rw [hTop]
    by_cases hSmall : wrap (bigEndian long) < 16
    · exact ⟨.stop, if_pos (.inl hSmall), trivial⟩
    · refine cutBox_inside hSize hOffset hHead (wrap_range _).1 ?_ (by decide) (by decide)
      by_contra hLarge
      exact hFits ⟨sizeBytes, long, by omega, hSizeBytes, hOne, hSlice, by omega, by omega⟩
  · have hNone : longSize data offset (bigEndian sizeBytes) = some 0 :=
      if_neg fun h => hLong ⟨h.1, by omega⟩
    unfold topBox
    rw [hSizeBytes, hType]
    simp only [Option.bind_eq_bind, Option.bind_some, hNone, topBoxSize]
    by_cases hOne : bigEndian sizeBytes = 1
    · rw [if_pos hOne, if_pos (by omega)]
      exact ⟨.stop, rfl, trivial⟩
    rw [if_neg hOne]
    by_cases hZero : bigEndian sizeBytes = 0
    · rw [if_pos hZero, wrap_of_range (by omega) (by omega)]
      exact cutBox_inside hSize hOffset hHead (by omega) (by omega) (by decide) (by decide)
    · rw [if_neg hZero]
      exact cutBox_inside hSize hOffset hHead (by omega) (by omega) (by decide) (by decide)

omit hOffset hHead in
theorem topBox_of_overflows (h : Overflows data offset) :
    topBox data offset = none ∨ ∃ type next, topBox data offset = some (.box type [] next) ∧
      type ≠ ascii "meta" ∧ -2 ^ 63 ≤ next ∧ next < 0 := by
  obtain ⟨sizeBytes, long, -, hSizeBytes, hOne, hSlice, hMin, hLarge⟩ := h
  obtain ⟨hOffset, hLe, hEnd, -⟩ := slice_eq_some hSizeBytes
  obtain ⟨type, hTop⟩ := topBox_long hSize hOffset hSizeBytes hOne hSlice
  have hHigh := (wrap_range (bigEndian long)).2
  have hNegative : wrap (offset + wrap (bigEndian long)) =
      offset + wrap (bigEndian long) - 2 ^ 64 := wrap_of_large hLarge (by omega)
  rw [hTop, cutBox, hNegative, if_neg (by omega)]
  by_cases hMeta : type = ascii "meta"
  · left
    rw [if_pos hMeta, slice, if_neg (by omega)]
    rfl
  · right
    rw [if_neg hMeta]
    exact ⟨type, _, rfl, hMeta, by omega, by omega⟩

end Bodies

variable {offset : Int}

theorem topBox_of_neg (data : Bytes) (h : offset < 0) : topBox data offset = none := by
  unfold topBox
  rw [slice, if_neg (by omega)]
  rfl

/-! ## The loops end -/

theorem ispeDimensions_isSome (content : Bytes) : ∃ found, ispeDimensions content = some found := by
  unfold ispeDimensions
  split
  · obtain ⟨width, hWidth, -⟩ := exists_slice content (show (0 : Int) ≤ 4 by decide)
      (show (4 : Int) ≤ 8 by decide) (by omega)
    obtain ⟨height, hHeight, -⟩ := exists_slice content (show (0 : Int) ≤ 8 by decide)
      (show (8 : Int) ≤ 12 by decide) (by omega)
    simp only [hWidth, hHeight]
    split <;> exact ⟨_, rfl⟩
  · exact ⟨none, rfl⟩

/-- **The search inside `meta` ends without a panic.** Each box makes what is left smaller. -/
theorem findISPE_result (fuel : Nat) : ∀ (data : Bytes) (offset : Int), data.length < 2 ^ 62 →
    0 ≤ offset → offset ≤ data.length → data.length - offset < fuel →
      ∃ dimensions, findISPE fuel data offset = .result dimensions := by
  induction fuel with
  | zero => intro data offset _ _ _ hFuel; omega
  | succ fuel ih =>
    intro data offset hSize hOffset hEnd hFuel
    unfold findISPE
    split
    · next hHead =>
      rw [wrap_of_range (by omega) (by omega)] at hHead
      obtain ⟨step, hStep, hInside⟩ := innerBox_inside hSize hOffset hHead
      rw [hStep]
      cases step with
      | stop => exact ⟨none, rfl⟩
      | box type content next =>
        obtain ⟨hNext, hNextEnd, hContent⟩ := hInside
        obtain ⟨after, hAfter⟩ := ih data next hSize (by omega) hNextEnd (by omega)
        obtain ⟨within, hWithin⟩ := ih content 0 (by omega) le_rfl (by omega) (by omega)
        obtain ⟨found, hFound⟩ := ispeDimensions_isSome content
        simp only [hAfter, hWithin, hFound]
        split
        · cases within <;> exact ⟨_, rfl⟩
        · split
          · cases found <;> exact ⟨_, rfl⟩
          · exact ⟨after, rfl⟩
    · exact ⟨none, rfl⟩

theorem walkTop_of_neg {fuel : Nat} (hFuel : 0 < fuel) (hData : 8 ≤ data.length)
    (hLow : -2 ^ 63 ≤ offset) (hNeg : offset < 0) : walkTop fuel data offset = .panicked := by
  obtain ⟨fuel, rfl⟩ := Nat.exists_eq_add_one.mpr hFuel
  have hHead : wrap (offset + 8) ≤ data.length := by
    rw [wrap_of_range (by omega) (by omega)]
    omega
  rw [walkTop, if_pos hHead, topBox_of_neg data hNeg]

def TopNext (data : Bytes) (offset next : Int) : Prop := Head.Next data (.top offset) (.top next)

theorem topNext_iff {next : Int} :
    TopNext data offset next ↔ ∃ type content, wrap (offset + 8) ≤ data.length ∧
      topBox data offset = some (.box type content next) ∧ type ≠ ascii "meta" := by
  constructor
  · intro h
    cases h with
    | top hHead hBox hType => exact ⟨_, _, hHead, hBox, hType⟩
  · rintro ⟨type, content, hHead, hBox, hType⟩
    exact .top hHead hBox hType

/-- **The loop at the top ends without a panic**, or it comes to a box that is too large. -/
theorem walkTop_result_or (fuel : Nat) : ∀ (data : Bytes) (offset : Int), data.length < 2 ^ 62 →
    0 ≤ offset → offset ≤ data.length → data.length - offset + 2 ≤ fuel →
      ((∃ dimensions, walkTop fuel data offset = .result dimensions) ∧
          ∀ o, Relation.ReflTransGen (TopNext data) offset o → ¬ Overflows data o) ∨
        (walkTop fuel data offset = .panicked ∧
          ∃ o, Relation.ReflTransGen (TopNext data) offset o ∧ Overflows data o) := by
  induction fuel with
  | zero => intro data offset _ _ _ hFuel; omega
  | succ fuel ih =>
    intro data offset hSize hOffset hEnd hFuel
    -- the loop that ends here comes to no other box
    have hLast : (∃ dimensions, walkTop (fuel + 1) data offset = .result dimensions) →
        ¬ Overflows data offset → (∀ next, ¬ TopNext data offset next) →
          ((∃ dimensions, walkTop (fuel + 1) data offset = .result dimensions) ∧
            ∀ o, Relation.ReflTransGen (TopNext data) offset o → ¬ Overflows data o) := by
      refine fun hResult hFits hNone => ⟨hResult, fun o ho => ?_⟩
      rcases Relation.ReflTransGen.cases_head ho with rfl | ⟨next, hNext, -⟩
      · exact hFits
      · exact absurd hNext (hNone next)
    by_cases hHead : wrap (offset + 8) ≤ data.length
    · by_cases hFits : Overflows data offset
      · right
        refine ⟨?_, offset, .refl, hFits⟩
        rw [walkTop, if_pos hHead]
        rcases topBox_of_overflows hSize hFits with hNone | ⟨type, next, hBox, hType, hLow, hNeg⟩
        · rw [hNone]
        rw [hBox]
        simp only [if_neg hType]
        exact walkTop_of_neg (by omega)
          (by rw [wrap_of_range (by omega) (by omega)] at hHead; omega) hLow
          hNeg
      · rw [wrap_of_range (by omega) (by omega)] at hHead
        obtain ⟨step, hStep, hInside⟩ := topBox_inside hSize hOffset hHead hFits
        have hHead' : wrap (offset + 8) ≤ data.length := by
          rwa [wrap_of_range (by omega) (by omega)]
        cases step with
        | stop =>
          left
          refine hLast ⟨none, ?_⟩ hFits ?_
          · rw [walkTop, if_pos hHead', hStep]
          · intro next hNext
            obtain ⟨_, _, -, hBox, -⟩ := topNext_iff.mp hNext
            exact nomatch hStep.symm.trans hBox
        | box type content next =>
          obtain ⟨hNext, hNextEnd, hContent⟩ := hInside
          have hOnly : ∀ o, TopNext data offset o → o = next ∧ type ≠ ascii "meta" := by
            intro o ho
            obtain ⟨_, _, -, hBox, hType⟩ := topNext_iff.mp ho
            cases hStep.symm.trans hBox
            exact ⟨rfl, hType⟩
          by_cases hType : type = ascii "meta"
          · left
            refine hLast ?_ hFits fun o ho => (hOnly o ho).2 hType
            rw [walkTop, if_pos hHead', hStep]
            simp only [if_pos hType]
            split
            · exact ⟨none, rfl⟩
            have hDrop : (content.drop 4).length ≤ content.length := by
              rw [List.length_drop]
              omega
            exact findISPE_result fuel _ 0 (by omega) le_rfl (by omega) (by omega)
          · have hWalk : walkTop (fuel + 1) data offset = walkTop fuel data next := by
              rw [walkTop, if_pos hHead', hStep]
              simp only [if_neg hType]
            have hStepNext : TopNext data offset next :=
              topNext_iff.mpr ⟨type, content, hHead', hStep, hType⟩
            rw [hWalk]
            rcases ih data next hSize (by omega) hNextEnd (by omega) with
              ⟨hResult, hAll⟩ | ⟨hPanic, o, ho, hOver⟩
            · refine .inl ⟨hResult, fun o ho => ?_⟩
              rcases Relation.ReflTransGen.cases_head ho with rfl | ⟨o', ho', hRest⟩
              · exact hFits
              · rw [(hOnly o' ho').1] at hRest
                exact hAll o hRest
            · exact .inr ⟨hPanic, o, .head hStepNext ho, hOver⟩
    · left
      refine hLast ⟨none, ?_⟩ ?_ ?_
      · rw [walkTop, if_neg hHead]
      · rintro ⟨_, _, hHead', -⟩
        exact hHead hHead'
      · intro next hNext
        obtain ⟨_, _, hHead', -⟩ := topNext_iff.mp hNext
        exact hHead hHead'

/-! ## Safety -/

variable {h : Head}

namespace Head

def InRange (data : Bytes) (h : Head) : Prop :=
  0 ≤ h.offset ∧ h.offset ≤ (h.within data).length ∧ (h.within data).length ≤ data.length

def box (data : Bytes) : Head → Option BoxStep
  | top offset => topBox data offset
  | inner content offset => innerBox content offset

theorem Next.box {h' : Head} (hNext : Next data h h') :
    ∃ type content, wrap (h.offset + 8) ≤ (h.within data).length ∧
      h.box data = some (.box type content h'.offset) ∧ h'.within data = h.within data := by
  cases hNext with
  | top hHead hBox hType | inner hHead hBox => exact ⟨_, _, hHead, hBox, rfl⟩

theorem Enter.box {h' : Head} (hEnter : Enter data h h') :
    ∃ type content next, wrap (h.offset + 8) ≤ (h.within data).length ∧
      h.box data = some (.box type content next) ∧ h'.offset = 0 ∧
      (h'.within data).length ≤ content.length := by
  cases hEnter with
  | top hHead hBox hType hFour =>
    refine ⟨_, _, _, hHead, hBox, rfl, ?_⟩
    rw [within, List.length_drop]
    exact Nat.sub_le ..
  | inner hHead hBox hType => exact ⟨_, _, _, hHead, hBox, rfl, le_rfl⟩

section InRange

variable {data : Bytes} (hSize : data.length < 2 ^ 62) {h h' : Head} (hRange : h.InRange data)
  (hFits : ∀ o, h = top o → ¬ Overflows data o)

include hSize hRange hFits

theorem InRange.box (hHead : wrap (h.offset + 8) ≤ (h.within data).length) {step : BoxStep}
    (hBox : h.box data = some step) : step.Inside (h.within data) h.offset := by
  obtain ⟨hLow, hHigh, hData⟩ := hRange
  rw [wrap_of_range (by omega) (by omega)] at hHead
  cases h with
  | top offset =>
    obtain ⟨step', hStep, hInside⟩ := topBox_inside hSize hLow hHead (hFits offset rfl)
    cases hStep.symm.trans hBox
    exact hInside
  | inner content offset =>
    obtain ⟨step', hStep, hInside⟩ := innerBox_inside (by omega) hLow hHead
    cases hStep.symm.trans hBox
    exact hInside

theorem InRange.next (hNext : Next data h h') : h'.InRange data ∧ h.offset < h'.offset := by
  obtain ⟨type, content, hHead, hBox, hWithin⟩ := hNext.box
  obtain ⟨hLt, hEnd, -⟩ := hRange.box hSize hFits hHead hBox
  obtain ⟨hLow, -, hData⟩ := hRange
  rw [InRange, hWithin]
  exact ⟨⟨by omega, hEnd, hData⟩, by omega⟩

theorem InRange.enter (hEnter : Enter data h h') : h'.InRange data := by
  obtain ⟨type, content, next, hHead, hBox, hZero, hLength⟩ := hEnter.box
  obtain ⟨-, -, hContent⟩ := hRange.box hSize hFits hHead hBox
  obtain ⟨hLow, -, hData⟩ := hRange
  rw [InRange, hZero]
  exact ⟨le_rfl, Int.natCast_nonneg _, by omega⟩

end InRange

theorem Visited.topNext (hVisited : Visited data h) :
    ∀ o, h = top o → Relation.ReflTransGen (TopNext data) 0 o := by
  induction hVisited with intro o ho
  | refl =>
    cases ho
    exact .refl
  | tail _ hStep ih =>
    subst ho
    rcases hStep with hNext | hEnter
    · cases hNext with
      | top hHead hBox hType => exact (ih _ rfl).tail (.top hHead hBox hType)
    · cases hEnter

theorem Visited.of_topNext {o : Int} (h : Relation.ReflTransGen (TopNext data) 0 o) :
    Visited data (top o) := by
  induction h with
  | refl => exact .refl
  | tail _ hNext ih => exact ih.tail (.inl hNext)

theorem Visited.inRange (hSize : data.length < 2 ^ 62)
    (hFits : ∀ o, Visited data (top o) → ¬ Overflows data o) (hVisited : Visited data h) :
    h.InRange data := by
  induction hVisited with
  | refl => exact ⟨le_rfl, Int.natCast_nonneg _, le_rfl⟩
  | @tail before after hBefore hStep ih =>
    have hFits' : ∀ o, before = top o → ¬ Overflows data o := by
      rintro o rfl
      exact hFits o hBefore
    rcases hStep with hNext | hEnter
    · exact (ih.next hSize hFits' hNext).1
    · exact ih.enter hSize hFits' hEnter

end Head

theorem detectHEIF_isSome (data : Bytes) : (detectHEIF data).isSome = true := by
  unfold detectHEIF
  split
  · rfl
  obtain ⟨box, hBox, -⟩ := exists_slice data (show (0 : Int) ≤ 4 by decide)
    (show (4 : Int) ≤ 8 by decide) (by omega)
  obtain ⟨brand, hBrand, -⟩ := exists_slice data (show (0 : Int) ≤ 8 by decide)
    (show (8 : Int) ≤ 12 by decide) (by omega)
  simp only [hBox, hBrand]
  split
  · rfl
  · split
    · rfl
    · split <;> rfl

theorem not_overflows_of_short (hShort : data.length < 12) (o : Int) : ¬ Overflows data o := by
  rintro ⟨sizeBytes, long, -, hSizeBytes, -, hSlice, -⟩
  obtain ⟨hOffset, hLe, hEnd, -⟩ := slice_eq_some hSizeBytes
  obtain ⟨-, -, hEnd', -⟩ := slice_eq_some hSlice
  rw [wrap_of_range (by omega) (by omega)] at hEnd'
  omega

/-- No panic, to the end, and in each loop the offset is inside the data and increases. -/
structure SafeParse (data : Bytes) : Prop where
  detects : (detectHEIF data).isSome = true
  ends : ∃ dimensions, parseHEIFDimensions data = .result dimensions
  inRange : ∀ h, Head.Visited data h → h.InRange data
  increases : ∀ h h', Head.Visited data h → Head.Next data h h' → h.offset < h'.offset

/-- **The parser is safe exactly when no box ends beyond the largest `int`.** -/
theorem parse_safe_iff {data : Bytes} (hSize : data.length < 2 ^ 62) :
    SafeParse data ↔ ∀ offset, Head.Visited data (.top offset) → ¬ Overflows data offset := by
  have hWalk := walkTop_result_or (data.length + 2) data 0 hSize le_rfl (Int.natCast_nonneg _)
    (by omega)
  constructor
  · rintro ⟨-, ⟨dimensions, hResult⟩, -, -⟩ offset hVisited hOver
    unfold parseHEIFDimensions at hResult
    split at hResult
    · rename_i hShort
      exact not_overflows_of_short hShort offset hOver
    · rcases hWalk with ⟨-, hAll⟩ | ⟨hPanic, -⟩
      · exact hAll offset (hVisited.topNext offset rfl) hOver
      · exact nomatch hPanic.symm.trans hResult
  · intro hFits
    refine ⟨detectHEIF_isSome data, ?_, fun h hVisited => hVisited.inRange hSize hFits, ?_⟩
    · unfold parseHEIFDimensions
      split
      · exact ⟨none, rfl⟩
      · rcases hWalk with ⟨hResult, -⟩ | ⟨-, o, ho, hOver⟩
        · exact hResult
        · exact absurd hOver (hFits o (.of_topNext ho))
    · intro h h' hVisited hNext
      refine ((hVisited.inRange hSize hFits).next hSize ?_ hNext).2
      rintro o rfl
      exact hFits o hVisited

def hugeBox : Bytes :=
  [0, 0, 0, 16] ++ ascii "ftypheic" ++ [0, 0, 0, 0] ++
    ([0, 0, 0, 1] ++ ascii "free" ++ [127, 255, 255, 255, 255, 255, 255, 255])

/-- The file is taken for a HEIF image, and the parser panics. -/
theorem hugeBox_panics :
    detectHEIF hugeBox = some (some (ascii "image/heic")) ∧
      parseHEIFDimensions hugeBox = .panicked := by
  decide +kernel

def smallImage : Bytes :=
  [0, 0, 0, 12] ++ ascii "ftypheic" ++ ([0, 0, 0, 48] ++ ascii "meta" ++ [0, 0, 0, 0] ++
    ([0, 0, 0, 36] ++ ascii "iprp" ++ ([0, 0, 0, 28] ++ ascii "ipco" ++
      ([0, 0, 0, 20] ++ ascii "ispe" ++ [0, 0, 0, 0, 0, 0, 0, 2, 0, 0, 0, 3]))))

theorem smallImage_safe :
    SafeParse smallImage ∧ parseHEIFDimensions smallImage = .result (some (2, 3)) := by
  have hSize : smallImage.length < 2 ^ 62 := by decide +kernel
  have hWalk : walkTop (smallImage.length + 2) smallImage 0 = .result (some (2, 3)) := by
    decide +kernel
  refine ⟨(parse_safe_iff hSize).mpr fun offset hVisited => ?_, by decide +kernel⟩
  rcases walkTop_result_or (smallImage.length + 2) smallImage 0 hSize le_rfl
    (Int.natCast_nonneg _) (by omega) with ⟨-, hAll⟩ | ⟨hPanic, -⟩
  · exact hAll offset (hVisited.topNext offset rfl)
  · rw [hPanic] at hWalk
    cases hWalk

end NewApi.Files
