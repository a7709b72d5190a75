import NewApi.Chat.Gemini
import NewApi.Core.Fallible

/-!
# Images in a text

The images of a text are the places `![alt](data:…)` where `alt` has neither `![` nor `](`, and the
text is cut at them (`pieces`). The loop starts at the first `![`, which may belong to something
else, and forgets what follows the last image.
-/

namespace NewApi.Chat

open Go Core.Fallible List Option

/-! ## The images of a text -/

def imageMark : List Char := ['!', '[']

def closingMark : List Char := [']', '(']

def dataMark : List Char := "data:".toList

def Clean (alt : List Char) : Prop := ¬ imageMark <:+: alt ∧ ¬ closingMark <:+: alt

instance (alt : List Char) : Decidable (Clean alt) := inferInstanceAs (Decidable (_ ∧ _))

structure Image where
  alt : List Char
  url : List Char
  deriving DecidableEq, Repr

def Image.source (image : Image) : List Char :=
  imageMark ++ (image.alt ++ (closingMark ++ (image.url ++ [')'])))

def imageAt (text : List Char) : Option (Image × List Char) :=
  if imageMark.isPrefixOf text then
    (cut closingMark (text.drop 2)).bind fun p =>
      if Clean p.1 ∧ dataMark.isPrefixOf p.2 then
        (cut [')'] p.2).map fun q => (⟨p.1, q.1⟩, q.2)
      else none
  else none

def firstImage : List Char → Option (List Char × Image × List Char)
  | [] => none
  | c :: rest =>
    match imageAt (c :: rest) with
    | some (image, after) => some ([], image, after)
    | none => (firstImage rest).map fun p => (c :: p.1, p.2)

inductive Piece where
  | text (text : List Char)
  | image (image : Image)
  deriving DecidableEq, Repr

def textPiece (text : List Char) : List Piece := if text = [] then [] else [.text text]

def piecesFrom : Nat → List Char → List Piece
  | 0, text => textPiece text
  | fuel + 1, text =>
    match firstImage text with
    | none => textPiece text
    | some (before, image, after) =>
      textPiece before ++ .image image :: piecesFrom fuel after

/-- **The pieces of a text**: its images and what stands between them. -/
def pieces (text : List Char) : List Piece := piecesFrom (text.length + 1) text

variable {text : List Char} {f : Found}

theorem imageAt_eq_some_iff {text rest : List Char} {image : Image} :
    imageAt text = some (image, rest) ↔
      text = image.source ++ rest ∧ Clean image.alt ∧ dataMark <+: image.url ∧
        ')' ∉ image.url := by
  constructor
  · intro h
    rw [imageAt] at h
    split at h
    · next hMark =>
      obtain ⟨inner, rfl⟩ := isPrefixOf_iff_prefix.mp hMark
      obtain ⟨⟨alt, tail⟩, hAlt, h⟩ := bind_eq_some_iff.mp h
      split at h
      · next hBoth =>
        obtain ⟨⟨url, rest'⟩, hUrl, hEq⟩ := map_eq_some_iff.mp h
        obtain ⟨rfl, rfl⟩ := Prod.mk.inj hEq
        obtain ⟨data, hData⟩ := isPrefixOf_iff_prefix.mp hBoth.2
        have hInner : inner = alt ++ (closingMark ++ tail) := (cut_eq_some_iff.mp hAlt).1
        have hTail : tail = url ++ ([')'] ++ rest') := (cut_eq_some_iff.mp hUrl).1
        have hPrefix : dataMark <+: url := by
          rw [show (alt, tail).2 = dataMark ++ data from hData.symm,
            cut_append_of_notMem (by decide)] at hUrl
          obtain ⟨p, -, hEq⟩ := map_eq_some_iff.mp hUrl
          exact ⟨p.1, congrArg Prod.fst hEq⟩
        refine ⟨?_, hBoth.1, hPrefix, notMem_of_cut hUrl⟩
        rw [hInner, hTail]
        simp [Image.source]
      · exact nomatch h
    · exact nomatch h
  · rintro ⟨rfl, hClean, hData, hClose⟩
    have hInner : (image.source ++ rest).drop 2 =
        image.alt ++ (closingMark ++ (image.url ++ ')' :: rest)) := by
      simp [Image.source, imageMark]
    have hCut := cut_pair (by decide) hClean.2 (image.url ++ ')' :: rest)
    have hMark : imageMark.isPrefixOf (image.source ++ rest) := by
      rw [Image.source]
      exact isPrefixOf_iff_prefix.mpr (prefix_append _ _)
    rw [imageAt, if_pos hMark, hInner, closingMark, hCut, bind_some,
      if_pos ⟨hClean, isPrefixOf_iff_prefix.mpr (hData.trans (prefix_append _ _))⟩,
      cut_singleton hClose]
    rfl

theorem firstImage_eq_some {text before after : List Char} {image : Image}
    (h : firstImage text = some (before, image, after)) :
    text = before ++ (image.source ++ after) ∧ Clean image.alt ∧ dataMark <+: image.url := by
  induction text generalizing before with
  | nil => exact nomatch h
  | cons c rest ih =>
    rw [firstImage] at h
    cases hAt : imageAt (c :: rest) with
    | some p =>
      obtain ⟨image', after'⟩ := p
      rw [hAt] at h
      obtain ⟨rfl, hRest⟩ := Prod.mk.inj (some.inj h)
      obtain ⟨rfl, rfl⟩ := Prod.mk.inj hRest
      obtain ⟨hText, hClean, hData, -⟩ := imageAt_eq_some_iff.mp hAt
      exact ⟨hText, hClean, hData⟩
    | none =>
      rw [hAt, map_eq_some_iff] at h
      obtain ⟨⟨before', p⟩, hFirst, hEq⟩ := h
      obtain ⟨rfl, rfl⟩ := Prod.mk.inj hEq
      obtain ⟨hText, hRest⟩ := ih hFirst
      exact ⟨by rw [hText, cons_append], hRest⟩

/-! ## What the loop finds -/

structure Found where
  before : List Char
  alt : List Char
  url : List Char
  rest : List Char
  deriving DecidableEq, Repr

def Found.image (f : Found) : Image := ⟨f.alt, f.url⟩

def found (text : List Char) : Option Found :=
  (cut imageMark text).bind fun p =>
    (cut (closingMark ++ dataMark) p.2).bind fun q =>
      (cut [')'] q.2).map fun r => ⟨p.1, q.1, dataMark ++ r.1, r.2⟩

def scanFrom : Nat → List Char → List Found × List Char
  | 0, text => ([], text)
  | fuel + 1, text =>
    match found text with
    | none => ([], text)
    | some f => (f :: (scanFrom fuel f.rest).1, (scanFrom fuel f.rest).2)

def scan (text : List Char) : List Found × List Char := scanFrom (text.length + 1) text

/-- **No text is lost**: there is no image, or nothing follows the last one and all are clean. -/
def Lossless (text : List Char) : Prop :=
  (scan text).1 = [] ∨ (scan text).2 = [] ∧ ∀ f ∈ (scan text).1, Clean f.alt

instance (text : List Char) : Decidable (Lossless text) := inferInstanceAs (Decidable (_ ∨ _))

theorem found_cuts (h : found text = some f) :
    ∃ inner tail data, cut imageMark text = some (f.before, inner) ∧
      cut (closingMark ++ dataMark) inner = some (f.alt, tail) ∧
      cut [')'] tail = some (data, f.rest) ∧ f.url = dataMark ++ data := by
  obtain ⟨p, hBefore, h⟩ := bind_eq_some_iff.mp h
  obtain ⟨q, hAlt, h⟩ := bind_eq_some_iff.mp h
  obtain ⟨r, hData, rfl⟩ := map_eq_some_iff.mp h
  exact ⟨p.2, q.2, r.1, hBefore, hAlt, hData, rfl⟩

theorem found_eq_some (h : found text = some f) :
    text = f.before ++ (f.image.source ++ f.rest) ∧
      (∀ before after, text = before ++ (imageMark ++ after) →
        f.before.length ≤ before.length) ∧
      (∀ alt after, f.alt ++ (closingMark ++ (f.url ++ ')' :: f.rest)) =
        alt ++ (closingMark ++ (dataMark ++ after)) → f.alt.length ≤ alt.length) ∧
      dataMark <+: f.url ∧ ')' ∉ f.url := by
  obtain ⟨inner, tail, data, hBefore, hAlt, hData, hUrl⟩ := found_cuts h
  obtain ⟨hText, hFirst⟩ := cut_eq_some_iff.mp hBefore
  obtain ⟨hInner, hFirstAlt⟩ := cut_eq_some_iff.mp hAlt
  have hTail : tail = data ++ ([')'] ++ f.rest) := (cut_eq_some_iff.mp hData).1
  have hInner' : inner = f.alt ++ (closingMark ++ (f.url ++ ')' :: f.rest)) := by
    rw [hInner, hTail, hUrl]
    simp
  refine ⟨?_, hFirst, ?_, ⟨data, hUrl.symm⟩, ?_⟩
  · rw [hText, hInner']
    simp [Found.image, Image.source]
  · intro alt after hEq
    refine hFirstAlt alt after ?_
    rw [hInner', hEq, append_assoc]
  · rw [hUrl, mem_append, not_or]
    exact ⟨by decide, notMem_of_cut hData⟩

theorem slice_between (start inner rest : List Char) (c : Char) :
    ((start ++ (inner ++ c :: rest)).take (inner.length + start.length)).drop start.length =
        inner ∧
      (start ++ (inner ++ c :: rest)).drop (inner.length + start.length + 1) = rest := by
  constructor
  · rw [← append_assoc, take_left' (by rw [length_append, Nat.add_comm]), drop_left]
  · rw [show start ++ (inner ++ c :: rest) = (start ++ inner ++ [c]) ++ rest by simp]
    exact drop_left' (by simp; omega)

theorem nextImage_eq (text : List Char) :
    nextImage text = (found text).map fun f => ⟨f.before, f.url, f.rest⟩ := by
  rw [nextImage, found, index, ← imageMark]
  cases hBefore : cut imageMark text with
  | none => rfl
  | some p =>
    obtain ⟨before, inner⟩ := p
    have hText := (cut_eq_some_iff.mp hBefore).1
    have hDrop : text.drop before.length = imageMark ++ inner := by rw [hText, drop_left]
    have hAlt : cut "](data:".toList (imageMark ++ inner) =
        (cut (closingMark ++ dataMark) inner).map fun p => (imageMark ++ p.1, p.2) :=
      cut_append_of_notMem (by decide) _ _
    simp only [map_some, bind_some, hDrop, index, hAlt]
    cases hClosing : cut (closingMark ++ dataMark) inner with
    | none => rfl
    | some q =>
      obtain ⟨alt, tail⟩ := q
      have hInner := (cut_eq_some_iff.mp hClosing).1
      -- everything up to the URL
      have hStart : text = (before ++ (imageMark ++ (alt ++ closingMark))) ++ (dataMark ++ tail) := by
        rw [hText, hInner]
        simp
      have hLength : (imageMark ++ alt).length + before.length + 2 =
          (before ++ (imageMark ++ (alt ++ closingMark))).length := by
        simp [closingMark]
        omega
      generalize before ++ (imageMark ++ (alt ++ closingMark)) = start at hStart hLength
      have hData : cut [')'] (dataMark ++ tail) =
          (cut [')'] tail).map fun p => (dataMark ++ p.1, p.2) :=
        cut_append_of_notMem (by decide) _ _
      have hDrop' : text.drop start.length = dataMark ++ tail := by rw [hStart, drop_left]
      simp only [map_some, bind_some, hLength, hDrop', hData]
      cases hClose : cut [')'] tail with
      | none => rfl
      | some r =>
        obtain ⟨data, rest⟩ := r
        have hTail : dataMark ++ tail = (dataMark ++ data) ++ ')' :: rest := by
          rw [(cut_eq_some_iff.mp hClose).1]
          simp
        have hBeforeTake : text.take before.length = before := by rw [hText, take_left]
        obtain ⟨hUrl, hRest⟩ := slice_between start (dataMark ++ data) rest ')'
        rw [← hTail, ← hStart] at hUrl hRest
        simp only [map_some, hBeforeTake, hUrl, hRest]

theorem length_rest_lt (h : found text = some f) :
    f.rest.length < text.length := by
  rw [(found_eq_some h).1]
  simp [Image.source, imageMark]
  omega

theorem found_of_scanFrom_nil {fuel : Nat} (h : (scanFrom (fuel + 1) text).1 = []) :
    found text = none := by
  rw [scanFrom] at h
  cases hFound : found text with
  | none => rfl
  | some f =>
    rw [hFound] at h
    exact nomatch h

/-! ## Images that the loop finds and images that are there -/

theorem Clean.of_infix {alt alt' : List Char} (h : Clean alt) (hInfix : alt' <:+: alt) :
    Clean alt' :=
  ⟨fun hMark => h.1 (hMark.trans hInfix), fun hMark => h.2 (hMark.trans hInfix)⟩

theorem firstImage_of_found_none (h : found text = none) :
    firstImage text = none := by
  by_contra hSome
  obtain ⟨⟨before, image, after⟩, hFirst⟩ := ne_none_iff_exists'.mp hSome
  obtain ⟨hText, -, data, hUrl⟩ := firstImage_eq_some hFirst
  -- the three searches succeed, because the markers of the image are there
  have hText' : text = before ++ (imageMark ++
      (image.alt ++ (closingMark ++ dataMark ++ (data ++ ')' :: after)))) := by
    rw [hText, Image.source, ← hUrl]
    simp
  cases hBefore : cut imageMark text with
  | none =>
    refine cut_eq_none_iff.mp hBefore ?_
    rw [hText']
    exact ⟨before, _, append_assoc _ _ _⟩
  | some p =>
    obtain ⟨before', inner⟩ := p
    obtain ⟨skipped, hInner⟩ := suffix_of_cut hBefore hText'
    have hInner' : inner = (skipped ++ image.alt) ++
        (closingMark ++ dataMark ++ (data ++ ')' :: after)) := by
      rw [← hInner]
      simp
    cases hAlt : cut (closingMark ++ dataMark) inner with
    | none =>
      refine cut_eq_none_iff.mp hAlt ?_
      rw [hInner']
      exact ⟨skipped ++ image.alt, data ++ ')' :: after, append_assoc _ _ _⟩
    | some q =>
      obtain ⟨alt', tail⟩ := q
      cases hClose : cut [')'] tail with
      | none =>
        refine cut_eq_none_iff.mp hClose ?_
        obtain ⟨skipped', rfl⟩ := suffix_of_cut hAlt hInner'
        exact ⟨skipped' ++ data, after, by simp⟩
      | some r => simp [found, hBefore, hAlt, hClose] at h

theorem firstImage_of_source {before after : List Char} {image : Image} (hClean : Clean image.alt)
    (hData : dataMark <+: image.url) (hClose : ')' ∉ image.url)
    (hLeast : ∀ before' after',
      before ++ (image.source ++ after) = before' ++ (imageMark ++ after') →
        before.length ≤ before'.length) :
    firstImage (before ++ (image.source ++ after)) = some (before, image, after) := by
  induction before with
  | nil =>
    have hAt : imageAt (image.source ++ after) = some (image, after) :=
      imageAt_eq_some_iff.mpr ⟨rfl, hClean, hData, hClose⟩
    obtain ⟨c, rest, hCons⟩ : ∃ c rest, image.source ++ after = c :: rest := ⟨_, _, rfl⟩
    rw [hCons] at hAt
    rw [nil_append, hCons, firstImage, hAt]
  | cons c before ih =>
    have hAt : imageAt (c :: before ++ (image.source ++ after)) = none := by
      by_contra hSome
      obtain ⟨⟨image', rest⟩, hEq⟩ := ne_none_iff_exists'.mp hSome
      have hText := (imageAt_eq_some_iff.mp hEq).1
      rw [Image.source] at hText
      exact Nat.not_succ_le_zero _ (hLeast [] _ hText)
    rw [cons_append] at hAt ⊢
    rw [firstImage, hAt, ih fun before' after' hEq => ?_]
    · rfl
    · exact Nat.le_of_succ_le_succ (hLeast (c :: before') after' (by
        rw [cons_append, hEq, cons_append]))

theorem firstImage_of_clean (h : found text = some f) (hClean : Clean f.alt) :
    firstImage text = some (f.before, f.image, f.rest) := by
  obtain ⟨rfl, hLeast, -, hData, hClose⟩ := found_eq_some h
  exact firstImage_of_source hClean hData hClose hLeast

theorem clean_of_firstImage {text after : List Char} {image : Image} (h : found text = some f)
    (hFirst : firstImage text = some (f.before, image, after)) :
    Clean f.alt := by
  obtain ⟨hText, -, hLeast, -, -⟩ := found_eq_some h
  obtain ⟨hText', hClean, data, hUrl⟩ := firstImage_eq_some hFirst
  have hInner : f.alt ++ (closingMark ++ (f.url ++ ')' :: f.rest)) =
      image.alt ++ (closingMark ++ (dataMark ++ (data ++ ')' :: after))) := by
    have hSource := append_cancel_left (hText.symm.trans hText')
    simpa [Found.image, Image.source, ← hUrl] using hSource
  have hLe := hLeast _ _ hInner
  have hPrefix : f.alt <+: image.alt :=
    prefix_of_prefix_length_le (prefix_append _ _) ⟨_, hInner.symm⟩ hLe
  exact hClean.of_infix hPrefix.isInfix

/-! ## The parts of a text -/

namespace GeminiEnv

variable (env : GeminiEnv)

def pieceBody : Piece → Except ConvertError PartBody
  | .text t => pure (.text (String.ofList t))
  | .image i => do
    let data ← (env.decodeBase64FileData i.url).mapError ConvertError.markdownImage
    pure (.inlineData data.1 data.2)

def pieceBodies (ps : List Piece) : Except ConvertError (List PartBody) := ps.mapM env.pieceBody

end GeminiEnv

def Found.pieces (f : Found) : List Piece := textPiece f.before ++ [.image f.image]

namespace GeminiEnv

variable {env : GeminiEnv}

theorem pieceBodies_cons_ok {piece : Piece} {rest : List Piece} {bodies : List PartBody} :
    env.pieceBodies (piece :: rest) = .ok bodies ↔
      ∃ body bodies', env.pieceBody piece = .ok body ∧ env.pieceBodies rest = .ok bodies' ∧
        bodies = body :: bodies' := by
  rw [pieceBodies, mapM_cons, bind_eq_ok]
  constructor
  · rintro ⟨body, hBody, h⟩
    obtain ⟨bodies', hBodies, hEq⟩ := bind_eq_ok.mp h
    exact ⟨body, bodies', hBody, hBodies, (Except.ok.inj hEq).symm⟩
  · rintro ⟨body, bodies', hBody, hBodies, rfl⟩
    exact ⟨body, hBody, bind_eq_ok.mpr ⟨bodies', hBodies, rfl⟩⟩

theorem pieceBody_image_ok {image : Image} {body : PartBody} :
    env.pieceBody (.image image) = .ok body ↔
      ∃ data, (env.decodeBase64FileData image.url).mapError ConvertError.markdownImage = .ok data ∧
        body = .inlineData data.1 data.2 := by
  rw [pieceBody, bind_eq_ok]
  refine exists_congr fun data => and_congr_right fun _ => ?_
  exact ⟨fun h => (Except.ok.inj h).symm, fun h => congrArg _ h.symm⟩

theorem pieceBodies_textPiece_append {t : List Char} {rest : List Piece} {bodies : List PartBody} :
    env.pieceBodies (textPiece t ++ rest) = .ok bodies ↔
      ∃ bodies', env.pieceBodies rest = .ok bodies' ∧
        bodies = (if t = [] then [] else [.text (String.ofList t)]) ++ bodies' := by
  rw [textPiece]
  split
  · simp
  rw [singleton_append, pieceBodies_cons_ok]
  constructor
  · rintro ⟨body, bodies', hBody, hRest, rfl⟩
    obtain rfl := Except.ok.inj hBody
    exact ⟨bodies', hRest, rfl⟩
  · rintro ⟨bodies', hRest, rfl⟩
    exact ⟨_, bodies', rfl, hRest, rfl⟩

theorem addTextBefore_append (parts parts' : List GeminiPart) (t : List Char) :
    addTextBefore (parts ++ parts') t = parts ++ addTextBefore parts' t := by
  rw [addTextBefore, addTextBefore]
  split <;> simp

theorem imageLoop_ok {should : Bool} {fuel : Nat} {text : List Char} {has has' : Bool}
    {parts parts' : List GeminiPart}
    (h : env.imageLoop should fuel text has parts = .ok (has', parts')) :
    ∃ own, parts' = parts ++ own ∧
      env.pieceBodies ((scanFrom fuel text).1.flatMap Found.pieces) =
        .ok (own.map GeminiPart.body) ∧
      has' = (has || !(scanFrom fuel text).1.isEmpty) := by
  induction fuel generalizing text has parts with
  | zero =>
    obtain ⟨rfl, rfl⟩ := Prod.mk.inj (Except.ok.inj h)
    exact ⟨[], by simp, rfl, by simp [scanFrom]⟩
  | succ fuel ih =>
    rw [imageLoop, nextImage_eq] at h
    rw [scanFrom]
    cases hFound : found text with rw [hFound] at h
    | none =>
      obtain ⟨rfl, rfl⟩ := Prod.mk.inj (Except.ok.inj h)
      exact ⟨[], by simp, rfl, by simp⟩
    | some f =>
      obtain ⟨data, hData, h⟩ := bind_eq_ok.mp h
      obtain ⟨own, rfl, hBodies, rfl⟩ := ih h
      refine ⟨addTextBefore [] f.before ++ imgPart should data :: own, ?_, ?_, by simp⟩
      · have hBefore := addTextBefore_append parts [] f.before
        rw [append_nil] at hBefore
        rw [hBefore]
        simp [imgPart]
      rw [flatMap_cons, Found.pieces, append_assoc, pieceBodies_textPiece_append]
      refine ⟨.inlineData data.1 data.2 :: own.map GeminiPart.body, ?_, ?_⟩
      · exact pieceBodies_cons_ok.mpr
          ⟨_, _, pieceBody_image_ok.mpr ⟨data, hData, rfl⟩, hBodies, rfl⟩
      · rw [addTextBefore]
        split <;> simp [imgPart]

def lead : List PartBody → List Char
  | .text t :: _ => t.toList
  | _ => []

theorem lead_eq {t : List Char} {rest : List Piece} {bodies : List PartBody}
    (hRest : rest = [] ∨ ∃ image others, rest = .image image :: others)
    (h : env.pieceBodies (textPiece t ++ rest) = .ok bodies) : lead bodies = t := by
  obtain ⟨bodies', h', rfl⟩ := pieceBodies_textPiece_append.mp h
  split
  · next ht =>
    rw [ht]
    rcases hRest with rfl | ⟨image, others, rfl⟩
    · rw [← Except.ok.inj h']
      rfl
    · obtain ⟨body, _, hBody, -, rfl⟩ := pieceBodies_cons_ok.mp h'
      obtain ⟨data, -, rfl⟩ := pieceBody_image_ok.mp hBody
      rfl
  · rw [singleton_append, lead, String.toList_ofList]

theorem pieceBodies_piecesFrom_iff {fuel : Nat} {text : List Char} {bodies : List PartBody}
    (hFuel : text.length < fuel)
    (h : env.pieceBodies ((scanFrom fuel text).1.flatMap Found.pieces) = .ok bodies) :
    env.pieceBodies (piecesFrom fuel text) = .ok bodies ↔
      (scanFrom fuel text).2 = [] ∧ ∀ f ∈ (scanFrom fuel text).1, Clean f.alt := by
  induction fuel generalizing text bodies with
  | zero => exact absurd hFuel (Nat.not_lt_zero _)
  | succ fuel ih =>
    rw [scanFrom] at h ⊢
    rw [piecesFrom]
    cases hFound : found text with rw [hFound] at h
    | none =>
      obtain rfl := Except.ok.inj h
      rw [firstImage_of_found_none hFound, ← append_nil (textPiece text),
        pieceBodies_textPiece_append]
      by_cases ht : text = [] <;> simp [pieceBodies, pure, Except.pure]
    | some f =>
      simp only [flatMap_cons, Found.pieces, append_assoc] at h
      have hLead := lead_eq (.inr ⟨_, _, rfl⟩) h
      simp only [forall_mem_cons]
      by_cases hClean : Clean f.alt
      · have hRest : f.rest.length < fuel :=
          lt_of_lt_of_le (length_rest_lt hFound) (Nat.le_of_lt_succ hFuel)
        obtain ⟨bodies₁, h₁, rfl⟩ := pieceBodies_textPiece_append.mp h
        obtain ⟨body, bodies₂, hBody, h₂, rfl⟩ := pieceBodies_cons_ok.mp h₁
        rw [firstImage_of_clean hFound hClean, and_iff_right hClean, ← ih hRest h₂,
          pieceBodies_textPiece_append]
        constructor
        · rintro ⟨bodies', h', hEq⟩
          obtain rfl := append_cancel_left hEq
          obtain ⟨body', bodies'', -, h'', hEq'⟩ := pieceBodies_cons_ok.mp h'
          obtain ⟨rfl, rfl⟩ := cons.inj hEq'
          exact h''
        · intro h'
          exact ⟨_, pieceBodies_cons_ok.mpr ⟨_, _, hBody, h', rfl⟩, rfl⟩
      · refine iff_of_false (fun hPieces => ?_) (fun hBoth => hClean hBoth.2.1)
        -- the text before the first image is not what the loop takes for it
        cases hFirst : firstImage text with
        | none =>
          rw [hFirst, ← append_nil (textPiece text)] at hPieces
          have hText : text = f.before := (lead_eq (.inl rfl) hPieces).symm.trans hLead
          have hLength := congrArg length (hText.symm.trans (found_eq_some hFound).1)
          simp [Image.source, imageMark] at hLength
        | some p =>
          obtain ⟨before, image, after⟩ := p
          rw [hFirst] at hPieces
          have hBefore : before = f.before := (lead_eq (.inr ⟨_, _, rfl⟩) hPieces).symm.trans hLead
          rw [hBefore] at hFirst
          exact hClean (clean_of_firstImage hFound hFirst)

/-- **A text part is sent as its pieces exactly when no text is lost.** -/
theorem addText_eq_pieces_iff {should : Bool} {text : String} {own : List GeminiPart}
    (h : env.addText should [] text = .ok own) :
    env.pieceBodies (pieces text.toList) = .ok (own.map GeminiPart.body) ↔
      Lossless text.toList := by
  rw [addText] at h
  split at h
  · next hEmpty =>
    subst hEmpty
    obtain rfl := Except.ok.inj h
    exact iff_of_true rfl (.inl rfl)
  · next hNonempty =>
    obtain ⟨⟨has, parts⟩, hLoop, hOwn⟩ := bind_eq_ok.mp h
    obtain rfl := Except.ok.inj hOwn
    obtain ⟨found, hParts, hBodies, rfl⟩ := imageLoop_ok hLoop
    subst hParts
    have hIff := pieceBodies_piecesFrom_iff (Nat.lt_succ_self _) hBodies
    rw [Lossless, scan]
    by_cases hNone : (scanFrom (text.toList.length + 1) text.toList).1 = []
    · rw [hNone] at hBodies
      obtain rfl : parts = [] := map_eq_nil_iff.mp (Except.ok.inj hBodies).symm
      have hFirst := firstImage_of_found_none (found_of_scanFrom_nil hNone)
      have hText : text.toList ≠ [] := by simpa using hNonempty
      refine iff_of_true ?_ (.inl hNone)
      rw [pieces, piecesFrom, hFirst, ← append_nil (textPiece _), pieceBodies_textPiece_append,
        if_neg hText, hNone]
      exact ⟨[], rfl, by simp⟩
    · rw [pieces, ← hIff]
      simp [hNone]

/-! ## The parts of a message -/

variable (env) (should : Bool)

theorem imageLoop_append (fuel : Nat) (text : List Char) (has : Bool)
    (parts parts' : List GeminiPart) :
    env.imageLoop should fuel text has (parts ++ parts') =
      (env.imageLoop should fuel text has parts').map fun p => (p.1, parts ++ p.2) := by
  induction fuel generalizing text has parts' with
  | zero => rfl
  | succ fuel ih =>
    rw [imageLoop, imageLoop]
    cases nextImage text with
    | none => rfl
    | some image =>
      simp only [addTextBefore_append, append_assoc, ih]
      cases (env.decodeBase64FileData image.dataUrl).mapError ConvertError.markdownImage with
      | error e | ok data => rfl

theorem appends_addText (text : String) : Appends fun parts => env.addText should parts text := by
  intro parts
  have hLoop := env.imageLoop_append should (text.toList.length + 1) text.toList false parts []
  rw [append_nil] at hLoop
  simp only [addText, hLoop]
  split
  · exact congrArg _ (append_nil parts).symm
  cases env.imageLoop should (text.toList.length + 1) text.toList false [] with
  | error e => rfl
  | ok p =>
    refine congrArg Except.ok ?_
    cases p.1 <;> simp

theorem appends_addFile (part : MediaContent) : Appends fun parts => env.addFile parts part := by
  intro parts
  simp only [addFile]
  cases part.toFileSource with
  | none => exact congrArg _ (append_nil parts).symm
  | some source =>
    simp only
    cases env.getBase64Data source with
    | none => rfl
    | some p =>
      simp only
      split <;> rfl

theorem appends_addPart (part : MediaContent) :
    Appends fun parts => env.addPart should parts part := by
  cases part with
  | text text => exact env.appends_addText should text
  | imageUrl url detail mimeType => exact env.appends_addFile (.imageUrl url detail mimeType)
  | inputAudio data format => exact env.appends_addFile (.inputAudio data format)
  | file fileName fileData fileId => exact env.appends_addFile (.file fileName fileData fileId)
  | videoUrl url => exact env.appends_addFile (.videoUrl url)

variable {env should}

theorem signFirstText_bodies (parts : List GeminiPart) :
    (signFirstText parts).map GeminiPart.body = parts.map GeminiPart.body := by
  induction parts with
  | nil => rfl
  | cons part rest ih =>
    obtain ⟨body, signature⟩ := part
    cases body with
    | text t =>
      simp only [signFirstText]
      split <;> simp [ih]
    | functionCall | functionResponse | inlineData => simp [signFirstText, ih]

theorem messageParts_split {ids : ToolCallIds} {message : Message} {made : CallParts}
    {left right : List MediaContent} {part : MediaContent}
    (h : env.messageParts ids message = .ok made)
    (hPart : message.parseContent = left ++ part :: right) :
    ∃ own before after,
      env.addPart (env.shouldAttachThoughtSignature message.role) [] part = .ok own ∧
        made.parts.map GeminiPart.body = before ++ own.map GeminiPart.body ++ after := by
  obtain ⟨s, -, h⟩ := bind_eq_ok.mp h
  obtain ⟨parts, hParts, h⟩ := bind_eq_ok.mp h
  obtain rfl := Except.ok.inj h
  rw [hPart] at hParts
  obtain ⟨own, earlier, later, hOwn, rfl⟩ := Appends.split (env.appends_addPart _) hParts
  refine ⟨own, earlier.map GeminiPart.body, later.map GeminiPart.body, hOwn, ?_⟩
  split
  · rw [signFirstText_bodies, map_append, map_append]
  · rw [map_append, map_append]

/-! ## The contents of a request -/

def Extends (contents contents' : List GeminiChatContent) : Prop :=
  ∀ content ∈ contents, ∃ content' ∈ contents', content'.role = content.role ∧
    content.parts <+: content'.parts

theorem Extends.refl (contents : List GeminiChatContent) : Extends contents contents :=
  fun content h => ⟨content, h, rfl, prefix_refl _⟩

theorem Extends.trans {contents contents' contents'' : List GeminiChatContent}
    (h : Extends contents contents') (h' : Extends contents' contents'') :
    Extends contents contents'' := by
  intro content hMem
  obtain ⟨content', hMem', hRole, hParts⟩ := h content hMem
  obtain ⟨content'', hMem'', hRole', hParts'⟩ := h' content' hMem'
  exact ⟨content'', hMem'', hRole'.trans hRole, hParts.trans hParts'⟩

theorem extends_append (contents more : List GeminiChatContent) :
    Extends contents (contents ++ more) :=
  fun content h => ⟨content, mem_append_left _ h, rfl, prefix_refl _⟩

theorem extends_addToLast (contents : List GeminiChatContent) (part : GeminiPart) :
    Extends contents (addToLast contents part) := by
  rw [addToLast]
  cases hLast : contents.getLast? with
  | none =>
    rw [getLast?_eq_none_iff.mp hLast]
    exact fun _ h => absurd h not_mem_nil
  | some last =>
    simp only
    split
    · exact extends_append _ _
    obtain ⟨init, rfl⟩ := getLast?_eq_some_iff.mp hLast
    rw [dropLast_concat]
    intro content hMem
    rcases mem_append.mp hMem with hInit | hLast
    · exact ⟨content, mem_append_left _ hInit, rfl, prefix_refl _⟩
    · obtain rfl := mem_singleton.mp hLast
      exact ⟨_, mem_append_right _ mem_cons_self, rfl, prefix_append _ _⟩

theorem extends_addMessage {s s' : Conversion} {message : Message}
    (h : env.addMessage s message = .ok s') : Extends s.contents s'.contents := by
  rw [addMessage] at h
  split at h
  · obtain rfl := Except.ok.inj h
    exact Extends.refl _
  split at h
  · obtain rfl := Except.ok.inj h
    exact extends_addToLast _ _
  obtain ⟨made, -, h⟩ := bind_eq_ok.mp h
  obtain rfl := Except.ok.inj h
  split
  · exact Extends.refl _
  · exact extends_append _ _

/-- **The parts of every text are its pieces** exactly when no text is lost. -/
theorem text_kept_iff {messages : List Message} {request : GeminiChatRequest}
    (h : env.covertOpenAI2Gemini messages = .ok request) {before after : List Message}
    {message : Message} (hMessage : messages = before ++ message :: after)
    (hRole : message.role = "user" ∨ message.role = "assistant")
    {left right : List MediaContent} {text : String}
    (hPart : message.parseContent = left ++ .text text :: right) :
    ∃ own, env.addText (env.shouldAttachThoughtSignature message.role) [] text = .ok own ∧
      (own ≠ [] → ∃ content ∈ request.contents, ∃ earlier later,
        content.parts.map GeminiPart.body = earlier ++ own.map GeminiPart.body ++ later) ∧
      (env.pieceBodies (pieces text.toList) = .ok (own.map GeminiPart.body) ↔
        Lossless text.toList) := by
  obtain ⟨s, hAll, h⟩ := bind_eq_ok.mp h
  obtain rfl := Except.ok.inj h
  rw [hMessage] at hAll
  obtain ⟨s₁, s₂, -, hAdd, hAfter⟩ := foldlM_split.mp hAll
  have hExtends : Extends s₂.contents s.contents :=
    foldlM_rel (R := fun s s' => Extends s.contents s'.contents) (fun _ => Extends.refl _)
      Extends.trans extends_addMessage hAfter
  have hSystem : ¬ isSystem message.role := by rcases hRole with h | h <;> rw [h] <;> decide
  have hTool : ¬ isTool message.role := by rcases hRole with h | h <;> rw [h] <;> decide
  rw [addMessage, if_neg hSystem, if_neg hTool] at hAdd
  obtain ⟨made, hMade, hAdd⟩ := bind_eq_ok.mp hAdd
  obtain rfl := Except.ok.inj hAdd
  obtain ⟨own, earlier, later, hOwn, hBodies⟩ := messageParts_split hMade hPart
  refine ⟨own, hOwn, fun hNonempty => ?_, addText_eq_pieces_iff hOwn⟩
  have hParts : made.parts ≠ [] := by
    intro hNil
    rw [hNil] at hBodies
    have hLength := congrArg length hBodies
    have hPos := length_pos_iff.mpr hNonempty
    simp only [length_nil, length_append, length_map] at hLength
    omega
  simp only [if_neg hParts] at hExtends
  obtain ⟨content, hMem, -, more, hMore⟩ := hExtends _ (mem_append_right _ mem_cons_self)
  refine ⟨content, hMem, earlier, later ++ more.map GeminiPart.body, ?_⟩
  rw [← hMore, map_append, hBodies, append_assoc]

def plain : GeminiEnv := ⟨false, fun _ => none, fun _ => none⟩

def userText (text : String) : Message := { role := "user", content := .json (.string text) }

def imageLast : String := "see ![a](data:image/png;base64,AA==)"

theorem imageLast_kept :
    plain.covertOpenAI2Gemini [userText imageLast] =
        .ok ⟨[⟨"user", [⟨.text "see ", none⟩, ⟨.inlineData "image/png" "AA==", none⟩]⟩], none⟩ ∧
      ∃ own, plain.addText false [] imageLast = .ok own ∧
        plain.pieceBodies (pieces imageLast.toList) = .ok (own.map GeminiPart.body) := by
  have hConverted : plain.covertOpenAI2Gemini [userText imageLast] =
      .ok ⟨[⟨"user", [⟨.text "see ", none⟩, ⟨.inlineData "image/png" "AA==", none⟩]⟩], none⟩ := rfl
  have hMessage : [userText imageLast] = [] ++ userText imageLast :: [] := rfl
  have hPart : (userText imageLast).parseContent = [] ++ .text imageLast :: [] := rfl
  obtain ⟨own, hOwn, -, hIff⟩ := text_kept_iff hConverted hMessage (.inl rfl) hPart
  exact ⟨hConverted, own, hOwn, hIff.mpr (by decide)⟩

/-- The text after an image is lost, and so is everything from another `![` before it. -/
theorem texts_lost :
    (plain.covertOpenAI2Gemini [userText "![a](data:image/png;base64,AA==) tail"]).map
        GeminiChatRequest.contents =
      .ok [⟨"user", [⟨.inlineData "image/png" "AA==", none⟩]⟩] ∧
    pieces "![a](data:image/png;base64,AA==) tail".toList =
      [.image ⟨['a'], "data:image/png;base64,AA==".toList⟩, .text " tail".toList] ∧
    (plain.covertOpenAI2Gemini
        [userText "![logo](https://x) or ![a](data:image/png;base64,AA==)"]).map
        GeminiChatRequest.contents =
      .ok [⟨"user", [⟨.inlineData "image/png" "AA==", none⟩]⟩] ∧
    pieces "![logo](https://x) or ![a](data:image/png;base64,AA==)".toList =
      [.text "![logo](https://x) or ".toList,
        .image ⟨['a'], "data:image/png;base64,AA==".toList⟩] := by
  refine ⟨rfl, by decide, rfl, by decide⟩

end GeminiEnv

end NewApi.Chat
