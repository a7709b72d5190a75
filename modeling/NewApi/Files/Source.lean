import Mathlib.Data.Nat.Digits.Defs
import NewApi.Core.Memo
import NewApi.Go.Base64
import NewApi.Go.Strings

/-!
# Files of a request

`LoadFileSource` keeps what it has loaded with the source and in the context of the request, under a
key: for inline data from the length, the MIME type and the first 128 bytes.
-/

namespace NewApi.Files

open Core List

abbrev Bytes := List UInt8

def ascii (s : String) : Bytes := s.toList.map fun c => c.toNat.toUInt8

inductive FileSource where
  | url (url : Bytes)
  | base64 (base64Data mimeType : Bytes)
  deriving DecidableEq, Repr

structure ImageConfig where
  width : Nat
  height : Nat
  deriving DecidableEq, Repr

/-- What is kept; on disk or in memory makes no difference to what is read. -/
structure CachedFileData where
  base64Data : Bytes
  mimeType : Bytes
  size : Nat
  image : Option (ImageConfig × Bytes)
  deriving DecidableEq, Repr

inductive FileError where
  /-- `failed to decode base64 data` -/
  | base64
  /-- `file size exceeds maximum allowed size` -/
  | tooLarge
  deriving DecidableEq, Repr

/-- The content of each URL, the MIME type that is found for a file, and the decoder of images. -/
structure FileConfig where
  generateHMAC : Bytes → Bytes
  content : Bytes → Bytes
  smartDetectMimeType : Bytes → Bytes → Bytes
  decodeImageConfig : Bytes → Option (ImageConfig × Bytes)
  maxFileSize : Nat

/-! ## Keys -/

variable (cfg : FileConfig)

def getContextCacheKey (url : Bytes) : Bytes := ascii "file_cache_" ++ cfg.generateHMAC url

def decimal (n : Nat) : Bytes := (Nat.toDigits 10 n).map fun c => c.toNat.toUInt8

/-- The text `%d:%s:` with the length and the MIME type, and the beginning of the data. -/
def keyMaterial (data mimeType : Bytes) : Bytes :=
  decimal data.length ++ (ascii ":" ++ (mimeType ++ (ascii ":" ++
    if data.length > 128 then data.take 128 else data)))

def getBase64ContextCacheKey (data mimeType : Bytes) : Bytes :=
  ascii "b64_cache_" ++ cfg.generateHMAC (keyMaterial data mimeType)

/-! ## Loading -/

def cut (c : UInt8) (text : Bytes) : Option (Bytes × Bytes) :=
  if c ∈ text then some (text.takeWhile (· ≠ c), (text.dropWhile (· ≠ c)).tail) else none

def headerMimeType (header : Bytes) : Bytes :=
  match cut 58 header, cut 59 header with
  | some (scheme, _), some (start, _) =>
    if scheme.length + 1 < start.length then start.drop (scheme.length + 1) else []
  | _, _ => []

def splitData (base64String : Bytes) : Bytes × Bytes :=
  if (ascii "data:").isPrefixOf base64String then
    match cut 44 base64String with
    | some (header, cleanBase64) => (headerMimeType header, cleanBase64)
    | none => ([], base64String)
  else ([], base64String)

def attachImage (wanted vague : Bool) (data : CachedFileData) (bytes : Bytes) : CachedFileData :=
  if wanted then
    match cfg.decodeImageConfig bytes with
    | none => data
    | some (config, format) =>
      { data with
        image := some (config, format)
        mimeType := if vague then ascii "image/" ++ format else data.mimeType }
  else data

def loadFromBase64 (base64String providedMimeType : Bytes) : Except FileError CachedFileData :=
  let mimeType :=
    if providedMimeType ≠ [] then providedMimeType else (splitData base64String).1
  let cleanBase64 := (splitData base64String).2
  match Go.Base64.decode cleanBase64 with
  | none => .error .base64
  | some decodedData =>
    .ok (attachImage cfg (mimeType = [] || (ascii "image/").isPrefixOf mimeType) (mimeType = [])
      ⟨cleanBase64, mimeType, decodedData.length, none⟩ decodedData)

def loadFromURL (url : Bytes) : Except FileError CachedFileData :=
  let fileBytes := cfg.content url
  let mimeType := cfg.smartDetectMimeType url fileBytes
  if fileBytes.length > cfg.maxFileSize then .error .tooLarge
  else
    .ok (attachImage cfg ((ascii "image/").isPrefixOf mimeType)
      (mimeType = ascii "application/octet-stream" || mimeType = [])
      ⟨Go.Base64.encode fileBytes, mimeType, fileBytes.length, none⟩ fileBytes)

section Request

variable {ι : Type} [DecidableEq ι]

abbrev RequestState (ι : Type) := Memo.State ι Bytes CachedFileData

/-- What is not kept with the source: the context is asked, and then the loader. -/
def loadThrough (s : RequestState ι) (i : ι) (contextKey : Bytes)
    (loader : Except FileError CachedFileData) :
    RequestState ι × Except FileError CachedFileData :=
  match s.shared contextKey with
  | some data => ({ s with own := Function.update s.own i (some data) }, .ok data)
  | none =>
    match loader with
    | .error err => (s, .error err)
    | .ok cachedData =>
      ({ own := Function.update s.own i (some cachedData),
         shared := Function.update s.shared contextKey (some cachedData) }, .ok cachedData)

variable (sources : ι → FileSource)

def loadFileSource (s : RequestState ι) (i : ι) :
    RequestState ι × Except FileError CachedFileData :=
  match s.own i with
  | some data => (s, .ok data)
  | none =>
    match sources i with
    | .url url => loadThrough s i (getContextCacheKey cfg url) (loadFromURL cfg url)
    | .base64 base64Data mimeType =>
      loadThrough s i (getBase64ContextCacheKey cfg base64Data mimeType)
        (loadFromBase64 cfg base64Data mimeType)

def loads (s : RequestState ι) : List ι → List (ι × Except FileError CachedFileData)
  | [] => []
  | i :: rest =>
    (i, (loadFileSource cfg sources s i).2) :: loads (loadFileSource cfg sources s i).1 rest

end Request

def contentOf (cfg : FileConfig) : FileSource → Option Bytes
  | .url url => some (cfg.content url)
  | .base64 base64Data _ => Go.Base64.decode (splitData base64Data).2

/-- The data is the content of the source itself, with its size. -/
def OwnContent (source : FileSource) (data : CachedFileData) : Prop :=
  ∃ bytes, contentOf cfg source = some bytes ∧ Go.Base64.decode data.base64Data = some bytes ∧
    data.size = bytes.length

/-! ## The keys determine what they are computed from -/

theorem toNat_of_mem_toDigits {n : Nat} {c : Char} (h : c ∈ Nat.toDigits 10 n) :
    c.toNat.toUInt8.toNat = c.toNat ∧ c.toNat ≤ 57 := by
  have hDigit := Nat.isDigit_of_mem_toDigits (by decide) (by decide) h
  have hLe : c.toNat ≤ 57 := (Char.isDigit_iff_toNat.mp hDigit).2
  exact ⟨Nat.mod_eq_of_lt (by omega), hLe⟩

theorem colon_notMem_decimal (n : Nat) : 58 ∉ decimal n := by
  intro h
  obtain ⟨c, hMem, hc⟩ := mem_map.mp h
  obtain ⟨hSame, hLe⟩ := toNat_of_mem_toDigits hMem
  rw [hc] at hSame
  have hColon : (58 : UInt8).toNat = 58 := rfl
  omega

theorem decimal_injective : Function.Injective decimal := by
  -- the digits are read back from the bytes
  have hBack : ∀ n, (decimal n).map (fun b => Char.ofNat b.toNat) = Nat.toDigits 10 n := by
    intro n
    rw [decimal, map_map]
    refine (map_congr_left fun c hc => ?_).trans (map_id _)
    show Char.ofNat c.toNat.toUInt8.toNat = c
    rw [(toNat_of_mem_toDigits hc).1, Char.ofNat_toNat]
  intro m n h
  have hDigits : Nat.toDigits 10 m = Nat.toDigits 10 n := by rw [← hBack m, ← hBack n, h]
  rw [← Nat.ofDigitChars_toDigits (b := 10) (n := m) (by decide) (by decide), hDigits,
    Nat.ofDigitChars_toDigits (by decide) (by decide)]

theorem take_eq (data : Bytes) :
    (if data.length > 128 then data.take 128 else data) = data.take 128 := by
  split
  · rfl
  · exact (take_of_length_le (by omega)).symm

/-- **The key material** determines the length, the MIME type and the first 128 bytes. -/
theorem keyMaterial_eq_iff {data data' mimeType mimeType' : Bytes} :
    keyMaterial data mimeType = keyMaterial data' mimeType' ↔
      data.length = data'.length ∧ mimeType = mimeType' ∧ data.take 128 = data'.take 128 := by
  unfold keyMaterial
  rw [take_eq, take_eq]
  constructor
  · intro h
    obtain ⟨hLength, hRest⟩ : decimal data.length = decimal data'.length ∧
        mimeType ++ (ascii ":" ++ data.take 128) = mimeType' ++ (ascii ":" ++ data'.take 128) :=
      Go.append_cons_cancel (colon_notMem_decimal _) (colon_notMem_decimal _) h
    have hLen := decimal_injective hLength
    have hTail : (ascii ":" ++ data.take 128).length = (ascii ":" ++ data'.take 128).length := by
      simp only [length_append, length_take, hLen]
    obtain ⟨hMime, hStart⟩ := append_inj' hRest hTail
    exact ⟨hLen, hMime, append_cancel_left hStart⟩
  · rintro ⟨hLength, rfl, hStart⟩
    rw [hLength, hStart]

def contextKey : FileSource → Bytes
  | .url url => getContextCacheKey cfg url
  | .base64 base64Data mimeType => getBase64ContextCacheKey cfg base64Data mimeType

variable {cfg}

theorem contextKey_eq_url (hHMAC : Function.Injective cfg.generateHMAC) {url : Bytes}
    {source : FileSource} (h : contextKey cfg source = contextKey cfg (.url url)) :
    source = .url url := by
  cases source with
  | url other => rw [hHMAC (append_cancel_left h)]
  | base64 data mimeType =>
    exact absurd (cons.inj h).1 (by decide)

theorem contextKey_base64_eq_iff (hHMAC : Function.Injective cfg.generateHMAC)
    {data data' mimeType mimeType' : Bytes} :
    contextKey cfg (.base64 data mimeType) = contextKey cfg (.base64 data' mimeType') ↔
      data.length = data'.length ∧ mimeType = mimeType' ∧ data.take 128 = data'.take 128 := by
  rw [← keyMaterial_eq_iff]
  refine ⟨fun h => hHMAC (append_cancel_left h), fun h => ?_⟩
  simp only [contextKey, getBase64ContextCacheKey, h]

/-! ## Whose content is returned -/

variable (cfg) in
def loader : FileSource → Except FileError CachedFileData
  | .url url => loadFromURL cfg url
  | .base64 base64Data mimeType => loadFromBase64 cfg base64Data mimeType

variable (cfg) in
theorem attachImage_data (wanted vague : Bool) (data : CachedFileData) (bytes : Bytes) :
    (attachImage cfg wanted vague data bytes).base64Data = data.base64Data ∧
      (attachImage cfg wanted vague data bytes).size = data.size := by
  unfold attachImage
  split
  · split <;> exact ⟨rfl, rfl⟩
  · exact ⟨rfl, rfl⟩

theorem ownContent_of_loader {source : FileSource} {data : CachedFileData}
    (h : loader cfg source = .ok data) : OwnContent cfg source data := by
  cases source with
  | url url =>
    simp only [loader, loadFromURL] at h
    split at h <;> cases h
    · obtain ⟨hData, hSize⟩ := attachImage_data cfg _ _ _ _
      exact ⟨cfg.content url, rfl, by rw [hData, Go.Base64.decode_encode], hSize⟩
  | base64 base64Data mimeType =>
    simp only [loader, loadFromBase64] at h
    cases hDecode : Go.Base64.decode (splitData base64Data).2 with simp only [hDecode] at h
    | none => cases h
    | some bytes =>
      cases h
      obtain ⟨hData, hSize⟩ := attachImage_data cfg _ _ _ _
      exact ⟨bytes, hDecode, by rw [hData, hDecode], hSize⟩

theorem exists_loader_of_content {base64Data mimeType bytes : Bytes}
    (h : contentOf cfg (.base64 base64Data mimeType) = some bytes) :
    ∃ data, loader cfg (.base64 base64Data mimeType) = .ok data := by
  have hDecode : Go.Base64.decode (splitData base64Data).2 = some bytes := h
  simp only [loader, loadFromBase64, hDecode]
  exact ⟨_, rfl⟩

section Request

variable {ι : Type} {sources : ι → FileSource}

theorem contentOf_eq
    (h : ∀ i j data, contextKey cfg (sources i) = contextKey cfg (sources j) →
      loader cfg (sources i) = .ok data → OwnContent cfg (sources j) data)
    {i j : ι} (hKey : contextKey cfg (sources i) = contextKey cfg (sources j))
    {base64Data mimeType bytes : Bytes} (hi : sources i = .base64 base64Data mimeType)
    (hContent : contentOf cfg (sources i) = some bytes) :
    contentOf cfg (sources j) = some bytes := by
  obtain ⟨data, hData⟩ : ∃ data, loader cfg (sources i) = .ok data := by
    rw [hi] at hContent ⊢
    exact exists_loader_of_content hContent
  obtain ⟨own, hOwn, hDecode, -⟩ := ownContent_of_loader hData
  obtain ⟨other, hOther, hDecode', -⟩ := h i j data hKey hData
  rw [hOther, ← hDecode', hDecode, ← hOwn, hContent]

variable [DecidableEq ι]

theorem loadThrough_eq_get {key : ι → Bytes} {load : ι → Except FileError CachedFileData}
    {s : RequestState ι} {i : ι} (hOwn : s.own i = none) :
    loadThrough s i (key i) (load i) = Memo.get key load s i := by
  unfold loadThrough
  cases hShared : s.shared (key i) with
  | some data => rw [Memo.get_of_shared hOwn hShared]
  | none =>
    cases hLoad : load i with
    | error err => rw [Memo.get_of_error hOwn hShared hLoad]
    | ok data => rw [Memo.get_of_load hOwn hShared hLoad]

/-- **The caches are a memo table** under the keys of the context. -/
theorem loadFileSource_eq_get (s : RequestState ι) (i : ι) :
    loadFileSource cfg sources s i =
      Memo.get (fun i => contextKey cfg (sources i)) (fun i => loader cfg (sources i)) s i := by
  cases hOwn : s.own i with
  | some data => rw [Memo.get_of_own hOwn, loadFileSource, hOwn]
  | none =>
    rw [← loadThrough_eq_get hOwn, loadFileSource, hOwn]
    cases sources i with
    | url url | base64 base64Data mimeType => rfl

theorem loads_eq_answers (s : RequestState ι) (calls : List ι) :
    loads cfg sources s calls =
      Memo.answers (fun i => contextKey cfg (sources i)) (fun i => loader cfg (sources i)) s
        calls := by
  induction calls generalizing s with
  | nil => rfl
  | cons i rest ih => rw [loads, Memo.answers, loadFileSource_eq_get, ih]

/-- **Every source gets its own content exactly when** inline data with the same length, MIME type
and first 128 bytes are equal. -/
theorem own_content_iff (hHMAC : Function.Injective cfg.generateHMAC) :
    (∀ calls : List ι, ∀ i data, (i, Except.ok data) ∈ loads cfg sources Memo.empty calls →
        OwnContent cfg (sources i) data) ↔
      ∀ i j mimeType base64Data base64Data', sources i = .base64 base64Data mimeType →
        sources j = .base64 base64Data' mimeType → base64Data.length = base64Data'.length →
          base64Data.take 128 = base64Data'.take 128 →
            contentOf cfg (sources i) = contentOf cfg (sources j) := by
  simp only [loads_eq_answers, Memo.answers_forall_iff]
  constructor
  · intro h i j mimeType data data' hi hj hLength hStart
    have hKey : contextKey cfg (sources i) = contextKey cfg (sources j) := by
      rw [hi, hj]
      exact (contextKey_base64_eq_iff hHMAC).mpr ⟨hLength, rfl, hStart⟩
    -- whichever of the two decodes is loaded first and returned for both
    cases hContent : contentOf cfg (sources i) with
    | some bytes =>
      exact (contentOf_eq h hKey hi hContent).symm
    | none =>
      cases hOther : contentOf cfg (sources j) with
      | none => rfl
      | some bytes =>
        have hSame := contentOf_eq h hKey.symm hj hOther
        rw [hContent] at hSame
        cases hSame
  · intro h i j data hKey hLoad
    cases hj : sources j with
    | url url =>
      rw [hj] at hKey
      rw [← contextKey_eq_url hHMAC hKey]
      exact ownContent_of_loader hLoad
    | base64 base64Data mimeType =>
      cases hi : sources i with
      | url url =>
        rw [hi] at hKey
        rw [← hj, contextKey_eq_url hHMAC hKey.symm, ← hi]
        exact ownContent_of_loader hLoad
      | base64 base64Data' mimeType' =>
        rw [hi, hj] at hKey
        obtain ⟨hLength, rfl, hStart⟩ := (contextKey_base64_eq_iff hHMAC).mp hKey
        obtain ⟨bytes, hContent, hRest⟩ := ownContent_of_loader hLoad
        rw [h i j _ _ _ hi hj hLength hStart, hj] at hContent
        exact ⟨bytes, hContent, hRest⟩

end Request

def plainConfig : FileConfig where
  generateHMAC bytes := bytes
  content _ := []
  smartDetectMimeType _ _ := []
  decodeImageConfig _ := none
  maxFileSize := 0

def twoFiles : Bool → FileSource
  | false => .base64 (List.replicate 128 65 ++ ascii "AAAA") []
  | true => .base64 (List.replicate 128 65 ++ ascii "BBBB") []

/-- The second file of a request is answered with the first. -/
theorem second_file_is_first :
    loads plainConfig twoFiles Memo.empty [false, true] =
        [(false, .ok ⟨List.replicate 128 65 ++ ascii "AAAA", [], 99, none⟩),
          (true, .ok ⟨List.replicate 128 65 ++ ascii "AAAA", [], 99, none⟩)] ∧
      ¬ OwnContent plainConfig (twoFiles true)
        ⟨List.replicate 128 65 ++ ascii "AAAA", [], 99, none⟩ := by
  refine ⟨by decide +kernel, ?_⟩
  rintro ⟨bytes, hContent, hDecode, -⟩
  have hDiffer : contentOf plainConfig (twoFiles true) ≠
      Go.Base64.decode (replicate 128 65 ++ ascii "AAAA") := by decide +kernel
  exact hDiffer (hContent.trans hDecode.symm)

def earlyFiles : Bool → FileSource
  | false => .base64 (ascii "AAAA") []
  | true => .base64 (ascii "BBBB") []

theorem earlyFiles_own_content :
    Function.Injective plainConfig.generateHMAC ∧
      ∀ calls : List Bool, ∀ i data,
        (i, Except.ok data) ∈ loads plainConfig earlyFiles Memo.empty calls →
          OwnContent plainConfig (earlyFiles i) data := by
  refine ⟨Function.injective_id, (own_content_iff Function.injective_id).mpr ?_⟩
  intro i j mimeType data data' hi hj _ hStart
  cases i <;> cases j
  · rfl
  · cases hi
    cases hj
    exact absurd hStart (by decide)
  · cases hi
    cases hj
    exact absurd hStart (by decide)
  · rfl

end NewApi.Files
