import NewApi.Go.Strings

/-!
# Deleting cached keys by a prefix

With Redis, `DeleteByPrefix` of `HybridCache` scans for the prefix followed by a star, which Redis
reads as a glob.  In memory it compares texts.
-/

namespace NewApi.Cache.Hybrid

open Go List

/-! ## Globs -/

/-- What Redis matches.  In a class, `cls` is the character it is for, whether the class is negated
and whether it was found. -/
@[simp] def glob : Option (Char × Bool × Bool) → List Char → List Char → Bool
  | none, [], s => s.isEmpty
  | some (_, neg, hit), [], s => hit != neg && s.isEmpty
  | none, '*' :: p, s => s.tails.any (glob none p)
  | none, _ :: _, [] => false
  | none, '?' :: p, _ :: s => glob none p s
  | none, '[' :: '^' :: p, c :: s => glob (some (c, true, false)) p s
  | none, '[' :: p, c :: s => glob (some (c, false, false)) p s
  | none, '\\' :: x :: p, c :: s => x == c && glob none p s
  | none, x :: p, c :: s => x == c && glob none p s
  | some (_, neg, hit), ']' :: p, s => hit != neg && glob none p s
  | some (c, neg, hit), '\\' :: x :: p, s => glob (some (c, neg, hit || x == c)) p s
  | some (c, neg, hit), x :: '-' :: y :: p, s =>
    glob (some (c, neg, hit || ((x ≤ c && c ≤ y) || (y ≤ c && c ≤ x)))) p s
  | some (c, neg, hit), x :: p, s => glob (some (c, neg, hit || x == c)) p s

def special : List Char := ['*', '?', '[', '\\']

theorem glob_star (s : List Char) : glob none ['*'] s = true := by
  simp [glob, any_eq_true]

theorem glob_plain {p : List Char} (h : ∀ c ∈ p, c ∉ special) (s : List Char) :
    glob none (p ++ ['*']) s = p.isPrefixOf s := by
  induction p generalizing s with
  | nil => exact glob_star s
  | cons x p ih =>
    obtain ⟨hx, hp⟩ := forall_mem_cons.mp h
    simp only [special, mem_cons, not_mem_nil, or_false, not_or] at hx
    cases s with
    | nil => simp [glob, hx]
    | cons c s => simp [glob, hx, ih hp, isPrefixOf]

theorem isPrefixOf_append_self (w s : List Char) : w.isPrefixOf (w ++ s) = true :=
  isPrefixOf_iff_prefix.mpr (prefix_append ..)

/-- Some first character is not that of the text. -/
theorem exists_not_isPrefixOf {w : List Char} (h : w ≠ []) :
    ∃ c, ∀ s, w.isPrefixOf (c :: s) = false := by
  cases w with
  | nil => exact absurd rfl h
  | cons x w =>
    by_cases hx : x = 'q'
    · exact ⟨'r', fun s => by subst hx; rfl⟩
    · exact ⟨'q', fun s => by simp [isPrefixOf, hx]⟩

theorem glob_star_cons {p s : List Char} (h : glob none ('*' :: p) s = true) (c : Char) :
    glob none ('*' :: p) (c :: s) = true := by
  simp only [glob, any_eq_true, mem_tails] at h ⊢
  obtain ⟨t, ht, hMatch⟩ := h
  exact ⟨t, ht.trans (suffix_cons ..), hMatch⟩

/-- A test that wants a match in front of it. -/
theorem and_tail {b : Bool} {f g : List Char → Bool} {t : List Char} (hSelf : g t = true)
    (h : ∀ s, (b && f (s ++ ['x'])) = g (s ++ ['x'])) (ht : ∃ s, t = s ++ ['x']) :
    b = true ∧ ∀ s, f (s ++ ['x']) = g (s ++ ['x']) := by
  obtain ⟨s, rfl⟩ := ht
  have hb : b = true := by
    have := (h s).trans hSelf
    simp only [Bool.and_eq_true] at this
    exact this.1
  exact ⟨hb, fun s => by rw [← h, hb, Bool.true_and]⟩

/-- A star or a question mark accepts other characters than the text has. -/
theorem glob_wild_ne {x : Char} (hx : x = '*' ∨ x = '?') {p w : List Char} (hw : w ≠ [])
    (h : ∀ s, glob none (x :: p) (s ++ ['x']) = w.isPrefixOf (s ++ ['x'])) : False := by
  obtain ⟨c, hc⟩ := exists_not_isPrefixOf hw
  have hSelf := (h w).trans (isPrefixOf_append_self ..)
  obtain ⟨t, ht⟩ : ∃ t, glob none (x :: p) (c :: (t ++ ['x'])) = true := by
    rcases hx with rfl | rfl
    · exact ⟨w, glob_star_cons hSelf c⟩
    · cases w with
      | nil => exact absurd rfl hw
      | cons y w => exact ⟨w, by simpa only [cons_append, glob] using hSelf⟩
  rw [← cons_append, h, cons_append, hc] at ht
  exact Bool.false_ne_true ht

/-- A pattern that is no longer than a text does not test for it: its final star would have to stand
for a character. -/
theorem glob_ne_isPrefixOf (cls : Option (Char × Bool × Bool)) (p w : List Char)
    (hLen : p.length ≤ w.length + if cls.isSome then 1 else 0)
    (h : ∀ s, glob cls p (s ++ ['x']) = w.isPrefixOf (s ++ ['x'])) : False := by
  have hSelf (w : List Char) : w.isPrefixOf (w ++ ['x']) = true := isPrefixOf_append_self ..
  induction cls, p, w using glob.induct with
  | case1 w => simpa [glob] using (h w).trans (hSelf w)
  | case2 c neg hit w => simpa [glob] using (h w).trans (hSelf w)
  | case3 p w => exact glob_wild_ne (.inl rfl) (by rintro rfl; simp at hLen) h
  | case4 => simp at hLen
  | case5 p x w ih => exact glob_wild_ne (.inr rfl) (cons_ne_nil _ _) h
  | case6 p c w ih =>
    exact ih (by simp at hLen ⊢; omega) fun s => by simpa [glob, isPrefixOf] using h (c :: s)
  | case7 p c w hp ih =>
    exact ih (by simp at hLen ⊢; omega) fun s => by
      simpa [glob, isPrefixOf, hp] using h (c :: s)
  | case8 x p c w ih =>
    obtain ⟨-, hRest⟩ := and_tail (b := x == c) (f := glob none p) (hSelf w) (fun s => by
      simpa [glob, isPrefixOf] using h (c :: s)) ⟨w, rfl⟩
    exact ih (by simp at hLen ⊢; omega) hRest
  | case9 x p c w h1 h2 h3 h4 h5 ih =>
    obtain ⟨-, hRest⟩ := and_tail (b := x == c) (f := glob none p) (hSelf w) (fun s => by
      have := h (c :: s)
      rw [cons_append, glob] at this <;> simp_all [isPrefixOf]) ⟨w, rfl⟩
    exact ih (by simp at hLen ⊢; omega) hRest
  | case10 c neg hit p w ih =>
    obtain ⟨-, hRest⟩ := and_tail (b := hit != neg) (f := glob none p) (hSelf w) (fun s => by
      simpa [glob] using h s) ⟨w, rfl⟩
    exact ih (by simp at hLen ⊢; omega) hRest
  | case11 c neg hit x p w ih =>
    exact ih (by simp at hLen ⊢; omega) fun s => by simpa [glob] using h s
  | case12 c neg hit x y p w h1 h2 ih =>
    exact ih (by simp at hLen ⊢; omega) fun s => by rw [← h s, glob] <;> assumption
  | case13 c neg hit x p w h1 h2 h3 ih =>
    exact ih (by simp at hLen ⊢; omega) fun s => by rw [← h s, glob] <;> assumption

theorem plain_of_glob {p : List Char}
    (h : ∀ s, glob none (p ++ ['*']) (s ++ ['x']) = p.isPrefixOf (s ++ ['x'])) :
    ∀ c ∈ p, c ∉ special := by
  induction p with
  | nil => simp
  | cons x p ih =>
    have hCons (s : List Char) := h (x :: s)
    by_cases hx : x ∈ special
    · exfalso
      simp only [special, mem_cons, not_mem_nil, or_false] at hx
      rcases hx with rfl | rfl | rfl | rfl
      · exact glob_wild_ne (.inl rfl) (cons_ne_nil _ _) h
      · exact glob_wild_ne (.inr rfl) (cons_ne_nil _ _) h
      · cases p with
        | nil =>
          exact glob_ne_isPrefixOf (some ('[', false, false)) ['*'] [] (by simp) fun s => by
            simpa [glob, isPrefixOf] using hCons s
        | cons y p =>
          by_cases hy : y = '^'
          · subst hy
            refine glob_ne_isPrefixOf (some ('[', true, false)) (p ++ ['*']) ('^' :: p) (by simp)
              fun s => ?_
            simpa [glob, isPrefixOf] using hCons s
          · refine glob_ne_isPrefixOf (some ('[', false, false)) (y :: p ++ ['*']) (y :: p)
              (by simp) fun s => ?_
            simpa [glob, isPrefixOf, hy] using hCons s
      · cases p with
        | nil => simpa [glob, isPrefixOf] using h ['\\']
        | cons y p =>
          have hSelf : (y :: p).isPrefixOf (y :: p ++ ['x']) = true := isPrefixOf_append_self ..
          obtain ⟨-, hRest⟩ := and_tail (b := y == '\\') (f := glob none (p ++ ['*'])) hSelf
            (fun s => by simpa [glob, isPrefixOf] using hCons s) ⟨_, rfl⟩
          exact glob_ne_isPrefixOf none (p ++ ['*']) (y :: p) (by simp) hRest
    · refine forall_mem_cons.mpr ⟨hx, ih fun s => ?_⟩
      simp only [special, mem_cons, not_mem_nil, or_false, not_or] at hx
      simpa [glob, isPrefixOf, hx] using hCons s

theorem glob_append {a : List Char} (h : ∀ c ∈ a, c ∉ special) (p s : List Char) :
    glob none (a ++ p) (a ++ s) = glob none p s := by
  induction a with
  | nil => rfl
  | cons x a ih =>
    obtain ⟨hx, ha⟩ := forall_mem_cons.mp h
    simp only [special, mem_cons, not_mem_nil, or_false, not_or] at hx
    simp [glob, hx, ih ha]

/-! ## Keys -/

def trimLeft (s : String) : String := String.ofList (s.toList.dropWhile (· = ':'))

def nsPrefix (ns : String) : String :=
  let ns := String.ofList ((trimSpace ns).toList.rdropWhile (· = ':'))
  if ns = "" then "" else ns ++ ":"

def fullKey (ns key : String) : String :=
  let key := trimSpace key
  if key = "" then ""
  else if nsPrefix ns = "" then trimLeft key
  else if hasPrefix key (nsPrefix ns) then key
  else nsPrefix ns ++ trimLeft key

def deleteMany (ns : String) (keys : List String) : List String :=
  (keys.map (fullKey ns)).filter (· ≠ "")

def fullPrefix (ns start : String) : String :=
  let full := fullKey ns start
  if full = "" ∨ hasSuffix full ":" then full else full ++ ":"

def found (redisOn : Bool) (full key : String) : Bool :=
  if redisOn then glob none (full ++ "*").toList key.toList else hasPrefix key full

def deleteByPrefix (redisOn : Bool) (ns start : String) (stored : List String) : List String :=
  let full := fullPrefix ns start
  if full = "" then []
  else stored.filter (· ∈ deleteMany ns (stored.filter (found redisOn full)))

theorem found_eq {full : String} (hPlain : ∀ c ∈ full.toList, c ∉ special) (redisOn : Bool) :
    found redisOn full = fun key => hasPrefix key full := by
  funext key
  unfold found
  split
  · rw [String.toList_append]
    exact glob_plain hPlain _
  · rfl

theorem deleteMany_eq {ns : String} {keys : List String}
    (h : ∀ key ∈ keys, key ≠ "" ∧ fullKey ns key = key) : deleteMany ns keys = keys := by
  have hMap : keys.map (fullKey ns) = keys :=
    (map_congr_left fun key hKey => (h key hKey).2).trans keys.map_id
  rw [deleteMany, hMap, filter_eq_self]
  exact fun key hKey => decide_eq_true (h key hKey).1

/-! ## Keys that `Set` stores -/

theorem nsPrefix_eq {ns : String} (h : nsPrefix ns ≠ "") :
    ∃ c t, (nsPrefix ns).toList = c :: (t ++ [':']) ∧ isSpace c = false := by
  unfold nsPrefix at h ⊢
  dsimp only at h ⊢
  split_ifs at h ⊢ with hEmpty
  · exact absurd rfl h
  cases hName : (trimSpace ns).toList.rdropWhile (· = ':') with
  | nil => simp [hName] at hEmpty
  | cons c t =>
    refine ⟨c, t, by simp, ?_⟩
    obtain ⟨rest, hRest⟩ := rdropWhile_prefix (fun x => decide (x = ':')) (trimSpace ns).toList
    refine ((trimSpace_eq_self_iff _).mp (trimSpace_trimSpace ns)).1 c ?_
    rw [← hRest, hName]
    rfl

theorem fullKey_of_hasPrefix_ns {ns key : String} (hTrim : trimSpace key = key)
    (hKey : hasPrefix key (nsPrefix ns)) (hNs : nsPrefix ns ≠ "") : fullKey ns key = key := by
  have hSome : key ≠ "" := by
    rintro rfl
    obtain ⟨c, t, hText, -⟩ := nsPrefix_eq hNs
    simp [hasPrefix, hText] at hKey
  simp [fullKey, hTrim, hSome, hNs, hKey]

theorem trimLeft_getLast {s : String} {c : Char} (h : c ∈ (trimLeft s).toList.getLast?) :
    c ∈ s.toList.getLast? := by
  rw [trimLeft, String.toList_ofList] at h
  obtain ⟨before, hBefore⟩ := dropWhile_suffix (fun x => decide (x = ':')) (l := s.toList)
  rw [← hBefore, getLast?_append, Option.mem_def.mp h]
  rfl

theorem fullKey_cases {ns raw : String} (hNs : nsPrefix ns ≠ "") (hSome : fullKey ns raw ≠ "") :
    fullKey ns raw = trimSpace raw ∧ hasPrefix (trimSpace raw) (nsPrefix ns) ∨
      fullKey ns raw = nsPrefix ns ++ trimLeft (trimSpace raw) := by
  unfold fullKey at hSome ⊢
  dsimp only at hSome ⊢
  split_ifs at hSome ⊢ with hKey hPrefix
  · exact absurd rfl hSome
  · exact .inl ⟨rfl, hPrefix⟩
  · exact .inr rfl

theorem nsPrefix_prefix_fullKey {ns raw : String} (hNs : nsPrefix ns ≠ "")
    (hSome : fullKey ns raw ≠ "") : (nsPrefix ns).toList <+: (fullKey ns raw).toList := by
  rcases fullKey_cases hNs hSome with ⟨hEq, hPrefix⟩ | hEq
  · rw [hasPrefix, isPrefixOf_iff_prefix] at hPrefix
    rwa [hEq]
  · rw [hEq, String.toList_append]
    exact prefix_append ..

theorem fullKey_fullKey {ns : String} (hNs : nsPrefix ns ≠ "") (raw : String)
    (hSome : fullKey ns raw ≠ "") : fullKey ns (fullKey ns raw) = fullKey ns raw := by
  have hPrefix : hasPrefix (fullKey ns raw) (nsPrefix ns) :=
    isPrefixOf_iff_prefix.mpr (nsPrefix_prefix_fullKey hNs hSome)
  suffices hTrim : trimSpace (fullKey ns raw) = fullKey ns raw from
    fullKey_of_hasPrefix_ns hTrim hPrefix hNs
  have hTrimmed := (trimSpace_eq_self_iff (trimSpace raw)).mp (trimSpace_trimSpace raw)
  rcases fullKey_cases hNs hSome with ⟨hEq, -⟩ | hEq
  · rw [hEq, trimSpace_trimSpace]
  obtain ⟨c, t, hText, hc⟩ := nsPrefix_eq hNs
  rw [hEq]
  refine (trimSpace_eq_self_iff _).mpr ⟨by simp [hText, hc], fun d hd => ?_⟩
  rw [String.toList_append, getLast?_append, hText] at hd
  cases hLast : (trimLeft (trimSpace raw)).toList.getLast? with
  | none =>
    rw [hLast, Option.none_or, ← cons_append, getLast?_concat] at hd
    obtain rfl : ':' = d := by simpa using hd
    decide
  | some e =>
    rw [hLast] at hd
    obtain rfl : e = d := by simpa using hd
    exact hTrimmed.2 e (trimLeft_getLast hLast)

/-- A key as `Set` stores it. -/
def Stored (ns key : String) : Prop := key ≠ "" ∧ ∃ raw, key = fullKey ns raw

theorem Stored.fullKey_eq {ns key : String} (hNs : nsPrefix ns ≠ "") (h : Stored ns key) :
    fullKey ns key = key := by
  obtain ⟨hSome, raw, rfl⟩ := h
  exact fullKey_fullKey hNs raw hSome

/-- Any text behind the namespace, with a last character that is not blank, can be stored. -/
theorem stored_append {ns : String} (hNs : nsPrefix ns ≠ "") (s : List Char) :
    Stored ns (nsPrefix ns ++ String.ofList (s ++ ['x'])) := by
  obtain ⟨c, t, hText, hc⟩ := nsPrefix_eq hNs
  have hLast : isSpace 'x' = false := by decide
  have hTrim : trimSpace (nsPrefix ns ++ String.ofList (s ++ ['x'])) =
      nsPrefix ns ++ String.ofList (s ++ ['x']) :=
    (trimSpace_eq_self_iff _).mpr ⟨by simp [hText, hc], by simp [← append_assoc, hLast]⟩
  refine ⟨fun h => hNs (String.append_eq_empty_iff.mp h).1, _,
    (fullKey_of_hasPrefix_ns hTrim ?_ hNs).symm⟩
  rw [hasPrefix, String.toList_append]
  exact isPrefixOf_append_self ..

theorem nsPrefix_prefix_fullPrefix {ns start : String} (hNs : nsPrefix ns ≠ "")
    (hFull : fullPrefix ns start ≠ "") : (nsPrefix ns).toList <+: (fullPrefix ns start).toList := by
  unfold fullPrefix at hFull ⊢
  dsimp only at hFull ⊢
  split_ifs at hFull ⊢ with hEnd
  · exact nsPrefix_prefix_fullKey hNs hFull
  · rw [String.toList_append]
    exact (nsPrefix_prefix_fullKey hNs (not_or.mp hEnd).1).trans (prefix_append ..)

/-- Of a single stored key the backend's own test decides. -/
theorem mem_deleteByPrefix_singleton {redisOn : Bool} {ns start key : String}
    (hFull : fullPrefix ns start ≠ "") (hKey : fullKey ns key = key) (hSome : key ≠ "") :
    key ∈ deleteByPrefix redisOn ns start [key] ↔ found redisOn (fullPrefix ns start) key := by
  cases hFound : found redisOn (fullPrefix ns start) key <;>
    simp [deleteByPrefix, hFull, deleteMany, hFound, hKey, hSome]

theorem found_stored {ns start : String} (hPlain : ∀ c ∈ (nsPrefix ns).toList, c ∉ special)
    {rest : List Char}
    (hRest : (nsPrefix ns).toList ++ rest = (fullPrefix ns start).toList) (s : List Char) :
    found true (fullPrefix ns start) (nsPrefix ns ++ String.ofList s) =
        glob none (rest ++ ['*']) s ∧
      hasPrefix (nsPrefix ns ++ String.ofList s) (fullPrefix ns start) = rest.isPrefixOf s := by
  constructor
  · simp only [found, if_true, String.toList_append, ← hRest, String.toList_ofList,
      append_assoc]
    exact glob_append hPlain _ _
  · rw [hasPrefix, ← hRest, String.toList_append, String.toList_ofList, Bool.eq_iff_iff,
      isPrefixOf_iff_prefix, isPrefixOf_iff_prefix, prefix_append_right_inj]

/-- **Both backends delete exactly the keys that begin with the prefix, whatever is stored, exactly
if the prefix has no special characters.** -/
theorem deleteByPrefix_exact_iff (ns start : String) (hNs : nsPrefix ns ≠ "")
    (hPlain : ∀ c ∈ (nsPrefix ns).toList, c ∉ special) :
    (∀ (redisOn : Bool) (stored : List String), (∀ key ∈ stored, Stored ns key) → ∀ key,
      (key ∈ deleteByPrefix redisOn ns start stored ↔
        key ∈ stored ∧ fullPrefix ns start ≠ "" ∧ hasPrefix key (fullPrefix ns start))) ↔
      ∀ c ∈ (fullPrefix ns start).toList, c ∉ special := by
  constructor
  · intro h
    by_cases hFull : fullPrefix ns start = ""
    · simp [hFull]
    obtain ⟨rest, hRest⟩ := nsPrefix_prefix_fullPrefix hNs hFull
    rw [← hRest]
    refine forall_mem_append.mpr ⟨hPlain, plain_of_glob fun s => ?_⟩
    have hStored := stored_append hNs s
    have hOne := h true [_] (forall_mem_singleton.mpr hStored)
      (nsPrefix ns ++ String.ofList (s ++ ['x']))
    rw [mem_deleteByPrefix_singleton hFull (hStored.fullKey_eq hNs) hStored.1] at hOne
    obtain ⟨hFound, hPrefix⟩ := found_stored hPlain hRest (s ++ ['x'])
    rw [hFound, hPrefix] at hOne
    rw [Bool.eq_iff_iff, hOne]
    simp [hFull]
  · intro hSpecial redisOn stored hStored key
    unfold deleteByPrefix
    dsimp only
    rw [found_eq hSpecial]
    split_ifs with hBlank
    · simp [hBlank]
    · have hFull : ∀ key ∈ stored, key ≠ "" ∧ fullKey ns key = key := fun key hKey =>
        ⟨(hStored key hKey).1, (hStored key hKey).fullKey_eq hNs⟩
      rw [deleteMany_eq fun k hk => hFull k (mem_of_mem_filter hk)]
      simp only [mem_filter, decide_eq_true_eq, hBlank, ne_eq, not_false_eq_true, true_and]
      exact and_self_left

theorem deleteByPrefix_exact_rule :
    "ns:rule:x" ∈ deleteByPrefix true "ns" "rule" ["ns:rule:x", "ns:other:x"] := by
  have hNs : (nsPrefix "ns").toList.all (· ∉ special) := by decide
  have hPlain : (fullPrefix "ns" "rule").toList.all (· ∉ special) := by decide
  refine ((deleteByPrefix_exact_iff "ns" "rule" (by decide) (by simpa using hNs)).mpr
    (by simpa using hPlain) true _ ?_ _).mpr (by decide)
  exact forall_mem_cons.mpr ⟨⟨by decide, "rule:x", by decide⟩,
    forall_mem_singleton.mpr ⟨by decide, "other:x", by decide⟩⟩

/-- **A star in a prefix matches keys of others.** -/
theorem deleteByPrefix_star :
    deleteByPrefix true "ns" "gpt*" ["ns:gpt*:x", "ns:gpt-4:x"] = ["ns:gpt*:x", "ns:gpt-4:x"] ∧
      deleteByPrefix false "ns" "gpt*" ["ns:gpt*:x", "ns:gpt-4:x"] = ["ns:gpt*:x"] := by
  decide

end NewApi.Cache.Hybrid
