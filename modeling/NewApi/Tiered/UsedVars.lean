import Mathlib.Data.Finmap
import Mathlib.Tactic.Ring
import NewApi.Core.Run
import NewApi.Go.Strings
import NewApi.Upstream.Usage

/-!
# The variables of a billing expression

Compiled expressions are cached under the hash of their text.  `UsedVars` looks for the entry,
compiles the expression if there is none, and looks again; the cache may be emptied in between.
-/

namespace NewApi.Tiered

open Core Upstream List Option Function

/-! ## Expressions -/

inductive Node where
  | identifier (value : String)
  | other (children : List Node)

mutual

def Node.walk : Node → List Node
  | .identifier value => [.identifier value]
  | .other children => Node.walkAll children ++ [.other children]

def Node.walkAll : List Node → List Node
  | [] => []
  | n :: ns => n.walk ++ Node.walkAll ns

end

def Node.identifier? : Node → Option String
  | .identifier value => some value
  | .other _ => none

/-- `extractUsedVars`: the identifiers that `ast.Find` comes by. -/
def Node.usedVars (n : Node) : Finset String := (n.walk.filterMap Node.identifier?).toFinset

inductive Node.Occurs (value : String) : Node → Prop
  | here : Occurs value (.identifier value)
  | child {children : List Node} {n : Node} : n ∈ children → Occurs value n →
      Occurs value (.other children)

def defaultExprVersion : Nat := 1

def parseExprVersion (exprStr : String) : Nat × String :=
  if Go.hasPrefix exprStr "v1:" then (1, Go.trimPrefix exprStr "v1:")
  else (defaultExprVersion, exprStr)

structure CachedEntry where
  prog : Node
  usedVars : Finset String
  version : Nat

structure Library where
  compile : Nat → String → Option Node
  exprHashString : String → String

def Library.entry (lib : Library) (exprStr : String) : Option CachedEntry :=
  let (version, body) := parseExprVersion exprStr
  (lib.compile version body).map fun prog => ⟨prog, prog.usedVars, version⟩

/-! ## Calls -/

inductive Job where
  | usedVars (exprStr : String)
  | compileFromCache (exprStr : String)

def Job.exprStr : Job → String
  | .usedVars e => e
  | .compileFromCache e => e

inductive Phase where
  | idle
  /-- `UsedVars` has found no entry and calls `compileFromCacheByHash`. -/
  | missed
  /-- The expression has been compiled and is about to be stored. -/
  | compiled (entry : CachedEntry)
  | stored
  | returned (vars : Option (Finset String))

abbrev Cache := Finmap fun _ : String => CachedEntry

structure State where
  cache : Cache
  phase : Nat → Phase

inductive Act where
  /-- The next locked section of a call. -/
  | run (p : Nat)
  | invalidateCache

def maxCacheSize : Nat := 256

def Cache.store (cache : Cache) (hash : String) (entry : CachedEntry) : Cache :=
  if cache.keys.card ≥ maxCacheSize then (∅ : Cache).insert hash entry
  else cache.insert hash entry

namespace Library

variable (lib : Library)

/-- The look of `compileFromCacheByHash`, and the compilation after a miss. -/
def lookCompile (cache : Cache) : Job → Phase
  | .usedVars e =>
    match cache.lookup (lib.exprHashString e) with
    | some _ => .stored
    | none =>
      match lib.entry e with
      | some entry => .compiled entry
      | none => .returned none
  | .compileFromCache e =>
    match cache.lookup (lib.exprHashString e) with
    | some _ => .returned none
    | none =>
      match lib.entry e with
      | some entry => .compiled entry
      | none => .returned none

def begin (cache : Cache) : Job → Phase
  | .usedVars e =>
    if e = "" then .returned none
    else
      match cache.lookup (lib.exprHashString e) with
      | some entry => .returned (some entry.usedVars)
      | none => .missed
  | .compileFromCache e => lib.lookCompile cache (.compileFromCache e)

def run (jobs : Nat → Job) (s : State) (p : Nat) : State :=
  let hash := lib.exprHashString (jobs p).exprStr
  match s.phase p with
  | .idle => { s with phase := Function.update s.phase p (lib.begin s.cache (jobs p)) }
  | .missed => { s with phase := Function.update s.phase p (lib.lookCompile s.cache (jobs p)) }
  | .compiled entry =>
    { cache := s.cache.store hash entry
      phase := Function.update s.phase p
        (match jobs p with
          | .usedVars _ => .stored
          | .compileFromCache _ => .returned none) }
  | .stored =>
    { s with
      phase := Function.update s.phase p
        (.returned ((s.cache.lookup hash).map CachedEntry.usedVars)) }
  | .returned _ => s

def step (jobs : Nat → Job) (s : State) : Act → State
  | .run p => lib.run jobs s p
  | .invalidateCache => { s with cache := ∅ }

end Library

def start : State := ⟨∅, fun _ => .idle⟩

/-! ## The identifiers of a tree -/

theorem mem_walkAll {m : Node} {ns : List Node} : m ∈ Node.walkAll ns ↔ ∃ n ∈ ns, m ∈ n.walk := by
  induction ns with
  | nil => simp [Node.walkAll]
  | cons n ns ih => rw [Node.walkAll, mem_append, ih, exists_mem_cons_iff]

theorem occurs_of_mem_walk {value : String} :
    ∀ n : Node, Node.identifier value ∈ n.walk → n.Occurs value
  | .identifier v, h => by
    rw [Node.walk, List.mem_singleton] at h
    rw [Node.identifier.inj h]
    exact .here
  | .other children, h => by
    rw [Node.walk, List.mem_append, List.mem_singleton, mem_walkAll] at h
    rcases h with ⟨n, hn, hMem⟩ | hEq
    · exact .child hn (occurs_of_mem_walk n hMem)
    · cases hEq

theorem mem_walk_of_occurs {value : String} {n : Node} (h : n.Occurs value) :
    Node.identifier value ∈ n.walk := by
  induction h with
  | here => exact mem_singleton_self _
  | child hn _ ih => exact mem_append_left _ (mem_walkAll.mpr ⟨_, hn, ih⟩)

theorem Node.mem_usedVars {value : String} (n : Node) : value ∈ n.usedVars ↔ n.Occurs value := by
  rw [usedVars, List.mem_toFinset, List.mem_filterMap]
  constructor
  · rintro ⟨m, hm, hValue⟩
    cases m with
    | identifier v =>
      rw [← some.inj hValue]
      exact occurs_of_mem_walk n hm
    | other children => cases hValue
  · exact fun h => ⟨.identifier value, mem_walk_of_occurs h, rfl⟩

/-! ## What the calls return -/

variable {lib : Library} {jobs : Nat → Job} {s : State}

def Library.Cached (lib : Library) (cache : Cache) : Prop :=
  ∀ e entry, cache.lookup (lib.exprHashString e) = some entry → lib.entry e = some entry

def Phase.Fits (lib : Library) (job : Job) : Phase → Prop
  | .idle => True
  | .missed => ∃ e, job = .usedVars e ∧ e ≠ ""
  | .compiled entry => lib.entry job.exprStr = some entry ∧ ∀ e, job = .usedVars e → e ≠ ""
  | .stored => ∃ e entry, job = .usedVars e ∧ e ≠ "" ∧ lib.entry e = some entry
  | .returned _ => True

theorem Library.entry_usedVars {e : String} {entry : CachedEntry} (h : lib.entry e = some entry) :
    entry.usedVars = entry.prog.usedVars := by
  obtain ⟨prog, -, rfl⟩ := map_eq_some_iff.mp h
  rfl

/-- A call of `UsedVars` for an expression that compiles has not returned anything but its
identifiers. -/
def Phase.Right (lib : Library) (job : Job) (phase : Phase) : Prop :=
  ∀ e entry vars, job = .usedVars e → e ≠ "" → lib.entry e = some entry →
    phase = .returned vars → vars = some entry.usedVars

structure Consistent (lib : Library) (jobs : Nat → Job) (s : State) : Prop where
  cached : lib.Cached s.cache
  fits : ∀ p, (s.phase p).Fits lib (jobs p)

def Library.Found (lib : Library) (jobs : Nat → Job) (s : State) : Act → Prop
  | .run p => s.phase p = .stored →
      ∃ entry, s.cache.lookup (lib.exprHashString (jobs p).exprStr) = some entry
  | .invalidateCache => True

theorem cached_empty (lib : Library) : lib.Cached ∅ := by
  intro e entry h
  cases h

theorem Library.Cached.store (hInj : lib.exprHashString.Injective) {cache : Cache}
    (h : lib.Cached cache) {e : String} {entry : CachedEntry} (hEntry : lib.entry e = some entry) :
    lib.Cached (cache.store (lib.exprHashString e) entry) := by
  intro e' entry' hLookup
  rcases eq_or_ne e' e with rfl | hne
  · have hSelf : (cache.store (lib.exprHashString e') entry).lookup (lib.exprHashString e') =
        some entry := by
      unfold Cache.store
      split <;> exact Finmap.lookup_insert _
    rw [hSelf] at hLookup
    rwa [← some.inj hLookup]
  · have hHash : lib.exprHashString e' ≠ lib.exprHashString e := fun hEq => hne (hInj hEq)
    unfold Cache.store at hLookup
    split at hLookup <;> rw [Finmap.lookup_insert_of_ne _ hHash] at hLookup
    · cases hLookup
    · exact h e' entry' hLookup

theorem lookCompile_spec {cache : Cache} (h : lib.Cached cache) (job : Job)
    (hJob : ∀ e, job = .usedVars e → e ≠ "") :
    (lib.lookCompile cache job).Fits lib job ∧ (lib.lookCompile cache job).Right lib job := by
  cases job with rw [Library.lookCompile]
  | usedVars e =>
    split
    · next entry hLookup => exact ⟨⟨e, entry, rfl, hJob e rfl, h e entry hLookup⟩, nofun⟩
    split
    · next entry hEntry => exact ⟨⟨hEntry, hJob⟩, nofun⟩
    · next hEntry =>
      refine ⟨trivial, fun e' entry vars hEq _ hSome _ => ?_⟩
      obtain rfl : e = e' := Job.usedVars.inj hEq
      rw [hEntry] at hSome
      cases hSome
  | compileFromCache e =>
    split
    · exact ⟨trivial, nofun⟩
    · split
      · next entry hEntry => exact ⟨⟨hEntry, nofun⟩, nofun⟩
      · exact ⟨trivial, nofun⟩

theorem begin_spec {cache : Cache} (h : lib.Cached cache) (job : Job) :
    (lib.begin cache job).Fits lib job ∧ (lib.begin cache job).Right lib job := by
  cases job with
  | usedVars e =>
    rw [Library.begin]
    split
    · next hEmpty =>
      refine ⟨trivial, fun e' entry vars hEq hne _ _ => absurd ?_ hne⟩
      rw [← Job.usedVars.inj hEq, hEmpty]
    · next hEmpty =>
      cases hLookup : cache.lookup (lib.exprHashString e) with
      | some entry =>
        refine ⟨trivial, fun e' entry' vars hEq _ hEntry hVars => ?_⟩
        obtain rfl : e = e' := Job.usedVars.inj hEq
        rw [h e entry hLookup] at hEntry
        rw [← Phase.returned.inj hVars, some.inj hEntry]
      | none => exact ⟨⟨e, rfl, hEmpty⟩, nofun⟩
  | compileFromCache e => exact lookCompile_spec h _ nofun

section

variable (hInj : lib.exprHashString.Injective)
include hInj

theorem run_spec (h : Consistent lib jobs s) (p : Nat) :
    ∃ new, (lib.run jobs s p).phase = Function.update s.phase p new ∧
      lib.Cached (lib.run jobs s p).cache ∧ new.Fits lib (jobs p) ∧
      ((s.phase p).Right lib (jobs p) →
        (new.Right lib (jobs p) ↔ lib.Found jobs s (.run p))) := by
  have hFits := h.fits p
  have hOther : s.phase p ≠ .stored → lib.Found jobs s (.run p) := fun hne hStored =>
    absurd hStored hne
  cases hPhase : s.phase p with
  | idle =>
    obtain ⟨hNew, hRight⟩ := begin_spec h.cached (jobs p)
    simp only [Library.run, hPhase]
    exact ⟨_, rfl, h.cached, hNew, fun _ => iff_of_true hRight (hOther (by simp [hPhase]))⟩
  | missed =>
    rw [hPhase] at hFits
    obtain ⟨e, hJob, hne⟩ := hFits
    obtain ⟨hNew, hRight⟩ := lookCompile_spec h.cached (jobs p) fun e' hEq => by
      rw [hJob] at hEq
      rwa [← Job.usedVars.inj hEq]
    simp only [Library.run, hPhase]
    exact ⟨_, rfl, h.cached, hNew, fun _ => iff_of_true hRight (hOther (by simp [hPhase]))⟩
  | compiled entry =>
    rw [hPhase] at hFits
    obtain ⟨hEntry, hne⟩ := hFits
    simp only [Library.run, hPhase]
    refine ⟨_, rfl, h.cached.store hInj hEntry, ?_,
      fun _ => iff_of_true ?_ (hOther (by simp [hPhase]))⟩
    · cases hJob : jobs p with
      | usedVars e =>
        rw [hJob] at hEntry
        exact ⟨e, entry, rfl, hne e hJob, hEntry⟩
      | compileFromCache e => trivial
    · cases jobs p <;> exact nofun
  | stored =>
    rw [hPhase] at hFits
    obtain ⟨e, entry, hJob, hne, hEntry⟩ := hFits
    have hExpr : (jobs p).exprStr = e := by
      rw [hJob]
      rfl
    simp only [Library.run, hPhase]
    refine ⟨_, rfl, h.cached, trivial, fun _ => ?_⟩
    simp only [Library.Found, hPhase, forall_const]
    constructor
    · intro hRight
      have hVars := hRight e entry _ hJob hne hEntry rfl
      rw [map_eq_some_iff] at hVars
      obtain ⟨found, hLookup, -⟩ := hVars
      exact ⟨found, hLookup⟩
    · rintro ⟨found, hLookup⟩ e' entry' vars hEq _ hEntry' hVars
      obtain rfl : e = e' := Job.usedVars.inj (hJob.symm.trans hEq)
      rw [← Phase.returned.inj hVars, hLookup, map_some]
      rw [hExpr] at hLookup
      rw [h.cached e found hLookup] at hEntry'
      rw [some.inj hEntry']
  | returned vars =>
    simp only [Library.run, hPhase]
    refine ⟨s.phase p, (update_eq_self p s.phase).symm, h.cached, hFits, fun hRight => ?_⟩
    refine iff_of_true ?_ (hOther (by simp [hPhase]))
    rw [hPhase]
    exact hRight

theorem Consistent.step (h : Consistent lib jobs s) (a : Act) :
    Consistent lib jobs (lib.step jobs s a) := by
  cases a with
  | run p =>
    obtain ⟨new, hPhase, hCached, hFits, -⟩ := run_spec hInj h p
    refine ⟨hCached, fun q => ?_⟩
    rw [Library.step, hPhase]
    rcases eq_or_ne q p with rfl | hne
    · rwa [update_self]
    · rw [update_of_ne hne]
      exact h.fits q
  | invalidateCache => exact ⟨cached_empty lib, h.fits⟩

theorem Consistent.right_iff (h : Consistent lib jobs s)
    (hRight : ∀ p, (s.phase p).Right lib (jobs p)) (a : Act) :
    (∀ p, ((lib.step jobs s a).phase p).Right lib (jobs p)) ↔ lib.Found jobs s a := by
  cases a with
  | run p =>
    obtain ⟨new, hPhase, -, -, hExact⟩ := run_spec hInj h p
    rw [← hExact (hRight p), Library.step, hPhase]
    constructor
    · intro hAll
      have hNew := hAll p
      rwa [update_self] at hNew
    · intro hNew q
      rcases eq_or_ne q p with rfl | hne
      · rwa [update_self]
      · rw [update_of_ne hne]
        exact hRight q
  | invalidateCache => exact iff_of_true hRight trivial

end

/-! ## What is settled -/

structure TokenParams where
  p : Int
  c : Int
  len : Int
  cr : Int
  cc : Int
  cc1h : Int
  img : Int
  imgO : Int
  ai : Int
  ao : Int
  deriving DecidableEq, Repr

def varsOf (usedVars : Option (Finset String)) : Finset String := usedVars.getD ∅

/-- A total without a category that has a price. -/
def less (vars : Finset String) (name : String) (tokens total : Int) : Int :=
  if name ∈ vars then total - tokens else total

/-- Nothing is subtracted for Claude, whose totals are text only. -/
def buildTieredTokenParams (usage : Usage) (isClaudeUsageSemantic : Bool)
    (usedVars : Option (Finset String)) : TokenParams :=
  let p := usage.promptTokens
  let c := usage.completionTokens
  let cr := usage.promptTokensDetails.cachedTokens
  let (cc5m, cc1h) :=
    if usage.usageSemantic = "anthropic" then
      (usage.claudeCacheCreation5mTokens, usage.claudeCacheCreation1hTokens)
    else (usage.promptTokensDetails.cachedCreationTokens, 0)
  let img := usage.promptTokensDetails.imageTokens
  let ai := usage.promptTokensDetails.audioTokens
  let imgO := usage.completionTokenDetails.imageTokens
  let ao := usage.completionTokenDetails.audioTokens
  let inputLen := if isClaudeUsageSemantic then p + cr + cc5m + cc1h else p
  let vars := if isClaudeUsageSemantic then ∅ else varsOf usedVars
  let p := less vars "cr" cr p
  let p := less vars "cc" cc5m p
  let p := less vars "cc1h" cc1h p
  let p := less vars "img" img p
  let p := less vars "ai" ai p
  let c := less vars "img_o" imgO c
  let c := less vars "ao" ao c
  { p := if p < 0 then 0 else p
    c := if c < 0 then 0 else c
    len := inputLen, cr := cr, cc := cc5m, cc1h := cc1h, img := img, imgO := imgO, ai := ai
    ao := ao }

def TokenParams.inputs (t : TokenParams) : List (String × Int) :=
  [("cr", t.cr), ("cc", t.cc), ("cc1h", t.cc1h), ("img", t.img), ("ai", t.ai)]

def TokenParams.outputs (t : TokenParams) : List (String × Int) :=
  [("img_o", t.imgO), ("ao", t.ao)]

def priced (vars : Finset String) (categories : List (String × Int)) : Int :=
  ((categories.filter fun x => x.1 ∈ vars).map Prod.snd).sum

theorem priced_cons (vars : Finset String) (name : String) (tokens : Int)
    (categories : List (String × Int)) :
    priced vars ((name, tokens) :: categories) =
      (if name ∈ vars then tokens else 0) + priced vars categories := by
  unfold priced
  by_cases hName : name ∈ vars
  · rw [filter_cons_of_pos (by simpa using hName), map_cons, sum_cons, if_pos hName]
  · rw [filter_cons_of_neg (by simpa using hName), if_neg hName, Int.zero_add]

theorem less_eq (vars : Finset String) (name : String) (tokens total : Int) :
    less vars name tokens total = total - if name ∈ vars then tokens else 0 := by
  unfold less
  split
  · rfl
  · exact (Int.sub_zero total).symm

/-- **What is subtracted**: from the prompt and the completion, the categories with a price. -/
theorem buildTieredTokenParams_totals (usage : Usage) (usedVars : Option (Finset String)) :
    (buildTieredTokenParams usage false usedVars).p = max 0 (usage.promptTokens -
        priced (varsOf usedVars) (buildTieredTokenParams usage false usedVars).inputs) ∧
      (buildTieredTokenParams usage false usedVars).c = max 0 (usage.completionTokens -
        priced (varsOf usedVars) (buildTieredTokenParams usage false usedVars).outputs) := by
  have hNil : priced (varsOf usedVars) [] = 0 := rfl
  have hMax : ∀ x : Int, (if x < 0 then 0 else x) = max 0 x := by
    omega
  simp only [TokenParams.inputs, TokenParams.outputs, priced_cons, hNil]
  simp only [buildTieredTokenParams, less_eq, hMax, Bool.false_eq_true, if_false]
  constructor <;> congr 1 <;> ring

/-- **The identifiers are returned** exactly if each call that looks again finds its entry. -/
theorem usedVars_iff (lib : Library) (hInj : lib.exprHashString.Injective) (jobs : Nat → Job)
    (acts : List Act) :
    ((∀ t ∈ states (lib.step jobs) start acts, ∀ p e prog vars, jobs p = .usedVars e → e ≠ "" →
        (lib.entry e).map CachedEntry.prog = some prog → t.phase p = .returned vars →
        ∃ found, vars = some found ∧ ∀ name, name ∈ found ↔ prog.Occurs name) ↔
      ∀ m ∈ moves (lib.step jobs) start acts, lib.Found jobs m.1 m.2) ∧
    ∀ (usage : Usage) (vars : Option (Finset String)),
      (buildTieredTokenParams usage false vars).p = max 0 (usage.promptTokens -
          priced (varsOf vars) (buildTieredTokenParams usage false vars).inputs) ∧
        (buildTieredTokenParams usage false vars).c = max 0 (usage.completionTokens -
          priced (varsOf vars) (buildTieredTokenParams usage false vars).outputs) := by
  refine ⟨?_, buildTieredTokenParams_totals⟩
  have hRun := states_forall_iff (lib.step jobs) (I := Consistent lib jobs)
    (fun s a h => h.step hInj a) (fun s a h hRight => h.right_iff hInj hRight a) acts start
    ⟨cached_empty lib, fun _ => trivial⟩ (fun _ => nofun)
  rw [← hRun]
  refine forall₂_congr fun t _ => forall_congr' fun p => forall_congr' fun e => ?_
  constructor
  · intro hAll entry vars hJob hne hEntry hPhase
    obtain ⟨found, hFound, hNames⟩ := hAll entry.prog vars hJob hne (by rw [hEntry]; rfl) hPhase
    rw [hFound, Library.entry_usedVars hEntry]
    exact congrArg some (Finset.ext fun name => by rw [hNames, Node.mem_usedVars])
  · intro hRight prog vars hJob hne hProg hPhase
    obtain ⟨entry, hEntry, rfl⟩ := map_eq_some_iff.mp hProg
    refine ⟨entry.usedVars, hRight entry vars hJob hne hEntry hPhase, fun name => ?_⟩
    rw [Library.entry_usedVars hEntry, Node.mem_usedVars]

def sampleLibrary : Library :=
  ⟨fun _ _ => some (.other [.identifier "p", .identifier "cr"]), id⟩

def sampleJobs : Nat → Job := fun _ => .usedVars "p + cr"

def invalidated : State :=
  [Act.run 0, .run 0, .run 0, .invalidateCache, .run 0].foldl (sampleLibrary.step sampleJobs) start

def cachedPrompt : Usage := ⟨1000, 10, "", ⟨900, 0, 0, 0⟩, ⟨0, 0⟩, 0, 0⟩

/-- A call that is not disturbed. -/
theorem usedVars_undisturbed :
    sampleLibrary.exprHashString.Injective ∧
      ∀ t ∈ states (sampleLibrary.step sampleJobs) start [.run 0, .run 0, .run 0, .run 0],
        ∀ p e prog vars, sampleJobs p = .usedVars e → e ≠ "" →
          (sampleLibrary.entry e).map CachedEntry.prog = some prog → t.phase p = .returned vars →
          ∃ found, vars = some found ∧ ∀ name, name ∈ found ↔ prog.Occurs name := by
  refine ⟨injective_id, (usedVars_iff sampleLibrary injective_id sampleJobs
    [.run 0, .run 0, .run 0, .run 0]).1.mpr ?_⟩
  simp only [moves_cons, moves_nil, forall_mem_cons]
  exact ⟨nofun, nofun, nofun, fun _ => ⟨_, rfl⟩, forall_mem_nil _⟩

/-- **An entry that is gone**: no set is returned, and the whole prompt is charged. -/
theorem usedVars_invalidated :
    invalidated.phase 0 = .returned none ∧
      (buildTieredTokenParams cachedPrompt false none).p = 1000 ∧
      (buildTieredTokenParams cachedPrompt false (some {"p", "cr"})).p = 100 :=
  ⟨rfl, by decide +kernel, by decide +kernel⟩

/-- **The cache holds nothing but compiled expressions**, each under its own hash, however calls and
invalidations interleave.  `CompileFromCacheByHash` with a hash that the caller chooses is not one
of the calls. -/
theorem cache_compiled (lib : Library) (hInj : lib.exprHashString.Injective) (jobs : Nat → Job)
    (acts : List Act) : lib.Cached (acts.foldl (lib.step jobs) start).cache := by
  have hStart : Consistent lib jobs start := ⟨cached_empty lib, fun _ => trivial⟩
  have hRun : Consistent lib jobs (acts.foldl (lib.step jobs) start) :=
    List.foldlRecOn acts _ (motive := Consistent lib jobs) hStart fun s h a _ => h.step hInj a
  exact hRun.cached

theorem cache_compiled_sample :
    sampleLibrary.Cached ([Act.run 0, .run 1, .run 0, .invalidateCache, .run 1, .run 0].foldl
      (sampleLibrary.step sampleJobs) start).cache :=
  cache_compiled sampleLibrary injective_id sampleJobs _

end NewApi.Tiered
