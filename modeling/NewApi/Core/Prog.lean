import Mathlib.Data.List.Basic

/-!
# Programs over a store whose statements can fail

A `Prog σ α` runs on a store and returns a value or fails.  Whether a statement fails is an argument
(`stmt`). `transactionWith` takes back what was written on its own handle.  A loop that does not
come back is `Fail.hang`, which no caller sees.
-/

namespace Core

inductive Fail where
  | err (text : String)
  | hang
  deriving DecidableEq, Repr

def Prog (σ α : Type) : Type := σ → Except Fail α × σ

namespace Prog

variable {σ α β : Type} {p : Prog σ α} {commit : Option String} {k : α → Prog σ β}

instance : Monad (Prog σ) where
  pure a := fun s => (.ok a, s)
  bind p k := fun s =>
    match p s with
    | (.ok a, s') => k a s'
    | (.error e, s') => (.error e, s')

def fail (text : String) : Prog σ α := fun s => (.error (.err text), s)

def hang : Prog σ α := fun s => (.error .hang, s)

def read (f : σ → α) : Prog σ α := fun s => (.ok (f s), s)

def write (f : σ → σ) : Prog σ Unit := fun s => (.ok (), f s)

/-- One statement: with a fault it fails and has no effect. -/
def stmt (fault : Option String) (p : Prog σ α) : Prog σ α :=
  match fault with
  | none => p
  | some text => fail text

def attempt (p : Prog σ α) : Prog σ (Except String α) := fun s =>
  match p s with
  | (.ok a, s') => (.ok (.ok a), s')
  | (.error (.err text), s') => (.ok (.error text), s')
  | (.error .hang, s') => (.error .hang, s')

/-- A transaction whose rollback leaves `undo before after`. -/
def transactionWith (undo : σ → σ → σ) (commit : Option String) (p : Prog σ α) : Prog σ α :=
  fun s =>
    match p s with
    | (.error e, s') => (.error e, undo s s')
    | (.ok a, s') =>
      match commit with
      | none => (.ok a, s')
      | some text => (.error (.err text), undo s s')

def transaction (commit : Option String) (p : Prog σ α) : Prog σ α :=
  transactionWith (fun before _ => before) commit p

/-! ## Running a program -/

@[simp] theorem pure_run (a : α) (s : σ) : (pure a : Prog σ α) s = (.ok a, s) := rfl

theorem bind_run (p : Prog σ α) (k : α → Prog σ β) (s : σ) :
    (p >>= k) s =
      match p s with
      | (.ok a, s') => k a s'
      | (.error e, s') => (.error e, s') := rfl

theorem bind_ok {s s' : σ} {a : α} (h : p s = (.ok a, s')) : (p >>= k) s = k a s' := by
  rw [bind_run, h]

theorem bind_error {s s' : σ} {e : Fail} (h : p s = (.error e, s')) :
    (p >>= k) s = (.error e, s') := by
  rw [bind_run, h]

@[simp] theorem fail_run (text : String) (s : σ) :
    (fail text : Prog σ α) s = (.error (.err text), s) := rfl

@[simp] theorem hang_run (s : σ) : (hang : Prog σ α) s = (.error .hang, s) := rfl

@[simp] theorem read_run (f : σ → α) (s : σ) : read f s = (.ok (f s), s) := rfl

@[simp] theorem write_run (f : σ → σ) (s : σ) : write f s = (.ok (), f s) := rfl

@[simp] theorem stmt_none (p : Prog σ α) : stmt none p = p := rfl

@[simp] theorem stmt_some (text : String) (p : Prog σ α) : stmt (some text) p = fail text := rfl

/-! ## What an outcome says about the parts -/

theorem bind_eq_ok {s t : σ} {b : β} :
    (p >>= k) s = (.ok b, t) ↔ ∃ a s', p s = (.ok a, s') ∧ k a s' = (.ok b, t) := by
  rw [bind_run]
  constructor
  · intro h
    rcases hp : p s with ⟨_ | a, s'⟩
    · rw [hp] at h; cases h
    · rw [hp] at h; exact ⟨a, s', rfl, h⟩
  · rintro ⟨a, s', hp, hk⟩
    rw [hp]; exact hk

theorem stmt_eq_ok {fault : Option String} {s t : σ} {a : α} :
    stmt fault p s = (.ok a, t) ↔ fault = none ∧ p s = (.ok a, t) := by
  cases fault <;> simp

theorem transactionWith_error {undo : σ → σ → σ} {s t : σ} {e : Fail}
    (h : transactionWith undo commit p s = (.error e, t)) :
    t = undo s (p s).2 := by
  unfold transactionWith at h
  rcases hp : p s with ⟨_ | a, s'⟩
  · rw [hp] at h; cases h; rfl
  · rw [hp] at h
    cases commit <;> cases h
    rfl

theorem transactionWith_ok {undo : σ → σ → σ} {s t : σ} {a : α} :
    transactionWith undo commit p s = (.ok a, t) ↔ commit = none ∧ p s = (.ok a, t) := by
  unfold transactionWith
  rcases hp : p s with ⟨_ | b, s'⟩
  · simp
  · cases commit <;> simp

theorem transaction_cases (commit : Option String) (p : Prog σ α) (s : σ) :
    (∃ e, transaction commit p s = (.error e, s)) ∨
      ∃ a t, transaction commit p s = (.ok a, t) ∧ p s = (.ok a, t) := by
  rcases h : transaction commit p s with ⟨e | a, t⟩
  · exact .inl ⟨e, by rw [transactionWith_error h]⟩
  · exact .inr ⟨a, t, rfl, (transactionWith_ok.mp h).2⟩

@[simp] theorem attempt_ok {s s' : σ} {a : α} (h : p s = (.ok a, s')) :
    attempt p s = (.ok (.ok a), s') := by
  rw [attempt, h]

@[simp] theorem attempt_err {s s' : σ} {text : String} (h : p s = (.error (.err text), s')) :
    attempt p s = (.ok (.error text), s') := by
  rw [attempt, h]

theorem attempt_snd (p : Prog σ α) (s : σ) : (attempt p s).2 = (p s).2 := by
  unfold attempt
  rcases p s with ⟨e | a, s'⟩
  · cases e <;> rfl
  · rfl

/-! ## Programs that only read -/

theorem stmt_snd_eq {fault : Option String} {s : σ} (hp : (p s).2 = s) :
    (stmt fault p s).2 = s := by
  cases fault with
  | none => exact hp
  | some text => rfl

theorem bind_snd_eq {s : σ} (hp : (p s).2 = s) (hk : ∀ a, (k a s).2 = s) : ((p >>= k) s).2 = s := by
  rcases hRun : p s with ⟨e | a, s'⟩
  · rw [hRun] at hp
    rw [bind_error hRun]
    exact hp
  rw [hRun] at hp
  have hs : s' = s := hp
  rw [bind_ok hRun, hs]
  exact hk a

end Prog

end Core
