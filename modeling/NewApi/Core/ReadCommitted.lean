import Mathlib.Data.List.Induction
import NewApi.Core.Run

/-!
# Transactions at read committed

A transaction is a plain select of one row, a decision, some writes and a commit.  A select takes no
lock and sees what is committed; a write locks its row until the end.
-/

namespace Core.ReadCommitted

open List Function

universe u v w x y

variable {K : Type u} {V : K → Type v} {P : Type w} {τ : Type x} [DecidableEq K] [DecidableEq P]

structure Write (V : K → Type v) where
  key : K
  change : V key → V key

def Write.apply (w : Write V) (rows : ∀ k, V k) : ∀ k, V k :=
  Function.update rows w.key (w.change (rows w.key))

def applyAll (ws : List (Write V)) (rows : ∀ k, V k) : ∀ k, V k :=
  ws.foldl (fun rows w => w.apply rows) rows

@[simp] theorem applyAll_nil (rows : ∀ k, V k) : applyAll [] rows = rows := rfl

@[simp] theorem applyAll_cons (w : Write V) (ws : List (Write V)) (rows : ∀ k, V k) :
    applyAll (w :: ws) rows = applyAll ws (w.apply rows) := rfl

structure Script (V : K → Type v) (P : Type w) (τ : Type x) where
  target : K
  plan : P → τ → V target → Option (List (τ → Write V))

inductive Tx (V : K → Type v) (τ : Type x) (target : K) where
  | idle
  | running (seen : V target) (done : List (Write V)) (todo : List (τ → Write V))
  | ended

structure State (S : Script V P τ) where
  committed : ∀ k, V k
  lock : K → Option P
  tx : P → Tx V τ S.target
  /-- The transactions that have committed, with what they wrote. -/
  commits : List (P × List (Write V))

inductive Act (P : Type w) (τ : Type x) where
  | select (p : P) (now : τ)
  | write (p : P) (now : τ)
  | commit (p : P)
  | rollback (p : P)

variable {S : Script V P τ}

namespace State

def release (s : State S) (p : P) : K → Option P :=
  fun k => if s.lock k = some p then none else s.lock k

/-- One statement of one process; a statement that has to wait changes nothing. -/
def step (s : State S) : Act P τ → State S
  | .select p now =>
    match s.tx p with
    | .idle =>
      match S.plan p now (s.committed S.target) with
      | some todo =>
        { s with tx := Function.update s.tx p (.running (s.committed S.target) [] todo) }
      | none => { s with tx := Function.update s.tx p .ended }
    | _ => s
  | .write p now =>
    match s.tx p with
    | .running seen done (f :: todo) =>
      if s.lock (f now).key = none ∨ s.lock (f now).key = some p then
        { s with
          lock := Function.update s.lock (f now).key (some p)
          tx := Function.update s.tx p (.running seen (done ++ [f now]) todo) }
      else s
    | _ => s
  | .commit p =>
    match s.tx p with
    | .running _ done [] =>
      { committed := applyAll done s.committed
        lock := s.release p
        tx := Function.update s.tx p .ended
        commits := s.commits ++ [(p, done)] }
    | _ => s
  | .rollback p =>
    match s.tx p with
    | .running .. => { s with lock := s.release p, tx := Function.update s.tx p .ended }
    | _ => s

def start (S : Script V P τ) (rows : ∀ k, V k) : State S :=
  ⟨rows, fun _ => none, fun _ => .idle, []⟩

def Current (s : State S) : Act P τ → Prop
  | .commit p => ∀ seen done, s.tx p = .running seen done [] → s.committed S.target = seen
  | _ => True

end State

def Resolves (planned : List (τ → Write V)) (done : List (Write V)) : Prop :=
  List.Forall₂ (fun f w => ∃ now, w = f now) planned done

omit [DecidableEq K] in
theorem Resolves.concat {planned : List (τ → Write V)} {done : List (Write V)}
    (h : Resolves planned done) (f : τ → Write V) (now : τ) :
    Resolves (planned ++ [f]) (done ++ [f now]) :=
  rel_append h (.cons ⟨now, rfl⟩ .nil)

def Script.Spends (S : Script V P τ) (fresh : V S.target → Prop) : Prop :=
  ∀ p now seen planned, S.plan p now seen = some planned → fresh seen ∧
    ∀ done, Resolves planned done → ∀ rows, ¬ fresh (applyAll done rows S.target)

namespace State

variable {s : State S} {rows : ∀ k, V k} {fresh : V S.target → Prop}

def Planned (s : State S) : Prop :=
  ∀ p seen done todo, s.tx p = .running seen done todo →
    ∃ now made, S.plan p now seen = some (made ++ todo) ∧ Resolves made done

/-- Nothing has been committed yet and everybody has read the first rows, or the row is spent. -/
structure Consistent (rows : ∀ k, V k) (fresh : V S.target → Prop) (s : State S) : Prop where
  planned : s.Planned
  unspent : s.commits = [] → s.committed = rows ∧
    ∀ p seen done todo, s.tx p = .running seen done todo → seen = rows S.target
  spent : s.commits ≠ [] → ¬ fresh (s.committed S.target)

omit [DecidableEq K] in
theorem running_of_update {tx : P → Tx V τ S.target} {p q : P} {t : Tx V τ S.target}
    {seen : V S.target} {done : List (Write V)} {todo : List (τ → Write V)}
    (h : update tx p t q = .running seen done todo) :
    q = p ∧ t = .running seen done todo ∨ tx q = .running seen done todo := by
  rcases eq_or_ne q p with rfl | hne
  · rw [update_self] at h
    exact .inl ⟨rfl, h⟩
  · rw [update_of_ne hne] at h
    exact .inr h

theorem running_step {a : Act P τ} {p : P} {seen : V S.target} {done : List (Write V)}
    {todo : List (τ → Write V)} (h : (s.step a).tx p = .running seen done todo) :
    s.tx p = .running seen done todo ∨
    -- it has decided to write
    (∃ now, S.plan p now seen = some todo ∧ seen = s.committed S.target ∧ done = []) ∨
    -- it has made a write
    ∃ now f before, s.tx p = .running seen before (f :: todo) ∧ done = before ++ [f now] := by
  have hEnded : ∀ {q}, update s.tx q .ended p = .running seen done todo →
      s.tx p = .running seen done todo := fun hRun =>
    (running_of_update hRun).resolve_left fun hNew => nomatch hNew.2
  cases a with rw [step] at h
  | select q now =>
    split at h
    · split at h
      case h_1 planned hPlan =>
        rcases running_of_update h with ⟨rfl, hNew⟩ | hOld
        · cases hNew
          exact .inr (.inl ⟨now, hPlan, rfl, rfl⟩)
        · exact .inl hOld
      case h_2 => exact .inl (hEnded h)
    · exact .inl h
  | write q now =>
    split at h
    case h_1 hTx =>
      split at h
      · rcases running_of_update h with ⟨rfl, hNew⟩ | hOld
        · cases hNew
          exact .inr (.inr ⟨now, _, _, hTx, rfl⟩)
        · exact .inl hOld
      · exact .inl h
    case h_2 => exact .inl h
  | commit q | rollback q =>
    split at h
    · exact .inl (hEnded h)
    · exact .inl h

theorem commits_step (s : State S) (a : Act P τ) :
    ((∀ p seen done, a = .commit p → s.tx p ≠ .running seen done []) ∧
      (s.step a).committed = s.committed ∧ (s.step a).commits = s.commits) ∨
    ∃ p seen done, a = .commit p ∧ s.tx p = .running seen done [] ∧
      (s.step a).committed = applyAll done s.committed ∧
      (s.step a).commits = s.commits ++ [(p, done)] := by
  cases a with rw [step]
  | select p now | write p now =>
    split
    · split <;> exact .inl ⟨nofun, rfl, rfl⟩
    · exact .inl ⟨nofun, rfl, rfl⟩
  | commit p =>
    split
    case h_1 seen done hTx => exact .inr ⟨p, seen, done, rfl, hTx, rfl, rfl⟩
    case h_2 hNot =>
      refine .inl ⟨?_, rfl, rfl⟩
      rintro _ seen done ⟨⟩
      exact hNot seen done
  | rollback p => split <;> exact .inl ⟨nofun, rfl, rfl⟩

theorem Planned.step (h : s.Planned) (a : Act P τ) : (s.step a).Planned := by
  intro p seen done todo hRun
  rcases running_step hRun with hOld | ⟨now, hPlan, -, rfl⟩ | ⟨now, f, before, hTx, rfl⟩
  · exact h p seen done todo hOld
  · exact ⟨now, [], hPlan, .nil⟩
  obtain ⟨first, made, hPlan, hMade⟩ := h p seen before (f :: todo) hTx
  refine ⟨first, made ++ [f], ?_, hMade.concat f now⟩
  rw [append_assoc]
  exact hPlan

omit [DecidableEq P] in
theorem Planned.commits (h : s.Planned) (hSpends : S.Spends fresh) {p : P} {seen : V S.target}
    {done : List (Write V)} (hTx : s.tx p = .running seen done []) :
    fresh seen ∧ ∀ rows, ¬ fresh (applyAll done rows S.target) := by
  obtain ⟨now, made, hPlan, hMade⟩ := h p seen done [] hTx
  rw [append_nil] at hPlan
  obtain ⟨hFresh, hSpent⟩ := hSpends p now seen made hPlan
  exact ⟨hFresh, hSpent done hMade⟩

theorem Consistent.step (h : s.Consistent rows fresh) (hSpends : S.Spends fresh) (a : Act P τ) :
    (s.step a).Consistent rows fresh := by
  rcases s.commits_step a with ⟨-, hSame, hCommits⟩ | ⟨p, seen, done, -, hTx, hRows, hCommits⟩
  · refine ⟨h.planned.step a, fun hNone => ?_, fun hSome => ?_⟩
    · obtain ⟨hFirst, hSeen⟩ := h.unspent (hCommits ▸ hNone)
      refine ⟨hSame.trans hFirst, fun p seen done todo hRun => ?_⟩
      rcases running_step hRun with hOld | ⟨now, -, rfl, -⟩ | ⟨now, f, before, hTx, -⟩
      · exact hSeen p seen done todo hOld
      · rw [hFirst]
      · exact hSeen p seen before (f :: todo) hTx
    · rw [hSame]
      exact h.spent (hCommits ▸ hSome)
  · refine ⟨h.planned.step a, fun hNone => ?_, fun _ => ?_⟩
    · rw [hCommits] at hNone
      simp at hNone
    · rw [hRows]
      exact (h.planned.commits hSpends hTx).2 s.committed

/-- From a state in which at most one has committed, a step keeps it so exactly if it is current. -/
theorem Consistent.step_iff (h : s.Consistent rows fresh) (hSpends : S.Spends fresh)
    (hOne : s.commits.length ≤ 1) (a : Act P τ) :
    (s.step a).commits.length ≤ 1 ↔ s.Current a := by
  rcases s.commits_step a with ⟨hNot, -, hCommits⟩ | ⟨p, seen, done, rfl, hTx, -, hCommits⟩ <;>
    rw [hCommits]
  · refine iff_of_true hOne ?_
    cases a with
    | commit p => exact fun seen done hTx => absurd hTx (hNot p seen done rfl)
    | _ => trivial
  · have hCurrent : s.Current (.commit p) ↔ s.committed S.target = seen := by
      refine ⟨fun hAll => hAll seen done hTx, fun hEq seen' done' hTx' => ?_⟩
      rw [hTx] at hTx'
      injection hTx' with hSeen
      rw [← hSeen, hEq]
    rw [hCurrent, length_append, length_singleton]
    by_cases hNone : s.commits = []
    · obtain ⟨hRows, hSeen⟩ := h.unspent hNone
      refine iff_of_true (by rw [hNone]; exact Nat.le_refl 1) ?_
      rw [hRows, hSeen p seen done [] hTx]
    refine iff_of_false ?_ fun hEq => h.spent hNone ?_
    · have := length_pos_iff.mpr hNone
      omega
    · rw [hEq]
      exact (h.planned.commits hSpends hTx).1

/-- **At most one transaction commits** exactly if every commit finds the row as it was read. -/
theorem commits_le_one_iff (hSpends : S.Spends fresh) (rows : ∀ k, V k) (acts : List (Act P τ)) :
    (∀ t ∈ states step (start S rows) acts, t.commits.length ≤ 1) ↔
      ∀ m ∈ moves step (start S rows) acts, m.1.Current m.2 :=
  states_forall_iff step (I := fun s => s.Consistent rows fresh)
    (P := fun s => s.commits.length ≤ 1) (G := fun s a => s.Current a)
    (fun _ a h => h.step hSpends a) (fun _ a h hOne => h.step_iff hSpends hOne a) acts _
    ⟨nofun, fun _ => ⟨rfl, nofun⟩, fun h => absurd rfl h⟩ (Nat.zero_le _)

theorem committed_eq (rows : ∀ k, V k) (acts : List (Act P τ)) :
    (acts.foldl step (start S rows)).committed =
      (acts.foldl step (start S rows)).commits.foldl (fun rows c => applyAll c.2 rows) rows := by
  induction acts using reverseRecOn with
  | nil => rfl
  | append_singleton acts a ih =>
    rw [foldl_append, foldl_cons, foldl_nil]
    rcases (acts.foldl step (start S rows)).commits_step a with
      ⟨-, hSame, hCommits⟩ | ⟨p, seen, done, -, -, hRows, hCommits⟩
    · rw [hSame, hCommits]
      exact ih
    · rw [hRows, hCommits, foldl_append, foldl_cons, foldl_nil, ← ih]

/-- What the row, the running transactions and those that have committed have to do with `Q`. -/
structure Keeps (Q : V S.target → Prop) (s : State S) : Prop where
  planned : s.Planned
  row : Q (s.committed S.target)
  running : ∀ p seen done todo, s.tx p = .running seen done todo → Q seen
  commits : ∀ c ∈ s.commits, ∃ now seen planned,
    S.plan c.1 now seen = some planned ∧ Resolves planned c.2 ∧ Q seen

theorem Keeps.step {Q : V S.target → Prop} (h : s.Keeps Q)
    (hKeep : ∀ p now seen planned done rows, S.plan p now seen = some planned → Q seen →
      Resolves planned done → Q (applyAll done rows S.target)) (a : Act P τ) :
    (s.step a).Keeps Q := by
  have hRunning : ∀ p seen done todo, (s.step a).tx p = .running seen done todo → Q seen := by
    intro p seen done todo hRun
    rcases running_step hRun with hOld | ⟨now, -, rfl, -⟩ | ⟨now, f, before, hTx, -⟩
    · exact h.running p seen done todo hOld
    · exact h.row
    · exact h.running p seen before (f :: todo) hTx
  rcases s.commits_step a with ⟨-, hSame, hCommits⟩ | ⟨p, seen, done, -, hTx, hRows, hCommits⟩
  · exact ⟨h.planned.step a, hSame ▸ h.row, hRunning, hCommits ▸ h.commits⟩
  obtain ⟨now, made, hPlan, hMade⟩ := h.planned p seen done [] hTx
  rw [append_nil] at hPlan
  have hSeen := h.running p seen done [] hTx
  refine ⟨h.planned.step a, ?_, hRunning, fun c hc => ?_⟩
  · rw [hRows]
    exact hKeep p now seen made done _ hPlan hSeen hMade
  rw [hCommits] at hc
  rcases mem_append.mp hc with hOld | hNew
  · exact h.commits c hOld
  · rw [mem_singleton.mp hNew]
    exact ⟨now, seen, made, hPlan, hMade, hSeen⟩

theorem keeps_foldl {Q : V S.target → Prop} (rows : ∀ k, V k) (hRows : Q (rows S.target))
    (hKeep : ∀ p now seen planned done rows, S.plan p now seen = some planned → Q seen →
      Resolves planned done → Q (applyAll done rows S.target)) (acts : List (Act P τ)) :
    (acts.foldl step (start S rows)).Keeps Q := by
  induction acts using reverseRecOn with
  | nil => exact ⟨nofun, hRows, nofun, forall_mem_nil _⟩
  | append_singleton acts a ih =>
    rw [foldl_append, foldl_cons]
    exact ih.step hKeep a

end State

end Core.ReadCommitted
