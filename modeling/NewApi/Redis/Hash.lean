import NewApi.Go.Strconv

/-!
# A hash of Redis

One key that holds a hash or nothing.  A command that writes a field makes a key that does not
exist, without a lifetime.  A command of a transaction that fails does not stop the others.
-/

namespace Redis

open Function

structure Hash where
  field : String → Option String
  lifetime : Option Nat

abbrev Key := Option Hash

/-- The fields of a key that does not exist. -/
def Key.hash (key : Key) : Hash := key.getD ⟨fun _ => none, none⟩

def Key.Has (key : Key) (name : String) : Prop := (key.hash.field name).isSome

instance (key : Key) (name : String) : Decidable (key.Has name) :=
  inferInstanceAs (Decidable (_ = true))

inductive Command where
  | hSet (data : List (String × String))
  | hIncrBy (name : String) (delta : Int)
  | expire (seconds : Nat)
  | del

def integer? (s : String) : Option Int :=
  match Go.parseInt s with
  | none => none
  | some i => if toString i = s then some i else none

def setFields (field : String → Option String) (data : List (String × String)) :
    String → Option String :=
  data.foldl (fun field entry => Function.update field entry.1 (some entry.2)) field

/-- The new value of a field that is counted up, or none if it is no number or gets too large. -/
def increased (old : Option String) (delta : Int) : Option String :=
  ((match old with
    | none => some 0
    | some s => integer? s).bind fun i => Go.int64? (i + delta)).map toString

def Command.run (key : Key) : Command → Key
  | .hSet [] => key
  | .hSet data => some { key.hash with field := setFields key.hash.field data }
  | .hIncrBy name delta =>
    match increased (key.hash.field name) delta with
    | none => key
    | some value => some { key.hash with field := Function.update key.hash.field name (some value) }
  | .expire seconds => key.map fun hash => { hash with lifetime := some (seconds * 1000) }
  | .del => none

def exec (key : Key) (commands : List Command) : Key := commands.foldl Command.run key

def ttl : Key → Int
  | none => -2
  | some ⟨_, none⟩ => -1
  | some ⟨_, some milliseconds⟩ => (milliseconds + 500) / 1000

def elapse (milliseconds : Nat) : Key → Key
  | none => none
  | some ⟨field, none⟩ => some ⟨field, none⟩
  | some ⟨field, some left⟩ =>
    if left ≤ milliseconds then none else some ⟨field, some (left - milliseconds)⟩

/-! ## What happens to the fields -/

variable {key : Key} {name : String}

theorem isSome_of_has (h : key.Has name) : key.isSome = true := by
  cases key with
  | none => exact h
  | some hash => rfl

theorem setFields_isSome (field : String → Option String) (data : List (String × String)) :
    (setFields field data name).isSome = true ↔
      name ∈ data.map Prod.fst ∨ (field name).isSome = true := by
  induction data generalizing field with
  | nil => simp [setFields]
  | cons entry data ih =>
    have hStep : setFields field (entry :: data) =
        setFields (update field entry.1 (some entry.2)) data := rfl
    rw [hStep, ih, List.map_cons, List.mem_cons]
    by_cases hName : name = entry.1
    · subst hName
      rw [update_self]
      exact iff_of_true (.inr rfl) (.inl (.inl rfl))
    rw [update_of_ne hName]
    constructor
    · rintro (hMem | hOld)
      · exact .inl (.inr hMem)
      · exact .inr hOld
    · rintro ((hEq | hMem) | hOld)
      · exact absurd hEq hName
      · exact .inl hMem
      · exact .inr hOld

variable (key name) in
theorem has_hSet (data : List (String × String)) (hData : data ≠ []) :
    ((Command.hSet data).run key).Has name ↔ name ∈ data.map Prod.fst ∨ key.Has name := by
  cases data with
  | nil => exact absurd rfl hData
  | cons entry data => exact setFields_isSome _ _

theorem has_hIncrBy (counter : String) (delta : Int)
    (hSome : (increased (key.hash.field counter) delta).isSome) :
    ((Command.hIncrBy counter delta).run key).Has name ↔ name = counter ∨ key.Has name := by
  obtain ⟨value, hValue⟩ := Option.isSome_iff_exists.mp hSome
  have hRun : (Command.hIncrBy counter delta).run key =
      some { key.hash with field := update key.hash.field counter (some value) } := by
    simp only [Command.run, hValue]
  rw [hRun]
  show (update key.hash.field counter (some value) name).isSome = true ↔ _
  by_cases hName : name = counter
  · subst hName
    rw [update_self]
    exact iff_of_true rfl (.inl rfl)
  · rw [update_of_ne hName]
    exact ⟨.inr, fun h => h.resolve_left hName⟩

theorem has_expire (seconds : Nat) : ((Command.expire seconds).run key).Has name ↔ key.Has name := by
  cases key <;> exact Iff.rfl

variable (key) in
theorem has_elapse (milliseconds : Nat) :
    elapse milliseconds key = none ∨
      ((elapse milliseconds key).isSome = key.isSome ∧
        ∀ name, (elapse milliseconds key).Has name ↔ key.Has name) := by
  rcases key with _ | ⟨field, _ | left⟩
  · exact .inl rfl
  · exact .inr ⟨rfl, fun _ => Iff.rfl⟩
  by_cases hLeft : left ≤ milliseconds
  · exact .inl (if_pos hLeft)
  have hEq : elapse milliseconds (some ⟨field, some left⟩) =
      some ⟨field, some (left - milliseconds)⟩ := if_neg hLeft
  rw [hEq]
  exact .inr ⟨rfl, fun _ => Iff.rfl⟩

end Redis
