import Mathlib.Data.List.Nodup

/-!
# Tables with a primary key

A list of rows with an auto-increment key; that keys are unique and below the next one are fields.
`save` writes a whole row back, `modify` is an `UPDATE … WHERE`.
-/

namespace Core

open List

class Row (ρ : Type) where
  key : ρ → Int

structure Table (ρ : Type) [Row ρ] where
  rows : List ρ
  next : Int
  nodup : (rows.map Row.key).Nodup
  next_pos : 0 < next
  key_range : ∀ r ∈ rows, 0 < Row.key r ∧ Row.key r < next

namespace Table

variable {ρ : Type} [Row ρ] {t : Table ρ} {f : ρ → ρ} {p : ρ → Bool} {k : Int}

def empty : Table ρ where
  rows := []
  next := 1
  nodup := List.nodup_nil
  next_pos := by decide
  key_range := by simp

def find? (t : Table ρ) (k : Int) : Option ρ :=
  t.rows.find? (fun r => decide (Row.key r = k))

theorem map_key_eq (hf : ∀ r, Row.key (f r) = Row.key r) (l : List ρ) :
    (l.map f).map Row.key = l.map Row.key := by
  rw [map_map]
  exact map_congr_left fun r _ => hf r

def mapRows (t : Table ρ) (f : ρ → ρ) (hf : ∀ r, Row.key (f r) = Row.key r) : Table ρ where
  rows := t.rows.map f
  next := t.next
  nodup := by rw [map_key_eq hf]; exact t.nodup
  next_pos := t.next_pos
  key_range := by
    intro r hr
    obtain ⟨x, hx, rfl⟩ := List.mem_map.mp hr
    rw [hf]
    exact t.key_range x hx

def modify (t : Table ρ) (p : ρ → Bool) (f : ρ → ρ) (hf : ∀ r, Row.key (f r) = Row.key r) :
    Table ρ :=
  t.mapRows (fun r => if p r then f r else r) (by intro r; split <;> simp [hf])

def save (t : Table ρ) (new : ρ) : Table ρ :=
  t.mapRows (fun r => if Row.key r = Row.key new then new else r)
    (by intro r; split <;> simp_all)

def insert (t : Table ρ) (new : Int → ρ) (hNew : ∀ k, Row.key (new k) = k) : Table ρ where
  rows := t.rows ++ [new t.next]
  next := t.next + 1
  nodup := by
    rw [List.map_append, List.nodup_append]
    refine ⟨t.nodup, by simp, ?_⟩
    intro a ha b hb
    obtain ⟨r, hr, rfl⟩ := List.mem_map.mp ha
    simp only [List.map_cons, List.map_nil, List.mem_singleton, hNew] at hb
    have := t.key_range r hr
    omega
  next_pos := by have := t.next_pos; omega
  key_range := by
    intro r hr
    have hPos := t.next_pos
    rcases List.mem_append.mp hr with h | h
    · have := t.key_range r h
      omega
    · rw [List.mem_singleton] at h
      rw [h, hNew]
      omega

def remove (t : Table ρ) (k : Int) : Table ρ where
  rows := t.rows.filter (fun r => decide (Row.key r ≠ k))
  next := t.next
  nodup := t.nodup.sublist (List.filter_sublist.map _)
  next_pos := t.next_pos
  key_range := fun r hr => t.key_range r (List.mem_of_mem_filter hr)

/-! ## Reading by key -/

theorem key_inj (t : Table ρ) {r x : ρ} (hr : r ∈ t.rows) (hx : x ∈ t.rows)
    (h : Row.key r = Row.key x) : r = x :=
  inj_on_of_nodup_map t.nodup hr hx h

theorem find?_eq_some {r : ρ} :
    t.find? k = some r ↔ r ∈ t.rows ∧ Row.key r = k := by
  constructor
  · intro h
    exact ⟨mem_of_find?_eq_some h, by simpa using find?_some h⟩
  · rintro ⟨hr, hk⟩
    cases hf : t.find? k with
    | none =>
      have := find?_eq_none.mp hf r hr
      simp [hk] at this
    | some x =>
      have hx : x ∈ t.rows := mem_of_find?_eq_some hf
      have hxk : Row.key x = k := by simpa using find?_some hf
      rw [t.key_inj hx hr (hxk.trans hk.symm)]

theorem find?_eq_none :
    t.find? k = none ↔ ∀ r ∈ t.rows, Row.key r ≠ k := by
  simp [find?, find?_eq_none]

theorem find?_key {r : ρ} (hr : r ∈ t.rows) : t.find? (Row.key r) = some r :=
  find?_eq_some.mpr ⟨hr, rfl⟩

theorem ext_rows {t u : Table ρ} (hRows : t.rows = u.rows) (hNext : t.next = u.next) : t = u := by
  cases t; cases u
  subst hRows hNext
  rfl

/-! ## Reading after a write -/

theorem mem_modify (hf : ∀ r, Row.key (f r) = Row.key r) {x : ρ} :
    x ∈ (t.modify p f hf).rows ↔ ∃ r ∈ t.rows, (if p r then f r else r) = x := mem_map

theorem find?_modify (hf : ∀ r, Row.key (f r) = Row.key r) (k : Int) :
    (t.modify p f hf).find? k = (t.find? k).map fun r => if p r then f r else r := by
  show (t.rows.map _).find? _ = (t.rows.find? _).map _
  rw [find?_map]
  congr 2
  funext r
  by_cases hp : p r <;> simp [hp, hf]

theorem modify_eq_self (hf : ∀ r, Row.key (f r) = Row.key r) (h : ∀ r, p r = true → f r = r) :
    t.modify p f hf = t := by
  refine ext_rows ?_ rfl
  refine map_id'' ?_ t.rows
  intro r
  split
  · next hp => rw [h r hp]
  · rfl

theorem modify_modify {f g : ρ → ρ} (hf : ∀ r, Row.key (f r) = Row.key r)
    (hg : ∀ r, Row.key (g r) = Row.key r) (hp : ∀ r, p (f r) = p r) :
    (t.modify p f hf).modify p g hg = t.modify p (g ∘ f) fun r => (hg (f r)).trans (hf r) := by
  refine ext_rows ?_ rfl
  show (t.rows.map _).map _ = t.rows.map _
  rw [map_map]
  refine map_congr_left ?_
  intro r _
  by_cases hr : p r <;> simp [hr, hp]

theorem mem_save {new x : ρ} (h : x ∈ (t.save new).rows) :
    (x = new ∧ ∃ r ∈ t.rows, Row.key r = Row.key new) ∨ (x ∈ t.rows ∧ Row.key x ≠ Row.key new) := by
  obtain ⟨r, hr, rfl⟩ := mem_map.mp h
  split
  · exact .inl ⟨rfl, r, hr, by assumption⟩
  · exact .inr ⟨hr, by assumption⟩

theorem mem_save_of_ne {new x : ρ} (hx : x ∈ t.rows) (hne : Row.key x ≠ Row.key new) :
    x ∈ (t.save new).rows :=
  mem_map.mpr ⟨x, hx, if_neg hne⟩

theorem mem_save_self {old new : ρ} (hOld : old ∈ t.rows) (hKey : Row.key old = Row.key new) :
    new ∈ (t.save new).rows :=
  mem_map.mpr ⟨old, hOld, if_pos hKey⟩

theorem find?_save_self {old new : ρ} (hOld : t.find? (Row.key new) = some old) :
    (t.save new).find? (Row.key new) = some new := by
  obtain ⟨hMem, hKey⟩ := find?_eq_some.mp hOld
  exact find?_key (mem_save_self hMem hKey)

theorem find?_save_of_ne {new : ρ} (hne : Row.key new ≠ k) :
    (t.save new).find? k = t.find? k := by
  cases h : t.find? k with
  | none =>
    rw [find?_eq_none] at h ⊢
    intro x hx
    rcases mem_save hx with ⟨rfl, _⟩ | ⟨hx, _⟩
    · exact hne
    · exact h x hx
  | some r =>
    obtain ⟨hr, hk⟩ := find?_eq_some.mp h
    exact find?_eq_some.mpr ⟨mem_save_of_ne hr (by rw [hk]; exact fun he => hne he.symm), hk⟩

theorem map_find?_save {β : Type} {new : ρ} {f : ρ → β}
    (h : (t.find? (Row.key new)).map f = some (f new)) (k : Int) :
    ((t.save new).find? k).map f = (t.find? k).map f := by
  by_cases hKey : Row.key new = k
  · subst hKey
    obtain ⟨old, hOld, -⟩ := Option.map_eq_some_iff.mp h
    rw [find?_save_self hOld, h]
    rfl
  · rw [find?_save_of_ne hKey]

theorem mem_insert {new : Int → ρ} (hNew : ∀ k, Row.key (new k) = k) {x : ρ} :
    x ∈ (t.insert new hNew).rows ↔ x ∈ t.rows ∨ x = new t.next := by
  simp [insert]

theorem find?_insert {new : Int → ρ} (hNew : ∀ k, Row.key (new k) = k) {r : ρ}
    (h : t.find? k = some r) : (t.insert new hNew).find? k = some r := by
  obtain ⟨hMem, hKey⟩ := find?_eq_some.mp h
  exact find?_eq_some.mpr ⟨(mem_insert hNew).mpr (.inl hMem), hKey⟩

theorem mem_remove {x : ρ} :
    x ∈ (t.remove k).rows ↔ x ∈ t.rows ∧ Row.key x ≠ k := by
  simp [remove]

end Table

end Core
