import NewApi.Files.DiskCache

/-!
# Request bodies

A body is kept in memory or in a file, which have the same state and differ in how they read it.
Sizes and positions are far from the bounds of an `int64`.
-/

namespace NewApi.Files

open DiskCache

inductive Whence where
  | seekStart | seekCurrent | seekEnd

/-- The calls of a `BodyStorage`; a buffer is given by its length. -/
inductive StorageCall where
  | read (n : Nat)
  | seek (offset : Int) (whence : Whence)
  | bytes
  | size
  | close

inductive Answer (β : Type) where
  | data (bytes : List β)
  | number (n : Int)
  | closed
  | error

/-- `memoryStorage` with its reader, or `diskStorage` with its file. -/
structure BodyStorage (β : Type) where
  isDisk : Bool
  data : List β
  pos : Nat := 0
  size : Nat := data.length
  closed : Bool := false
  size_eq : size = data.length := by rfl

namespace BodyStorage

variable {β : Type} (s : BodyStorage β)

def read (n : Nat) : Answer β × BodyStorage β :=
  let chunk := (s.data.drop s.pos).take n
  -- the reader compares its position, the file has nothing for the buffer
  let eof := if s.isDisk then decide (0 < n) && chunk.isEmpty else decide (s.data.length ≤ s.pos)
  if eof then (.error, s) else (.data chunk, { s with pos := s.pos + chunk.length })

def target (offset : Int) : Whence → Int
  | .seekStart => offset
  | .seekCurrent => s.pos + offset
  | .seekEnd => s.data.length + offset

def seek (offset : Int) (whence : Whence) : Answer β × BodyStorage β :=
  let target := s.target offset whence
  if target < 0 then (.error, s) else (.number target, { s with pos := target.toNat })

def bytes : Answer β × BodyStorage β :=
  if s.isDisk then
    -- `io.ReadFull` from the start, after which the position is restored
    let data := s.data.take s.size
    if data.length < s.size then (.error, { s with pos := data.length }) else (.data data, s)
  else (.data s.data, s)

def step : StorageCall → Answer β × BodyStorage β
  | .read n => if s.closed then (.error, s) else s.read n
  | .seek offset whence => if s.closed then (.error, s) else s.seek offset whence
  | .bytes => if s.closed then (.error, s) else s.bytes
  | .size => (.number s.size, s)
  | .close => (.closed, { s with closed := true })

def run (s : BodyStorage β) : List StorageCall → List (Answer β) × BodyStorage β
  | [] => ([], s)
  | call :: calls => ((s.step call).1 :: ((s.step call).2.run calls).1, ((s.step call).2.run calls).2)

end BodyStorage

def newStorage {β : Type} (isDisk : Bool) (data : List β) : BodyStorage β := { isDisk, data }

/-- The declared length decides first, and then the length that was read. -/
def createBodyStorageFromReader {β : Type} (cfg : DiskCacheConfig) (cache : State)
    (content : List β) (contentLength maxBytes : Int) : Option (BodyStorage β) :=
  let data := content.take (maxBytes + 1).toNat
  if maxBytes < data.length then none
  else
    let isDisk := decide (0 < contentLength) && cache.shouldUseDiskCache cfg contentLength ||
      cache.shouldUseDiskCache cfg data.length
    some (newStorage isDisk data)

/-! ## Both storages -/

namespace BodyStorage

variable {β : Type} {s : BodyStorage β}

def kept (s : BodyStorage β) (isDisk : Bool) : BodyStorage β := { s with isDisk }

theorem read_eq {n : Nat} (hn : 0 < n) :
    s.read n = if s.data.length ≤ s.pos then (.error, s)
      else (.data ((s.data.drop s.pos).take n),
        { s with pos := s.pos + ((s.data.drop s.pos).take n).length }) := by
  have hEmpty : ((s.data.drop s.pos).take n).isEmpty = decide (s.data.length ≤ s.pos) := by
    rw [Bool.eq_iff_iff]
    simp [Nat.ne_of_gt hn]
  simp [read, hn, hEmpty]

theorem bytes_eq : s.bytes = (.data s.data, s) := by
  simp [bytes, s.size_eq]

theorem step_kept {call : StorageCall} (h : call ≠ .read 0) (isDisk : Bool) :
    (s.kept isDisk).step call = ((s.step call).1, (s.step call).2.kept isDisk) := by
  have hKept : (s.kept isDisk).closed = s.closed := rfl
  cases call with simp only [step, hKept]
  | size | close => rfl
  | read n =>
    have hn : 0 < n := Nat.pos_of_ne_zero fun hZero => h (by rw [hZero])
    rw [read_eq hn, read_eq hn]
    by_cases hClosed : s.closed <;> by_cases hEnd : s.data.length ≤ s.pos <;>
      simp [hClosed, hEnd, kept]
  | seek offset whence =>
    have hTarget : (s.kept isDisk).target offset whence = s.target offset whence := rfl
    simp only [seek, hTarget]
    split
    · rfl
    · split <;> rfl
  | bytes =>
    rw [bytes_eq, bytes_eq]
    by_cases hClosed : s.closed <;> simp [hClosed, kept]

theorem run_kept {calls : List StorageCall} (h : .read 0 ∉ calls) (isDisk : Bool) :
    (s.kept isDisk).run calls = ((s.run calls).1, (s.run calls).2.kept isDisk) := by
  induction calls generalizing s with
  | nil => rfl
  | cons call calls ih =>
    rw [List.mem_cons, not_or, eq_comm] at h
    simp only [run, step_kept h.1, ih h.2]

theorem step_bytes : (s.step .bytes).2 = s := by
  rw [step, bytes_eq]
  split <;> rfl

end BodyStorage

/-- **Memory or disk makes no difference**, and `Bytes` leaves the storage as it is. -/
theorem bodyStorage_agrees {β : Type} (content : List β) (maxBytes contentLength : Int)
    (cfg : DiskCacheConfig) (cache : State) :
    (content.length ≤ maxBytes → ∃ s,
      createBodyStorageFromReader cfg cache content contentLength maxBytes = some s ∧
      ∀ calls : List StorageCall, .read 0 ∉ calls →
        (s.run calls).1 = ((newStorage false content).run calls).1 ∧
          ((s.run calls).2.step .bytes).2 = (s.run calls).2) ∧
    (maxBytes < content.length →
      createBodyStorageFromReader cfg cache content contentLength maxBytes = none) := by
  unfold createBodyStorageFromReader
  constructor
  · intro hFits
    have hData : content.take (maxBytes + 1).toNat = content := List.take_of_length_le (by omega)
    rw [hData]
    dsimp only
    rw [if_neg (by omega)]
    refine ⟨_, rfl, fun calls hCalls => ⟨?_, BodyStorage.step_bytes⟩⟩
    change (((newStorage false content).kept _).run calls).1 = _
    rw [BodyStorage.run_kept hCalls]
  · intro hLong
    dsimp only
    rw [if_pos]
    rw [List.length_take]
    omega

end NewApi.Files
