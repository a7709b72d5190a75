import Mathlib.Algebra.Ring.Nat
import NewApi.Core.Run
import NewApi.Go.Time

/-!
# The disk cache

Large request bodies and downloaded files go to files of one directory, and a counter says how much
they take.  `CleanupOldDiskCacheFiles` subtracts what it removes, but to close a body storage
subtracts its size in any case.  The size that a client declares may be so large that the sum which
is compared with the maximum wraps around; what is on disk are real files, far below that.
-/

namespace NewApi.Files.DiskCache

open Core Go List

structure CacheFile where
  isBody : Bool
  size : Nat
  modTime : Int
  onDisk : Bool := true
  closed : Bool := false

namespace CacheFile

def expired (maxAge now : Int) (f : CacheFile) : Bool := now - f.modTime > maxAge

def diskSize (f : CacheFile) : Nat := if f.onDisk then f.size else 0

end CacheFile

structure DiskCacheConfig where
  enabled : Bool
  thresholdBytes : Int
  maxSizeBytes : Int

structure State where
  currentDiskUsageBytes : Nat := 0
  files : List CacheFile := []

/-- `declared` is the size that is asked for: the content length of a request, or the size itself.
A body that turns out too long leaves nothing. -/
inductive Act where
  | create (isBody : Bool) (declared : Int) (size : Nat) (now : Int)
  | close (i : Nat)
  | cleanup (maxAge now : Int)

namespace State

variable (cfg : DiskCacheConfig) (s : State)

def decrementDiskFiles (size : Nat) : State :=
  { s with currentDiskUsageBytes := s.currentDiskUsageBytes - size }

def set (i : Nat) (f : CacheFile) : State := { s with files := s.files.set i f }

def isDiskCacheAvailable (requestSize : Int) : Bool :=
  cfg.enabled && int64 (s.currentDiskUsageBytes + requestSize) ≤ cfg.maxSizeBytes

def shouldUseDiskCache (dataSize : Int) : Bool :=
  cfg.enabled && cfg.thresholdBytes ≤ dataSize && s.isDiskCacheAvailable cfg dataSize

/-- File data is subtracted only if the file could be removed. -/
def close (i : Nat) : State :=
  match s.files[i]? with
  | none => s
  | some f =>
    let t := s.set i { f with onDisk := false, closed := true }
    if f.closed then s else if f.isBody || f.onDisk then t.decrementDiskFiles f.size else t

def cleanupFile (maxAge now : Int) (i : Nat) : State :=
  match s.files[i]? with
  | none => s
  | some f =>
    if f.onDisk && f.expired maxAge now then
      (s.set i { f with onDisk := false }).decrementDiskFiles f.size
    else s

def cleanupOldDiskCacheFiles (maxAge now : Int) : State :=
  (List.range s.files.length).foldl (cleanupFile · maxAge now) s

def step : Act → State
  | .create isBody declared size now =>
    if s.shouldUseDiskCache cfg declared then
      ⟨s.currentDiskUsageBytes + size, s.files ++ [{ isBody, size, modTime := now }]⟩
    else s
  | .close i => s.close i
  | .cleanup maxAge now => s.cleanupOldDiskCacheFiles maxAge now

end State

def system (cfg : DiskCacheConfig) : System State Act where
  Init s := s = {}
  Step s a t := t = s.step cfg a

/-! ## The counter -/

namespace State

variable {cfg : DiskCacheConfig} {s : State} {i : Nat} {f f' : CacheFile} {maxAge now : Int}

def diskUsage (s : State) : Nat := (s.files.map CacheFile.diskSize).sum

/-- The counter is the size of the files on disk, and open bodies have their files. -/
structure Exact (s : State) : Prop where
  counter : s.currentDiskUsageBytes = s.diskUsage
  bodies : ∀ f ∈ s.files, f.isBody → f.closed = false → f.onDisk

/-- No body storage is open that the cleanup finds too old. -/
def Unused (maxAge now : Int) (s : State) : Prop :=
  ∀ f ∈ s.files, f.expired maxAge now → f.isBody → f.closed

/-- The size that is asked for and what is on disk add up within an `int64`. -/
def Fits (requestSize : Int) (s : State) : Prop :=
  -2 ^ 63 ≤ s.diskUsage + requestSize ∧ s.diskUsage + requestSize < 2 ^ 63

def Safe (s : State) : Act → Prop
  | .create _ declared _ _ => s.Fits declared
  | .close _ => True
  | .cleanup maxAge now => s.Unused maxAge now

theorem diskUsage_set (hf : s.files[i]? = some f) (f' : CacheFile) :
    (s.set i f').diskUsage + f.diskSize = s.diskUsage + f'.diskSize := by
  obtain ⟨hi, rfl⟩ := List.getElem?_eq_some_iff.mp hf
  have hOld := List.sum_set (s.files.map CacheFile.diskSize) i s.files[i].diskSize
  rw [← List.map_set, List.set_getElem_self] at hOld
  simp only [diskUsage, set, List.map_set, List.sum_set, hOld, List.length_map, hi, if_true]
  omega

theorem Exact.decrement (h : s.Exact) (hf : s.files[i]? = some f) (hOff : f'.onDisk = false)
    (hBody : f'.isBody → f'.closed) : ((s.set i f').decrementDiskFiles f.diskSize).Exact where
  counter := by
    have hSet := diskUsage_set hf f'
    rw [show f'.diskSize = 0 by simp [CacheFile.diskSize, hOff], ← h.counter] at hSet
    exact Nat.sub_eq_of_eq_add hSet.symm
  bodies := by
    intro g hg
    rcases mem_or_eq_of_mem_set hg with hg | rfl
    · exact h.bodies g hg
    · exact fun hg hOpen => absurd (hBody hg) (Bool.eq_false_iff.mp hOpen)

theorem Exact.close (h : s.Exact) (i : Nat) : (s.close i).Exact := by
  unfold State.close
  split
  · exact h
  · next f hf =>
    have hClose :
        ((s.set i { f with onDisk := false, closed := true }).decrementDiskFiles _).Exact :=
      h.decrement hf rfl fun _ => rfl
    split_ifs with hClosed hCounted
    · exact h
    · have hOn : f.onDisk := by
        rcases Bool.or_eq_true_iff.mp hCounted with hBody | hOn
        · exact h.bodies f (mem_of_getElem? hf) hBody (Bool.eq_false_iff.mpr hClosed)
        · exact hOn
      rwa [CacheFile.diskSize, if_pos hOn] at hClose
    · rwa [CacheFile.diskSize, if_neg fun hOn => hCounted (by simp [hOn])] at hClose

theorem Exact.cleanupFile (h : s.Exact) (hUnused : s.Unused maxAge now) (i : Nat) :
    (s.cleanupFile maxAge now i).Exact ∧ (s.cleanupFile maxAge now i).Unused maxAge now := by
  unfold State.cleanupFile
  split
  · exact ⟨h, hUnused⟩
  · next f hf =>
    split_ifs with hRemove
    · obtain ⟨hOn, hExpired⟩ := Bool.and_eq_true_iff.mp hRemove
      have hClosed := hUnused f (mem_of_getElem? hf) hExpired
      have hSize : f.diskSize = f.size := if_pos hOn
      refine ⟨hSize ▸ h.decrement hf rfl hClosed, ?_⟩
      intro g hg
      rcases mem_or_eq_of_mem_set hg with hg | rfl
      · exact hUnused g hg
      · exact fun _ => hClosed
    · exact ⟨h, hUnused⟩

theorem Exact.step (h : s.Exact) {a : Act} (hSafe : s.Safe a) : (s.step cfg a).Exact := by
  cases a with
  | create isBody declared size now =>
    simp only [State.step]
    split_ifs
    · constructor
      · simpa [diskUsage, CacheFile.diskSize] using h.counter
      · simpa [or_imp, forall_and] using h.bodies
    · exact h
  | close i => exact h.close i
  | cleanup maxAge now =>
    have hAll : (s.cleanupOldDiskCacheFiles maxAge now).Exact ∧ _ :=
      foldlRecOn (motive := fun t : State => t.Exact ∧ t.Unused maxAge now) _ _ ⟨h, hSafe⟩
        fun t ht i _ => ht.1.cleanupFile ht.2 i
    exact hAll.1

/-- **The counter is the size of the files on disk, and what is let in is decided by that size**, as
long as no cleanup removes the file of an open body storage and no declared size overflows. -/
theorem usage_eq_diskUsage (h : ((system cfg).only Safe).Reach s) :
    s.currentDiskUsageBytes = s.diskUsage ∧ ∀ requestSize, s.Fits requestSize →
      s.isDiskCacheAvailable cfg requestSize =
        (cfg.enabled && s.diskUsage + requestSize ≤ cfg.maxSizeBytes) := by
  have hExact : s.Exact := by
    refine h.invariant ?_ ?_
    · rintro s rfl
      exact ⟨rfl, by simp⟩
    · rintro s a t hs ⟨hSafe, rfl⟩
      exact hs.step hSafe
  refine ⟨hExact.counter, fun requestSize hFits => ?_⟩
  rw [isDiskCacheAvailable, hExact.counter, int64, Int.bmod_eq_of_le hFits.1 hFits.2]

def demo : DiskCacheConfig := ⟨true, 0, 100⟩

/-- A body storage that is closed and a file that is cleaned up. -/
def tidyRun : State :=
  [.create true 40 40 0, .create false 60 60 10, .close 0, .cleanup 5 20].foldl (State.step demo) {}

theorem usage_eq_diskUsage_tidy :
    tidyRun.currentDiskUsageBytes = 0 ∧ tidyRun.isDiskCacheAvailable demo 100 = true := by
  have hNext {s : State} (h : ((system demo).only Safe).Reach s) (a : Act) (hSafe : s.Safe a) :
      ((system demo).only Safe).Reach (s.step demo a) := .step h ⟨hSafe, rfl⟩
  have hBody := hNext (.init rfl) (.create true 40 40 0) ⟨by decide, by decide⟩
  have hFile := hNext hBody (.create false 60 60 10) ⟨by decide, by decide⟩
  have hReach := hNext (hNext hFile (.close 0) trivial) (.cleanup 5 20) (by
    simp only [Safe, Unused]
    decide)
  obtain ⟨hCounter, hAvailable⟩ := usage_eq_diskUsage hReach
  exact ⟨hCounter.trans (by decide),
    (hAvailable 100 ⟨by decide, by decide⟩).trans (by decide)⟩

def demoRun : State :=
  [.create true 40 40 0, .create false 60 60 10, .cleanup 5 10, .close 0].foldl (State.step demo) {}

/-- **What is cleaned up and then closed is subtracted twice**, and a size close to `2 ^ 63` is let
in whatever is on disk. -/
theorem usage_after_cleanup :
    demoRun.diskUsage = 60 ∧ demoRun.currentDiskUsageBytes = 20 ∧
      demoRun.isDiskCacheAvailable demo (2 ^ 63 - 1) = true := by
  decide

end State

end NewApi.Files.DiskCache
