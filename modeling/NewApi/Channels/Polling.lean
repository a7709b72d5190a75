import NewApi.Channels.Keys

/-!
# Taking turns among the keys of a channel

With the memory cache `GetNextEnabledKey` reads and moves the index of the cached channel, under a
lock; the caller's own channel may be a copy with any index.  `polled_in_turn` says which keys as
many calls as there are enabled keys return.
-/

namespace NewApi.Channels

open Core List

/-! ## Calls one after the other -/

def pollCached (unmarshal : Unmarshal) (info : ChannelInfo) (ch : Channel) :
    Except NewAPIError KeyChoice × ChannelInfo :=
  let result := ch.getNextEnabledKey unmarshal (.ok info)
  match result with
  | .ok ⟨_, _, some next⟩ => (result, { info with multiKeyPollingIndex := next })
  | _ => (result, info)

def pollAll (unmarshal : Unmarshal) : ChannelInfo → List Channel →
    List (Except NewAPIError KeyChoice)
  | _, [] => []
  | info, ch :: rest =>
    (pollCached unmarshal info ch).1 :: pollAll unmarshal (pollCached unmarshal info ch).2 rest

def enabledIdx (info : ChannelInfo) (n : Nat) : List Nat :=
  (range n).filter fun i => info.getStatus i = .enabled

def keyChoice (keys : List String) (idx : Nat) : KeyChoice :=
  ⟨keys.getD idx "", idx, some ((idx + 1) % keys.length)⟩

def pollingStart (info : ChannelInfo) (n : Nat) : Nat :=
  if info.multiKeyPollingIndex < 0 ∨ info.multiKeyPollingIndex ≥ n then 0
  else info.multiKeyPollingIndex.toNat

def keyQueue (info : ChannelInfo) (n : Nat) : List Nat :=
  queue (fun i => info.getStatus i = .enabled) n (pollingStart info n)

theorem pollKeys_eq {info : ChannelInfo} {keys : List String} {idx : Nat}
    (h : ((range keys.length).rotate (pollingStart info keys.length)).find?
      (fun i => info.getStatus i = .enabled) = some idx) :
    pollKeys info keys = keyChoice keys idx := by
  rw [range_rotate, pollingStart] at h
  simp only [pollKeys, h, keyChoice]

variable {unmarshal : Unmarshal} {keys : List String} {info : ChannelInfo}

section
variable {ch : Channel} (hMulti : ch.channelInfo.isMultiKey = true)
  (hKeys : ch.getKeys unmarshal = keys)
include hMulti hKeys

theorem pollCached_of_queue {idx : Nat} {rest : List Nat}
    (hQueue : keyQueue info keys.length = idx :: rest) :
    (pollCached unmarshal info ch).1 = .ok (keyChoice keys idx) ∧
      ∃ next : Int, (pollCached unmarshal info ch).2 =
          { info with multiKeyPollingIndex := next } ∧
        keyQueue { info with multiKeyPollingIndex := next } keys.length = rest ++ [idx] := by
  have hFind : ((range keys.length).rotate (pollingStart info keys.length)).find?
      (fun i => info.getStatus i = .enabled) = some idx := by
    rw [← head?_filter]
    exact congrArg head? hQueue
  have hEnabled := find?_some hFind
  have hLt : idx < keys.length := mem_range.mp (mem_rotate.mp (mem_of_find?_eq_some hFind))
  have hResult : ch.getNextEnabledKey unmarshal (.ok info) = .ok (keyChoice keys idx) := by
    have hSome : ¬ ∀ i < keys.length, info.getStatus i ≠ .enabled := fun hNone =>
      hNone idx hLt (of_decide_eq_true hEnabled)
    simp only [Channel.getNextEnabledKey, hMulti, hKeys, Bool.not_true, Bool.false_eq_true, if_false,
      if_neg (show ¬ keys.length = 0 by omega), if_neg hSome, pollKeys_eq hFind]
  have hNext : (idx + 1) % keys.length < keys.length := Nat.mod_lt _ (by omega)
  obtain ⟨rest', hRest, hTurn⟩ := queue_next hFind
  obtain ⟨-, rfl⟩ := cons.inj (hQueue.symm.trans hRest)
  refine ⟨?_, ((idx + 1) % keys.length : Nat), ?_, ?_⟩
  · simp only [pollCached, hResult, keyChoice]
  · simp only [pollCached, hResult, keyChoice]
  have hStart : pollingStart { info with multiKeyPollingIndex := ((idx + 1) % keys.length : Nat) }
      keys.length = (idx + 1) % keys.length := if_neg (by dsimp only; omega)
  rw [keyQueue, hStart]
  exact hTurn

theorem pollCached_of_none (hNone : enabledIdx info keys.length = []) :
    ∃ text, pollCached unmarshal info ch = (.error (noAvailableKey text), info) := by
  have hAll : ∀ i < keys.length, info.getStatus i ≠ .enabled := by
    intro i hi
    simpa using filter_eq_nil_iff.mp hNone i (mem_range.mpr hi)
  by_cases hEmpty : keys.length = 0
  · exact ⟨"no keys available",
      by simp [pollCached, Channel.getNextEnabledKey, hMulti, hKeys, hEmpty]⟩
  · refine ⟨"no enabled keys", ?_⟩
    simp only [pollCached, Channel.getNextEnabledKey, hMulti, hKeys, Bool.not_true,
      Bool.false_eq_true, if_false, if_neg hEmpty, if_pos hAll]

end

/-- All calls are on one multi-key channel whose keys stay as they are. -/
def Polls (unmarshal : Unmarshal) (keys : List String) (calls : List Channel) : Prop :=
  ∀ ch ∈ calls, ch.channelInfo.isMultiKey = true ∧ ch.getKeys unmarshal = keys

theorem pollAll_eq_take {calls : List Channel} (hCalls : Polls unmarshal keys calls)
    (hLength : calls.length ≤ (keyQueue info keys.length).length) :
    pollAll unmarshal info calls =
      ((keyQueue info keys.length).take calls.length).map fun idx => .ok (keyChoice keys idx) := by
  induction calls generalizing info with
  | nil => rfl
  | cons ch calls ih =>
    obtain ⟨⟨hMulti, hKeys⟩, hRest⟩ := forall_mem_cons.mp hCalls
    obtain ⟨idx, rest, hQueue⟩ := exists_cons_of_length_pos (lt_of_lt_of_le (by simp) hLength)
    obtain ⟨hFirst, next, hInfo, hAfter⟩ := pollCached_of_queue hMulti hKeys hQueue
    rw [hQueue] at hLength
    have hLater : calls.length ≤ rest.length := Nat.le_of_succ_le_succ hLength
    rw [pollAll, hFirst, hInfo, ih hRest (by rw [hAfter, length_append]; omega), hAfter, hQueue,
      take_append_of_le_length hLater]
    rfl

/-- **The enabled keys take turns**: as many calls as there are enabled keys return each of them
once, in cyclic order, from any stored index. -/
theorem polled_in_turn (unmarshal : Unmarshal) (keys : List String) (info : ChannelInfo)
    (calls : List Channel) (hCalls : Polls unmarshal keys calls) :
    (enabledIdx info keys.length = [] → ∀ result ∈ pollAll unmarshal info calls,
      ∃ text, result = .error (noAvailableKey text)) ∧
    (calls.length = (enabledIdx info keys.length).length → ∃ k, pollAll unmarshal info calls =
        ((enabledIdx info keys.length).rotate k).map fun idx => .ok (keyChoice keys idx)) := by
  refine ⟨?_, ?_⟩
  · intro hNone
    induction calls with
    | nil => intro result hResult; cases hResult
    | cons ch calls ih =>
      obtain ⟨⟨hMulti, hKeys⟩, hRest⟩ := forall_mem_cons.mp hCalls
      obtain ⟨text, hCall⟩ := pollCached_of_none hMulti hKeys hNone
      rw [pollAll, hCall]
      exact forall_mem_cons.mpr ⟨⟨text, rfl⟩, ih hRest⟩
  · intro hLength
    obtain ⟨k, hk⟩ : ∃ k, keyQueue info keys.length = (enabledIdx info keys.length).rotate k :=
      queue_isRotated _ _ _
    refine ⟨k, ?_⟩
    rw [pollAll_eq_take hCalls (by rw [hk, length_rotate, hLength]), hk,
      take_of_length_le (by rw [length_rotate, hLength])]

theorem polled_in_turn_pair : ∃ k,
    pollAll (fun _ => none) { multiKeyPollingIndex := 7 } [pairChannel ∅, pairChannel ∅] =
      ([0, 1].rotate k).map fun idx => .ok (keyChoice ["key-1", "key-2"] idx) :=
  (polled_in_turn (fun _ => none) ["key-1", "key-2"] { multiKeyPollingIndex := 7 }
    [pairChannel ∅, pairChannel ∅] (by unfold Polls; decide)).2 rfl

end NewApi.Channels
