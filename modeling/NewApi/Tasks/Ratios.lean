import Mathlib.Algebra.Order.BigOperators.GroupWithZero.List
import Mathlib.Data.List.Perm.Subperm
import Mathlib.Tactic.LinearCombination
import NewApi.Billing.Price

/-!
# The other ratios of a task

`RelayTaskSubmit` multiplies the price of a task with other ratios and cuts every product to an
integer.  A remix takes over the ratios of the original task, but they are stored in the price that
`ModelPriceHelperPerCall` makes anew.
-/

namespace NewApi.Tasks

open Billing Go List

/-! ## Products that are cut -/

/-- The quota of `RelayTaskSubmit`; `patched` models are in `TaskPricePatches`. -/
def applyRatios (patched : Bool) (ratios : List ℚ) (quota : Int) : Int :=
  if patched then quota
  else ratios.foldl (fun quota ra => if ra ≠ 1 then Decimal.intPart (quota * ra) else quota) quota

def recalcQuotaFromRatios (otherRatios ratios : List ℚ) (quota : Int) : Int :=
  let baseQuota := otherRatios.foldl (fun quota ra =>
    if ra ≠ 1 ∧ ra > 0 then Decimal.intPart (quota / ra) else quota) quota
  Decimal.intPart (ratios.foldl (fun result ra => if ra ≠ 1 then result * ra else result) baseQuota)

def Exact (factor : ℚ → ℚ) (quota : ℚ) (ratios : List ℚ) : Prop :=
  ∀ part : List ℚ, part.Subperm ratios → ∃ n : Int, quota * (part.map factor).prod = n

theorem Exact.perm {factor : ℚ → ℚ} {quota : ℚ} {ratios other : List ℚ}
    (h : Exact factor quota ratios) (hPerm : other.Perm ratios) : Exact factor quota other :=
  fun part hPart => h part (hPart.trans hPerm.subperm)

theorem intPart_intCast (n : Int) : Decimal.intPart n = n := by
  unfold Decimal.intPart
  split
  · exact Int.floor_intCast n
  · rw [← Int.cast_neg, Int.floor_intCast, Int.neg_neg]

theorem Exact.cons {factor : ℚ → ℚ} {quota ra : ℚ} {ratios : List ℚ}
    (h : Exact factor quota (ra :: ratios)) :
    ∃ n : Int, quota * factor ra = n ∧ Exact factor n ratios := by
  obtain ⟨n, hn⟩ := h [ra] (singleton_subperm_iff.mpr mem_cons_self)
  rw [map_singleton, prod_singleton] at hn
  refine ⟨n, hn, fun part hPart => ?_⟩
  rw [← hn, mul_assoc, ← prod_cons]
  exact h _ ((subperm_cons ra).mpr hPart)

theorem prod_map_pos {factor : ℚ → ℚ} {ratios : List ℚ} (h : ∀ ra ∈ ratios, 0 < factor ra) :
    0 < (ratios.map factor).prod :=
  prod_pos (forall_mem_map.mpr h)

theorem foldl_mul (ratios : List ℚ) (x : ℚ) : ratios.foldl (· * ·) x = x * ratios.prod := by
  rw [prod_eq_foldl]
  nth_rewrite 1 [← mul_one x]
  exact foldl_assoc

theorem prod_map_inv_mul {ratios : List ℚ} (hPos : ∀ ra ∈ ratios, 0 < ra) :
    (ratios.map (·⁻¹)).prod * ratios.prod = 1 := by
  rw [← prod_inv]
  exact inv_mul_cancel₀ (prod_pos hPos).ne'

/-- What is exact with all factors applied is exact when they are taken back one by one. -/
theorem Exact.invert {f g : ℚ → ℚ} {quota quota' : ℚ} {ratios : List ℚ} (h : Exact f quota ratios)
    (hInv : ∀ ra ∈ ratios, f ra * g ra = 1) (hQuota : quota' = quota * (ratios.map f).prod) :
    Exact g quota' ratios := by
  intro part hPart
  obtain ⟨same, hSame, hSub⟩ := hPart
  obtain ⟨rest, hRest⟩ := hSub.exists_perm_append
  have hSplit := hRest.trans (hSame.append_right rest)
  obtain ⟨n, hn⟩ := h rest ((sublist_append_right part rest).subperm.trans hSplit.symm.subperm)
  have hPart : (part.map f).prod * (part.map g).prod = 1 := by
    rw [← prod_map_mul, prod_eq_one]
    intro x hx
    obtain ⟨ra, hRa, rfl⟩ := mem_map.mp hx
    exact hInv ra (hSplit.symm.subset (mem_append_left rest hRa))
  refine ⟨n, ?_⟩
  rw [hQuota, ← hn, (hSplit.map f).prod_eq, map_append, prod_append]
  linear_combination quota * (rest.map f).prod * hPart

section Cut

variable {step : Int → ℚ → Int} {factor : ℚ → ℚ} {ratios : List ℚ}
  (hStep : ∀ quota, ∀ ra ∈ ratios, step quota ra = Decimal.intPart (quota * factor ra))
  (hFactor : ∀ ra ∈ ratios, 0 < factor ra)
include hStep hFactor

theorem foldl_cut_le {quota : Int} (hQuota : 0 ≤ quota) :
    0 ≤ ratios.foldl step quota ∧
      ((ratios.foldl step quota : Int) : ℚ) ≤ quota * (ratios.map factor).prod := by
  induction ratios generalizing quota with
  | nil => simpa using hQuota
  | cons ra rest ih =>
    have hRa := hFactor ra mem_cons_self
    have hCut : 0 ≤ (quota : ℚ) * factor ra := mul_nonneg (Int.cast_nonneg hQuota) hRa.le
    have hPos := prod_map_pos fun x hx => hFactor x (mem_cons_of_mem ra hx)
    rw [foldl_cons, hStep quota ra mem_cons_self, Decimal.intPart_of_nonneg hCut]
    obtain ⟨hLow, hHigh⟩ := ih (fun q x hx => hStep q x (mem_cons_of_mem ra hx))
      (fun x hx => hFactor x (mem_cons_of_mem ra hx)) (Int.floor_nonneg.mpr hCut)
    refine ⟨hLow, hHigh.trans ?_⟩
    rw [map_cons, prod_cons, ← mul_assoc]
    exact mul_le_mul_of_nonneg_right (Int.floor_le _) hPos.le

/-- **A part that is never cut can be split off.** -/
theorem foldl_add_exact {whole rest : Int} (hWhole : 0 ≤ whole) (hRest : 0 ≤ rest)
    (h : Exact factor whole ratios) :
    ((ratios.foldl step (whole + rest) : Int) : ℚ) =
      whole * (ratios.map factor).prod + (ratios.foldl step rest : Int) := by
  induction ratios generalizing whole rest with
  | nil => simp
  | cons ra ratios ih =>
    have hRa := hFactor ra mem_cons_self
    obtain ⟨n, hn, hExact⟩ := h.cons
    have hn0 : 0 ≤ n := by
      have : (0 : ℚ) ≤ n := hn ▸ mul_nonneg (Int.cast_nonneg hWhole) hRa.le
      exact_mod_cast this
    have hCut : 0 ≤ (rest : ℚ) * factor ra := mul_nonneg (Int.cast_nonneg hRest) hRa.le
    have hSum : step (whole + rest) ra = n + step rest ra := by
      rw [hStep _ ra mem_cons_self, hStep _ ra mem_cons_self, Decimal.intPart_of_nonneg hCut,
        ← Int.floor_intCast_add, ← hn]
      push_cast
      rw [add_mul, Decimal.intPart_of_nonneg
        (add_nonneg (mul_nonneg (Int.cast_nonneg hWhole) hRa.le) hCut)]
    have hLeft : 0 ≤ step rest ra := by
      rw [hStep _ ra mem_cons_self, Decimal.intPart_of_nonneg hCut]
      exact Int.floor_nonneg.mpr hCut
    rw [foldl_cons, foldl_cons, hSum, ih (fun q x hx => hStep q x (mem_cons_of_mem ra hx))
      (fun x hx => hFactor x (mem_cons_of_mem ra hx)) hn0 hLeft hExact, ← hn, map_cons, prod_cons,
      mul_assoc]

theorem foldl_exact {quota : Int} (hQuota : 0 ≤ quota) (h : Exact factor quota ratios) :
    ((ratios.foldl step quota : Int) : ℚ) = quota * (ratios.map factor).prod := by
  obtain ⟨hLow, hHigh⟩ := foldl_cut_le hStep hFactor (Int.le_refl 0)
  have hSplit := foldl_add_exact hStep hFactor hQuota (Int.le_refl 0) h
  rw [Int.cast_zero, zero_mul] at hHigh
  rwa [add_zero, le_antisymm hHigh (Int.cast_nonneg hLow), add_zero] at hSplit

/-- Factors that reach the whole product in every order cut nothing in any. -/
theorem exact_of_foldl_eq {quota : Int} (hQuota : 0 ≤ quota)
    (h : ∀ order : List ℚ, order.Perm ratios →
      ((order.foldl step quota : Int) : ℚ) = quota * (ratios.map factor).prod) :
    Exact factor quota ratios := by
  intro part hPart
  obtain ⟨same, hSame, hSub⟩ := hPart
  obtain ⟨rest, hRest⟩ := hSub.exists_perm_append
  have hSplit := (hRest.trans (hSame.append_right rest)).symm
  have hParts : part ⊆ ratios := fun x hx => hSplit.subset (mem_append_left rest hx)
  have hRests : rest ⊆ ratios := fun x hx => hSplit.subset (mem_append_right part hx)
  obtain ⟨hLow, hHigh⟩ := foldl_cut_le (fun q x hx => hStep q x (hParts hx))
    (fun x hx => hFactor x (hParts hx)) hQuota
  obtain ⟨-, hLast⟩ := foldl_cut_le (fun q x hx => hStep q x (hRests hx))
    (fun x hx => hFactor x (hRests hx)) hLow
  rw [← foldl_append, h _ hSplit, ← (hSplit.map factor).prod_eq, map_append, prod_append,
    ← mul_assoc] at hLast
  exact ⟨_, le_antisymm (le_of_mul_le_mul_right hLast 
    (prod_map_pos fun x hx => hFactor x (hRests hx))) hHigh⟩

end Cut

theorem applyRatios_step {ratios : List ℚ} (quota : Int) (ra : ℚ) (_ : ra ∈ ratios) :
    (if ra ≠ 1 then Decimal.intPart (quota * ra) else quota) = Decimal.intPart (quota * id ra) := by
  by_cases hOne : ra = 1
  · rw [if_neg (not_not.mpr hOne), hOne, id, mul_one, intPart_intCast]
  · rw [if_pos hOne, id]

theorem recalc_step {ratios : List ℚ} (hPos : ∀ ra ∈ ratios, 0 < ra) (quota : Int) (ra : ℚ)
    (hMem : ra ∈ ratios) : (if ra ≠ 1 ∧ ra > 0 then Decimal.intPart (quota / ra) else quota) =
      Decimal.intPart (quota * ra⁻¹) := by
  by_cases hOne : ra = 1
  · rw [if_neg fun h => h.1 hOne, hOne, inv_one, mul_one, intPart_intCast]
  · rw [if_pos ⟨hOne, hPos ra hMem⟩, div_eq_mul_inv]

theorem recalc_result (ratios new : List ℚ) (quota : Int) :
    recalcQuotaFromRatios ratios new quota = Decimal.intPart
      (((ratios.foldl (fun quota ra => if ra ≠ 1 ∧ ra > 0 then Decimal.intPart (quota / ra)
        else quota) quota : Int) : ℚ) * new.prod) := by
  have hMul : (fun result ra : ℚ => if ra ≠ 1 then result * ra else result) = (· * ·) := by
    funext result ra
    by_cases hOne : ra = 1 <;> simp [hOne]
  unfold recalcQuotaFromRatios
  dsimp only
  rw [hMul, foldl_mul]

/-- A quota survives the way back and forth in every order exactly if all quotients are whole. -/
theorem recalc_iff {ratios : List ℚ} (hPos : ∀ ra ∈ ratios, 0 < ra) {quota : Int}
    (hQuota : 0 ≤ quota) :
    (∀ second third : List ℚ, second.Perm ratios → third.Perm ratios →
      recalcQuotaFromRatios second third quota = quota) ↔ Exact (·⁻¹) quota ratios := by
  constructor
  · intro h
    refine exact_of_foldl_eq (recalc_step hPos) (fun ra hRa => inv_pos.mpr (hPos ra hRa)) hQuota
      fun order hOrder => ?_
    have hSame := h order ratios hOrder (.refl _)
    have hPos' : ∀ ra ∈ order, 0 < ra := fun ra hRa => hPos ra (hOrder.subset hRa)
    obtain ⟨hLow, hHigh⟩ := foldl_cut_le (recalc_step hPos')
      (fun ra hRa => inv_pos.mpr (hPos' ra hRa)) hQuota
    rw [recalc_result] at hSame
    rw [(hOrder.map _).prod_eq] at hHigh
    have hProd : 0 < ratios.prod := prod_pos hPos
    have hInv := prod_map_inv_mul hPos
    refine le_antisymm hHigh ?_
    rw [Decimal.intPart_of_nonneg (mul_nonneg (Int.cast_nonneg hLow) hProd.le)] at hSame
    have hFloor := Int.floor_le (((order.foldl (fun quota ra => if ra ≠ 1 ∧ ra > 0 then
      Decimal.intPart (quota / ra) else quota) quota : Int) : ℚ) * ratios.prod)
    rw [hSame] at hFloor
    refine le_of_mul_le_mul_right ?_ hProd
    rwa [mul_assoc, hInv, mul_one]
  · intro h second third hSecond hThird
    have hPos' : ∀ ra ∈ second, 0 < ra := fun ra hRa => hPos ra (hSecond.subset hRa)
    rw [recalc_result, foldl_exact (recalc_step hPos') (fun ra hRa => inv_pos.mpr (hPos' ra hRa))
      hQuota (h.perm hSecond), (hThird.trans hSecond.symm).prod_eq, mul_assoc,
      prod_map_inv_mul hPos', mul_one, intPart_intCast]

theorem applyRatios_add {order ratios : List ℚ} (hOrder : order.Perm ratios)
    (hPos : ∀ ra ∈ ratios, 0 < ra) {whole rest : Int} (hWhole : 0 ≤ whole) (hRest : 0 ≤ rest)
    (h : Exact id whole ratios) :
    (applyRatios false order (whole + rest) : ℚ) =
      whole * ratios.prod + applyRatios false order rest := by
  have hSum := foldl_add_exact applyRatios_step (fun ra hRa => hPos ra (hOrder.subset hRa)) hWhole
    hRest (h.perm hOrder)
  rwa [map_id, hOrder.prod_eq] at hSum

theorem applyRatios_le {ratios : List ℚ} (hPos : ∀ ra ∈ ratios, 0 < ra) {base : Int}
    (hBase : 0 ≤ base) : 0 ≤ applyRatios false ratios base ∧
      (applyRatios false ratios base : ℚ) ≤ base * ratios.prod := by
  have hCut := foldl_cut_le applyRatios_step hPos hBase
  rwa [map_id] at hCut

/-- The quota is the sum of a part that no product cuts and of a rest that the cuts remove, in
whatever order. -/
def WholeApart (base : Int) (ratios : List ℚ) : Prop :=
  ∃ whole, 0 ≤ whole ∧ whole ≤ base ∧ Exact id whole ratios ∧
    ∀ order, order.Perm ratios → applyRatios false order (base - whole) = 0

/-- **The ratios give one quota in every order and can be taken back exactly if** the base settles;
for a model in `TaskPricePatches`, if all its quotients are whole. -/
theorem ratios_roundTrip_iff (patched : Bool) (base : Int) (hBase : 0 ≤ base) (ratios : List ℚ)
    (hPos : ∀ ra ∈ ratios, 0 < ra) :
    (∀ first second third : List ℚ, first.Perm ratios → second.Perm ratios → third.Perm ratios →
      applyRatios patched first base = applyRatios patched ratios base ∧
        recalcQuotaFromRatios second third (applyRatios patched first base) =
          applyRatios patched first base) ↔
      if patched then Exact (·⁻¹) base ratios else WholeApart base ratios := by
  cases patched with
  | true =>
    have hSame (first : List ℚ) : applyRatios true first base = base := rfl
    simp only [hSame, if_true, true_and, ← recalc_iff hPos hBase]
    exact ⟨fun h second third => h ratios second third (.refl _),
      fun h _ second third _ => h second third⟩
  | false =>
    have hMulInv : ∀ ra ∈ ratios, ra⁻¹ * id ra = 1 := fun ra hRa =>
      inv_mul_cancel₀ (hPos ra hRa).ne'
    obtain ⟨hLow, hHigh⟩ := applyRatios_le hPos hBase
    constructor
    · intro h
      have hExact := (recalc_iff hPos hLow).mp fun second third hSecond hThird =>
        (h ratios second third (.refl _) hSecond hThird).2
      obtain ⟨whole, hWhole⟩ := hExact ratios (Subperm.refl ratios)
      have hInvPos := prod_map_pos fun ra hRa => inv_pos.mpr (hPos ra hRa)
      have hInv := prod_map_inv_mul hPos
      have hWhole0 : 0 ≤ whole := by
        have : (0 : ℚ) ≤ whole := hWhole ▸ mul_nonneg (Int.cast_nonneg hLow) hInvPos.le
        exact_mod_cast this
      have hLe : whole ≤ base := by
        have hLess := mul_le_mul_of_nonneg_right hHigh hInvPos.le
        rw [hWhole, mul_assoc, mul_comm ratios.prod, hInv, mul_one] at hLess
        exact_mod_cast hLess
      have hId : Exact id whole ratios := hExact.invert hMulInv hWhole.symm
      refine ⟨whole, hWhole0, hLe, hId, fun order hOrder => ?_⟩
      have hSplit := applyRatios_add hOrder hPos hWhole0 (sub_nonneg.mpr hLe) hId
      rw [add_sub_cancel, (h order ratios ratios hOrder (.refl _) (.refl _)).1, ← hWhole, mul_assoc,
        hInv, mul_one, eq_comm, add_eq_left] at hSplit
      exact_mod_cast hSplit
    · rintro ⟨whole, hWhole0, hLe, hId, hCut⟩ first second third hFirst hSecond hThird
      have hAll (order : List ℚ) (hOrder : order.Perm ratios) :
          (applyRatios false order base : ℚ) = whole * ratios.prod := by
        have hSplit := applyRatios_add hOrder hPos hWhole0 (sub_nonneg.mpr hLe) hId
        rwa [add_sub_cancel, hCut order hOrder, Int.cast_zero, add_zero] at hSplit
      have hSame : applyRatios false first base = applyRatios false ratios base :=
        Int.cast_injective ((hAll first hFirst).trans (hAll ratios (.refl _)).symm)
      refine ⟨hSame, ?_⟩
      rw [hSame]
      refine (recalc_iff hPos hLow).mpr ?_ second third hSecond hThird
      exact hId.invert (fun ra hRa => mul_inv_cancel₀ (hPos ra hRa).ne')
        (by rw [map_id]; exact hAll ratios (.refl _))

theorem ratios_roundTrip_half :
    recalcQuotaFromRatios [1 / 2] [1 / 2] (applyRatios false [1 / 2] 3) = 1 := by
  refine ((ratios_roundTrip_iff false 3 (by decide) [1 / 2] (by decide +kernel)).mpr
    ⟨2, by decide, by decide, fun part hPart => ?_, fun order hOrder => ?_⟩ [1 / 2] [1 / 2] [1 / 2]
    (.refl _) (.refl _) (.refl _)).2.trans (by decide +kernel)
  · rcases subperm_singleton_iff.mp hPart with rfl | rfl
    · exact ⟨2, by norm_num⟩
    · exact ⟨1, by norm_num⟩
  · rw [perm_singleton.mp hOrder]
    decide +kernel

/-- **Half a video and three of them**: 6 or 7, and the first does not lead back to itself. -/
theorem ratios_cut :
    applyRatios false [1 / 2, 3] 5 = 6 ∧ applyRatios false [3, 1 / 2] 5 = 7 ∧
      recalcQuotaFromRatios [3 / 2] [3 / 2] (applyRatios false [3 / 2] 1) = 0 ∧
      recalcQuotaFromRatios [2] [2] (applyRatios true [2] 5) = 4 := by
  decide +kernel

/-! ## The ratios of a remix -/

structure TaskPrice extends PriceData where
  otherRatios : List (String × ℚ) := []

def TaskPrice.addOtherRatio (price : TaskPrice) (entry : String × ℚ) : TaskPrice :=
  if entry.2 ≤ 0 then price
  else { price with otherRatios := entry :: price.otherRatios.filter fun e => e.1 ≠ entry.1 }

inductive CallBilling where
  | price (modelPrice : ℚ)
  | ratio (modelRatio : ℚ) (configured : Bool)

def modelPriceHelperPerCall (input : PriceInput) (billing : CallBilling) :
    Except String TaskPrice :=
  let priceData (free : Bool) (quota : ℚ) : TaskPrice :=
    if input.enableFreeModelPreConsume = false ∧ free then { freeModel := true }
    else { quota := Decimal.intPart quota }
  match billing with
  | .price modelPrice =>
    .ok (priceData (input.groupRatio = 0 ∨ modelPrice = 0)
      (modelPrice * input.quotaPerUnit * input.groupRatio))
  | .ratio modelRatio configured =>
    if ¬configured ∧ ¬input.acceptUnsetRatioModel then .error input.notConfigured
    else .ok (priceData (input.groupRatio = 0 ∨ modelRatio = 0)
      (modelRatio / 2 * input.quotaPerUnit * input.groupRatio))

/-- The ratios of its `BillingContext`, or `seconds`, 0 if they are no number, and `size`. -/
structure OriginTask where
  billingContext : Option (List (String × ℚ))
  seconds : Int
  size : String

def resolveOriginTask (origin : OriginTask) (price : TaskPrice) : TaskPrice :=
  match origin.billingContext with
  | some ratios => ratios.foldl TaskPrice.addOtherRatio price
  | none =>
    let seconds := if origin.seconds ≤ 0 then 4 else origin.seconds
    let size :=
      if origin.size = "1792x1024" ∨ origin.size = "1024x1792" then 1666667 / 1000000 else 1
    (price.addOtherRatio ("seconds", seconds)).addOtherRatio ("size", size)

/-- The price in `RelayTaskSubmit`, for the price `info` of the request and an estimate. -/
def relayTaskSubmitPrice (input : PriceInput) (billing : CallBilling) (patched : Bool)
    (estimated : List (String × ℚ)) (_info : TaskPrice) : Except String TaskPrice :=
  (modelPriceHelperPerCall input billing).map fun priceData =>
    let info := estimated.foldl TaskPrice.addOtherRatio priceData
    { info with quota := applyRatios patched (info.otherRatios.map Prod.snd) info.quota }

theorem mem_foldl_addOtherRatio {entry : String × ℚ} {entries : List (String × ℚ)}
    {price : TaskPrice} (h : entry ∈ (entries.foldl TaskPrice.addOtherRatio price).otherRatios) :
    entry ∈ price.otherRatios ∨ entry ∈ entries ∧ 0 < entry.2 := by
  induction entries generalizing price with
  | nil => exact .inl h
  | cons first rest ih =>
    rcases ih h with hOld | ⟨hRest, hPos⟩
    · unfold TaskPrice.addOtherRatio at hOld
      split at hOld
      · exact .inl hOld
      · next hPos =>
        rcases mem_cons.mp hOld with rfl | hOld
        · exact .inr ⟨mem_cons_self, not_le.mp hPos⟩
        · exact .inl (mem_of_mem_filter hOld)
    · exact .inr ⟨mem_cons_of_mem first hRest, hPos⟩

/-- The estimate has a positive ratio of its own for the key. -/
def Overrides (estimated : List (String × ℚ)) (key : String) : Prop :=
  ∃ ratio > 0, (key, ratio) ∈ estimated

/-- **The ratios of the original task survive only if** the estimate overrides every one of them. -/
theorem remix_survive_iff (input : PriceInput) (billing : CallBilling) (patched : Bool)
    {estimated : List (String × ℚ)} (origin : OriginTask) (before : TaskPrice) {price : TaskPrice}
    (h : relayTaskSubmitPrice input billing patched estimated (resolveOriginTask origin before) =
      .ok price) :
    (∀ key ratio, (key, ratio) ∈ (resolveOriginTask origin before).otherRatios →
        ¬Overrides estimated key → (key, ratio) ∈ price.otherRatios) ↔
      ∀ key ratio, (key, ratio) ∈ (resolveOriginTask origin before).otherRatios →
        Overrides estimated key := by
  have hOnly : ∀ key ratio, (key, ratio) ∈ price.otherRatios → Overrides estimated key := by
    intro key ratio hMem
    unfold relayTaskSubmitPrice at h
    cases hData : modelPriceHelperPerCall input billing with
    | error => rw [hData] at h; cases h
    | ok priceData =>
      rw [hData] at h
      cases h
      have hNone : priceData.otherRatios = [] := by
        unfold modelPriceHelperPerCall at hData
        dsimp only at hData
        split at hData
        · cases hData
          split <;> rfl
        split at hData <;> cases hData
        · split <;> rfl
      rcases mem_foldl_addOtherRatio hMem with hOld | ⟨hNew, hPos⟩
      · rw [hNone] at hOld
        cases hOld
      · exact ⟨ratio, hPos, hNew⟩
  refine ⟨fun hAll key ratio hMem => ?_, fun hAll key ratio hMem hNot =>
    absurd (hAll key ratio hMem) hNot⟩
  by_contra hNot
  exact hNot (hOnly key ratio (hAll key ratio hMem hNot))

def tenACall : PriceInput := ⟨.price 1, 1, 0, 0, 0, false, "", 0, 10, false⟩

def eightSeconds : OriginTask := ⟨some [("seconds", 8)], 0, ""⟩

theorem remix_not_overridden :
    ∃ price, relayTaskSubmitPrice tenACall (.price 1) false [] (resolveOriginTask eightSeconds {}) =
        .ok price ∧
      ¬∀ key ratio, (key, ratio) ∈ (resolveOriginTask eightSeconds {}).otherRatios →
        ¬Overrides [] key → (key, ratio) ∈ price.otherRatios := by
  have hMem : ("seconds", (8 : ℚ)) ∈ (resolveOriginTask eightSeconds {}).otherRatios := by
    decide +kernel
  refine ⟨_, rfl, fun hAll => ?_⟩
  obtain ⟨ratio, -, hNone⟩ :=
    (remix_survive_iff tenACall (.price 1) false eightSeconds {} rfl).mp hAll "seconds" 8 hMem
  cases hNone

/-- **A remix of eight seconds costs as much as one**: the ratio is stored, and then lost. -/
theorem remix_loses_seconds :
    ("seconds", 8) ∈ (resolveOriginTask eightSeconds {}).otherRatios ∧
      (relayTaskSubmitPrice tenACall (.price 1) false []
        (resolveOriginTask eightSeconds {})).toOption.map (·.quota) = some 10 := by
  decide +kernel

end NewApi.Tasks
