import Mathlib.Algebra.BigOperators.Ring.List
import Mathlib.Algebra.Order.BigOperators.Group.List
import Neroshop.Gui.Readers

/-!
# The stars of a product

The overloads that take a list count its rows, by the stars of each.  The ones
that take a product id read the ratings first; the one that counts the rows of
so many stars then calls itself.
-/

namespace Neroshop.Gui

open Neroshop.Foundation Neroshop.Node Neroshop.Rpc

/-- `rating_obj["stars"].toInt()`, which is 0 where there is no such member. -/
def Row.stars : Row → Int
  | .rating row => row.score
  | _ => 0

def getProductStarCount (productRatings : List Row) : Nat :=
  productRatings.length

def clampStars (starNumber : Int) : Int :=
  let starNumber := if 5 < starNumber then 5 else starNumber
  if starNumber < 1 then 1 else starNumber

def getProductStarCountOf (productRatings : List Row) (starNumber : Int) :
    Nat :=
  productRatings.countP fun row => row.stars = clampStars starNumber

/-- Over the rationals in place of the `float`. -/
def getProductAverageStars (productRatings : List Row) : ℚ :=
  if productRatings.length = 0 then 0
  else (1 * getProductStarCountOf productRatings 1 +
    2 * getProductStarCountOf productRatings 2 +
    3 * getProductStarCountOf productRatings 3 +
    4 * getProductStarCountOf productRatings 4 +
    5 * getProductStarCountOf productRatings 5) / productRatings.length

section ById

variable (env : Externals) (desktop : Desktop) (productId : String)

def getProductStarCountById : Session Nat := do
  return getProductStarCount (← getProductRatings env desktop productId)

/-- The overload that calls itself with its own arguments; what has not come to
an end within so many calls is `none`. -/
def getProductStarCountByIdOf (starNumber : Int) :
    Nat → Session (Option Nat)
  | 0 => pure none
  | depth + 1 => do
      let _productRatings ← getProductRatings env desktop productId
      getProductStarCountByIdOf starNumber depth

def getProductAverageStarsById : Session ℚ := do
  return getProductAverageStars (← getProductRatings env desktop productId)

/-! ## What is asked of the stars -/

def starCounts (productRatings : List Row) : List Nat :=
  [1, 2, 3, 4, 5].map (getProductStarCountOf productRatings)

def meanStars (productRatings : List Row) : ℚ :=
  (productRatings.map fun row => (row.stars : ℚ)).sum / productRatings.length

/-- The counts of these ratings add up, and the average is their mean. -/
structure RatingsAgree (calls after : List ClientCall)
    (productRatings : List Row) : Prop where
  total : (getProductStarCountById env desktop productId).run calls =
    .ok (starCounts productRatings).sum after
  average : productRatings ≠ [] →
    (getProductAverageStarsById env desktop productId).run calls =
        .ok (meanStars productRatings) after ∧
      1 ≤ meanStars productRatings ∧ meanStars productRatings ≤ 5

structure StarsAgree (calls : List ClientCall) : Prop where
  byStars : ∀ starNumber, ∃ productRatings middle depth after,
    (getProductRatings env desktop productId).run calls =
        .ok productRatings middle ∧
      (getProductStarCountByIdOf env desktop productId starNumber depth).run
          calls =
        .ok (some (getProductStarCountOf productRatings starNumber)) after
  ratings : ∀ productRatings after,
    (getProductRatings env desktop productId).run calls =
      .ok productRatings after →
    RatingsAgree env desktop productId calls after productRatings

end ById

def StarsInRange (row : Row) : Prop := 1 ≤ row.stars ∧ row.stars ≤ 5

/-! ## The rows of a list -/

section Rows

variable {productRatings : List Row}

theorem getProductStarCountOf_cons (row : Row) (productRatings : List Row)
    (starNumber : Int) :
    getProductStarCountOf (row :: productRatings) starNumber =
      getProductStarCountOf productRatings starNumber +
        if row.stars = clampStars starNumber then 1 else 0 := by
  simp only [getProductStarCountOf, List.countP_cons, decide_eq_true_eq]

theorem starCounts_sum (productRatings : List Row) :
    (starCounts productRatings).sum =
      getProductStarCountOf productRatings 1 +
        getProductStarCountOf productRatings 2 +
        getProductStarCountOf productRatings 3 +
        getProductStarCountOf productRatings 4 +
        getProductStarCountOf productRatings 5 := by
  simp only [starCounts, List.map_cons, List.map_nil, List.sum_cons,
    List.sum_nil]
  omega

/-- A row is counted once if its stars are in the range, and else not at all. -/
theorem starCounts_cons (row : Row) (productRatings : List Row) :
    (StarsInRange row ∧ (starCounts (row :: productRatings)).sum =
        (starCounts productRatings).sum + 1) ∨
      (¬ StarsInRange row ∧ (starCounts (row :: productRatings)).sum =
        (starCounts productRatings).sum) := by
  simp only [starCounts_sum, getProductStarCountOf_cons, clampStars,
    StarsInRange]
  norm_num
  split_ifs <;> omega

theorem starCounts_le (productRatings : List Row) :
    (starCounts productRatings).sum ≤ productRatings.length := by
  induction productRatings with
  | nil => rfl
  | cons row productRatings ih =>
      rw [List.length_cons]
      rcases starCounts_cons row productRatings with ⟨-, h⟩ | ⟨-, h⟩ <;> omega

theorem starCounts_add_up_iff :
    (starCounts productRatings).sum = getProductStarCount productRatings ↔
      ∀ row ∈ productRatings, StarsInRange row := by
  rw [getProductStarCount]
  induction productRatings with
  | nil => exact iff_of_true rfl fun row hrow => absurd hrow List.not_mem_nil
  | cons row productRatings ih =>
      have hle := starCounts_le productRatings
      rw [List.forall_mem_cons, ← ih, List.length_cons]
      rcases starCounts_cons row productRatings with ⟨hrange, h⟩ | ⟨hrange, h⟩
      · rw [h, Nat.add_right_cancel_iff]
        exact (and_iff_right hrange).symm
      · rw [h]
        exact iff_of_false (by omega) fun hall => hrange hall.1

/-- The stars are added up kind by kind. -/
theorem starCounts_weighted (h : ∀ row ∈ productRatings, StarsInRange row) :
    (1 * getProductStarCountOf productRatings 1 +
      2 * getProductStarCountOf productRatings 2 +
      3 * getProductStarCountOf productRatings 3 +
      4 * getProductStarCountOf productRatings 4 +
      5 * getProductStarCountOf productRatings 5 : ℚ) =
        (productRatings.map fun row => (row.stars : ℚ)).sum := by
  induction productRatings with
  | nil => norm_num [getProductStarCountOf]
  | cons row productRatings ih =>
      obtain ⟨⟨hlow, hhigh⟩, hrest⟩ := List.forall_mem_cons.mp h
      rw [List.map_cons, List.sum_cons, ← ih hrest]
      have hstars : row.stars = 1 ∨ row.stars = 2 ∨ row.stars = 3 ∨
          row.stars = 4 ∨ row.stars = 5 := by omega
      simp only [getProductStarCountOf_cons, clampStars]
      rcases hstars with hstars | hstars | hstars | hstars | hstars <;>
        rw [hstars] <;> norm_num <;> ring

theorem averageStars_of_range (hnone : productRatings ≠ [])
    (h : ∀ row ∈ productRatings, StarsInRange row) :
    getProductAverageStars productRatings = meanStars productRatings := by
  have hlength : productRatings.length ≠ 0 :=
    mt List.length_eq_zero_iff.mp hnone
  rw [getProductAverageStars, if_neg hlength, starCounts_weighted h, meanStars]

theorem meanStars_range (hnone : productRatings ≠ [])
    (h : ∀ row ∈ productRatings, StarsInRange row) :
    1 ≤ meanStars productRatings ∧ meanStars productRatings ≤ 5 := by
  have hpos : (0 : ℚ) < productRatings.length := by
    exact_mod_cast List.length_pos_iff.mpr hnone
  have hlow : (productRatings.length : ℚ) * 1 ≤
      (productRatings.map fun row => (row.stars : ℚ)).sum := by
    rw [← nsmul_eq_mul]
    have hsum := List.card_nsmul_le_sum
      (productRatings.map fun row => (row.stars : ℚ)) 1 fun star hstar => by
        obtain ⟨row, hrow, rfl⟩ := List.mem_map.mp hstar
        exact_mod_cast (h row hrow).1
    rwa [List.length_map] at hsum
  have hhigh : (productRatings.map fun row => (row.stars : ℚ)).sum ≤
      (productRatings.length : ℚ) * 5 := by
    rw [← nsmul_eq_mul]
    have hsum := List.sum_le_card_nsmul
      (productRatings.map fun row => (row.stars : ℚ)) 5 fun star hstar => by
        obtain ⟨row, hrow, rfl⟩ := List.mem_map.mp hstar
        exact_mod_cast (h row hrow).2
    rwa [List.length_map] at hsum
  rw [meanStars, le_div_iff₀ hpos, div_le_iff₀ hpos]
  exact ⟨by linarith, by linarith⟩

end Rows

/-! ## The ratings of a product -/

section Products

variable {env : Externals} {desktop : Desktop} {productId : String}
  {calls after : List ClientCall} {productRatings : List Row}

theorem run_getProductStarCountById
    (h : (getProductRatings env desktop productId).run calls =
      .ok productRatings after) :
    (getProductStarCountById env desktop productId).run calls =
      .ok (getProductStarCount productRatings) after := by
  rw [getProductStarCountById, run_bind_of_ok h]
  rfl

theorem run_getProductAverageStarsById
    (h : (getProductRatings env desktop productId).run calls =
      .ok productRatings after) :
    (getProductAverageStarsById env desktop productId).run calls =
      .ok (getProductAverageStars productRatings) after := by
  rw [getProductAverageStarsById, run_bind_of_ok h]
  rfl

theorem ratingsAgree_iff
    (h : (getProductRatings env desktop productId).run calls =
      .ok productRatings after) :
    RatingsAgree env desktop productId calls after productRatings ↔
      ∀ row ∈ productRatings, StarsInRange row := by
  constructor
  · rintro ⟨htotal, -⟩
    rw [run_getProductStarCountById h, EStateM.Result.ok.injEq] at htotal
    exact starCounts_add_up_iff.mp htotal.1.symm
  · intro hrange
    refine ⟨?_, fun hnone => ⟨?_, meanStars_range hnone hrange⟩⟩
    · rw [run_getProductStarCountById h, starCounts_add_up_iff.mpr hrange]
    · rw [run_getProductAverageStarsById h, averageStars_of_range hnone hrange]

/-- However deep the calls go, none of them returns a count. -/
theorem starCountByIdOf_never (env : Externals) (desktop : Desktop)
    (productId : String) (starNumber : Int) (depth count : Nat)
    (calls after : List ClientCall) :
    (getProductStarCountByIdOf env desktop productId starNumber depth).run
      calls ≠ .ok (some count) after := by
  induction depth generalizing calls with
  | zero =>
      intro h
      obtain ⟨hnone, -⟩ := run_pure_eq_ok.mp h
      cases hnone
  | succ depth ih =>
      intro h
      obtain ⟨productRatings, middle, -, hrest⟩ := run_bind_eq_ok.mp h
      exact ih middle hrest

/--
The count by product id and stars never returns.  The other numbers agree
exactly where every rating has between one and five stars.
-/
theorem stars_disagree (env : Externals) (desktop : Desktop)
    (productId : String) (calls : List ClientCall) :
    ¬ StarsAgree env desktop productId calls ∧
      ∀ productRatings after,
        (getProductRatings env desktop productId).run calls =
          .ok productRatings after →
        (RatingsAgree env desktop productId calls after productRatings ↔
          ∀ row ∈ productRatings, StarsInRange row) := by
  refine ⟨fun h => ?_, fun productRatings after => ratingsAgree_iff⟩
  obtain ⟨productRatings, middle, depth, after, -, hcount⟩ := h.byStars 1
  exact starCountByIdOf_never env desktop productId 1 depth _ calls after hcount

/-- A product that nobody has rated. -/
theorem unrated_never_counted :
    (getProductRatings (.ofDocuments []) (.ofTables Store.empty) "4c").run [] =
        .ok [] [] ∧
      ¬ ∃ depth count after,
        (getProductStarCountByIdOf (.ofDocuments []) (.ofTables Store.empty)
          "4c" 5 depth).run [] = .ok (some count) after := by
  refine ⟨rfl, ?_⟩
  rintro ⟨depth, count, after, h⟩
  exact starCountByIdOf_never _ _ _ 5 depth count [] after h

end Products

end Neroshop.Gui
