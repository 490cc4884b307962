import EscapeTime.Picture.Hsv
import Mathlib

/-!
# Gradients in exact arithmetic

Read over the rationals, a color is regained from its hue, saturation and value. So a gradient
starts with its first color and ends with its second, and its hues lie on the shorter way between
theirs.
-/

namespace EscapeTime

/-! ### Color arithmetic over the rationals -/

/-- The whole number next to `q` toward zero. -/
def HueScalar.truncate (q : ℚ) : ℤ :=
  if 0 ≤ q then ⌊q⌋ else ⌈q⌉

instance : HueScalar ℚ where
  ofRatio num den := num / den
  lt x y := x < y
  le x y := x ≤ y
  same x y := x = y
  abs x := |x|
  mod x y := x - y * HueScalar.truncate (x / y)
  max x y := max x y
  min x y := min x y

namespace HueScalar

theorem ofRatio_eq (num den : ℕ) : (ofRatio num den : ℚ) = num / den :=
  rfl

theorem whole_eq (n : ℕ) : (whole n : ℚ) = n := by
  rw [whole, ofRatio_eq, Nat.cast_one, div_one]

theorem lt_eq (x y : ℚ) : lt x y = decide (x < y) :=
  rfl

theorem le_eq (x y : ℚ) : le x y = decide (x ≤ y) :=
  rfl

theorem abs_eq (x : ℚ) : HueScalar.abs x = |x| :=
  rfl

theorem same_eq (x y : ℚ) : same x y = decide (x = y) :=
  rfl

theorem mod_two_eq {y : ℚ} {k : ℕ} (low : 2 * k ≤ y) (high : y < 2 * k + 2) :
    mod y 2 = y - 2 * k := by
  have start : (0 : ℚ) ≤ k := k.cast_nonneg
  have floor : ⌊y / 2⌋ = k := by
    rw [Int.floor_eq_iff]
    push_cast
    constructor <;> linarith
  show y - 2 * (truncate (y / 2) : ℚ) = _
  rw [truncate, if_pos (by linarith), floor, Int.cast_natCast]

end HueScalar

namespace Hsv

open HueScalar (mod)

/-! ### Sixths of the circle of hues -/

/-- The sixth of the circle that `toRgb` finds a hue in. -/
def sixth? (h : ℚ) : Option (Fin 6) :=
  if 0 ≤ h ∧ h ≤ 1 / 6 then some 0
  else if 1 / 6 < h ∧ h ≤ 2 / 6 then some 1
  else if 2 / 6 < h ∧ h ≤ 3 / 6 then some 2
  else if 3 / 6 < h ∧ h ≤ 4 / 6 then some 3
  else if 4 / 6 < h ∧ h ≤ 5 / 6 then some 4
  else if 5 / 6 < h ∧ h ≤ 6 / 6 then some 5
  else none

/-- The channels in a sixth of the circle: one is full, one has the share `x` and one is empty. -/
def channels (full x : ℚ) : Fin 6 → Rgb ℚ
  | 0 => ⟨full, x, 0⟩
  | 1 => ⟨x, full, 0⟩
  | 2 => ⟨0, full, x⟩
  | 3 => ⟨0, x, full⟩
  | 4 => ⟨x, 0, full⟩
  | 5 => ⟨full, 0, x⟩

/-- The color with the given shares of a chroma above a base. -/
def tint (chroma base : ℚ) (c : Rgb ℚ) : Rgb ℚ :=
  ⟨chroma * c.r + base, chroma * c.g + base, chroma * c.b + base⟩

theorem toRgb_eq (c : Hsv ℚ) :
    c.toRgb = tint (c.s * c.v) (c.v - c.s * c.v)
      ((sixth? c.h).elim ⟨0, 0, 0⟩ (channels 1 (1 - |mod (c.h * 6) 2 - 1|))) := by
  unfold toRgb sixth?
  simp only [HueScalar.le_eq, HueScalar.lt_eq, HueScalar.ofRatio_eq, HueScalar.whole_eq,
    HueScalar.abs_eq, Bool.and_eq_true, decide_eq_true_eq]
  push_cast
  split_ifs <;> simp only [Option.elim, tint, channels, mul_zero, mul_one]

theorem sixth?_bounds {h : ℚ} {n : Fin 6} (found : sixth? h = some n) :
    (n : ℚ) ≤ h * 6 ∧ h * 6 ≤ n + 1 := by
  unfold sixth? at found
  split_ifs at found with range range range range range range <;> cases found <;> norm_num <;>
    constructor <;> linarith [range.1, range.2]

theorem exists_sixth {h : ℚ} (low : 0 ≤ h) (high : h ≤ 1) : ∃ n, sixth? h = some n := by
  by_contra missing
  simp only [not_exists] at missing
  unfold sixth? at missing
  split_ifs at missing with first second third fourth fifth last <;> simp at missing
  have after₁ := not_and.mp first low
  have after₂ := not_and.mp second (not_le.mp after₁)
  have after₃ := not_and.mp third (not_le.mp after₂)
  have after₄ := not_and.mp fourth (not_le.mp after₃)
  have after₅ := not_and.mp fifth (not_le.mp after₄)
  exact not_and.mp last (not_le.mp after₅) (by linarith)

/-- How far the changing channel is, `y` sixths around the circle: it rises in the sixths with an
even number and falls in the others. -/
def slope (y : ℚ) (n : ℕ) : ℚ :=
  if n % 2 = 0 then y - n else n + 1 - y

theorem ripple_eq {y : ℚ} {n : ℕ} (low : n ≤ y) (high : y ≤ n + 1) :
    1 - |mod y 2 - 1| = slope y n := by
  rw [slope]
  obtain ⟨k, rfl | rfl⟩ := n.even_or_odd'
  · push_cast at low high ⊢
    rw [if_pos (by omega), HueScalar.mod_two_eq low (by linarith), abs_of_nonpos (by linarith)]
    ring
  · push_cast at low high ⊢
    rw [if_neg (by omega)]
    rcases high.lt_or_eq with inside | top
    · rw [HueScalar.mod_two_eq (k := k) (by linarith) (by linarith), abs_of_nonneg (by linarith)]
      ring
    · -- The remainder starts again at the end of the sixth, where the channel is empty.
      have again : mod y 2 = 0 := by
        rw [HueScalar.mod_two_eq (k := k + 1) (by push_cast; linarith) (by push_cast; linarith)]
        push_cast
        linarith
      rw [again, zero_sub, abs_neg, abs_one]
      linarith

/-- The shares of the channels, `y` sixths around the circle. -/
def shares (y : ℚ) (n : Fin 6) : Rgb ℚ :=
  channels 1 (slope y n) n

theorem shares_meet (n : Fin 6) (later : n + 1 < (6 : ℕ)) :
    shares (n + 1) n = shares (n + 1) ⟨n + 1, later⟩ := by
  fin_cases n <;> simp [shares, slope, channels] at later ⊢ <;> norm_num

theorem shares_eq {y : ℚ} {n m : Fin 6} (low : (n : ℚ) ≤ y) (high : y ≤ n + 1) (low' : (m : ℚ) ≤ y)
    (high' : y ≤ m + 1) : shares y n = shares y m := by
  wlog order : n ≤ m generalizing n m
  · exact (this low' high' low high (le_of_not_ge order)).symm
  have near : (m : ℚ) ≤ n + 1 := by linarith
  norm_cast at near
  rcases order.eq_or_lt with same | before
  · rw [same]
  · have next : (m : ℕ) = n + 1 := by omega
    have here : y = n + 1 := by
      rw [next, Nat.cast_succ] at low'
      linarith
    have later : n + 1 < (6 : ℕ) := next ▸ m.isLt
    rw [here, shares_meet n later, show m = ⟨n + 1, later⟩ from Fin.ext next]

theorem sixths_bounds {y : ℚ} {n : Fin 6} (low : (n : ℚ) ≤ y) (high : y ≤ n + 1) :
    0 ≤ y ∧ y ≤ 6 := by
  have first : (0 : ℚ) ≤ n := Nat.cast_nonneg _
  have last : (n : ℚ) ≤ 5 := by exact_mod_cast Nat.le_of_lt_succ n.isLt
  constructor <;> linarith

theorem toRgb_of_bounds {c : Hsv ℚ} {n : Fin 6} (low : (n : ℚ) ≤ c.h * 6)
    (high : c.h * 6 ≤ n + 1) :
    c.toRgb = tint (c.s * c.v) (c.v - c.s * c.v) (shares (c.h * 6) n) := by
  obtain ⟨first, last⟩ := sixths_bounds low high
  obtain ⟨m, found⟩ := exists_sixth (h := c.h) (by linarith) (by linarith)
  obtain ⟨low', high'⟩ := sixth?_bounds found
  rw [toRgb_eq, found, Option.elim_some, ripple_eq low' high', shares_eq low high low' high']
  rfl

end Hsv

namespace Rgb

/-! ### The place of a color on the circle -/

variable (c : Rgb ℚ)

def high : ℚ := max (max c.r c.g) c.b

def low : ℚ := min (min c.r c.g) c.b

def chroma : ℚ := c.high - c.low

theorem le_high : c.r ≤ c.high ∧ c.g ≤ c.high ∧ c.b ≤ c.high := by
  simp [high]

theorem low_le : c.low ≤ c.r ∧ c.low ≤ c.g ∧ c.low ≤ c.b := by
  simp [low]

theorem toHsv_eq : c.toHsv =
    let h :=
      if c.chroma = 0 then 0
      else if c.high = c.r then (c.g - c.b) / (c.chroma * 6)
      else if c.high = c.g then 1 / 3 + (c.b - c.r) / (c.chroma * 6)
      else if c.high = c.b then 2 / 3 + (c.r - c.g) / (c.chroma * 6)
      else 0
    ⟨if h < 0 then h + 1 else h, if 0 < c.high then c.chroma / c.high else 0, c.high⟩ := by
  unfold toHsv
  simp only [HueScalar.same_eq, HueScalar.lt_eq, HueScalar.ofRatio_eq, HueScalar.whole_eq,
    decide_eq_true_eq]
  push_cast
  rfl

theorem low_le_high : c.low ≤ c.high :=
  (c.low_le.1).trans c.le_high.1

theorem high_mem : c.high = c.r ∨ c.high = c.g ∨ c.high = c.b := by
  unfold high
  rcases max_choice (max c.r c.g) c.b with pair | last
  · rw [pair]
    exact (max_choice c.r c.g).imp_right .inl
  · exact .inr (.inr last)

/-- How far around the circle of hues a color lies, as a multiple of its chroma. -/
theorem chroma_mul_hue (colored : 0 < c.chroma) :
    c.high = c.r ∧ c.b ≤ c.g ∧ c.chroma * (c.toHsv.h * 6) = c.g - c.b ∨
    c.high = c.r ∧ c.g < c.b ∧ c.chroma * (c.toHsv.h * 6) = 6 * c.chroma + (c.g - c.b) ∨
    c.high = c.g ∧ c.chroma * (c.toHsv.h * 6) = 2 * c.chroma + (c.b - c.r) ∨
    c.high = c.b ∧ c.chroma * (c.toHsv.h * 6) = 4 * c.chroma + (c.r - c.g) := by
  have scaled (d : ℚ) : c.chroma * (d / (c.chroma * 6) * 6) = d := by
    field_simp
  have small {x y : ℚ} (below : y ≤ c.high) (above : c.low ≤ x) :
      -(1 / 6) ≤ (x - y) / (c.chroma * 6) := by
    rw [le_div_iff₀ (by linarith)]
    unfold chroma
    linarith
  obtain ⟨highR, highG, highB⟩ := c.le_high
  obtain ⟨lowR, lowG, lowB⟩ := c.low_le
  rw [toHsv_eq]
  dsimp only
  rw [if_neg colored.ne']
  by_cases red : c.high = c.r
  · rw [if_pos red]
    by_cases order : c.b ≤ c.g
    · have forward : ¬ (c.g - c.b) / (c.chroma * 6) < 0 :=
        not_lt.mpr (div_nonneg (by linarith) (by linarith))
      rw [if_neg forward]
      exact .inl ⟨red, order, scaled _⟩
    · have backward : (c.g - c.b) / (c.chroma * 6) < 0 :=
        div_neg_of_neg_of_pos (by linarith) (by linarith)
      rw [if_pos backward]
      refine .inr (.inl ⟨red, not_le.mp order, ?_⟩)
      linear_combination scaled (c.g - c.b)
  · rw [if_neg red]
    by_cases green : c.high = c.g
    · have range := small highR lowB
      rw [if_pos green, if_neg (by linarith)]
      refine .inr (.inr (.inl ⟨green, ?_⟩))
      linear_combination scaled (c.b - c.r)
    · have blue := (c.high_mem.resolve_left red).resolve_left green
      have range := small highG lowR
      rw [if_neg green, if_pos blue, if_neg (by linarith)]
      refine .inr (.inr (.inr ⟨blue, ?_⟩))
      linear_combination scaled (c.r - c.g)

/-- The color is where its hue says, with its own shares. -/
def Placed (n : Fin 6) : Prop :=
  n ≤ c.toHsv.h * 6 ∧ c.toHsv.h * 6 ≤ n + 1 ∧
    Hsv.tint c.chroma c.low (Hsv.shares (c.toHsv.h * 6) n) = c

variable {c}

theorem placed_of_hue (colored : 0 < c.chroma) {n : Fin 6} {product : ℚ}
    (hue : c.chroma * (c.toHsv.h * 6) = product) (least : c.chroma * n ≤ product)
    (most : product ≤ c.chroma * (n + 1))
    (r : c.chroma * (Hsv.shares (c.toHsv.h * 6) n).r + c.low = c.r)
    (g : c.chroma * (Hsv.shares (c.toHsv.h * 6) n).g + c.low = c.g)
    (b : c.chroma * (Hsv.shares (c.toHsv.h * 6) n).b + c.low = c.b) : c.Placed n := by
  rw [← hue] at least most
  refine ⟨le_of_mul_le_mul_left least colored, le_of_mul_le_mul_left most colored, ?_⟩
  rw [Hsv.tint, r, g, b]

theorem exists_placed (colored : 0 < c.chroma) : ∃ n, c.Placed n := by
  obtain ⟨highR, highG, highB⟩ := c.le_high
  obtain ⟨lowR, lowG, lowB⟩ := c.low_le
  have width : c.chroma = c.high - c.low := rfl
  have least {x : ℚ} (r : x ≤ c.r) (g : x ≤ c.g) (b : x ≤ c.b) : x ≤ c.low :=
    le_min (le_min r g) b
  rcases c.chroma_mul_hue colored with
    ⟨red, order, hue⟩ | ⟨red, order, hue⟩ | ⟨green, hue⟩ | ⟨blue, hue⟩
  · have low := least (x := c.b) (by linarith) order le_rfl
    refine ⟨0, placed_of_hue colored hue ?_ ?_ ?_ ?_ ?_⟩ <;>
      norm_num [Hsv.shares, Hsv.channels, Hsv.slope] <;> linarith
  · have low := least (x := c.g) (by linarith) le_rfl order.le
    refine ⟨5, placed_of_hue colored hue ?_ ?_ ?_ ?_ ?_⟩ <;>
      norm_num [Hsv.shares, Hsv.channels, Hsv.slope] <;> linarith
  · rcases le_total c.b c.r with order | order
    · have low := least (x := c.b) order (by linarith) le_rfl
      refine ⟨1, placed_of_hue colored hue ?_ ?_ ?_ ?_ ?_⟩ <;>
        norm_num [Hsv.shares, Hsv.channels, Hsv.slope] <;> linarith
    · have low := least (x := c.r) le_rfl (by linarith) order
      refine ⟨2, placed_of_hue colored hue ?_ ?_ ?_ ?_ ?_⟩ <;>
        norm_num [Hsv.shares, Hsv.channels, Hsv.slope] <;> linarith
  · rcases le_total c.r c.g with order | order
    · have low := least (x := c.r) le_rfl order (by linarith)
      refine ⟨3, placed_of_hue colored hue ?_ ?_ ?_ ?_ ?_⟩ <;>
        norm_num [Hsv.shares, Hsv.channels, Hsv.slope] <;> linarith
    · have low := least (x := c.g) order le_rfl (by linarith)
      refine ⟨4, placed_of_hue colored hue ?_ ?_ ?_ ?_ ?_⟩ <;>
        norm_num [Hsv.shares, Hsv.channels, Hsv.slope] <;> linarith

/-- All channels are between zero and one. -/
structure InUnit (c : Rgb ℚ) : Prop where
  r : 0 ≤ c.r ∧ c.r ≤ 1
  g : 0 ≤ c.g ∧ c.g ≤ 1
  b : 0 ≤ c.b ∧ c.b ≤ 1

theorem InUnit.low_nonneg (unit : c.InUnit) : 0 ≤ c.low :=
  le_min (le_min unit.r.1 unit.g.1) unit.b.1

theorem InUnit.high_le (unit : c.InUnit) : c.high ≤ 1 :=
  max_le (max_le unit.r.2 unit.g.2) unit.b.2

theorem chroma_cases (c : Rgb ℚ) : c.chroma = 0 ∨ 0 < c.chroma :=
  (sub_nonneg.mpr c.low_le_high).eq_or_lt'

theorem toHsv_of_gray (gray : c.chroma = 0) : c.toHsv.h = 0 := by
  rw [toHsv_eq]
  dsimp only
  rw [if_pos gray, if_neg (lt_irrefl 0)]

end Rgb

/-- Hue, saturation and value are between zero and one. -/
structure Hsv.InUnit (c : Hsv ℚ) : Prop where
  h : 0 ≤ c.h ∧ c.h ≤ 1
  s : 0 ≤ c.s ∧ c.s ≤ 1
  v : 0 ≤ c.v ∧ c.v ≤ 1

namespace Rgb

variable {c : Rgb ℚ}

theorem toHsv_inUnit (unit : c.InUnit) : c.toHsv.InUnit := by
  have low := unit.low_nonneg
  have high := unit.high_le
  have order := c.low_le_high
  have width : c.chroma = c.high - c.low := rfl
  constructor
  · rcases c.chroma_cases with gray | colored
    · rw [toHsv_of_gray gray]
      exact ⟨le_rfl, zero_le_one⟩
    · obtain ⟨n, least, most, -⟩ := exists_placed colored
      obtain ⟨first, last⟩ := Hsv.sixths_bounds least most
      constructor <;> linarith
  · rw [toHsv_eq]
    dsimp only
    split_ifs with bright
    · exact ⟨div_nonneg (by linarith) bright.le, (div_le_one bright).mpr (by linarith)⟩
    · exact ⟨le_rfl, zero_le_one⟩
  · exact ⟨low.trans order, high⟩

theorem saturation_mul_value (unit : c.InUnit) : c.toHsv.s * c.toHsv.v = c.chroma := by
  rw [toHsv_eq]
  dsimp only
  split_ifs with bright
  · exact div_mul_cancel₀ _ bright.ne'
  · have low := unit.low_nonneg
    have order := c.low_le_high
    have width : c.chroma = c.high - c.low := rfl
    linarith

theorem toRgb_toHsv (unit : c.InUnit) : c.toHsv.toRgb = c := by
  have value : c.toHsv.v = c.high := rfl
  have width : c.chroma = c.high - c.low := rfl
  rcases c.chroma_cases with gray | colored
  · obtain ⟨highR, highG, highB⟩ := c.le_high
    obtain ⟨lowR, lowG, lowB⟩ := c.low_le
    have hue := toHsv_of_gray gray
    rw [Hsv.toRgb_of_bounds (n := 0) (by rw [hue]; norm_num) (by rw [hue]; norm_num),
      saturation_mul_value unit, value, gray, Hsv.tint]
    cases c
    congr 1 <;> dsimp only at * <;> linarith
  · obtain ⟨n, least, most, same⟩ := exists_placed colored
    rw [Hsv.toRgb_of_bounds least most, saturation_mul_value unit, value,
      show c.high - c.chroma = c.low by linarith, same]

end Rgb

namespace Hsv

/-! ### Around the circle -/

/-- The distance of two hues around the circle. -/
def arc (x y : ℚ) : ℚ :=
  min |x - y| (1 - |x - y|)

/-- The shorter way from one hue to another, negative where it goes backward. -/
def turn (x y : ℚ) : ℚ :=
  if 1 / 2 < y - x then y - x - 1 else if y - x < -(1 / 2) then y - x + 1 else y - x

theorem turn_eq (x y : ℚ) : ∃ k : ℤ, y - x = turn x y + k := by
  unfold turn
  split_ifs
  · exact ⟨1, by push_cast; ring⟩
  · exact ⟨-1, by push_cast; ring⟩
  · exact ⟨0, by push_cast; ring⟩

theorem abs_turn_le {x y : ℚ} (start : 0 ≤ x ∧ x ≤ 1) (finish : 0 ≤ y ∧ y ≤ 1) :
    |turn x y| ≤ 1 / 2 := by
  rw [abs_le]
  unfold turn
  split_ifs <;> constructor <;> linarith

theorem arc_of_turn {x y d : ℚ} {k : ℤ} (start : 0 ≤ x ∧ x ≤ 1) (finish : 0 ≤ y ∧ y ≤ 1)
    (short : |d| ≤ 1 / 2) (moved : y - x = d + k) : arc x y = |d| := by
  obtain ⟨least, most⟩ := abs_le.mp short
  have low : (-2 : ℚ) < k := by linarith
  have high : (k : ℚ) < 2 := by linarith
  norm_cast at low high
  rw [arc, abs_sub_comm, moved]
  obtain rfl | rfl | rfl : k = -1 ∨ k = 0 ∨ k = 1 := by omega
  · have forward : 0 ≤ d := by
      push_cast at moved
      linarith
    rw [abs_of_nonneg forward] at short ⊢
    rw [abs_of_nonpos (by push_cast; linarith), min_eq_right (by push_cast; linarith)]
    push_cast
    ring
  · rw [Int.cast_zero, add_zero]
    exact min_eq_left (by linarith)
  · have backward : d ≤ 0 := by
      push_cast at moved
      linarith
    rw [abs_of_nonpos backward] at short ⊢
    rw [abs_of_nonneg (by push_cast; linarith), min_eq_right (by push_cast; linarith)]
    push_cast
    ring

/-- One of two hues that are far apart is raised by a full turn, and then they are near. -/
theorem raised_sub_raised (x y : ℚ) :
    (if ¬1 / 2 < y - x ∧ y - x < -(1 / 2) then y + 1 else y) -
      (if 1 / 2 < y - x then x + 1 else x) = turn x y := by
  unfold turn
  by_cases forward : 1 / 2 < y - x
  · rw [if_neg (fun both => both.1 forward), if_pos forward, if_pos forward, sub_sub]
  · rw [if_neg forward, if_neg forward]
    by_cases backward : y - x < -(1 / 2)
    · rw [if_pos ⟨forward, backward⟩, if_pos backward, add_sub_right_comm]
    · rw [if_neg (fun both => backward both.2), if_neg backward]

theorem mix_bounds {x y top t : ℚ} (left : 0 ≤ x ∧ x ≤ top) (right : 0 ≤ y ∧ y ≤ top)
    (between : 0 ≤ t ∧ t ≤ 1) : 0 ≤ x + (y - x) * t ∧ x + (y - x) * t ≤ top := by
  have rest : 0 ≤ 1 - t := sub_nonneg.mpr between.2
  have shares : x + (y - x) * t = x * (1 - t) + y * t := by ring
  rw [shares]
  constructor
  · exact add_nonneg (mul_nonneg left.1 rest) (mul_nonneg right.1 between.1)
  · calc x * (1 - t) + y * t ≤ top * (1 - t) + top * t :=
          add_le_add (mul_le_mul_of_nonneg_right left.2 rest)
            (mul_le_mul_of_nonneg_right right.2 between.1)
      _ = top := by ring

/-- The hues zero and one are the same. -/
theorem toRgb_of_turn {c c' : Hsv ℚ} {k : ℤ} (unit : 0 ≤ c.h ∧ c.h ≤ 1)
    (unit' : 0 ≤ c'.h ∧ c'.h ≤ 1) (hue : c.h = c'.h + k) (saturation : c.s = c'.s)
    (value : c.v = c'.v) : c.toRgb = c'.toRgb := by
  have ends (s v : ℚ) : toRgb ⟨1, s, v⟩ = toRgb ⟨0, s, v⟩ := by
    rw [toRgb_of_bounds (n := 5) (by norm_num) (by norm_num),
      toRgb_of_bounds (n := 0) (by norm_num) (by norm_num)]
    norm_num [shares, channels, slope]
  obtain ⟨h, s, v⟩ := c
  obtain ⟨h', s', v'⟩ := c'
  dsimp only at *
  subst saturation value
  have low : (-2 : ℚ) < k := by linarith
  have high : (k : ℚ) < 2 := by linarith
  norm_cast at low high
  obtain rfl | rfl | rfl : k = -1 ∨ k = 0 ∨ k = 1 := by omega
  · push_cast at hue
    obtain rfl : h = 0 := by linarith
    obtain rfl : h' = 1 := by linarith
    exact (ends s v).symm
  · rw [hue, Int.cast_zero, add_zero]
  · push_cast at hue
    obtain rfl : h = 1 := by linarith
    obtain rfl : h' = 0 := by linarith
    exact ends s v

section Interpolation

variable {mix : ℚ → ℚ → ℚ → ℚ} (linear : ∀ x y t, mix x y t = x + (y - x) * t)

include linear

theorem interpolate_h (c₀ c₁ : Hsv ℚ) (t : ℚ) :
    (c₀.interpolate mix c₁ t).h =
      let h := (if 1 / 2 < c₁.h - c₀.h then c₀.h + 1 else c₀.h) + turn c₀.h c₁.h * t
      if 1 < h then h - 1 else h := by
  unfold interpolate
  simp only [HueScalar.lt_eq, HueScalar.ofRatio_eq, HueScalar.whole_eq, linear,
    Bool.and_eq_true, Bool.not_eq_true', decide_eq_true_eq, decide_eq_false_iff_not, Nat.cast_one,
    Nat.cast_ofNat, Nat.cast_zero, zero_sub, raised_sub_raised]

theorem interpolate_s (c₀ c₁ : Hsv ℚ) (t : ℚ) :
    (c₀.interpolate mix c₁ t).s = c₀.s + (c₁.s - c₀.s) * t :=
  linear _ _ _

theorem interpolate_v (c₀ c₁ : Hsv ℚ) (t : ℚ) :
    (c₀.interpolate mix c₁ t).v = c₀.v + (c₁.v - c₀.v) * t :=
  linear _ _ _

variable {c₀ c₁ : Hsv ℚ} {t : ℚ}

theorem interpolate_inUnit (start : c₀.InUnit) (finish : c₁.InUnit) (between : 0 ≤ t ∧ t ≤ 1) :
    (c₀.interpolate mix c₁ t).InUnit := by
  obtain ⟨start₀, start₁⟩ := start.h
  obtain ⟨finish₀, finish₁⟩ := finish.h
  refine ⟨?_, interpolate_s linear c₀ c₁ t ▸ mix_bounds start.s finish.s between,
    interpolate_v linear c₀ c₁ t ▸ mix_bounds start.v finish.v between⟩
  rw [interpolate_h linear]
  dsimp only
  -- Before its last full turn is taken off, the hue is between two hues of at most two turns.
  generalize raised : (if 1 / 2 < c₁.h - c₀.h then c₀.h + 1 else c₀.h) = h₀
  have left : 0 ≤ h₀ ∧ h₀ ≤ 2 := by
    rw [← raised]
    split_ifs <;> constructor <;> linarith
  have right : 0 ≤ h₀ + turn c₀.h c₁.h ∧ h₀ + turn c₀.h c₁.h ≤ 2 := by
    rw [← raised]
    unfold turn
    split_ifs <;> constructor <;> linarith
  have hue := mix_bounds left right between
  rw [add_sub_cancel_left] at hue
  split_ifs <;> constructor <;> linarith

theorem interpolate_turn (c₀ c₁ : Hsv ℚ) (t : ℚ) :
    ∃ k : ℤ, (c₀.interpolate mix c₁ t).h - c₀.h = turn c₀.h c₁.h * t + k := by
  rw [interpolate_h linear]
  dsimp only
  split_ifs
  · exact ⟨0, by push_cast; ring⟩
  · exact ⟨1, by push_cast; ring⟩
  · exact ⟨-1, by push_cast; ring⟩
  · exact ⟨0, by push_cast; ring⟩

theorem arc_interpolate (start : c₀.InUnit) (finish : c₁.InUnit) (between : 0 ≤ t ∧ t ≤ 1) :
    arc c₀.h (c₀.interpolate mix c₁ t).h = t * arc c₀.h c₁.h ∧
      arc c₀.h (c₀.interpolate mix c₁ t).h ≤ 1 / 2 := by
  obtain ⟨k, moved⟩ := interpolate_turn linear c₀ c₁ t
  obtain ⟨j, apart⟩ := turn_eq c₀.h c₁.h
  have short := abs_turn_le start.h finish.h
  have length : |turn c₀.h c₁.h * t| = t * |turn c₀.h c₁.h| := by
    rw [abs_mul, abs_of_nonneg between.1, mul_comm]
  have part : t * |turn c₀.h c₁.h| ≤ |turn c₀.h c₁.h| :=
    mul_le_of_le_one_left (abs_nonneg _) between.2
  rw [arc_of_turn start.h (interpolate_inUnit linear start finish between).h
    (length ▸ part.trans short) moved, arc_of_turn start.h finish.h short apart, length]
  exact ⟨rfl, part.trans short⟩

theorem toRgb_interpolate_zero (start : c₀.InUnit) (finish : c₁.InUnit) :
    (c₀.interpolate mix c₁ 0).toRgb = c₀.toRgb := by
  obtain ⟨k, moved⟩ := interpolate_turn linear c₀ c₁ 0
  have unit := interpolate_inUnit linear start finish (t := 0) ⟨le_rfl, zero_le_one⟩
  refine toRgb_of_turn (k := k) unit.h start.h (by linarith) ?_ ?_
  · rw [interpolate_s linear, mul_zero, add_zero]
  · rw [interpolate_v linear, mul_zero, add_zero]

theorem toRgb_interpolate_one (start : c₀.InUnit) (finish : c₁.InUnit) :
    (c₀.interpolate mix c₁ 1).toRgb = c₁.toRgb := by
  obtain ⟨k, moved⟩ := interpolate_turn linear c₀ c₁ 1
  obtain ⟨j, apart⟩ := turn_eq c₀.h c₁.h
  have unit := interpolate_inUnit linear start finish (t := 1) ⟨zero_le_one, le_rfl⟩
  refine toRgb_of_turn (k := k - j) unit.h finish.h (by push_cast; linarith) ?_ ?_
  · rw [interpolate_s linear, mul_one, add_sub_cancel]
  · rw [interpolate_v linear, mul_one, add_sub_cancel]

end Interpolation

end Hsv

/-- With a linear `mix`, a gradient starts with its first color and ends with its second. Each of
its hues is in a sixth of the circle, and they go the shorter way from the first to the second at an
even pace. -/
theorem gradient_joins_colors {mix : ℚ → ℚ → ℚ → ℚ}
    (linear : ∀ x y t, mix x y t = x + (y - x) * t) {c₀ c₁ : Rgb ℚ} {t : ℚ} (first : c₀.InUnit)
    (last : c₁.InUnit) (between : 0 ≤ t ∧ t ≤ 1) :
    c₀.toHsv.InUnit ∧ c₁.toHsv.InUnit ∧
      (c₀.toHsv.interpolate mix c₁.toHsv t).InUnit ∧
      (∃ n, Hsv.sixth? (c₀.toHsv.interpolate mix c₁.toHsv t).h = some n) ∧
      Hsv.arc c₀.toHsv.h (c₀.toHsv.interpolate mix c₁.toHsv t).h ≤ 1 / 2 ∧
      Hsv.arc c₀.toHsv.h (c₀.toHsv.interpolate mix c₁.toHsv t).h =
        t * Hsv.arc c₀.toHsv.h c₁.toHsv.h ∧
      (c₀.toHsv.interpolate mix c₁.toHsv 0).toRgb = c₀ ∧
      (c₀.toHsv.interpolate mix c₁.toHsv 1).toRgb = c₁ ∧
      c₀.toHsv.toRgb = c₀ := by
  have start := Rgb.toHsv_inUnit first
  have finish := Rgb.toHsv_inUnit last
  have unit := Hsv.interpolate_inUnit linear start finish between
  obtain ⟨share, short⟩ := Hsv.arc_interpolate linear start finish between
  refine ⟨start, finish, unit, Hsv.exists_sixth unit.h.1 unit.h.2, short, share, ?_, ?_,
    Rgb.toRgb_toHsv first⟩
  · rw [Hsv.toRgb_interpolate_zero linear start finish, Rgb.toRgb_toHsv first]
  · rw [Hsv.toRgb_interpolate_one linear start finish, Rgb.toRgb_toHsv last]

theorem violet_orange_joined :
    let mix : ℚ → ℚ → ℚ → ℚ := fun x y t => x * (1 - t) + y * t
    let violet : Rgb ℚ := ⟨1 / 2, 0, 3 / 4⟩
    let orange : Rgb ℚ := ⟨1, 1 / 4, 0⟩
    (∀ x y t, mix x y t = x + (y - x) * t) ∧ violet.InUnit ∧ orange.InUnit ∧
      (violet.toHsv.interpolate mix orange.toHsv 0).toRgb = violet ∧
      (violet.toHsv.interpolate mix orange.toHsv 1).toRgb = orange := by
  intro mix violet orange
  have linear : ∀ x y t, mix x y t = x + (y - x) * t := fun x y t => by
    show x * (1 - t) + y * t = _
    ring
  have first : violet.InUnit := by constructor <;> norm_num [violet]
  have last : orange.InUnit := by constructor <;> norm_num [orange]
  have half : 0 ≤ (1 / 2 : ℚ) ∧ (1 / 2 : ℚ) ≤ 1 := by norm_num
  obtain ⟨-, -, -, -, -, -, start, finish, -⟩ := gradient_joins_colors linear first last half
  exact ⟨linear, first, last, start, finish⟩

end EscapeTime
