import Jayvee.Foundation.JsNumber
import Mathlib.Algebra.Order.Round
import Mathlib.Data.Int.Log
import Mathlib.Tactic.Linarith
import Mathlib.Tactic.Positivity
import Mathlib.Tactic.Ring

/-! # Floating-point numbers of 64 bits

A significand of 53 bits times a power of two. -/

namespace Jayvee.Foundation

/-! ## Rounding to an integer -/

/-- The nearest integer, the even one of two. -/
def roundHalfEven (x : ℚ) : ℤ :=
  if x - round x = -(1 / 2) ∧ Odd (round x) then round x - 1 else round x

section RoundHalfEven

variable {x : ℚ} {z : ℤ}

theorem roundHalfEven_le (x : ℚ) (z : ℤ) : |x - roundHalfEven x| ≤ |x - z| := by
  have hround := round_le x z
  rw [roundHalfEven]
  split
  · rename_i htie
    have hbelow : x - ((round x - 1 : ℤ) : ℚ) = 1 / 2 := by
      push_cast
      linarith [htie.1]
    rw [htie.1, abs_neg] at hround
    rwa [hbelow]
  · exact hround

theorem abs_sub_roundHalfEven (x : ℚ) : |x - roundHalfEven x| ≤ 1 / 2 :=
  (roundHalfEven_le x (round x)).trans (abs_sub_round x)

theorem lt_round_add (x : ℚ) : x < round x + 1 / 2 := by
  have hfloor := Int.lt_floor_add_one (x + 1 / 2)
  rw [← round_eq] at hfloor
  linarith

/-- Halves are rounded to even integers. -/
theorem even_roundHalfEven (h : |x - roundHalfEven x| = 1 / 2) : Even (roundHalfEven x) := by
  by_cases htie : x - round x = -(1 / 2) ∧ Odd (round x)
  · rw [roundHalfEven, if_pos htie]
    exact htie.2.sub_odd odd_one
  · have heq : roundHalfEven x = round x := if_neg htie
    rw [heq] at h ⊢
    have hlt := lt_round_add x
    have hhalf : x - round x = -(1 / 2) := by
      rcases abs_eq (by norm_num : (0 : ℚ) ≤ 1 / 2) |>.mp h with hpos | hneg
      · linarith
      · exact hneg
    exact Int.not_odd_iff_even.mp fun hodd => htie ⟨hhalf, hodd⟩

theorem roundHalfEven_eq_of_even (heven : Even z) (h : |x - z| ≤ 1 / 2) : roundHalfEven x = z := by
  by_contra hne
  have hround := abs_sub_roundHalfEven x
  have hdistance : |(roundHalfEven x : ℚ) - z| ≤ |x - roundHalfEven x| + |x - z| := by
    rw [abs_sub_comm x]
    exact abs_sub_le _ x _
  have hone : (1 : ℚ) ≤ |(roundHalfEven x : ℚ) - z| := by
    have habs : 1 ≤ |roundHalfEven x - z| := Int.one_le_abs (sub_ne_zero.mpr hne)
    exact_mod_cast habs
  have hround' := even_roundHalfEven (x := x) (by linarith)
  have hodd : |roundHalfEven x - z| = 1 := by
    have hle : |(roundHalfEven x : ℚ) - z| = 1 := by linarith
    exact_mod_cast hle
  obtain ⟨k, hk⟩ := hround'.sub heven
  rw [hk, abs_eq Int.one_nonneg] at hodd
  omega

end RoundHalfEven

/-! ## Rounding to a double -/

/-- The exponent of the last place. -/
def lastPlace (v : ℚ) : ℤ :=
  max (Int.log 2 |v| - 52) (-1074)

/-- One unit in the last place. -/
def ulp (v : ℚ) : ℚ :=
  2 ^ lastPlace v

def significand (v : ℚ) : ℤ :=
  roundHalfEven (v / ulp v)

/-- The nearest number with a significand of 53 bits, of any magnitude. -/
def nearest (v : ℚ) : ℚ :=
  significand v * ulp v

def IsRepresentable (x : ℚ) : Prop :=
  ∃ m e : ℤ, |m| < 2 ^ 53 ∧ -1074 ≤ e ∧ x = m * 2 ^ e ∧ |x| < 2 ^ 1024

variable {v x : ℚ}

theorem ulp_pos (v : ℚ) : 0 < ulp v :=
  zpow_pos (by norm_num) _

theorem le_lastPlace {e : ℤ} (h : 2 ^ e ≤ |v|) : e - 52 ≤ lastPlace v := by
  have hv : 0 < |v| := (zpow_pos (by norm_num) e).trans_le h
  have hlog : e ≤ Int.log 2 |v| :=
    (Int.zpow_le_iff_le_log (by norm_num) hv).mp (by exact_mod_cast h)
  rw [lastPlace]
  omega

theorem abs_lt_ulp (v : ℚ) : |v| < 2 ^ 53 * ulp v := by
  have hlog : |v| < (2 : ℚ) ^ (Int.log 2 |v| + 1) := Int.lt_zpow_succ_log_self (by norm_num) |v|
  have hle : Int.log 2 |v| + 1 ≤ 53 + lastPlace v := by
    rw [lastPlace]
    omega
  have hpow : (2 : ℚ) ^ (Int.log 2 |v| + 1) ≤ 2 ^ (53 + lastPlace v) :=
    zpow_le_zpow_right₀ (by norm_num) hle
  have hsplit : (2 : ℚ) ^ (53 + lastPlace v) = 2 ^ 53 * ulp v := zpow_add₀ (by norm_num) 53 _
  exact hlog.trans_le (hsplit ▸ hpow)

theorem le_ulp {e : ℤ} (h : 2 ^ e ≤ |v|) : 2 ^ (e - 52) ≤ ulp v :=
  zpow_le_zpow_right₀ (by norm_num) (le_lastPlace h)

theorem abs_significand_le (v : ℚ) : |significand v| ≤ 2 ^ 53 := by
  have hround := abs_sub_roundHalfEven (v / ulp v)
  have hlt : |v / ulp v| < 2 ^ 53 := by
    rw [abs_div, abs_of_pos (ulp_pos v), div_lt_iff₀ (ulp_pos v)]
    exact abs_lt_ulp v
  have habs : |(significand v : ℚ)| < 2 ^ 53 + 1 := by
    have htriangle := abs_sub_abs_le_abs_sub (significand v : ℚ) (v / ulp v)
    rw [abs_sub_comm] at htriangle
    rw [significand] at htriangle ⊢
    linarith
  have hint : |significand v| < 2 ^ 53 + 1 := by exact_mod_cast habs
  omega

theorem abs_sub_nearest (v : ℚ) : |v - nearest v| = |v / ulp v - significand v| * ulp v := by
  have hne := (ulp_pos v).ne'
  have hsplit : v - nearest v = (v / ulp v - significand v) * ulp v := by
    rw [nearest, sub_mul, div_mul_cancel₀ v hne]
  rw [hsplit, abs_mul, abs_of_pos (ulp_pos v)]

theorem abs_sub_nearest_le (v : ℚ) : |v - nearest v| ≤ ulp v / 2 := by
  have hround := mul_le_mul_of_nonneg_right (abs_sub_roundHalfEven (v / ulp v)) (ulp_pos v).le
  rw [abs_sub_nearest, significand]
  linarith

theorem isRepresentable_nearest (h : |nearest v| < 2 ^ 1024) : IsRepresentable (nearest v) := by
  have hplace : -1074 ≤ lastPlace v := le_max_right _ _
  rcases (abs_significand_le v).lt_or_eq with hlt | heq
  · exact ⟨significand v, lastPlace v, hlt, hplace, rfl, h⟩
  · obtain ⟨m, hm⟩ : ∃ m, significand v = 2 * m := by
      rcases abs_eq (by norm_num : (0 : ℤ) ≤ 2 ^ 53) |>.mp heq with hpos | hneg
      · exact ⟨2 ^ 52, hpos⟩
      · exact ⟨-2 ^ 52, hneg⟩
    refine ⟨m, lastPlace v + 1, ?_, by omega, ?_, h⟩
    · rw [hm, abs_mul, abs_two] at heq
      omega
    · rw [nearest, hm, ulp, zpow_add_one₀ (by norm_num)]
      push_cast
      ring

/-! ## The nearest double -/

theorem abs_sub_nearest_le_of_multiple (v : ℚ) (z : ℤ) :
    |v - nearest v| ≤ |v - z * ulp v| := by
  have hne := (ulp_pos v).ne'
  have hsplit : v - z * ulp v = (v / ulp v - z) * ulp v := by
    rw [sub_mul, div_mul_cancel₀ v hne]
  rw [abs_sub_nearest, hsplit, abs_mul, abs_of_pos (ulp_pos v), significand]
  exact mul_le_mul_of_nonneg_right (roundHalfEven_le _ z) (ulp_pos v).le

theorem exists_multiple_of_le {m e : ℤ} (h : lastPlace v ≤ e) :
    ∃ z : ℤ, (m : ℚ) * 2 ^ e = z * ulp v := by
  obtain ⟨k, hk⟩ := Int.le.dest h
  refine ⟨m * 2 ^ k, ?_⟩
  rw [ulp, ← hk, zpow_add₀ (by norm_num), zpow_natCast]
  push_cast
  ring

/-- Other numbers than multiples of the last place are below the numbers of that place. -/
theorem abs_lt_of_lt_lastPlace {m e : ℤ} (hm : |m| < 2 ^ 53) (h : e < lastPlace v) :
    |(m : ℚ) * 2 ^ e| < 2 ^ 52 * ulp v := by
  have hpos : (0 : ℚ) < 2 ^ e := zpow_pos (by norm_num) e
  have hm' : |(m : ℚ)| < 2 ^ 53 := by exact_mod_cast hm
  have hpow : (2 : ℚ) ^ (e + 1) ≤ ulp v := zpow_le_zpow_right₀ (by norm_num) (by omega)
  rw [zpow_add_one₀ (by norm_num)] at hpow
  calc |(m : ℚ) * 2 ^ e| = |(m : ℚ)| * 2 ^ e := by rw [abs_mul, abs_of_pos hpos]
    _ < 2 ^ 53 * 2 ^ e := mul_lt_mul_of_pos_right hm' hpos
    _ ≤ 2 ^ 52 * ulp v := by linarith

theorem pow_mul_ulp_le (hv : v ≠ 0) (h : -1074 < lastPlace v) : 2 ^ 52 * ulp v ≤ |v| := by
  have hplace : 52 + lastPlace v = Int.log 2 |v| := by
    rw [lastPlace] at h ⊢
    omega
  have hsplit : (2 : ℚ) ^ (52 + lastPlace v) = 2 ^ 52 * ulp v := zpow_add₀ (by norm_num) 52 _
  rw [← hsplit, hplace]
  exact Int.zpow_log_le_self (by norm_num) (abs_pos.mpr hv)

/-- The least number of the last place is a multiple of it. -/
theorem abs_sub_nearest_le_of_le (h : 2 ^ 52 * ulp v ≤ |v|) :
    |v - nearest v| ≤ |v| - 2 ^ 52 * ulp v := by
  have hcast : ((2 ^ 52 : ℤ) : ℚ) = 2 ^ 52 := by norm_num
  rcases le_total 0 v with hnonneg | hnonpos
  · have hmultiple := abs_sub_nearest_le_of_multiple v (2 ^ 52)
    rw [hcast] at hmultiple
    rw [abs_of_nonneg hnonneg] at h ⊢
    rwa [abs_of_nonneg (sub_nonneg.mpr h)] at hmultiple
  · have hmultiple := abs_sub_nearest_le_of_multiple v (-2 ^ 52)
    rw [Int.cast_neg, hcast, neg_mul, sub_neg_eq_add] at hmultiple
    rw [abs_of_nonpos hnonpos] at h ⊢
    rw [abs_of_nonpos (by linarith : v + 2 ^ 52 * ulp v ≤ 0)] at hmultiple
    linarith

/-- No representable number is nearer. -/
theorem nearest_le {y : ℚ} (hy : IsRepresentable y) : |v - nearest v| ≤ |v - y| := by
  obtain ⟨m, e, hm, he, rfl, _⟩ := hy
  by_cases hplace : lastPlace v ≤ e
  · obtain ⟨z, hz⟩ := exists_multiple_of_le (v := v) (m := m) hplace
    rw [hz]
    exact abs_sub_nearest_le_of_multiple v z
  · have hsmall := abs_lt_of_lt_lastPlace hm (not_le.mp hplace)
    have hreverse := abs_sub_abs_le_abs_sub v (m * 2 ^ e)
    by_cases hv : v = 0
    · have hzero := abs_sub_nearest_le_of_multiple v 0
      rw [Int.cast_zero, zero_mul, sub_zero, hv, abs_zero] at hzero
      rw [hv]
      exact hzero.trans (abs_nonneg _)
    · have hlarge := pow_mul_ulp_le hv (by omega)
      have hleast := abs_sub_nearest_le_of_le hlarge
      linarith

theorem nearest_eq_self (hv : IsRepresentable v) : nearest v = v := by
  have hle := nearest_le (v := v) hv
  rw [sub_self, abs_zero] at hle
  exact (sub_eq_zero.mp (abs_eq_zero.mp (le_antisymm hle (abs_nonneg _)))).symm

theorem nearest_eq_of_even {z : ℤ} (heven : Even z) (h : |v - z * ulp v| ≤ ulp v / 2) :
    nearest v = z * ulp v := by
  have hsplit : v / ulp v - z = (v - z * ulp v) / ulp v := by
    rw [sub_div, mul_div_cancel_right₀ _ (ulp_pos v).ne']
  have hdivided : |v / ulp v - z| ≤ 1 / 2 := by
    rw [hsplit, abs_div, abs_of_pos (ulp_pos v), div_le_iff₀ (ulp_pos v)]
    linarith
  rw [nearest, significand, roundHalfEven_eq_of_even heven hdivided]

/-! ## Integers -/

/-- The nearest double is an integer exactly if an integer is at most half of the last place away. -/
theorem exists_nearest_eq_intCast_iff :
    (∃ z : ℤ, nearest v = z) ↔ ∃ z : ℤ, |v - z| ≤ ulp v / 2 := by
  constructor
  · intro h
    obtain ⟨z, hz⟩ := h
    exact ⟨z, hz ▸ abs_sub_nearest_le v⟩
  · intro h
    obtain ⟨z, hz⟩ := h
    by_cases hplace : 0 ≤ lastPlace v
    · obtain ⟨k, hk⟩ := Int.eq_ofNat_of_zero_le hplace
      refine ⟨significand v * 2 ^ k, ?_⟩
      rw [nearest, ulp, hk]
      push_cast
      rfl
    · obtain ⟨k, hk⟩ : ∃ k : ℕ, lastPlace v = -(k + 1) :=
        ⟨(-lastPlace v - 1).toNat, by omega⟩
      -- The last place is behind the point, so that integers are even multiples of it.
      have hulp : (2 : ℚ) ^ (k + 1) * ulp v = 1 := by
        rw [ulp, hk, zpow_neg]
        exact mul_inv_cancel₀ (by positivity)
      have hmultiple : (z : ℚ) = (z * 2 ^ (k + 1) : ℤ) * ulp v := by
        push_cast
        rw [mul_assoc, hulp, mul_one]
      have heven : Even (z * 2 ^ (k + 1)) := by
        rw [pow_succ]
        exact (even_two.mul_left (2 ^ k)).mul_left z
      rw [hmultiple] at hz
      exact ⟨z, (nearest_eq_of_even heven hz).trans hmultiple.symm⟩

/-! ## Overflow -/

theorem lastPlace_le (h : |v| < 2 ^ 1024) : lastPlace v ≤ 971 := by
  have hlog : Int.log 2 |v| ≤ 1023 := by
    rcases eq_or_ne v 0 with rfl | hv
    · rw [abs_zero, Int.log_zero_right]
      omega
    · have hlt : Int.log 2 |v| < 1024 :=
        (Int.lt_zpow_iff_log_lt (by norm_num) (abs_pos.mpr hv)).mp (by exact_mod_cast h)
      omega
  rw [lastPlace]
  omega

/-- Up to the middle between the greatest double and the next power of two, the nearest double is
below that power. -/
theorem abs_nearest_lt (h : |v| < 2 ^ 1024 - 2 ^ 970) : |nearest v| < 2 ^ 1024 := by
  have hhalf : (0 : ℚ) < 2 ^ 970 := by positivity
  have hplace : lastPlace v ≤ 971 := lastPlace_le (h.trans (sub_lt_self _ hhalf))
  have hulp : ulp v ≤ 2 ^ 971 := by
    have hpow : (2 : ℚ) ^ lastPlace v ≤ 2 ^ (971 : ℤ) := zpow_le_zpow_right₀ (by norm_num) hplace
    exact_mod_cast hpow
  have hdouble : (2 : ℚ) ^ 971 = 2 * 2 ^ 970 := pow_succ' 2 970
  have hnear := abs_sub_nearest_le v
  have htriangle := abs_sub_abs_le_abs_sub (nearest v) v
  rw [abs_sub_comm] at htriangle
  rw [hdouble] at hulp
  generalize (2 : ℚ) ^ 970 = half at *
  generalize (2 : ℚ) ^ 1024 = bound at *
  linarith

theorem le_abs_nearest_of_le (h : 2 ^ 1024 ≤ |v|) : 2 ^ 1024 ≤ |nearest v| := by
  have hv : v ≠ 0 := by
    rintro rfl
    rw [abs_zero] at h
    exact absurd h (not_le.mpr (by positivity))
  have hplace : 1024 - 52 ≤ lastPlace v := le_lastPlace ((zpow_ofNat 2 1024).trans_le h)
  have hpow : (2 : ℚ) ^ (1024 : ℤ) ≤ 2 ^ (52 + lastPlace v) :=
    zpow_le_zpow_right₀ (by norm_num) (by omega)
  have hsplit : (2 : ℚ) ^ (52 + lastPlace v) = 2 ^ 52 * ulp v := zpow_add₀ (by norm_num) 52 _
  have hleast := abs_sub_nearest_le_of_le (pow_mul_ulp_le hv (by omega))
  have hreverse := abs_sub_abs_le_abs_sub v (nearest v)
  rw [hsplit] at hpow
  rw [zpow_ofNat] at hpow
  exact hpow.trans (by linarith only [hleast, hreverse])

theorem ulp_eq (h : 2 ^ 1023 ≤ |v|) (h' : |v| < 2 ^ 1024) : ulp v = 2 ^ 971 := by
  have hplace : 1023 - 52 ≤ lastPlace v := le_lastPlace ((zpow_ofNat 2 1023).trans_le h)
  rw [ulp, le_antisymm (lastPlace_le h') hplace, zpow_ofNat]

/-- From the middle on, the nearest double is not below the next power of two. -/
theorem le_abs_nearest (h : 2 ^ 1024 - 2 ^ 970 ≤ |v|) : 2 ^ 1024 ≤ |nearest v| := by
  by_cases hlarge : 2 ^ 1024 ≤ |v|
  · exact le_abs_nearest_of_le hlarge
  · have hpow := pow_add (2 : ℚ) 53 971
    simp only [Nat.reduceAdd] at hpow
    have hhalf : (2 : ℚ) ^ 971 = 2 * 2 ^ 970 := pow_succ' 2 970
    have htop : (2 : ℚ) ^ 1024 = 2 * 2 ^ 1023 := pow_succ' 2 1023
    have hpos : (0 : ℚ) < 2 ^ 971 := by positivity
    have hbinade : (2 : ℚ) ^ 1023 ≤ |v| := by
      generalize (2 : ℚ) ^ 1024 = top at *
      generalize (2 : ℚ) ^ 1023 = binade at *
      generalize (2 : ℚ) ^ 971 = place at *
      generalize (2 : ℚ) ^ 970 = half at *
      linarith only [hpow, hhalf, htop, hpos, h]
    have hulp := ulp_eq hbinade (not_le.mp hlarge)
    have hcast : ((2 ^ 53 : ℤ) : ℚ) = 2 ^ 53 := by norm_num
    have heven : Even (2 ^ 53 : ℤ) := by decide
    rw [not_le, hpow, ← hulp] at hlarge
    rw [hpow, ← hulp] at h ⊢
    rw [← hulp] at hhalf hpos
    generalize (2 : ℚ) ^ 970 = half at h hhalf
    have hnearest : nearest v = 2 ^ 53 * ulp v ∨ nearest v = -(2 ^ 53 * ulp v) := by
      rcases abs_cases v with ⟨habs, _⟩ | ⟨habs, _⟩
      · left
        rw [← hcast]
        refine nearest_eq_of_even heven ?_
        rw [hcast, abs_le]
        constructor <;> linarith only [h, hlarge, hhalf, hpos, habs]
      · right
        rw [← neg_mul, ← hcast, ← Int.cast_neg]
        refine nearest_eq_of_even heven.neg ?_
        rw [Int.cast_neg, hcast, abs_le]
        constructor <;> linarith only [h, hlarge, hhalf, hpos, habs]
    rcases hnearest with h | h
    · rw [h, abs_of_pos (by positivity)]
    · rw [h, abs_neg, abs_of_pos (by positivity)]

/-! ## Doubles -/

namespace Double

/-- The nearest double; infinite on overflow. -/
def ofRat (v : ℚ) : JsNumber :=
  if |nearest v| < 2 ^ 1024 then
    if nearest v = 0 then .zero (v < 0) else .finite (nearest v)
  else
    .infinite (v < 0)

theorem value_ofRat (h : |v| < 2 ^ 1024 - 2 ^ 970) : (ofRat v).value = some (nearest v) := by
  rw [ofRat, if_pos (abs_nearest_lt h)]
  split
  · rename_i hzero
    rw [hzero, JsNumber.value_zero]
  · rfl

theorem value_ofRat_of_isRepresentable (h : IsRepresentable v) : (ofRat v).value = some v := by
  have hself := nearest_eq_self h
  obtain ⟨_, _, _, _, _, hbound⟩ := id h
  rw [ofRat, hself, if_pos hbound]
  split
  · rename_i hzero
    rw [hzero, JsNumber.value_zero]
  · rfl

/-- There is no overflow exactly below the middle between the greatest double and the next power
of two. -/
theorem isFinite_ofRat_iff : (ofRat v).isFinite = true ↔ |v| < 2 ^ 1024 - 2 ^ 970 := by
  constructor
  · intro hfinite
    by_contra hlarge
    rw [ofRat, if_neg (not_lt.mpr (le_abs_nearest (not_lt.mp hlarge)))] at hfinite
    exact Bool.false_ne_true hfinite
  · intro h
    exact JsNumber.isFinite_iff.mpr ⟨_, value_ofRat h⟩

end Double

end Jayvee.Foundation
