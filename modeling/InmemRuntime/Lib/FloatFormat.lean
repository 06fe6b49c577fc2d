import Mathlib.Data.Int.Log
import Mathlib.Data.Rat.Floor
import Mathlib.Algebra.Order.Field.Power
import Mathlib.Tactic.Linarith
import Mathlib.Tactic.Positivity
import Mathlib.Tactic.Ring

/-- To the nearest integer, halves to the even one. -/
def roundHalfEven (q : Rat) : Int :=
  let below := q.floor
  if q - below < 1 / 2 then below
  else if 1 / 2 < q - below then below + 1
  else if below % 2 = 0 then below else below + 1

theorem roundHalfEven_near (q : Rat) : |(roundHalfEven q : Rat) - q| ≤ 1 / 2 := by
  have below := Rat.floor_le q
  have above := Rat.lt_floor_add_one q
  simp only [Int.cast_add, Int.cast_one] at above
  rw [abs_le]
  simp only [roundHalfEven]
  split
  · constructor <;> linarith
  · split
    · simp only [Int.cast_add, Int.cast_one]
      constructor <;> linarith
    · split
      · constructor <;> linarith
      · simp only [Int.cast_add, Int.cast_one]
        constructor <;> linarith

theorem roundHalfEven_intCast (n : Int) : roundHalfEven n = n := by
  simp [roundHalfEven, Rat.floor_intCast]

theorem abs_roundHalfEven_le {q : Rat} {bound : Int} (within : |q| ≤ bound) : |roundHalfEven q| ≤ bound := by
  have near := abs_le.mp (roundHalfEven_near q)
  obtain ⟨low, high⟩ := abs_le.mp within
  have less : (roundHalfEven q : Rat) < bound + 1 := by linarith
  have more : ((-bound - 1 : Int) : Rat) < roundHalfEven q := by
    push_cast
    linarith
  have less : roundHalfEven q < bound + 1 := by exact_mod_cast less
  have more : -bound - 1 < roundHalfEven q := by exact_mod_cast more
  exact abs_le.mpr ⟨by omega, by omega⟩

/-- A binary format: the bits of a significand, and the least exponent of its last place. -/
structure FloatFormat where
  precision : Nat
  least : Int
  bits : 0 < precision

namespace FloatFormat

variable (format : FloatFormat)

/-- The number has a significand and an exponent of the format. -/
def Holds (q : Rat) : Prop :=
  ∃ significand exponent : Int,
    |significand| < 2 ^ format.precision ∧ format.least ≤ exponent ∧ q = significand * 2 ^ exponent

/-- The exponent of the last place of a number of this size. -/
def lastPlace (q : Rat) : Int := max (Int.log 2 |q| + 1 - format.precision) format.least

/-- Round to nearest, ties to even. -/
def nearest (q : Rat) : Rat := roundHalfEven (q / 2 ^ format.lastPlace q) * 2 ^ format.lastPlace q

variable {format} {q : Rat}

theorem place_pos (exponent : Int) : (0 : Rat) < 2 ^ exponent := zpow_pos (by norm_num) exponent

theorem lastPlace_le {size : Int} (small : |q| < 2 ^ size) (other : q ≠ 0) :
    format.lastPlace q ≤ max (size - format.precision) format.least := by
  have digits : Int.log 2 |q| < size :=
    (Int.lt_zpow_iff_log_lt (by decide) (abs_pos.mpr other)).mp (by exact_mod_cast small)
  simp only [lastPlace]
  omega

/-- Down to its last place the number fits the significand. -/
theorem abs_div_lastPlace_le (q : Rat) : |q / 2 ^ format.lastPlace q| ≤ 2 ^ format.precision := by
  have below : |q| ≤ 2 ^ (Int.log 2 |q| + 1) := by
    simpa using (Int.lt_zpow_succ_log_self (by decide : 1 < 2) |q|).le
  have wide : Int.log 2 |q| + 1 ≤ format.precision + format.lastPlace q := by
    simp only [lastPlace]
    omega
  rw [abs_div, abs_of_pos (place_pos _), div_le_iff₀ (place_pos _)]
  calc |q| ≤ 2 ^ (Int.log 2 |q| + 1) := below
    _ ≤ 2 ^ (format.precision + format.lastPlace q) := zpow_le_zpow_right₀ (by norm_num) wide
    _ = 2 ^ format.precision * 2 ^ format.lastPlace q := by rw [zpow_add₀ (by norm_num), zpow_natCast]

theorem nearest_holds (q : Rat) : format.Holds (format.nearest q) := by
  have least : format.least ≤ format.lastPlace q := le_max_right _ _
  have short : |roundHalfEven (q / 2 ^ format.lastPlace q)| ≤ 2 ^ format.precision :=
    abs_roundHalfEven_le (by exact_mod_cast abs_div_lastPlace_le q)
  rcases short.lt_or_eq with short | carry
  · exact ⟨_, _, short, least, rfl⟩
  -- the rounding carried into one more bit, which the exponent takes
  obtain ⟨fewer, bits⟩ : ∃ fewer, format.precision = fewer + 1 := ⟨_, (Nat.succ_pred format.bits.ne').symm⟩
  have half : |(2 : Int) ^ fewer| < 2 ^ (fewer + 1) := by
    rw [abs_of_pos (by positivity)]
    exact pow_lt_pow_right₀ (by norm_num) fewer.lt_succ_self
  have moved : (2 : Rat) ^ (fewer + 1) * 2 ^ format.lastPlace q = 2 ^ fewer * 2 ^ (format.lastPlace q + 1) := by
    rw [zpow_add₀ (by norm_num), zpow_one, pow_succ]
    ring
  rw [bits] at carry
  rcases (abs_eq (by positivity)).mp carry with up | down
  · refine ⟨2 ^ fewer, format.lastPlace q + 1, by rwa [bits], by omega, ?_⟩
    simpa [nearest, up] using moved
  · refine ⟨-2 ^ fewer, format.lastPlace q + 1, by rwa [bits, abs_neg], by omega, ?_⟩
    simpa [nearest, down] using moved

theorem nearest_error (q : Rat) : |format.nearest q - q| ≤ 2 ^ format.lastPlace q / 2 := by
  have exact : q = q / 2 ^ format.lastPlace q * 2 ^ format.lastPlace q := (div_mul_cancel₀ q (place_pos _).ne').symm
  have near := roundHalfEven_near (q / 2 ^ format.lastPlace q)
  calc |format.nearest q - q|
      = |(roundHalfEven (q / 2 ^ format.lastPlace q) - q / 2 ^ format.lastPlace q) * 2 ^ format.lastPlace q| := by
        rw [sub_mul, ← exact, nearest]
    _ = |(roundHalfEven (q / 2 ^ format.lastPlace q) : Rat) - q / 2 ^ format.lastPlace q| *
          2 ^ format.lastPlace q := by rw [abs_mul, abs_of_pos (place_pos _)]
    _ ≤ 1 / 2 * 2 ^ format.lastPlace q := mul_le_mul_of_nonneg_right near (place_pos _).le
    _ = 2 ^ format.lastPlace q / 2 := by ring

@[simp] theorem nearest_zero : format.nearest 0 = 0 := by
  have zero : roundHalfEven 0 = 0 := roundHalfEven_intCast 0
  simp [nearest, zero]

/-- A number of the format is its own rounding. -/
theorem nearest_of_holds (holds : format.Holds q) : format.nearest q = q := by
  obtain ⟨significand, exponent, short, least, rfl⟩ := holds
  by_cases zero : significand = 0
  · simp [zero]
  have size : |(significand : Rat) * 2 ^ exponent| < 2 ^ (format.precision + exponent) := by
    rw [abs_mul, abs_of_pos (place_pos _), zpow_add₀ (by norm_num), zpow_natCast]
    exact mul_lt_mul_of_pos_right (by exact_mod_cast short) (place_pos _)
  have place : format.lastPlace _ ≤ _ := lastPlace_le size (mul_ne_zero (by exact_mod_cast zero) (place_pos _).ne')
  obtain ⟨shift, apart⟩ := Int.le.dest (by omega : format.lastPlace (significand * 2 ^ exponent) ≤ exponent)
  have shifted : (2 : Rat) ^ exponent = 2 ^ shift * 2 ^ format.lastPlace (significand * 2 ^ exponent) := by
    rw [← zpow_natCast, ← zpow_add₀ (by norm_num), add_comm, apart]
  have whole : (significand : Rat) * 2 ^ exponent / 2 ^ format.lastPlace (significand * 2 ^ exponent) =
      ((significand * 2 ^ shift : Int) : Rat) := by
    rw [div_eq_iff (place_pos _).ne']
    push_cast
    rw [mul_assoc, ← shifted]
  rw [nearest, whole, roundHalfEven_intCast]
  push_cast
  rw [mul_assoc, ← shifted]

end FloatFormat
