import Mathlib.Algebra.Order.Floor.Semifield
import Mathlib.Data.Int.Log
import Mathlib.Data.Nat.Digits.Defs
import Mathlib.Data.Rat.Floor
import Mathlib.Tactic.Linarith
import Mathlib.Tactic.NormNum

/-! Numerals and JavaScript numbers: the double a numeral is read as, and the text of a number,
the fewest decimal digits that are read back as it. -/
namespace JavaScript

/-- The distance to the next double. -/
def spacing (x : ℚ) : ℚ := 2 ^ max (Int.log 2 x - 52) (-1074)

/-- A positive double is the one nearest to a value; halfway, the even one is. -/
def ReadsAs (value x : ℚ) : Prop :=
  let u := spacing x
  let below := if x / u = 2 ^ 52 ∧ u ≠ 2 ^ (-1074 : ℤ) then u / 4 else u / 2
  if (x / u).num % 2 = 0 then x - below ≤ value ∧ value ≤ x + u / 2
  else x - below < value ∧ value < x + u / 2

/-- The nearest integer; halfway, the even one. -/
def roundHalfEven (x : ℚ) : ℤ :=
  let low := ⌊x⌋
  if x - low < 1 / 2 then low else if 1 / 2 < x - low then low + 1
  else if low % 2 = 0 then low else low + 1

/-- What a numeral of this value is read as. An infinity is `2 ^ 1024`, the first power of two
past the doubles. -/
def toDouble (x : ℚ) : ℚ :=
  max (-2 ^ 1024) (min (2 ^ 1024) (roundHalfEven (x / spacing |x|) * spacing |x|))

instance ReadsAs.decidable (value x : ℚ) : Decidable (ReadsAs value x) :=
  inferInstanceAs (Decidable (ite _ _ _))

/-- The multiples of a unit around a number, the nearer one first. -/
def around (x unit : ℚ) : List ℕ :=
  let low := ⌊x / unit⌋₊
  if x - low * unit ≤ (low + 1) * unit - x then [low, low + 1] else [low + 1, low]

/-- The first that works of `k`, `k + 1`, … digits of a number below `10 ^ n`, and the power
of ten of the last digit. -/
def shortestFrom (x : ℚ) (n : ℤ) : (left k : ℕ) → ℕ × ℤ
  | 0, k => (⌊x / 10 ^ (n - k)⌋₊, n - k)
  | left + 1, k =>
    match (around x (10 ^ (n - k))).find? fun s : ℕ => ReadsAs (s * 10 ^ (n - k)) x with
    | some s => if s = 10 ^ k then (1, n) else (s, n - k)
    | none => shortestFrom x n left (k + 1)

/-- Seventeen digits tell every double from the others. -/
def shortest (x : ℚ) : ℕ × ℤ := shortestFrom x (Int.log 10 x + 1) 16 1

def zeros (n : ℤ) : List Char := List.replicate n.toNat '0'

def exponentText (e : ℤ) : List Char :=
  'e' :: (if e < 0 then '-' else '+') :: Nat.toDigits 10 e.natAbs

def finiteText (x : ℚ) : List Char :=
  let (s, z) := shortest x
  let digits := Nat.toDigits 10 s
  let n : ℤ := digits.length + z
  if 0 ≤ z ∧ n ≤ 21 then digits ++ zeros z
  else if 0 < n ∧ n ≤ 21 then digits.take n.toNat ++ '.' :: digits.drop n.toNat
  else if -6 < n ∧ n ≤ 0 then '0' :: '.' :: zeros (-n) ++ digits
  else digits.take 1 ++ (if digits.length = 1 then [] else '.' :: digits.drop 1) ++ exponentText (n - 1)

def positiveText (x : ℚ) : List Char :=
  if 2 ^ 1024 ≤ x then "Infinity".toList else finiteText x

def numberText (x : ℚ) : String :=
  String.ofList (if x = 0 then ['0'] else if x < 0 then '-' :: positiveText (-x) else positiveText x)

/-! ### Safe integers -/

theorem spacing_pos (x : ℚ) : 0 < spacing x := zpow_pos (by norm_num) _

theorem spacing_safe {m : ℕ} (safe : m < 2 ^ 53) : spacing m ≤ 1 := by
  have small : Nat.log 2 m ≤ 52 := by
    by_cases zero : m = 0
    · simp [zero]
    · exact Nat.lt_succ_iff.mp (Nat.log_lt_of_lt_pow zero safe)
  rw [spacing,Int.log_natCast]
  apply zpow_le_one_of_nonpos₀ (by norm_num)
  omega

theorem safe_finite {m : ℕ} (safe : m < 2 ^ 53) : (m : ℚ) < 2 ^ 1024 := by
  have far : (2 : ℚ) ^ 53 ≤ 2 ^ 1024 := pow_le_pow_right₀ one_le_two (by norm_num)
  have below : (m : ℚ) < 2 ^ 53 := by exact_mod_cast safe
  exact below.trans_le far

theorem readsAs_self (x : ℚ) : ReadsAs x x := by
  have positive := spacing_pos x
  simp only [ReadsAs]
  split <;> split <;> constructor <;> linarith

/-- No other integer is read as a safe one. -/
theorem readsAs_safe {m v : ℕ} (safe : m < 2 ^ 53) (reads : ReadsAs v m) : v = m := by
  have positive := spacing_pos m
  have fine := spacing_safe safe
  have near : (m : ℚ) < v + 1 ∧ (v : ℚ) < m + 1 := by
    simp only [ReadsAs] at reads
    split at reads <;> split at reads <;> constructor <;> linarith [reads.1,reads.2]
  have near : m < v + 1 ∧ v < m + 1 := by exact_mod_cast near
  omega

theorem mem_around {m : ℕ} : m ∈ around m 1 := by
  simp only [around,div_one,Nat.floor_natCast]
  split <;> simp

theorem shortestFrom_safe {m n : ℕ} (safe : m < 2 ^ 53) {left k : ℕ} (bound : k ≤ n)
    (enough : n ≤ k + left) :
    ∃ s z : ℕ, shortestFrom m n left k = (s,(z : ℤ)) ∧ s * 10 ^ z = m := by
  induction left generalizing k with
  | zero =>
    have last : n = k := by omega
    subst last
    exact ⟨m,0,by simp [shortestFrom],by simp⟩
  | succ left ih =>
    have exponent : (n : ℤ) - k = (n - k : ℕ) := by omega
    have unit : (10 : ℚ) ^ ((n : ℤ) - k) = (10 ^ (n - k) : ℕ) := by
      rw [exponent,zpow_natCast]
      norm_cast
    rw [shortestFrom]
    split
    · next s found =>
      have reads := List.find?_some found
      rw [decide_eq_true_iff,unit,← Nat.cast_mul] at reads
      have same := readsAs_safe safe reads
      split
      · next power =>
        refine ⟨1,n,rfl,?_⟩
        rw [← same,power,one_mul,← pow_add,Nat.add_sub_cancel' bound]
      · exact ⟨s,n - k,by rw [exponent],same⟩
    · next none =>
      have shorter : k ≠ n := by
        rintro rfl
        have own := List.find?_eq_none.mp none m (by simpa using mem_around)
        simp [readsAs_self] at own
      exact ih (by omega) (by omega)

theorem toDigits_mul_pow {s : ℕ} (positive : 0 < s) (z : ℕ) :
    Nat.toDigits 10 (s * 10 ^ z) = Nat.toDigits 10 s ++ List.replicate z '0' := by
  induction z with
  | zero => simp
  | succ z ih =>
    have larger : 0 < s * 10 ^ z := Nat.mul_pos positive (Nat.pow_pos (by decide))
    rw [pow_succ,← mul_assoc,Nat.toDigits_of_base_le (by decide) (by omega),
      Nat.mul_div_cancel _ (by decide),Nat.mul_mod_left,ih,List.replicate_succ',List.append_assoc]
    rfl

theorem finiteText_safe {m : ℕ} (positive : 0 < m) (safe : m < 2 ^ 53) :
    finiteText m = Nat.toDigits 10 m := by
  have short : Nat.log 10 m + 1 ≤ 16 :=
    Nat.succ_le_of_lt (Nat.log_lt_of_lt_pow positive.ne' (safe.trans (by norm_num)))
  obtain ⟨s,z,found,whole⟩ := shortestFrom_safe (n := Nat.log 10 m + 1) safe
    (by omega : 1 ≤ _) (by omega : _ ≤ 1 + 16)
  have positive' : 0 < s := Nat.pos_of_ne_zero (by rintro rfl; simp at whole; omega)
  have text := toDigits_mul_pow positive' z
  rw [whole] at text
  have digits : (Nat.toDigits 10 m).length ≤ 16 :=
    Nat.toDigits_length 10 m 16 (by decide) (safe.trans (by norm_num))
  rw [text,List.length_append,List.length_replicate] at digits
  have found : shortest m = (s,(z : ℤ)) := by
    rw [shortest,Int.log_natCast]
    exact found
  rw [finiteText,found]
  simp only
  rw [if_pos ⟨by omega,by omega⟩,zeros,Int.toNat_natCast,text]

/-- The text of a safe integer is its decimal digits. -/
theorem numberText_safe {m : ℕ} (safe : m < 2 ^ 53) :
    numberText m = String.ofList (Nat.toDigits 10 m) := by
  rw [numberText]
  by_cases zero : m = 0
  · subst zero
    rfl
  · have positive : 0 < m := Nat.pos_of_ne_zero zero
    have nonneg : ¬(m : ℚ) < 0 := not_lt_of_ge (Nat.cast_nonneg m)
    have finite : ¬(2 ^ 1024 : ℚ) ≤ m := not_le.mpr (safe_finite safe)
    rw [if_neg (by exact_mod_cast zero),if_neg nonneg,positiveText,if_neg finite,
      finiteText_safe positive safe]

example : toDouble (2 ^ 53 + 1) = 2 ^ 53 := by decide +kernel
example : toDouble (10 ^ 400) = 2 ^ 1024 := by decide +kernel
example : numberText (2 ^ 60) = "1152921504606847000" := by decide +kernel
example : numberText (10 ^ 21) = "1e+21" := by decide +kernel

end JavaScript
