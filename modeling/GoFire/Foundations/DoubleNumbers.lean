import Mathlib.Algebra.Order.Group.Nat
import Mathlib.Data.Nat.Dist
import Mathlib.Tactic.Ring

/-! Integers as IEEE doubles: the nearest double of an integer, rounded half to even, and the
shortest decimal that is read as a double.
-/

namespace DoubleNumbers

-----------------------------------------------------------------------------------------
-- The nearest double
-----------------------------------------------------------------------------------------

/-- The quotient rounded to the nearest integer, half to even. -/
def divRound (n q : Nat) : Nat :=
  if 2 * (n % q) < q ∨ (2 * (n % q) = q ∧ n / q % 2 = 0) then n / q else n / q + 1

/-- The distance of the doubles around a number: 53 bits of it are kept. -/
def spacing (n : Nat) : Nat := 2 ^ (n.log2 - 52)

def nearest (n : Nat) : Nat := divRound n (spacing n) * spacing n

theorem spacing_pos (n : Nat) : 0 < spacing n := Nat.two_pow_pos _

theorem divRound_mul {q : Nat} (pos : 0 < q) (d : Nat) : divRound (d * q) q = d := by
  rw [divRound, Nat.mul_mod_left, Nat.mul_div_cancel d pos, if_pos (Or.inl pos)]

theorem divRound_mono {a b q : Nat} (le : a ≤ b) : divRound a q ≤ divRound b q := by
  have quotients := Nat.div_le_div_right (c := q) le
  rcases Nat.lt_or_ge (a / q) (b / q) with less | same
  · unfold divRound
    split <;> split <;> omega
  · have same : a / q = b / q := Nat.le_antisymm quotients same
    have remainders : a % q ≤ b % q := by
      have ofA := Nat.div_add_mod a q
      have ofB := Nat.div_add_mod b q
      rw [same] at ofA
      omega
    unfold divRound
    rw [same]
    split <;> split <;> omega

theorem nearest_of_dvd {n : Nat} (whole : spacing n ∣ n) : nearest n = n := by
  obtain ⟨d, same⟩ := whole
  have rounded := divRound_mul (spacing_pos n) d
  rw [Nat.mul_comm, ← same] at rounded
  rw [nearest, rounded, Nat.mul_comm, ← same]

theorem nearest_of_lt {n : Nat} (small : n < 2 ^ 53) : nearest n = n := by
  rcases Nat.eq_zero_or_pos n with rfl | pos
  · rfl
  · have bits : n.log2 < 53 := (Nat.log2_lt pos.ne').mpr small
    have close : spacing n = 1 := by rw [spacing, Nat.sub_eq_zero_of_le (by omega), Nat.pow_zero]
    exact nearest_of_dvd (close ▸ Nat.one_dvd n)

/-- A number between two powers of two stays between them. -/
theorem nearest_between {n : Nat} (pos : n ≠ 0)
    : 2 ^ n.log2 ≤ nearest n ∧ nearest n ≤ 2 ^ (n.log2 + 1) := by
  have lower := Nat.log2_self_le pos
  have upper : n ≤ 2 ^ (n.log2 + 1) := Nat.lt_log2_self.le
  rcases Nat.lt_or_ge n.log2 53 with small | large
  · rw [nearest_of_lt ((Nat.log2_lt pos).mp small)]
    exact ⟨lower, upper⟩
  · have scaleLower : 2 ^ n.log2 = 2 ^ 52 * spacing n := by
      rw [spacing, ← Nat.pow_add]
      congr 1
      omega
    have scaleUpper : 2 ^ (n.log2 + 1) = 2 ^ 53 * spacing n := by
      rw [spacing, ← Nat.pow_add]
      congr 1
      omega
    have above := divRound_mono (q := spacing n) (scaleLower ▸ lower)
    have below := divRound_mono (q := spacing n) (scaleUpper ▸ upper)
    rw [divRound_mul (spacing_pos n)] at above below
    rw [scaleLower, scaleUpper, nearest]
    exact ⟨Nat.mul_le_mul_right _ above, Nat.mul_le_mul_right _ below⟩

theorem nearest_two_pow (k : Nat) : nearest (2 ^ k) = 2 ^ k := by
  apply nearest_of_dvd
  rw [spacing, Nat.log2_two_pow]
  exact Nat.pow_dvd_pow 2 (Nat.sub_le k 52)

theorem nearest_ne_zero {n : Nat} (pos : n ≠ 0) : nearest n ≠ 0 :=
  ((Nat.two_pow_pos n.log2).trans_le (nearest_between pos).1).ne'

theorem nearest_mono {a b : Nat} (le : a ≤ b) : nearest a ≤ nearest b := by
  rcases Nat.eq_zero_or_pos a with rfl | pos
  · exact Nat.zero_le _
  · have posB : b ≠ 0 := (pos.trans_le le).ne'
    have bits : a.log2 ≤ b.log2 := (Nat.le_log2 posB).mpr ((Nat.log2_self_le pos.ne').trans le)
    rcases Nat.lt_or_ge a.log2 b.log2 with fewer | same
    · calc
        nearest a ≤ 2 ^ (a.log2 + 1) := (nearest_between pos.ne').2
        _ ≤ 2 ^ b.log2 := Nat.pow_le_pow_right Nat.two_pos fewer
        _ ≤ nearest b := (nearest_between posB).1
    · have sameSpacing : spacing a = spacing b := by
        rw [spacing, spacing, Nat.le_antisymm bits same]
      rw [nearest, nearest, sameSpacing]
      exact Nat.mul_le_mul_right _ (divRound_mono le)

/-- The nearest double is a double. -/
theorem nearest_nearest (n : Nat) : nearest (nearest n) = nearest n := by
  rcases Nat.eq_zero_or_pos n with rfl | pos
  · rfl
  · obtain ⟨lower, upper⟩ := nearest_between pos.ne'
    rcases Nat.lt_or_ge (nearest n) (2 ^ (n.log2 + 1)) with below | top
    · have found := nearest_ne_zero pos.ne'
      have bits : (nearest n).log2 = n.log2 := (Nat.log2_eq_iff found).mpr ⟨lower, below⟩
      apply nearest_of_dvd
      rw [spacing, bits]
      exact Nat.dvd_mul_left _ _
    · rw [Nat.le_antisymm upper top]
      exact nearest_two_pow _

-----------------------------------------------------------------------------------------
-- The shortest decimal of a double
-----------------------------------------------------------------------------------------

/-- The multiple of `10 ^ k` that is nearest to the double among those that are read as it. -/
def candidate (v k : Nat) : Option Nat :=
  let below := v / 10 ^ k * 10 ^ k
  let above := below + 10 ^ k
  if nearest below = v ∧ (nearest above = v → v - below ≤ above - v) then some below
  else if nearest above = v then some above
  else none

/-- The first candidate, with the most zeros at its end; the double itself has the fewest. -/
def shortestFrom (v : Nat) : Nat → Nat
  | 0 => v
  | k + 1 => (candidate v (k + 1)).getD (shortestFrom v k)

/-- The decimal with the fewest significant digits that is read as the double. -/
def shortest (v : Nat) : Nat := shortestFrom v (v.log2 + 1)

/-- Among the numbers that are read as the same double, none has more zeros at its end, and none
with as many is nearer to the double.
-/
structure IsShortest (n : Nat) : Prop where
  fewest : ∀ k m, 10 ^ k ∣ m → nearest m = nearest n → 10 ^ k ∣ n
  closest : ∀ k m, ¬ 10 ^ (k + 1) ∣ n → 10 ^ k ∣ m → nearest m = nearest n
    → (nearest n).dist n < (nearest n).dist m ∨ ((nearest n).dist n = (nearest n).dist m ∧ n ≤ m)

theorem candidate_some {v k m : Nat} (found : candidate v k = some m)
    : 10 ^ k ∣ m ∧ nearest m = v := by
  simp only [candidate] at found
  split at found
  case isTrue below =>
    obtain rfl := Option.some.inj found
    exact ⟨Nat.dvd_mul_left _ _, below.1⟩
  case isFalse =>
    split at found
    case isTrue above =>
      obtain rfl := Option.some.inj found
      exact ⟨(Nat.dvd_add_self_right).mpr (Nat.dvd_mul_left _ _), above⟩
    case isFalse => cases found

/-- What is read as a double reaches from there to the double without a gap. -/
theorem nearest_between_eq {v m n : Nat} (double : nearest v = v) (read : nearest m = v)
    (between : (m ≤ n ∧ n ≤ v) ∨ (v ≤ n ∧ n ≤ m))
    : nearest n = v := by
  rcases between with ⟨lower, upper⟩ | ⟨lower, upper⟩
  · exact Nat.le_antisymm ((nearest_mono upper).trans_eq double) (read ▸ nearest_mono lower)
  · exact Nat.le_antisymm ((nearest_mono upper).trans_eq read)
      (double.symm.trans_le (nearest_mono lower))

/-- A multiple that is read as the double gives a candidate, and no such multiple is nearer. -/
theorem candidate_closest {v k m : Nat} (double : nearest v = v) (whole : 10 ^ k ∣ m)
    (read : nearest m = v)
    : ∃ c, candidate v k = some c ∧ (v.dist c < v.dist m ∨ (v.dist c = v.dist m ∧ c ≤ m)) := by
  have pos : 0 < 10 ^ k := Nat.pow_pos (Nat.succ_pos 9)
  have belowLe : v / 10 ^ k * 10 ^ k ≤ v := Nat.div_mul_le_self v _
  have ltAbove : v < v / 10 ^ k * 10 ^ k + 10 ^ k := Nat.lt_div_mul_add pos
  have outside : m ≤ v / 10 ^ k * 10 ^ k ∨ v / 10 ^ k * 10 ^ k + 10 ^ k ≤ m := by
    obtain ⟨d, rfl⟩ := whole
    rw [Nat.mul_comm (10 ^ k) d, ← Nat.succ_mul]
    rcases Nat.lt_or_ge (v / 10 ^ k) d with above | below
    · exact Or.inr (Nat.mul_le_mul_right _ above)
    · exact Or.inl (Nat.mul_le_mul_right _ below)
  simp only [candidate, Nat.dist]
  generalize v / 10 ^ k * 10 ^ k = below at belowLe ltAbove outside ⊢
  rcases outside with early | late
  · have readBelow := nearest_between_eq double read (Or.inl ⟨early, belowLe⟩)
    by_cases near : nearest (below + 10 ^ k) = v → v - below ≤ below + 10 ^ k - v
    · exact ⟨below, if_pos ⟨readBelow, near⟩, by omega⟩
    · obtain ⟨readAbove, nearer⟩ := Classical.not_imp.mp near
      refine ⟨below + 10 ^ k, ?_, by omega⟩
      rw [if_neg (fun both => near both.2), if_pos readAbove]
  · have readAbove := nearest_between_eq double read (Or.inr ⟨ltAbove.le, late⟩)
    by_cases near : nearest below = v ∧ v - below ≤ below + 10 ^ k - v
    · exact ⟨below, if_pos ⟨near.1, fun _ => near.2⟩, by omega⟩
    · refine ⟨below + 10 ^ k, ?_, by omega⟩
      rw [if_neg (fun both => near ⟨both.1, both.2 readAbove⟩), if_pos readAbove]

/-- The search ends at the first candidate, by induction on where it begins. -/
theorem shortestFrom_spec {v : Nat} (double : nearest v = v) (bound : Nat)
    : ∃ k, candidate v k = some (shortestFrom v bound)
      ∧ ∀ j, k < j → j ≤ bound → candidate v j = none := by
  induction bound with
  | zero =>
      have whole : 10 ^ 0 ∣ v := Nat.one_dvd v
      obtain ⟨c, found, near⟩ := candidate_closest double whole double
      have same : c = v := by
        simp only [Nat.dist] at near
        omega
      exact ⟨0, same ▸ found, fun j later most => absurd later most.not_gt⟩
  | succ bound ih =>
      cases found : candidate v (bound + 1) with
      | some c =>
          refine ⟨bound + 1, ?_, fun j later most => absurd later most.not_gt⟩
          rw [shortestFrom, found, Option.getD_some]
      | none =>
          obtain ⟨k, first, earlier⟩ := ih
          refine ⟨k, ?_, fun j later most => ?_⟩
          · rw [shortestFrom, found, Option.getD_none]
            exact first
          · rcases Nat.lt_or_eq_of_le most with less | rfl
            · exact earlier j later (Nat.le_of_lt_succ less)
            · exact found

/-- No number that is read as the double has more zeros than the search begins with. -/
theorem candidate_large {v k : Nat} (pos : v ≠ 0) (large : v.log2 + 1 < k)
    : candidate v k = none := by
  cases found : candidate v k with
  | none => rfl
  | some c =>
      obtain ⟨whole, read⟩ := candidate_some found
      have posC : 0 < c := by
        rcases Nat.eq_zero_or_pos c with rfl | posC
        · exact absurd read.symm pos
        · exact posC
      have tooLarge : 2 ^ k ≤ v := by
        calc
          2 ^ k = nearest (2 ^ k) := (nearest_two_pow k).symm
          _ ≤ nearest (10 ^ k) := nearest_mono (Nat.pow_le_pow_left (by omega) k)
          _ ≤ nearest c := nearest_mono (Nat.le_of_dvd posC whole)
          _ = v := read
      have bits := (Nat.le_log2 pos).mpr tooLarge
      omega

theorem shortest_spec {v : Nat} (double : nearest v = v) (pos : v ≠ 0)
    : ∃ k, candidate v k = some (shortest v) ∧ ∀ j, k < j → candidate v j = none := by
  obtain ⟨k, found, none⟩ := shortestFrom_spec double (v.log2 + 1)
  refine ⟨k, found, fun j later => ?_⟩
  rcases Nat.lt_or_ge (v.log2 + 1) j with large | inSearch
  · exact candidate_large pos large
  · exact none j later inSearch

/-- The decimal of a number's double is the number itself exactly when it is the shortest. -/
theorem shortest_nearest_iff {n : Nat} : shortest (nearest n) = n ↔ IsShortest n := by
  rcases Nat.eq_zero_or_pos n with rfl | posN
  · exact iff_of_true rfl ⟨fun k _ _ _ => Nat.dvd_zero _, fun k _ odd => absurd (Nat.dvd_zero _) odd⟩
  · have double := nearest_nearest n
    have pos := nearest_ne_zero posN.ne'
    obtain ⟨k, found, none⟩ := shortest_spec double pos
    have upTo {j m : Nat} (whole : 10 ^ j ∣ m) (read : nearest m = nearest n) : j ≤ k := by
      by_contra beyond
      obtain ⟨c, candidate, -⟩ := candidate_closest double whole read
      rw [none j (Nat.lt_of_not_le beyond)] at candidate
      cases candidate
    obtain ⟨whole, read⟩ := candidate_some found
    constructor
    · intro same
      rw [same] at found whole
      refine ⟨fun j m wholeM readM => ?_, fun j m last wholeM readM => ?_⟩
      · exact (Nat.pow_dvd_pow 10 (upTo wholeM readM)).trans whole
      · have fewer : k ≤ j := by
          by_contra more
          exact last ((Nat.pow_dvd_pow 10 (Nat.lt_of_not_le more)).trans whole)
        have wholeK := (Nat.pow_dvd_pow 10 fewer).trans wholeM
        obtain ⟨c, candidate, near⟩ := candidate_closest double wholeK readM
        rw [found] at candidate
        obtain rfl := Option.some.inj candidate
        exact near
    · intro short
      have wholeN := short.fewest k _ whole read
      have last : ¬ 10 ^ (k + 1) ∣ n := fun more => absurd (upTo more rfl) (Nat.not_succ_le_self k)
      have nearN := short.closest k _ last whole read
      obtain ⟨c, candidate, near⟩ := candidate_closest double wholeN rfl
      rw [found] at candidate
      obtain rfl := Option.some.inj candidate
      omega

/-- Below 2 ^ 53 every number is its own shortest decimal. -/
theorem isShortest_of_lt {n : Nat} (small : n < 2 ^ 53) : IsShortest n := by
  have only {m : Nat} (read : nearest m = nearest n) : m = n := by
    rw [nearest_of_lt small] at read
    have smallM : m < 2 ^ 53 := by
      by_contra large
      have above := nearest_mono (Nat.le_of_not_lt large)
      rw [nearest_two_pow, read] at above
      exact absurd small above.not_gt
    rw [← read, nearest_of_lt smallM]
  refine ⟨fun k m whole read => only read ▸ whole, fun k m _ _ read => ?_⟩
  rw [only read]
  exact Or.inr ⟨rfl, le_rfl⟩

-----------------------------------------------------------------------------------------
-- Signed numbers
-----------------------------------------------------------------------------------------

/-- A double whose value is an integer. -/
structure WholeDouble where
  value : Int
  double : nearest value.natAbs = value.natAbs

namespace WholeDouble

theorem natAbs_sign_mul {n : Int} {k : Nat} (zero : n = 0 → k = 0) : (n.sign * k).natAbs = k := by
  rcases eq_or_ne n 0 with rfl | nonzero
  · rw [zero rfl]
    rfl
  · rw [Int.natAbs_mul, Int.natAbs_sign_of_ne_zero nonzero, Nat.one_mul, Int.natAbs_natCast]

/-- The double that a decimal is read as. -/
def ofInt (n : Int) : WholeDouble where
  value := n.sign * nearest n.natAbs
  double := by
    rw [natAbs_sign_mul (fun zero => by rw [zero]; rfl)]
    exact nearest_nearest _

/-- The shortest decimal of the double. -/
def toDecimal (d : WholeDouble) : Int := d.value.sign * shortest d.value.natAbs

/-- The decimals that are kept when they are read as a double and written again. -/
theorem toDecimal_ofInt_iff (n : Int) : (ofInt n).toDecimal = n ↔ IsShortest n.natAbs := by
  rw [← shortest_nearest_iff]
  rcases eq_or_ne n 0 with rfl | nonzero
  · exact iff_of_true rfl rfl
  · have pos : nearest n.natAbs ≠ 0 := nearest_ne_zero (Int.natAbs_ne_zero.mpr nonzero)
    have signed {k : Nat} : (n.sign * k).natAbs = k :=
      natAbs_sign_mul fun zero => absurd zero nonzero
    have decimal : (ofInt n).toDecimal = n.sign * shortest (nearest n.natAbs) := by
      rw [toDecimal, ofInt, signed, Int.sign_mul, Int.sign_sign, Int.sign_natCast_of_ne_zero pos,
        Int.mul_one]
    rw [decimal]
    constructor
    · intro same
      rw [← signed (k := shortest _), same]
    · intro same
      rw [same, Int.sign_mul_natAbs]

end WholeDouble

end DoubleNumbers
