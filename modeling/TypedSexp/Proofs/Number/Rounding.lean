import Mathlib.Tactic.Ring
import TypedSexp.Number.Basic
import TypedSexp.Proofs.Number.Digits

/-!
# Rounding

Rounding a decimal to binary64 depends on its value only, not on how the value is split
into a coefficient and a power of ten (`Decimal.toBinary64_scale`), and it takes the
exact value of a code back to that code (`Binary64.nearestCode_units`). So the decimal
with the fewest digits rounds to the number it was made from
(`Decimal.toBinary64_shortest`): each candidate was tested for that, the exact value that
stands behind them passes the test too, and the zeros at the end that are cut off do not
change the value.

That no decimal with fewer digits rounds to the same number is not needed for this, and not shown.
-/

namespace TypedSexp

namespace Binary64

/-! ## Ratios -/

/-- A common factor does not change a rounded quotient. -/
theorem roundDiv_mul (a b : Nat) {k : Nat} (hk : 0 < k) :
    roundDiv (a * k) (b * k) = roundDiv a b := by
  have less : ∀ x y : Nat, x * k < y * k ↔ x < y := fun x y => Nat.mul_lt_mul_right hk
  simp only [roundDiv, Nat.mul_div_mul_right _ _ hk, Nat.mul_mod_mul_right, ← Nat.mul_assoc, less]

/-- A common factor of numerator and denominator does not change the nearest code. -/
theorem nearestCode_mul (num den : Nat) {k : Nat} (hk : 0 < k) :
    nearestCode (num * k) (den * k) = nearestCode num den := by
  have hnum : num * k * unitsPerOne = num * unitsPerOne * k := Nat.mul_right_comm ..
  have hden : ∀ s : Nat, den * k * s = den * s * k := fun s => Nat.mul_right_comm ..
  simp only [nearestCode, hnum, hden, Nat.mul_div_mul_right _ _ hk, roundDiv_mul _ _ hk]

/-- Equal ratios round to the same number, also to zero or to infinity. -/
theorem ofRatio_congr (negative : Bool) {a b c d : Nat} (hb : 0 < b) (hd : 0 < d)
    (h : a * d = c * b) : ofRatio negative a b = ofRatio negative c d := by
  have same : nearestCode a b = nearestCode c d := by
    rw [← nearestCode_mul a b hd, h, Nat.mul_comm b d, nearestCode_mul c d hb]
  simp only [ofRatio, same]

/-! ## Codes -/

theorem unitsPerOne_pos : 0 < unitsPerOne := by
  unfold unitsPerOne
  generalize 1074 = n
  exact Nat.two_pow_pos n

theorem roundDiv_mul_self (q : Nat) {b : Nat} (hb : 0 < b) : roundDiv (q * b) b = q := by
  simp [roundDiv, Nat.mul_div_cancel _ hb, hb]

/-- A code is the one nearest to its own magnitude. Ties cannot arise there, since the magnitude is
met exactly. -/
theorem nearestCode_units (code : Nat) : nearestCode (units code) unitsPerOne = code := by
  have hU := unitsPerOne_pos
  simp only [nearestCode, Nat.mul_div_cancel _ hU, Nat.pow_eq]
  -- Below the band the codes count single units; above it, the step is the band's number
  -- less one, since the magnitude has that many places more than the 53 that a code keeps.
  by_cases hband : code < 2 ^ 52
  · have hunits : units code = code := by
      simp only [units, Nat.pow_eq]
      rw [if_pos hband]
    have hlog : code.log2 - 52 = 0 := by
      have : code.log2 < 53 := by
        by_cases hz : code = 0
        · simp [hz]
        · exact (Nat.log2_lt hz).mpr (by omega)
      omega
    rw [hunits, hlog, Nat.pow_zero, Nat.mul_one, roundDiv_mul_self _ hU, Nat.zero_mul,
      Nat.zero_add]
  · obtain ⟨step, hstep⟩ : ∃ step, code / 2 ^ 52 = step + 1 :=
      Nat.exists_eq_succ_of_ne_zero (by omega)
    have hunits : units code = (2 ^ 52 + code % 2 ^ 52) * 2 ^ step := by
      simp only [units, Nat.pow_eq]
      rw [if_neg hband, hstep, Nat.add_sub_cancel]
    have hlog : (units code).log2 - 52 = step := by
      have : (units code).log2 = 52 + step := by
        have hpos : 0 < 2 ^ step := Nat.two_pow_pos step
        rw [hunits, Nat.log2_eq_iff (Nat.mul_ne_zero (by omega) hpos.ne'), Nat.add_right_comm,
          Nat.pow_add, Nat.pow_add]
        have hmod : code % 2 ^ 52 < 2 ^ 52 := Nat.mod_lt _ (by decide)
        exact ⟨Nat.mul_le_mul_right _ (by omega), Nat.mul_lt_mul_of_pos_right (by omega) hpos⟩
      omega
    have hscale : units code * unitsPerOne =
        (2 ^ 52 + code % 2 ^ 52) * (unitsPerOne * 2 ^ step) := by
      rw [hunits, Nat.mul_assoc, Nat.mul_comm (2 ^ step)]
    rw [hlog, hscale, roundDiv_mul_self _ (Nat.mul_pos hU (Nat.two_pow_pos step))]
    have := Nat.div_add_mod code (2 ^ 52)
    rw [hstep] at this
    omega

end Binary64

namespace Decimal

/-! ## The value of a decimal -/

theorem ratio_den_pos (d : Decimal) : 0 < d.ratio.2 := by
  rw [ratio]
  split
  · exact Nat.pow_pos (by decide)
  · exact Nat.one_pos

/-- The ratios of two ways to write a value are equal, as a product across since there are no
fractions here. -/
theorem ratio_scale (c k : Nat) (e : Int) :
    (ratio ⟨c * 10 ^ k, e - k⟩).1 * (ratio ⟨c, e⟩).2 =
      (ratio ⟨c, e⟩).1 * (ratio ⟨c * 10 ^ k, e - k⟩).2 := by
  simp only [ratio, Nat.pow_eq]
  by_cases he : e < 0
  · have hk : e - k < 0 := by omega
    have habs : (e - k).natAbs = e.natAbs + k := by omega
    simp only [if_pos he, if_pos hk, habs, pow_add]
    ring
  · by_cases hk : e - k < 0
    · have habs : k = e.natAbs + (e - k).natAbs := by omega
      simp only [if_neg he, if_pos hk]
      conv_lhs => rw [habs]
      rw [pow_add]
      ring
    · have habs : e.natAbs = k + (e - k).natAbs := by omega
      simp only [if_neg he, if_neg hk, habs, pow_add]
      ring

/-- Rounding does not see how a value is split into coefficient and power of ten. Readers and
writers may choose different splits because of it. -/
theorem toBinary64_scale (negative : Bool) (c k : Nat) (e : Int) :
    toBinary64 negative ⟨c * 10 ^ k, e - k⟩ = toBinary64 negative ⟨c, e⟩ := by
  by_cases hc : c = 0
  · simp [toBinary64, hc]
  · have hmagnitude : magnitude ⟨c * 10 ^ k, e - k⟩ = magnitude ⟨c, e⟩ := by
      simp only [magnitude, length_digits_mul_pow hc]
      push_cast
      omega
    have hzero : c * 10 ^ k = 0 ↔ c = 0 := by simp
    have hratio := Binary64.ofRatio_congr negative (ratio_den_pos ⟨c * 10 ^ k, e - k⟩)
      (ratio_den_pos ⟨c, e⟩) (ratio_scale c k e)
    simp only [toBinary64, hmagnitude, hzero, hratio]

/-- Cutting zeros off the end does not change the value that is rounded. -/
theorem toBinary64_trim (negative : Bool) (d : Decimal) :
    toBinary64 negative d.trim = toBinary64 negative d := by
  fun_induction trim d with
  | case1 d h ih =>
    have hten : d.coefficient / 10 * 10 ^ 1 = d.coefficient := by omega
    have hscale := toBinary64_scale negative (d.coefficient / 10) 1 (d.exponent + 1)
    rw [hten, Nat.cast_one, add_sub_cancel_right] at hscale
    exact ih.trans hscale.symm
  | case2 d h => rfl

/-- What a decimal rounds to with one sign it rounds to with the other. The sign is set apart before
rounding, so ties are broken alike. -/
theorem toBinary64_finite {d : Decimal} {code : Fin Binary64.codes}
    (h : toBinary64 false d = .finite false code) (negative : Bool) :
    toBinary64 negative d = .finite negative code := by
  rw [toBinary64] at h ⊢
  split at h
  next hzero =>
    rw [if_pos hzero]
    cases h
    rfl
  next hzero =>
    rw [if_neg hzero]
    split at h
    next hlarge => cases h
    next hlarge =>
      rw [if_neg hlarge]
      rw [Binary64.ofRatio] at h ⊢
      split at h
      next hcode =>
        rw [dif_pos hcode]
        cases h
        rfl
      next hcode => cases h

/-- No negative number is read without a sign. There is no other case than a finite number and
infinity. -/
theorem toBinary64_nonneg (d : Decimal) :
    (∃ code, toBinary64 false d = .finite false code) ∨ toBinary64 false d = .infinite false := by
  rw [toBinary64]
  split
  · exact .inl ⟨_, rfl⟩
  · split
    · exact .inr rfl
    · rw [Binary64.ofRatio]
      split
      · exact .inl ⟨_, rfl⟩
      · exact .inr rfl

/-! ## The fewest digits -/

/-- A candidate was tested before it was taken, so the decimal that was chosen rounds to the number.
Both candidates of a length are tested in the same way. -/
theorem hits_of_choose? {hits : Decimal → Bool} {power : Int} {a b : Nat} {d : Decimal}
    (h : choose? hits power a b = some d) : hits d = true := by
  simp only [choose?] at h
  split at h
  next hboth =>
    obtain ⟨hbelow, habove⟩ := Bool.and_eq_true_iff.mp hboth
    cases h
    split
    · exact hbelow
    · exact habove
  next =>
    split at h
    next hbelow =>
      cases h
      exact hbelow
    next =>
      split at h
      next habove =>
        cases h
        exact habove
      next => cases h

/-- A decimal that was taken as a neighbour of a code rounds to that code, because this was
tested. -/
theorem toBinary64_of_neighbour? {code : Fin Binary64.codes} {places : Nat} {d : Decimal}
    (h : neighbour? code places = some d) : toBinary64 false d = .finite false code := by
  rw [neighbour?] at h
  exact eq_of_beq (hits_of_choose? h)

/-- The magnitude of a code is below the next power of two. -/
theorem units_lt (code : Nat) : Binary64.units code < 2 ^ 53 * 2 ^ (code / 2 ^ 52) := by
  simp only [Binary64.units, Nat.pow_eq]
  have hpos : 0 < 2 ^ (code / 2 ^ 52) := Nat.two_pow_pos _
  split
  next hband => omega
  next hband =>
    have hmod : code % 2 ^ 52 < 2 ^ 52 := Nat.mod_lt _ (by decide)
    calc (2 ^ 52 + code % 2 ^ 52) * 2 ^ (code / 2 ^ 52 - 1)
        ≤ (2 ^ 52 + code % 2 ^ 52) * 2 ^ (code / 2 ^ 52) :=
          Nat.mul_le_mul_left _ (Nat.pow_le_pow_right (by decide) (Nat.sub_le _ 1))
      _ < 2 ^ 53 * 2 ^ (code / 2 ^ 52) := Nat.mul_lt_mul_of_pos_right (by omega) hpos

theorem ratio_fraction (c : Nat) {places : Nat} (h : 0 < places) :
    ratio ⟨c, -(places : Int)⟩ = (c, 10 ^ places) := by
  have hneg : -(places : Int) < 0 := by omega
  simp only [ratio, if_pos hneg, Int.natAbs_neg, Int.natAbs_natCast, Nat.pow_eq]

/-- The exact value of a positive code is within the range in which decimals are expanded. Outside
of it rounding answers zero or infinity without looking. -/
theorem magnitude_ofCode (code : Fin Binary64.codes) (h : Binary64.units code ≠ 0) :
    -324 < (ofCode code).magnitude ∧ (ofCode code).magnitude ≤ 309 := by
  have hcode : code.val / 2 ^ 52 ≤ 2046 := by
    have : code.val < 2047 * 2 ^ 52 := code.isLt
    omega
  have hlow : 750 < (digits (ofCode code).coefficient).length := by
    rw [← Nat.not_le, length_digits_le_iff (by decide), Nat.not_lt]
    have hpow : 10 ^ 750 ≤ Nat.pow 5 1074 := by decide +kernel
    exact hpow.trans (Nat.le_mul_of_pos_left _ (Nat.pos_of_ne_zero h))
  have hhigh : (digits (ofCode code).coefficient).length ≤ 1383 := by
    rw [length_digits_le_iff (by decide)]
    have hpow : 2 ^ 53 * 2 ^ 2046 * Nat.pow 5 1074 < 10 ^ 1383 := by decide +kernel
    have hmono : ∀ n, code.val / 2 ^ 52 ≤ n → 2 ^ (code.val / 2 ^ 52) ≤ 2 ^ n :=
      fun n hn => Nat.pow_le_pow_right (by decide) hn
    refine lt_of_le_of_lt (Nat.mul_le_mul_right _ ?_) hpow
    exact (units_lt code).le.trans (Nat.mul_le_mul_left _ (hmono 2046 hcode))
  have hexponent : (ofCode code).exponent = -1074 := rfl
  rw [magnitude, hexponent]
  omega

/-- The exact value of a code, written with powers of five, is its number of units over a power of
two. -/
theorem ratio_mul_pow (u places : Nat) (h : 0 < places) :
    (ratio ⟨u * Nat.pow 5 places, -(places : Int)⟩).1 * Nat.pow 2 places =
      u * (ratio ⟨u * Nat.pow 5 places, -(places : Int)⟩).2 := by
  have hten : Nat.pow 5 places * Nat.pow 2 places = 10 ^ places := (Nat.mul_pow 5 2 places).symm
  rw [ratio_fraction _ h, Nat.mul_assoc, hten]

/-- The exact value of a code rounds to the code. Zero is left out, which has no magnitude to
round. -/
theorem toBinary64_ofCode {code : Fin Binary64.codes} (h : Binary64.units code ≠ 0) :
    toBinary64 false (ofCode code) = .finite false code := by
  obtain ⟨hlow, hhigh⟩ := magnitude_ofCode code h
  have hcross : (ofCode code).ratio.1 * Binary64.unitsPerOne =
      Binary64.units code * (ofCode code).ratio.2 := by
    unfold ofCode Binary64.unitsPerOne
    generalize hplaces : 1074 = places
    have hexponent : (-1074 : Int) = -(places : Int) := by omega
    rw [hexponent]
    exact ratio_mul_pow _ places (by omega)
  have hzero : (ofCode code).coefficient ≠ 0 := by
    unfold ofCode
    generalize 1074 = places
    exact Nat.mul_ne_zero h (Nat.pow_pos (by decide)).ne'
  have hround := Binary64.ofRatio_congr false (ratio_den_pos (ofCode code))
    Binary64.unitsPerOne_pos hcross
  rw [toBinary64, if_neg (by omega), if_neg (by omega), hround]
  simp [Binary64.ofRatio, Binary64.nearestCode_units]

/-- **The decimal with the fewest digits reads back as the number it was made from**, with either
sign. That no decimal with fewer digits does is not said here. -/
theorem toBinary64_shortest (negative : Bool) (code : Fin Binary64.codes) :
    toBinary64 negative (shortest code) = .finite negative code := by
  refine toBinary64_finite ?_ negative
  rw [shortest]
  split
  next hzero =>
    have hcode : code = ⟨0, by decide⟩ := Fin.ext hzero
    rw [hcode]
    rfl
  next hzero =>
    rw [toBinary64_trim]
    cases hfound : (List.range 17).findSome? fun n => neighbour? code (n + 1) with
    | some d =>
      obtain ⟨n, -, hn⟩ := List.exists_of_findSome?_eq_some hfound
      exact toBinary64_of_neighbour? hn
    | none =>
      refine toBinary64_ofCode fun hunits => hzero ?_
      have hcode := Binary64.nearestCode_units code
      rw [hunits] at hcode
      rw [← hcode]
      simp [Binary64.nearestCode, Binary64.roundDiv]

/-! ## All places -/

/-- The same value with at least one place after the point. -/
def pointed (d : Decimal) : Decimal :=
  if 0 ≤ d.exponent then ⟨d.coefficient * 10 ^ (d.exponent.natAbs + 1), -1⟩ else d

/-- A decimal with a place after the point is the decimal written with some more zeros. -/
theorem exists_pointed_scale (d : Decimal) :
    ∃ k : Nat, d.pointed = ⟨d.coefficient * 10 ^ k, d.exponent - k⟩ := by
  by_cases he : 0 ≤ d.exponent
  · have hexponent : d.exponent - (d.exponent.natAbs + 1 : Nat) = -1 := by omega
    refine ⟨d.exponent.natAbs + 1, ?_⟩
    rw [pointed, if_pos he, hexponent]
  · exact ⟨0, by simp [pointed, he]⟩

/-- A place added after the point does not change what a decimal rounds to. -/
theorem toBinary64_pointed (negative : Bool) (d : Decimal) :
    toBinary64 negative d.pointed = toBinary64 negative d := by
  obtain ⟨k, hpointed⟩ := d.exists_pointed_scale
  rw [hpointed, toBinary64_scale]

/-- A decimal written with all its places is digits, a point and digits, which make that decimal
with a place after the point. -/
theorem exists_plain_pointed (d : Decimal) : ∃ whole fraction,
    plain d = digits whole ++ '.' :: fraction ∧ fraction ≠ [] ∧
      (∀ c ∈ fraction, isDigit c = true) ∧ ofDigits (digits whole) fraction = d.pointed := by
  obtain ⟨c, e⟩ := d
  by_cases he : 0 ≤ e
  · obtain ⟨n, rfl⟩ := Int.eq_ofNat_of_zero_le he
    refine ⟨c * 10 ^ n, ['0'], ?_, by simp, List.forall_mem_singleton.mpr rfl, ?_⟩
    · rw [plain, if_pos he]
      rfl
    · rw [pointed, if_pos he, ofDigits, digitsValue_append, digitsValue_digits]
      simp [digitsValue]
      ring
  · obtain ⟨places, rfl⟩ : ∃ places : Nat, e = -(places : Int) := ⟨e.natAbs, by omega⟩
    have hplaces : 0 < places := by omega
    have hmod : c % 10 ^ places < 10 ^ places := Nat.mod_lt _ (Nat.pow_pos (by decide))
    have hlength := length_padded hplaces hmod
    refine ⟨c / 10 ^ places, padded places (c % 10 ^ places), ?_, ?_,
      fun _ => isDigit_of_mem_padded, ?_⟩
    · rw [plain, if_neg he]
      simp only [Int.natAbs_neg, Int.natAbs_natCast, Nat.pow_eq]
    · exact List.ne_nil_of_length_pos (hplaces.trans_eq hlength.symm)
    · rw [pointed, if_neg he, ofDigits, digitsValue_append, digitsValue_digits, digitsValue_padded,
        hlength, Nat.div_add_mod]

/-- The digits before and after the point make a decimal of the same value, so the text reads back
as the number that the decimal rounds to. -/
theorem exists_plain_eq (d : Decimal) : ∃ whole fraction,
    plain d = digits whole ++ '.' :: fraction ∧ fraction ≠ [] ∧
      (∀ c ∈ fraction, isDigit c = true) ∧
      ∀ negative, toBinary64 negative (ofDigits (digits whole) fraction) =
        toBinary64 negative d := by
  obtain ⟨whole, fraction, hplain, hne, hdigits, hpointed⟩ := exists_plain_pointed d
  refine ⟨whole, fraction, hplain, hne, hdigits, fun negative => ?_⟩
  rw [hpointed, toBinary64_pointed]

/-! ## One digit before the point -/

section Scientific

variable {d : Decimal} {c : Char} {more : List Char} (h : digits d.coefficient = c :: more)

include h

/-- The notation with an exponent is the first digit, the others behind a point if there are any,
and the exponent with its sign. -/
theorem scientific_eq : d.scientific = c :: ((if more = [] then [] else '.' :: more) ++
    'e' :: (if d.magnitude - 1 < 0 then '-' else '+') ::
      padded 2 (d.magnitude - 1).natAbs) := by
  cases more <;> simp [scientific, h]

/-- The digits after the first became places, which the exponent makes up for. -/
theorem exponent_scientific : -(more.length : Int) + (d.magnitude - 1) = d.exponent := by
  rw [magnitude, h, List.length_cons]
  omega

end Scientific

end Decimal

end TypedSexp
