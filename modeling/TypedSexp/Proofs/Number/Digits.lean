import Mathlib.Algebra.Order.Ring.Nat
import Mathlib.Data.List.Basic
import TypedSexp.Number.Decimal

/-!
# Digits

The digits of a number are written and read with the most significant one first, so
digits that follow others shift the value of those by a power of ten
(`digitsValue_append`). The value of a number's own digits is the number
(`digitsValue_digits`), and zeros before them do not count (`digitsValue_padded`).

Readers take the longest run of digits from the front of a text. `takeWhile_run` and
`dropWhile_run` say what such a run is when it is known where it stops.
-/

namespace TypedSexp

/-! ## Runs -/

section Run

variable {α : Type} {p : α → Bool} {run rest : List α}

/-- A run of digits that stops where the rest begins is what is taken from the front of both. The
rest may be empty, which stops a run as well. -/
theorem takeWhile_run (inside : ∀ a ∈ run, p a = true) (stop : ∀ a ∈ rest.head?, p a = false) :
    (run ++ rest).takeWhile p = run := by
  rw [List.takeWhile_append_of_pos inside]
  cases rest with
  | nil => simp
  | cons a rest => simp [stop a rfl]

theorem dropWhile_run (inside : ∀ a ∈ run, p a = true) (stop : ∀ a ∈ rest.head?, p a = false) :
    (run ++ rest).dropWhile p = rest := by
  rw [List.dropWhile_append_of_pos inside]
  cases rest with
  | nil => rfl
  | cons a rest => simp [stop a rfl]

/-- A text starts with one run only that stops where the rest begins. Uniqueness of reading rests on
this wherever words and digits are cut off. -/
theorem run_unique {run' rest' : List α} (inside : ∀ a ∈ run, p a = true)
    (inside' : ∀ a ∈ run', p a = true) (stop : ∀ a ∈ rest.head?, p a = false)
    (stop' : ∀ a ∈ rest'.head?, p a = false) (h : run ++ rest = run' ++ rest') :
    run = run' ∧ rest = rest' := by
  have hrun : run = run' := by
    rw [← takeWhile_run inside stop, h, takeWhile_run inside' stop']
  subst hrun
  exact ⟨rfl, List.append_cancel_left h⟩

/-- Dropping stops at something that is not dropped. -/
theorem head?_dropWhile (p : α → Bool) (l : List α) : ∀ a ∈ (l.dropWhile p).head?, p a = false := by
  intro a ha
  have := List.head?_dropWhile_not p l
  rw [Option.mem_def.mp ha] at this
  simpa using this

end Run

namespace Decimal

theorem isDigit_eq (c : Char) : isDigit c = c.isDigit := rfl

/-- The value of digits is the one that the library gives them. -/
theorem digitsValue_eq (cs : List Char) : digitsValue cs = Nat.ofDigitChars 10 cs 0 :=
  Nat.ofDigitChars_eq_foldl.symm

theorem digits_ne_nil (n : Nat) : digits n ≠ [] := Nat.toDigits_ne_nil

theorem isDigit_of_mem_digits {n : Nat} {c : Char} (h : c ∈ digits n) : isDigit c = true :=
  Nat.isDigit_of_mem_toDigits (by decide) (by decide) h

/-- The digits of a number read back as that number. With this and `digitsValue_append` readers and
writers of numerals are compared without looking into either. -/
@[simp] theorem digitsValue_digits (n : Nat) : digitsValue (digits n) = n := by
  rw [digitsValue_eq]
  exact Nat.ofDigitChars_ten_toDigits

/-- The digits of a positive number do not start with a zero. -/
theorem head_digits_ne_zero {n : Nat} (h : n ≠ 0) : ∀ c ∈ (digits n).head?, c ≠ '0' := by
  induction n using Nat.strongRecOn with
  | ind n ih =>
    by_cases hn : n < 10
    · have hchar : ∀ n < 10, n ≠ 0 → n.digitChar ≠ '0' := by decide
      rw [digits, Nat.toDigits_of_lt_base hn]
      rintro c ⟨⟩
      exact hchar n hn h
    · have hdigits : digits n = digits (n / 10) ++ [(n % 10).digitChar] :=
        Nat.toDigits_of_base_le (by decide) (by omega)
      rw [hdigits, List.head?_append_of_ne_nil _ (digits_ne_nil _)]
      exact ih (n / 10) (by omega) (by omega)

theorem exists_digitChar {c : Char} (h : isDigit c = true) :
    ∃ d < 10, c = Nat.digitChar d := by
  simp only [isDigit, Bool.and_eq_true, decide_eq_true_eq, Char.le_def,
    UInt32.le_iff_toNat_le] at h
  obtain ⟨hlow, hhigh⟩ := h
  change 48 ≤ c.toNat at hlow
  change c.toNat ≤ 57 at hhigh
  have hchar : ∀ d < 10, Char.ofNat (d + 48) = Nat.digitChar d := by decide
  refine ⟨c.toNat - 48, by omega, ?_⟩
  rw [← hchar _ (by omega), Nat.sub_add_cancel hlow, Char.ofNat_toNat]

/-- Digits that follow others shift their value by a power of ten, one power for each digit that
follows. -/
theorem digitsValue_append (cs ds : List Char) :
    digitsValue (cs ++ ds) = 10 ^ ds.length * digitsValue cs + digitsValue ds := by
  simp only [digitsValue_eq]
  rw [Nat.ofDigitChars_append, Nat.ofDigitChars_eq_ofDigitChars_zero]

/-- A number has at most so many digits exactly if it is below that power of ten. -/
theorem length_digits_le_iff {n k : Nat} (hk : 0 < k) : (digits n).length ≤ k ↔ n < 10 ^ k :=
  Nat.length_toDigits_le_iff (by decide) hk

/-- A number that fits into a width is written in exactly this width. -/
theorem length_padded {width n : Nat} (hw : 0 < width) (h : n < 10 ^ width) :
    (padded width n).length = width := by
  have := (length_digits_le_iff hw).mpr h
  rw [padded, List.length_append, List.length_replicate]
  omega

theorem isDigit_of_mem_padded {width n : Nat} {c : Char} (h : c ∈ padded width n) :
    isDigit c = true := by
  rw [padded, List.mem_append] at h
  rcases h with h | h
  · rw [(List.mem_replicate.mp h).2]
    rfl
  · exact isDigit_of_mem_digits h

/-- Zeros before digits do not count, so a padded number reads back as the number. -/
@[simp] theorem digitsValue_padded (width n : Nat) : digitsValue (padded width n) = n := by
  have zeros : ∀ k, digitsValue (List.replicate k '0') = 0 := by
    intro k
    rw [digitsValue_eq, Nat.ofDigitChars_replicate_zero, Nat.mul_zero]
  rw [padded, digitsValue_append, zeros, digitsValue_digits, Nat.mul_zero, Nat.zero_add]

/-- Zeros at the end make a positive number longer by their number. Zero has one digit, whatever it
is multiplied with. -/
theorem length_digits_mul_pow {n : Nat} (hn : n ≠ 0) (k : Nat) :
    (digits (n * 10 ^ k)).length = (digits n).length + k := by
  induction k with
  | zero => simp
  | succ k ih =>
    have hpos : 10 ≤ n * 10 ^ (k + 1) := by
      have : 0 < n * 10 ^ k := Nat.mul_pos (by omega) (Nat.pow_pos (by decide))
      rw [pow_succ, ← mul_assoc]
      omega
    have hdiv : n * 10 ^ (k + 1) / 10 = n * 10 ^ k := by
      rw [pow_succ, ← mul_assoc, Nat.mul_div_cancel _ (by decide)]
    rw [digits, Nat.toDigits_of_base_le (by decide) hpos, hdiv, List.length_append]
    change (digits (n * 10 ^ k)).length + 1 = _
    rw [ih, Nat.add_assoc]

end Decimal

end TypedSexp
