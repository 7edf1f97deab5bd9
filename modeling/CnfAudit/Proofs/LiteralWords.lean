import CnfAudit.Proofs.Literals
import CnfAudit.Assignment
import Mathlib.Algebra.Group.Int.Defs

/-!
# Literals as words
-/

namespace CnfAudit

private theorem mod_two_pow_ne_zero_iff (n k : Nat) :
    n % 2 ^ k ≠ 0 ↔ ∃ i < k, n.testBit i = true := by
  constructor
  · intro h
    obtain ⟨i, hi⟩ := Nat.exists_testBit_of_ne_zero h
    rw [Nat.testBit_mod_two_pow, Bool.and_eq_true, decide_eq_true_iff] at hi
    exact ⟨i, hi⟩
  · rintro ⟨i, hlt, hi⟩ hzero
    have hbit := Nat.testBit_mod_two_pow n k i
    rw [hzero, Nat.zero_testBit, decide_eq_true hlt, Bool.true_and, hi] at hbit
    exact Bool.false_ne_true hbit

namespace Literal

theorem ofWord_word (l : Literal) : ofWord l.word.toNat = .ok l := by
  have hlt : l.word.toNat < 0x100000000 := l.word.toNat_lt
  have hword : UInt32.ofNat (l.word.toNat : Int).toNat = l.word := by
    rw [Int.toNat_natCast, UInt32.ofNat_toNat]
  rw [ofWord, dif_pos ⟨by omega, by omega, by rw [hword]; exact l.hasVariable⟩]
  congr 2

theorem ofWord_eq_ok_iff {word : Int} {l : Literal} :
    ofWord word = .ok l ↔ (l.word.toNat : Int) = word := by
  constructor
  · intro h
    rw [ofWord] at h
    split at h
    · rename_i hvalid
      have hlt : word.toNat < UInt32.size := by
        have := hvalid.2.1
        rw [UInt32.size]
        omega
      rw [← Except.ok.inj h, UInt32.toNat_ofNat_of_lt' hlt, Int.toNat_of_nonneg hvalid.1]
    · simp [reject] at h
  · rintro rfl
    exact l.ofWord_word

/-- The words of literals are the 32-bit numbers that have a variable. -/
theorem exists_word_eq_iff {word : Int} :
    (∃ l : Literal, (l.word.toNat : Int) = word) ↔
      0 ≤ word ∧ word < 2 ^ 32 ∧ ∃ i < 31, word.toNat.testBit i = true := by
  rw [← mod_two_pow_ne_zero_iff]
  constructor
  · rintro ⟨l, rfl⟩
    have hlt : l.word.toNat < 0x100000000 := l.word.toNat_lt
    have hpos := l.var_pos
    rw [var_eq_mod] at hpos
    omega
  · rintro ⟨hnonneg, hlt, hvariable⟩
    have hrange : 0 < word.toNat % 2 ^ 31 ∧ word.toNat % 2 ^ 31 ≤ maxVariable := by
      rw [maxVariable]
      omega
    refine ⟨.ofVar (word.toNat % 2 ^ 31) (2 ^ 31 ≤ word) hrange, ?_⟩
    rw [word_ofVar]
    simp only [decide_eq_true_eq]
    split <;> omega

theorem ofVariable_var (l : Literal) : ofVariable l.var l.isPositive = .ok l := by
  have hrange : 0 < (l.var : Int).toNat ∧ (l.var : Int).toNat ≤ maxVariable :=
    ⟨l.var_pos, l.var_le⟩
  rw [ofVariable, dif_pos hrange]
  exact congrArg Except.ok (ext_var (by simp) (by simp))

section Negation

variable (l : Literal)

/-- Negation flips the bit above the variable. -/
theorem toNat_word_neg : (-l).word.toNat = l.word.toNat ^^^ 2 ^ 31 := by
  show (l.word ^^^ positiveBit).toNat = _
  rw [UInt32.toNat_xor]
  rfl

@[simp] theorem var_neg : (-l).var = l.var := by
  rw [var_eq_mod, var_eq_mod, toNat_word_neg]
  show (l.word.toNat ^^^ 2 ^ 31) % 2 ^ 31 = l.word.toNat % 2 ^ 31
  rw [Nat.xor_mod_two_pow, Nat.mod_self, Nat.xor_zero]

theorem isPositive_eq_testBit : l.isPositive = l.word.toNat.testBit 31 := by
  have hlt : l.word.toNat < 0x100000000 := l.word.toNat_lt
  rw [Bool.eq_iff_iff, isPositive_iff, Nat.testBit_eq_decide_div_mod_eq, decide_eq_true_iff]
  omega

@[simp] theorem isPositive_neg : (-l).isPositive = !l.isPositive := by
  rw [isPositive_eq_testBit, isPositive_eq_testBit, toNat_word_neg, Nat.testBit_xor,
    Nat.testBit_two_pow_self, Bool.xor_true]

theorem toInt_neg : (-l).toInt = -l.toInt := toInt_eq_neg_toInt.2 ⟨l.var_neg, l.isPositive_neg⟩

protected theorem neg_neg : - -l = l := ext_var (by simp) (by simp)

end Negation

end Literal

namespace Assignment

variable (a : Assignment) (l : Literal)

theorem not_satisfies_both : ¬(a.satisfies l = true ∧ a.satisfies (-l) = true) := by
  simp only [satisfies, Literal.var_neg, Literal.isPositive_neg, beq_iff_eq]
  rintro ⟨hpositive, hnegative⟩
  rw [hpositive] at hnegative
  simp at hnegative

theorem satisfies_xor_neg : (a.satisfies l ^^ a.satisfies (-l)) = a.contains l.var := by
  rw [contains, satisfies, satisfies, Literal.var_neg, Literal.isPositive_neg]
  cases a.get l.var with
  | none => rfl
  | some value => cases value <;> cases l.isPositive <;> rfl

end Assignment

namespace Literal

/-- A literal is the same as its word and the same as its integer. The words are the 32-bit numbers
with a bit among the low 31, the integers are those of magnitude one to `2 ^ 31 - 1`, and all other
numbers are refused. A literal is made again from each of its forms, its variable and polarity
included. Flipping the top bit of its word gives a literal, its negation, with the same variable and
the negative integer; negating twice changes nothing; and an assignment satisfies at most one of a
literal and its negation, and one of them exactly if the variable has a value. -/
theorem word_and_integer :
    (∀ word : Int, (∃ l, ofWord word = .ok l) ↔
      0 ≤ word ∧ word < 2 ^ 32 ∧ ∃ i < 31, word.toNat.testBit i = true) ∧
    (∀ word l, ofWord word = .ok l ↔ (l.word.toNat : Int) = word) ∧
    (∀ v : Int, (∃ l, ofInt v = .ok l) ↔ 1 ≤ v.natAbs ∧ v.natAbs ≤ 2 ^ 31 - 1) ∧
    (∀ v l, ofInt v = .ok l ↔ l.toInt = v) ∧
    (∀ k l : Literal, k = l ↔ k.toInt = l.toInt) ∧
    ∀ l : Literal,
      ofWord l.word.toNat = .ok l ∧ ofInt l.toInt = .ok l ∧
      ofVariable l.var l.isPositive = .ok l ∧ 1 ≤ l.var ∧ l.var ≤ 2 ^ 31 - 1 ∧
      ofWord (l.word.toNat ^^^ 2 ^ 31 : Nat) = .ok (-l) ∧ (-l).var = l.var ∧
      (-l).toInt = -l.toInt ∧ - -l = l ∧
      ∀ a : Assignment, ¬(a.satisfies l = true ∧ a.satisfies (-l) = true) ∧
        (a.satisfies l ^^ a.satisfies (-l)) = a.contains l.var := by
  refine ⟨?_, fun _ _ => ofWord_eq_ok_iff, ?_, fun _ _ => ofInt_eq_ok_iff, ?_, ?_⟩
  · intro word
    simp only [ofWord_eq_ok_iff, exists_word_eq_iff]
  · intro v
    simp only [ofInt_eq_ok_iff, exists_toInt_eq_iff, maxVariable]
    omega
  · intro k l
    exact toInt_inj.symm
  · intro l
    refine ⟨l.ofWord_word, ofInt_eq_ok_iff.2 rfl, l.ofVariable_var, l.var_pos, l.var_le, ?_,
      l.var_neg, l.toInt_neg, l.neg_neg, ?_⟩
    · rw [← toNat_word_neg]
      exact (-l).ofWord_word
    · intro a
      exact ⟨a.not_satisfies_both l, a.satisfies_xor_neg l⟩

end Literal

end CnfAudit
