import CnfAudit.Integer

/-!
# Literals

A literal is one 32-bit word: the variable in the low 31 bits and the polarity in the top bit,
which is set for a positive literal.
-/

namespace CnfAudit

def variableBits : UInt32 := 0x7fffffff

def positiveBit : UInt32 := 0x80000000

structure Literal where
  word : UInt32
  hasVariable : word &&& variableBits ≠ 0
deriving DecidableEq

abbrev Clause := List Literal

namespace Literal

def var (l : Literal) : Nat := (l.word &&& variableBits).toNat

/-- The value that the variable must have for the literal to hold. -/
def isPositive (l : Literal) : Bool := l.word &&& positiveBit != 0

def toInt (l : Literal) : Int := if l.isPositive then l.var else -l.var

private theorem toNat_and_variableBits (w : UInt32) :
    (w &&& variableBits).toNat = w.toNat % 0x80000000 := by
  rw [UInt32.toNat_and]
  exact Nat.and_two_pow_sub_one_eq_mod w.toNat 31

private theorem and_variableBits_ne_zero (w : UInt32) :
    w &&& variableBits ≠ 0 ↔ w.toNat % 0x80000000 ≠ 0 := by
  rw [← toNat_and_variableBits, ne_eq, ne_eq, ← UInt32.toNat_inj]
  rfl

private theorem toNat_positive (n : Nat) (hn : n ≤ maxVariable) :
    (UInt32.ofNat n ||| positiveBit).toNat = 0x80000000 + n := by
  have hlt : n < 2 ^ 31 := by unfold maxVariable at hn; omega
  have hor := Nat.two_pow_add_eq_or_of_lt hlt 1
  rw [UInt32.toNat_or, UInt32.toNat_ofNat_of_lt' (by simp [UInt32.size]; omega), Nat.or_comm]
  simpa [positiveBit] using hor.symm

private theorem toNat_negative (n : Nat) (hn : n ≤ maxVariable) : (UInt32.ofNat n).toNat = n := by
  unfold maxVariable at hn
  exact UInt32.toNat_ofNat_of_lt' (by simp [UInt32.size]; omega)

private theorem ofVar_hasVariable (n : Nat) (positive : Bool) (h : 0 < n ∧ n ≤ maxVariable) :
    (if positive then UInt32.ofNat n ||| positiveBit else UInt32.ofNat n) &&& variableBits ≠ 0 := by
  have hmax : n ≤ 0x7fffffff := h.2
  rw [and_variableBits_ne_zero]
  cases positive
  · simp only [Bool.false_eq_true, if_false, toNat_negative n h.2]
    omega
  · simp only [if_true, toNat_positive n h.2]
    omega

/-- The literal of a variable that fits into 31 bits. -/
def ofVar (n : Nat) (positive : Bool) (h : 0 < n ∧ n ≤ maxVariable) : Literal :=
  ⟨if positive then UInt32.ofNat n ||| positiveBit else UInt32.ofNat n,
    ofVar_hasVariable n positive h⟩

private theorem negate_hasVariable (l : Literal) :
    (l.word ^^^ positiveBit) &&& variableBits ≠ 0 := by
  have h := (and_variableBits_ne_zero l.word).1 l.hasVariable
  have hmod := Nat.xor_mod_two_pow (a := l.word.toNat) (b := positiveBit.toNat) (n := 31)
  simp only [positiveBit, UInt32.reduceToNat, Nat.reducePow, Nat.reduceMod, Nat.xor_zero] at hmod
  rw [and_variableBits_ne_zero, UInt32.toNat_xor]
  simpa only [positiveBit, UInt32.reduceToNat, hmod] using h

def negate (l : Literal) : Literal := ⟨l.word ^^^ positiveBit, negate_hasVariable l⟩

instance : Neg Literal := ⟨negate⟩

/-- A word read from outside, of any size. -/
def ofWord (word : Int) : Except Fault Literal :=
  if h : 0 ≤ word ∧ word < 0x100000000 ∧ UInt32.ofNat word.toNat &&& variableBits ≠ 0 then
    .ok ⟨UInt32.ofNat word.toNat, h.2.2⟩
  else reject (.wordWithoutVariable word) {}

def ofVariable (n : Int) (positive : Bool) : Except Fault Literal :=
  if h : 0 < n.toNat ∧ n.toNat ≤ maxVariable then .ok (ofVar n.toNat positive h)
  else .error (.mentioning n (.variableOutside n) {})

/-- Zero ends a clause and is no literal. -/
def ofInt (value : Int) : Except Fault Literal :=
  if value = 0 then reject .terminatorAsLiteral {}
  else ofVariable value.natAbs (0 < value)

/-- The literal of a nonzero integer that is known to be in range. -/
def ofNonzero (value : Int) (h : value ≠ 0 ∧ value.natAbs ≤ maxVariable) : Literal :=
  ofVar value.natAbs (0 < value) ⟨by omega, h.2⟩

def parse (token : String) (place : Place) : Except Fault Literal :=
  match readInteger token place with
  | .error fault => .error fault
  | .ok value => (ofInt value).mapError (Fault.placedAt place)

def render (l : Literal) : String := toString l.toInt

theorem var_eq_mod (l : Literal) : l.var = l.word.toNat % 0x80000000 :=
  toNat_and_variableBits l.word

theorem var_pos (l : Literal) : 0 < l.var := by
  have h := (and_variableBits_ne_zero l.word).1 l.hasVariable
  rw [var_eq_mod]
  omega

theorem var_le (l : Literal) : l.var ≤ maxVariable := by
  rw [var_eq_mod, maxVariable]
  omega

theorem isPositive_iff (l : Literal) : l.isPositive = true ↔ 0x80000000 ≤ l.word.toNat := by
  have hlt : l.word.toNat < 0x100000000 := l.word.toNat_lt
  have hword : (l.word &&& positiveBit).toNat = l.word.toNat &&& 2 ^ 31 := by
    rw [UInt32.toNat_and]
    rfl
  have hzero : l.word.toNat &&& 2 ^ 31 = 0 ↔ l.word.toNat.testBit 31 = false := by
    constructor
    · intro h
      have hbit := congrArg (fun m => m.testBit 31) h
      simpa only [Nat.testBit_and, Nat.testBit_two_pow_self, Bool.and_true, Nat.zero_testBit]
        using hbit
    · intro h
      apply Nat.eq_of_testBit_eq
      intro j
      by_cases hj : 31 = j
      · subst hj
        rw [Nat.testBit_and, h, Bool.false_and, Nat.zero_testBit]
      · rw [Nat.testBit_and, Nat.testBit_two_pow, decide_eq_false hj, Bool.and_false,
          Nat.zero_testBit]
  rw [Nat.testBit_eq_decide_div_mod_eq, decide_eq_false_iff_not] at hzero
  rw [isPositive, bne_iff_ne, ne_eq, ← UInt32.toNat_inj, hword, UInt32.toNat_zero, hzero]
  omega

theorem toNat_word (l : Literal) :
    l.word.toNat = l.var + if l.isPositive then 0x80000000 else 0 := by
  have hlt : l.word.toNat < 0x100000000 := l.word.toNat_lt
  have hiff := l.isPositive_iff
  rw [var_eq_mod]
  split
  · rename_i hpos
    have := hiff.1 hpos
    omega
  · rename_i hneg
    have : ¬ 0x80000000 ≤ l.word.toNat := fun h => hneg (hiff.2 h)
    omega

theorem ext_var {k l : Literal} (hvar : k.var = l.var) (hpos : k.isPositive = l.isPositive) :
    k = l := by
  have hword : k.word = l.word := by
    rw [← UInt32.toNat_inj, toNat_word, toNat_word, hvar, hpos]
  cases k
  cases l
  simp_all

theorem word_ofVar (n : Nat) (positive : Bool) (h : 0 < n ∧ n ≤ maxVariable) :
    (ofVar n positive h).word.toNat = n + if positive then 0x80000000 else 0 := by
  cases positive
  · exact toNat_negative n h.2
  · rw [Nat.add_comm]
    exact toNat_positive n h.2

@[simp] theorem var_ofVar (n : Nat) (positive : Bool) (h : 0 < n ∧ n ≤ maxVariable) :
    (ofVar n positive h).var = n := by
  have hmax : n ≤ 0x7fffffff := h.2
  rw [var_eq_mod, word_ofVar]
  split <;> omega

@[simp] theorem isPositive_ofVar (n : Nat) (positive : Bool) (h : 0 < n ∧ n ≤ maxVariable) :
    (ofVar n positive h).isPositive = positive := by
  have hmax : n ≤ 0x7fffffff := h.2
  rw [Bool.eq_iff_iff, isPositive_iff, word_ofVar]
  cases positive
  · simp
    omega
  · simp

@[simp] theorem toInt_ofNonzero (value : Int) (h : value ≠ 0 ∧ value.natAbs ≤ maxVariable) :
    (ofNonzero value h).toInt = value := by
  simp only [ofNonzero, toInt, isPositive_ofVar, var_ofVar, decide_eq_true_eq]
  split <;> omega

end Literal

end CnfAudit
