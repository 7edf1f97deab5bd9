import CnfAudit.Integer
import CnfAudit.Proofs.Fields
import Mathlib.Algebra.Group.Nat.Defs
import Mathlib.Data.List.Forall2

/-!
# How integers are spelled

`Spells` says without reference to the reader which tokens are integers.
-/

namespace CnfAudit

open Text

theorem isWritable_iff {n : Int} : isWritable n = true ↔ n.natAbs < 10 ^ maxDigits := by
  rw [isWritable, decide_eq_true_iff]
  exact Nat.length_toDigits_le_iff (by decide) (by decide)

theorem maxVariable_lt : maxVariable < 10 ^ maxDigits := by
  apply Nat.lt_of_lt_of_le (by decide : maxVariable < 10 ^ 10)
  exact Nat.pow_le_pow_right (by decide) (by decide)

/-- One to `maxDigits` ASCII digits. -/
def IsCount (digits : List Char) : Prop := isNumeral digits = true ∧ digits.length ≤ maxDigits

instance (digits : List Char) : Decidable (IsCount digits) := inferInstanceAs (Decidable (_ ∧ _))

private theorem numeralValue_lt {digits : List Char} (h : ∀ c ∈ digits, c.isDigit = true) :
    numeralValue digits < 10 ^ digits.length := by
  induction digits with
  | nil => exact Nat.one_pos
  | cons c digits ih =>
      have hrest : Nat.ofDigitChars 10 digits 0 < 10 ^ digits.length :=
        ih fun d hd => h d (List.mem_cons_of_mem _ hd)
      have hdigit : c.toNat - '0'.toNat ≤ 9 := by
        have hrange := toNat_of_isDigit (h c List.mem_cons_self)
        have hzero : '0'.toNat = 48 := rfl
        omega
      have hfirst := Nat.mul_le_mul_left (10 ^ digits.length) hdigit
      rw [numeralValue, Nat.ofDigitChars_cons, Nat.ofDigitChars_eq_ofDigitChars_zero,
        List.length_cons, Nat.pow_succ, Nat.mul_zero, Nat.zero_add]
      omega

theorem IsCount.numeralValue_lt {digits : List Char} (h : IsCount digits) :
    numeralValue digits < 10 ^ maxDigits := by
  have hnumeral := h.1
  rw [isNumeral, Bool.and_eq_true, List.all_eq_true] at hnumeral
  apply Nat.lt_of_lt_of_le (CnfAudit.numeralValue_lt hnumeral.2)
  exact Nat.pow_le_pow_right (by decide) h.2

/-- The token is an integer numeral of that value. -/
inductive Spells : String → Int → Prop
  | unsigned {token : String} (h : IsCount token.toList) :
      Spells token (numeralValue token.toList)
  | negative {token : String} {digits : List Char} (htoken : token.toList = '-' :: digits)
      (h : IsCount digits) : Spells token (-numeralValue digits)

theorem Spells.isWritable {token : String} {v : Int} (h : Spells token v) :
    isWritable v = true := by
  rw [isWritable_iff]
  cases h with
  | unsigned h => simpa using h.numeralValue_lt
  | negative _ h => simpa using h.numeralValue_lt

theorem splitSign_of_ne {cs : List Char} (h : ∀ digits, cs ≠ '-' :: digits) :
    splitSign cs = (false, cs) := by
  unfold splitSign
  split
  · exact absurd rfl (h _)
  · rfl

theorem not_isNumeral_minus (digits : List Char) : isNumeral ('-' :: digits) = false := by
  simp [isNumeral, show Char.isDigit '-' = false by decide]

private theorem map_withSign_eq_ok_iff {digits : List Char} {minus : Bool} {v : Int} :
    (readNumeral digits).map (withSign minus) = .ok v ↔
      digits.length ≤ maxDigits ∧ withSign minus (numeralValue digits) = v := by
  unfold readNumeral
  split
  · rename_i h
    simp [h, Except.map]
  · rename_i h
    simp [h, Except.map]

/-- A token is read as an integer if and only if it spells that integer. -/
theorem readInteger_eq_ok_iff {token : String} (place : Place) {v : Int} :
    readInteger token place = .ok v ↔ Spells token v := by
  unfold readInteger
  by_cases hminus : ∃ digits, token.toList = '-' :: digits
  · obtain ⟨digits, hdigits⟩ := hminus
    simp only [hdigits, splitSign]
    constructor
    · intro h
      split at h
      · rename_i hnum
        obtain ⟨hlen, rfl⟩ := map_withSign_eq_ok_iff.1 h
        exact .negative hdigits ⟨hnum, hlen⟩
      · simp [reject] at h
    · intro h
      cases h with
      | unsigned h => simp [IsCount, hdigits, not_isNumeral_minus] at h
      | negative htoken h =>
          obtain rfl := List.tail_eq_of_cons_eq (htoken.symm.trans hdigits)
          rw [if_pos h.1]
          exact map_withSign_eq_ok_iff.2 ⟨h.2, rfl⟩
  · have hne : ∀ digits, token.toList ≠ '-' :: digits := fun digits h => hminus ⟨digits, h⟩
    simp only [splitSign_of_ne hne]
    constructor
    · intro h
      split at h
      · rename_i hnum
        obtain ⟨hlen, rfl⟩ := map_withSign_eq_ok_iff.1 h
        exact .unsigned ⟨hnum, hlen⟩
      · simp [reject] at h
    · intro h
      cases h with
      | unsigned h =>
          rw [if_pos h.1]
          exact map_withSign_eq_ok_iff.2 ⟨h.2, rfl⟩
      | negative htoken h => exact absurd htoken (hne _)

/-- The token has the form of an integer, but it has so many digits that it is not read. -/
def Overlong (token : String) (count : Nat) : Prop :=
  isNumeral (splitSign token.toList).2 = true ∧ (splitSign token.toList).2.length = count ∧
    maxDigits < count

/-- What is wrong with a token that is not read: it has not the form of an integer, or it is too
long. -/
theorem readInteger_eq_error_iff {token : String} {place : Place} {fault : Fault} :
    readInteger token place = .error fault ↔
      (isNumeral (splitSign token.toList).2 = false ∧
        fault = .rejected ⟨.nonInteger token, place⟩) ∨
      ∃ count, Overlong token count ∧ fault = .tooManyDigits count := by
  unfold readInteger Overlong
  rcases splitSign token.toList with ⟨minus, digits⟩
  simp only
  cases hnum : isNumeral digits with
  | false => simp [reject, eq_comm]
  | true =>
      by_cases hlength : digits.length ≤ maxDigits
      · have hnot : ¬maxDigits < digits.length := Nat.not_lt.2 hlength
        simp [readNumeral, hlength, hnot, Except.map]
      · simp [readNumeral, hlength, Nat.not_le.1 hlength, Except.map, eq_comm]

/-- What can be wrong with some tokens of a line: they are rejected at their place for one of these
causes, or one of them is too long. -/
inductive FaultAt (place : Place) (causes : Cause → Prop) (tokens : List String) : Fault → Prop
  | rejected {cause : Cause} (h : causes cause) :
      FaultAt place causes tokens (.rejected ⟨cause, place⟩)
  | overlong {token : String} {count : Nat} (hmem : token ∈ tokens) (h : Overlong token count) :
      FaultAt place causes tokens (.tooManyDigits count)

namespace FaultAt

variable {place : Place} {causes : Cause → Prop} {tokens : List String} {fault : Fault}

theorem place_eq {d : Diagnostic} (h : FaultAt place causes tokens (.rejected d)) :
    d.place = place := by
  cases h
  rfl

theorem mono {more : List String} {others : Cause → Prop} (h : FaultAt place causes tokens fault)
    (hcauses : ∀ cause, causes cause → others cause) (htokens : tokens ⊆ more) :
    FaultAt place others more fault := by
  cases h with
  | rejected h => exact .rejected (hcauses _ h)
  | overlong hmem h => exact .overlong (htokens hmem) h

theorem of_readInteger {token : String} (h : readInteger token place = .error fault) :
    FaultAt place (· = .nonInteger token) [token] fault := by
  rcases readInteger_eq_error_iff.1 h with ⟨-, rfl⟩ | ⟨count, hlong, rfl⟩
  · exact .rejected rfl
  · exact .overlong List.mem_cons_self hlong

theorem of_readNumeral {token : String} (hnum : isNumeral token.toList = true)
    (h : readNumeral token.toList = .error fault) : FaultAt place causes [token] fault := by
  have hsign : splitSign token.toList = (false, token.toList) := by
    apply splitSign_of_ne
    intro digits hdigits
    rw [hdigits, not_isNumeral_minus] at hnum
    simp at hnum
  rw [readNumeral] at h
  split at h
  · simp at h
  · rename_i hlength
    rw [← Except.error.inj h]
    apply FaultAt.overlong List.mem_cons_self
    rw [Overlong, hsign]
    exact ⟨hnum, rfl, Nat.lt_of_not_le hlength⟩

end FaultAt

theorem Spells.unique {token : String} {v w : Int} (hv : Spells token v) (hw : Spells token w) :
    v = w := by
  have hread := (readInteger_eq_ok_iff {}).2 hv
  rw [(readInteger_eq_ok_iff {}).2 hw] at hread
  exact (Except.ok.inj hread).symm

theorem forall₂_spells_unique {tokens : List String} {vs ws : List Int}
    (hv : List.Forall₂ Spells tokens vs) (hw : List.Forall₂ Spells tokens ws) : vs = ws :=
  List.right_unique_forall₂' (fun _ _ _ h h' => h.unique h') hv hw

theorem exists_spells_of_mem {tokens : List String} {values : List Int}
    (h : List.Forall₂ Spells tokens values) {token : String} (htoken : token ∈ tokens) :
    ∃ v ∈ values, Spells token v := by
  induction h with
  | nil => simp at htoken
  | @cons t v tokens values hv _ ih =>
      rcases List.mem_cons.1 htoken with rfl | htail
      · exact ⟨v, by simp, hv⟩
      · obtain ⟨w, hw, hspells⟩ := ih htail
        exact ⟨w, by simp [hw], hspells⟩

/-- Whether a token spells zero. -/
def isZero (token : String) : Bool := (readInteger token {}).toOption = some 0

theorem isZero_iff {token : String} : isZero token = true ↔ Spells token 0 := by
  rw [isZero, decide_eq_true_iff, ← readInteger_eq_ok_iff {}]
  cases readInteger token {} <;> simp [Except.toOption]

theorem Spells.tag {token : String} {v : Int} (h : Spells token v) :
    ∃ c, tag? token = some c ∧ (c = '-' ∨ c.isDigit = true) := by
  cases h with
  | unsigned h =>
      cases hs : token.toList with
      | nil => simp [IsCount, isNumeral, hs] at h
      | cons c cs =>
          simp only [IsCount, isNumeral, hs, List.all_cons, Bool.and_eq_true] at h
          exact ⟨c, by simp [tag?, hs], .inr h.1.2.1⟩
  | negative htoken h => exact ⟨'-', by simp [tag?, htoken], .inl rfl⟩

theorem Spells.fields_eq {token : String} {v : Int} (h : Spells token v) :
    fields token = [token] := by
  have hdigits {digits : List Char} (hcount : IsCount digits) :
      digits ≠ [] ∧ ∀ c ∈ digits, isBlank c = false := by
    have hnumeral := hcount.1
    simp only [isNumeral, Bool.and_eq_true, Bool.not_eq_true', List.isEmpty_eq_false_iff,
      List.all_eq_true] at hnumeral
    exact ⟨hnumeral.1, fun c hc => isBlank_of_isDigit (hnumeral.2 c hc)⟩
  have hword : token.toList ≠ [] ∧ ∀ c ∈ token.toList, isBlank c = false := by
    cases h with
    | unsigned h => exact hdigits h
    | negative htoken h =>
        rw [htoken]
        refine ⟨List.cons_ne_nil _ _, List.forall_mem_cons.2 ⟨by decide, (hdigits h).2⟩⟩
  have hfields := fields_of_no_blank hword.1 hword.2
  rwa [String.ofList_toList] at hfields

theorem isNumeral_toDigits (n : Nat) : isNumeral (Nat.toDigits 10 n) = true := by
  rw [isNumeral, Bool.and_eq_true, List.all_eq_true]
  refine ⟨by simp, ?_⟩
  intro c hc
  exact Nat.isDigit_of_mem_toDigits (by decide) (by decide) hc

theorem isCount_toDigits {n : Nat} (h : n < 10 ^ maxDigits) : IsCount (Nat.toDigits 10 n) :=
  ⟨isNumeral_toDigits n, (Nat.length_toDigits_le_iff (by decide) (by decide)).2 h⟩

theorem toList_toString_natCast (n : Nat) : (toString (n : Int)).toList = Nat.toDigits 10 n := by
  rw [Int.toString_eq_repr, Int.repr_eq_if, if_pos (Int.natCast_nonneg n), Int.toNat_natCast,
    Nat.repr_eq_ofList_toDigits, String.toList_ofList]

theorem toList_toString_negSucc (n : Nat) :
    (toString (Int.negSucc n)).toList = '-' :: Nat.toDigits 10 (n + 1) := by
  rw [Int.toString_eq_repr, Int.repr_eq_if, if_neg (by omega), Int.neg_negSucc]
  simp [Nat.repr_eq_ofList_toDigits]

/-- An integer that is not too long is spelled as it is written. -/
theorem spells_toString {v : Int} (h : v.natAbs < 10 ^ maxDigits) : Spells (toString v) v := by
  cases v with
  | ofNat n =>
      have htoken := toList_toString_natCast n
      have hspells : Spells (toString (n : Int)) (numeralValue (toString (n : Int)).toList) :=
        .unsigned (by rw [htoken]; exact isCount_toDigits h)
      rwa [htoken, numeralValue_toDigits] at hspells
  | negSucc n =>
      have hspells := Spells.negative (toList_toString_negSucc n) (isCount_toDigits h)
      rwa [numeralValue_toDigits] at hspells

theorem Overlong.tag {token : String} {count : Nat} (h : Overlong token count) :
    ∃ c, tag? token = some c ∧ (c = '-' ∨ c.isDigit = true) := by
  have hnum := h.1
  cases hs : token.toList with
  | nil => simp [hs, splitSign, isNumeral] at hnum
  | cons c cs =>
      refine ⟨c, by simp [tag?, hs], ?_⟩
      by_cases hc : c = '-'
      · exact .inl hc
      · have hne : ∀ digits, c :: cs ≠ '-' :: digits := by simp [hc]
        rw [hs, splitSign_of_ne hne] at hnum
        simp only [isNumeral, List.all_cons, Bool.and_eq_true] at hnum
        exact .inr hnum.2.1

end CnfAudit
