import CnfAudit.Literal
import CnfAudit.Proofs.Spelling

namespace CnfAudit.Literal

@[simp] theorem natAbs_toInt (l : Literal) : l.toInt.natAbs = l.var := by
  unfold toInt
  split <;> omega

theorem toInt_ne_zero (l : Literal) : l.toInt ≠ 0 := by
  have hpos := l.var_pos
  have habs := l.natAbs_toInt
  omega

theorem toInt_pos_iff (l : Literal) : 0 < l.toInt ↔ l.isPositive = true := by
  have hpos := l.var_pos
  unfold toInt
  split <;> simp_all

theorem toInt_injective {k l : Literal} (h : k.toInt = l.toInt) : k = l := by
  apply ext_var
  · rw [← natAbs_toInt, h, natAbs_toInt]
  · rw [Bool.eq_iff_iff, ← toInt_pos_iff, h, toInt_pos_iff]

@[simp] theorem toInt_inj {k l : Literal} : k.toInt = l.toInt ↔ k = l :=
  ⟨toInt_injective, fun h => h ▸ rfl⟩

theorem map_toInt_injective {ks ls : List Literal} (h : ks.map toInt = ls.map toInt) : ks = ls :=
  List.map_inj_right (fun _ _ => toInt_injective) |>.1 h

theorem toInt_eq_natCast {l : Literal} {n : Nat} :
    l.toInt = n ↔ l.var = n ∧ l.isPositive = true := by
  have hpos := l.var_pos
  unfold toInt
  cases l.isPositive with
  | true =>
      simp only [if_true, and_true]
      omega
  | false =>
      simp only [Bool.false_eq_true, if_false, and_false, iff_false]
      omega

theorem toInt_eq_neg {l : Literal} {n : Nat} :
    l.toInt = -n ↔ l.var = n ∧ l.isPositive = false := by
  have hpos := l.var_pos
  unfold toInt
  cases l.isPositive with
  | true =>
      simp only [if_true, reduceCtorEq, and_false, iff_false]
      omega
  | false =>
      simp only [Bool.false_eq_true, if_false, and_true]
      omega

theorem toInt_eq_neg_toInt {k l : Literal} :
    k.toInt = -l.toInt ↔ k.var = l.var ∧ k.isPositive = !l.isPositive := by
  have hk := k.var_pos
  have hl := l.var_pos
  unfold toInt
  cases k.isPositive <;> cases l.isPositive <;> simp <;> omega

theorem ofInt_ofNonzero (v : Int) (h : v ≠ 0 ∧ v.natAbs ≤ maxVariable) :
    ofInt v = .ok (ofNonzero v h) := by
  have hrange : 0 < ((v.natAbs : Int)).toNat ∧ ((v.natAbs : Int)).toNat ≤ maxVariable := by omega
  rw [ofInt, if_neg h.1, ofVariable, dif_pos hrange]
  rfl

theorem ofInt_eq_ok_iff {v : Int} {l : Literal} : ofInt v = .ok l ↔ l.toInt = v := by
  constructor
  · intro h
    by_cases hv : v ≠ 0 ∧ v.natAbs ≤ maxVariable
    · rw [ofInt_ofNonzero v hv] at h
      rw [← Except.ok.inj h, toInt_ofNonzero]
    · unfold ofInt ofVariable at h
      split at h
      · simp [reject] at h
      · split at h
        · omega
        · simp at h
  · rintro rfl
    have hv : l.toInt ≠ 0 ∧ l.toInt.natAbs ≤ maxVariable := ⟨l.toInt_ne_zero, by simp [l.var_le]⟩
    rw [ofInt_ofNonzero _ hv, toInt_injective (toInt_ofNonzero _ hv)]

theorem exists_toInt_eq_iff {v : Int} :
    (∃ l : Literal, l.toInt = v) ↔ v ≠ 0 ∧ v.natAbs ≤ maxVariable := by
  constructor
  · intro h
    rcases h with ⟨l, rfl⟩
    exact ⟨l.toInt_ne_zero, by simp [l.var_le]⟩
  · intro h
    exact ⟨ofNonzero v h, toInt_ofNonzero v h⟩

theorem exists_map_toInt {values : List Int} (h : ∀ v ∈ values, v ≠ 0 ∧ v.natAbs ≤ maxVariable) :
    ∃ ls : List Literal, ls.map toInt = values := by
  induction values with
  | nil => exact ⟨[], rfl⟩
  | cons v values ih =>
      obtain ⟨l, rfl⟩ := exists_toInt_eq_iff.2 (h v (by simp))
      obtain ⟨ls, rfl⟩ := ih fun w hw => h w (by simp [hw])
      exact ⟨l :: ls, rfl⟩

/-- A token is a literal if and only if it spells the literal's integer. -/
theorem parse_eq_ok_iff {token : String} {place : Place} {l : Literal} :
    parse token place = .ok l ↔ Spells token l.toInt := by
  unfold parse
  rw [← readInteger_eq_ok_iff place]
  cases readInteger token place with
  | error fault => simp
  | ok v =>
      rw [Except.ok.injEq, eq_comm (a := v), ← ofInt_eq_ok_iff]
      simp only
      cases ofInt v <;> simp [Except.mapError]

end CnfAudit.Literal
