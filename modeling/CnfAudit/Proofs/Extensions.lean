import CnfAudit.Proofs.FirstUnsatisfied

/-!
# Extended assignments

What is satisfied stays satisfied under an extension, so that a check goes at least as far.
-/

namespace CnfAudit

namespace Assignment

/-- Every variable that has a value here has the same value there. -/
def ExtendedBy (a b : Assignment) : Prop := ∀ v : Int, a.get v ≠ none → b.get v = a.get v

namespace ExtendedBy

variable {a b c : Assignment}

theorem refl (a : Assignment) : a.ExtendedBy a := fun _ _ => rfl

theorem trans (h : a.ExtendedBy b) (h' : b.ExtendedBy c) : a.ExtendedBy c := by
  intro v hv
  have hb : b.get v = a.get v := h v hv
  rw [← hb] at hv ⊢
  exact h' v hv

theorem assign (a : Assignment) (l : Literal) : a.ExtendedBy (a.assign l).2 := by
  intro v hv
  rw [get_after_assign, Option.or_of_isSome (Option.isSome_iff_ne_none.2 hv)]

theorem recordEach (a : Assignment) (ls : List Literal) : a.ExtendedBy (a.recordEach ls) := by
  induction ls generalizing a with
  | nil => exact .refl a
  | cons l ls ih => exact (assign a l).trans (ih _)

theorem satisfies (h : a.ExtendedBy b) {l : Literal} (hl : a.satisfies l = true) :
    b.satisfies l = true := by
  rw [Assignment.satisfies, beq_iff_eq] at hl ⊢
  rw [h l.var (by simp [hl]), hl]

theorem missesAt (h : a.ExtendedBy b) {clauses : List Clause} {i : Nat}
    (hi : b.MissesAt clauses i) : a.MissesAt clauses i := by
  obtain ⟨hpos, c, hc, hmisses⟩ := hi
  refine ⟨hpos, c, hc, ?_⟩
  intro l hl hvalue
  apply hmisses l hl
  rw [h l.var (by simp [hvalue]), hvalue]

theorem maxVar_le (h : a.ExtendedBy b) (ha : a.Reachable) (hb : b.Reachable) :
    a.maxVar ≤ b.maxVar := by
  rcases Nat.eq_zero_or_pos a.maxVar with hzero | hpos
  · omega
  · apply hb.le_maxVar
    have hvalue := ha.get_maxVar hpos
    rwa [h a.maxVar hvalue]

theorem length_openVars_le (h : a.ExtendedBy b) (n : Nat) :
    (b.openVars n).length ≤ (a.openVars n).length := by
  rw [openVars, openVars, ← List.countP_eq_length_filter, ← List.countP_eq_length_filter]
  apply List.countP_mono_left
  intro x _ hx
  rw [Option.isNone_iff_eq_none] at hx ⊢
  by_contra hvalue
  rw [h x hvalue] at hx
  exact hvalue hx

theorem unassignedCount_le (h : a.ExtendedBy b) (ha : a.Built) (hb : b.Built) (n : Nat) :
    b.unassignedCount n ≤ a.unassignedCount n := by
  rw [unassignedCount_eq hb.size_pos, unassignedCount_eq ha.size_pos]
  exact h.length_openVars_le n

end ExtendedBy

end Assignment

namespace Verdict.Decides

variable {v w : Verdict} {clauses : List Clause} {a b : Assignment} {settings : CheckSettings}

theorem clausesChecked_le_length (h : v.Decides clauses a settings) :
    v.clausesChecked ≤ clauses.length := by
  rw [h.checked]
  cases hindex : v.firstUnsatIndex with
  | none => exact Nat.le_refl _
  | some i =>
      obtain ⟨hpos, c, hc, -⟩ := ((h.index i).1 hindex).1
      obtain ⟨hlt, -⟩ := List.getElem?_eq_some_iff.1 hc
      show i ≤ clauses.length
      omega

theorem index_le (h : v.Decides clauses a settings) (h' : w.Decides clauses b settings)
    (hextends : a.ExtendedBy b) {j : Nat} (hj : w.firstUnsatIndex = some j) :
    ∃ i, v.firstUnsatIndex = some i ∧ i ≤ j := by
  have hmissed : a.MissesAt clauses j := hextends.missesAt ((h'.index j).1 hj).1
  cases hindex : v.firstUnsatIndex with
  | none => exact absurd hmissed (h.none_missed.1 hindex j)
  | some i => exact ⟨i, rfl, ((h.index i).1 hindex).2 hmissed⟩

theorem clausesChecked_le (h : v.Decides clauses a settings) (h' : w.Decides clauses b settings)
    (hextends : a.ExtendedBy b) : v.clausesChecked ≤ w.clausesChecked := by
  cases hindex : w.firstUnsatIndex with
  | none =>
      rw [h'.checked, hindex]
      exact h.clausesChecked_le_length
  | some j =>
      obtain ⟨i, hi, hle⟩ := h.index_le h' hextends hindex
      rw [h.checked, h'.checked, hi, hindex]
      exact hle

theorem ok_of_extendedBy (h : v.Decides clauses a settings) (h' : w.Decides clauses b settings)
    (hextends : a.ExtendedBy b) (hok : v.ok = true) : w.ok = true := by
  obtain ⟨hnone, hclosed⟩ := h.ok_iff.1 hok
  apply h'.ok_iff.2
  constructor
  · apply h'.none_missed.2
    intro i hmissed
    exact h.none_missed.1 hnone i (hextends.missesAt hmissed)
  · intro hstrict x hpos hle
    have hvalue := hclosed hstrict x hpos hle
    rwa [hextends x hvalue]

end Verdict.Decides

theorem unassignedCount_of_check {σ : Type} [ClauseSource σ] {s : σ} {a : Assignment}
    {settings : CheckSettings} {v : Verdict} (h : (checkClauses s a settings).1 = .ok v) :
    v.unassignedCount = a.unassignedCount settings.numVars := by
  by_cases hwithin : (a.maxVar : Int) ≤ settings.numVars
  · rw [checkClauses_within a s hwithin] at h
    cases hfound : (searchFrom (⟨a, false⟩ : ClauseWatch) 0 s).1 with
    | error fault => simp [hfound, Except.map] at h
    | ok found =>
        rw [hfound] at h
        rw [← Except.ok.inj h]
        rfl
  · simp [checkClauses_beyond a s (Int.not_le.1 hwithin)] at h

/-- Verdicts are monotone in the assignment. If an assignment is extended by one that is in range,
then both are checked to verdicts: the first clause that is missed comes no later for the first
assignment, where no such clause counts as the end, no more clauses are checked for it, no fewer
variables are left open by it, and if its verdict is positive so is that of the extension. Open
variables may be refused or not. -/
theorem verdicts_monotone {a b : Assignment} (ha : a.Built) (hb : b.Built) (h : a.ExtendedBy b)
    (clauses : List Clause) (settings : CheckSettings)
    (hwithin : (b.maxVar : Int) ≤ settings.numVars) :
    ∃ v w, (checkClauses clauses a settings).1 = .ok v ∧
      (checkClauses clauses b settings).1 = .ok w ∧
      (∀ j, w.firstUnsatIndex = some j → ∃ i, v.firstUnsatIndex = some i ∧ i ≤ j) ∧
      v.clausesChecked ≤ w.clausesChecked ∧
      w.unassignedCount ≤ v.unassignedCount ∧
      (v.ok = true → w.ok = true) := by
  have hle : a.maxVar ≤ b.maxVar := h.maxVar_le ha.reachable hb.reachable
  have hwithin' : (a.maxVar : Int) ≤ settings.numVars := by omega
  obtain ⟨v, hv, hdecides⟩ := exists_decides_of_check ha hwithin' clauses
  obtain ⟨w, hw, hdecides'⟩ := exists_decides_of_check hb hwithin clauses
  refine ⟨v, w, hv, hw, ?_, ?_, ?_, ?_⟩
  · exact fun j hj => hdecides.index_le hdecides' h hj
  · exact hdecides.clausesChecked_le hdecides' h
  · obtain ⟨n, hn⟩ := Int.eq_ofNat_of_zero_le (Int.le_trans (Int.natCast_nonneg _) hwithin)
    rw [unassignedCount_of_check hv, unassignedCount_of_check hw, hn]
    exact h.unassignedCount_le ha hb n
  · exact hdecides.ok_of_extendedBy hdecides' h

/-- On tables that began with different lengths: one assignment misses the second of three clauses,
and its extension satisfies that clause and misses the third. -/
theorem verdicts_monotone_past_second_clause :
    let one : Literal := .ofVar 1 true (by decide)
    let two : Literal := .ofVar 2 true (by decide)
    let three : Literal := .ofVar 3 true (by decide)
    let a := (Assignment.blank 1).recordEach [two]
    let b := (Assignment.blank 8).recordEach [-one, two]
    let clauses : List Clause := [[two], [-one, three], [three]]
    let settings : CheckSettings := { numVars := 3, numClauses := some 3 }
    a.ExtendedBy b ∧ ∃ v w, (checkClauses clauses a settings).1 = .ok v ∧
      (checkClauses clauses b settings).1 = .ok w ∧
      v.firstUnsatIndex = some 2 ∧ w.firstUnsatIndex = some 3 ∧
      v.clausesChecked ≤ w.clausesChecked ∧ w.unassignedCount ≤ v.unassignedCount ∧
      (v.ok = true → w.ok = true) := by
  intro one two three a b clauses settings
  have ha : a.Built := ⟨0, _, _, by decide, rfl, rfl⟩
  have hb : b.Built := ⟨7, _, _, by decide, rfl, rfl⟩
  have hextends : a.ExtendedBy b := by
    intro v hv
    have hvar : v = two.var := by
      by_contra hne
      apply hv
      rw [Assignment.get_recordEach_blank, firstOn_cons_of_ne hne]
      rfl
    rw [hvar]
    decide +kernel
  have hfirst : (checkClauses clauses a settings).1.map Verdict.firstUnsatIndex =
      .ok (some 2) := by decide +kernel
  have hfirst' : (checkClauses clauses b settings).1.map Verdict.firstUnsatIndex =
      .ok (some 3) := by decide +kernel
  obtain ⟨v, w, hv, hw, -, hchecked, hopen, hok⟩ :=
    verdicts_monotone ha hb hextends clauses settings (by decide +kernel)
  rw [hv] at hfirst
  rw [hw] at hfirst'
  exact ⟨hextends, v, w, hv, hw, Except.ok.inj hfirst, Except.ok.inj hfirst', hchecked, hopen, hok⟩

end CnfAudit
