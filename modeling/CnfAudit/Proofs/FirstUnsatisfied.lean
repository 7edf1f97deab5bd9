import CnfAudit.Proofs.ClauseOrder
import CnfAudit.Proofs.FirstPolarity
import CnfAudit.Proofs.Verified
import Mathlib.Order.Bounds.Basic

/-!
# The first unsatisfied clause
-/

namespace CnfAudit

namespace Assignment

/-- No literal of the clause has its variable set as it requires. A variable without a value is not
set as any literal requires, and an empty clause is always missed. -/
def Misses (a : Assignment) (c : Clause) : Prop := ∀ l ∈ c, a.get l.var ≠ some l.isPositive

/-- The clause with this index, counted from one, is missed. -/
def MissesAt (a : Assignment) (clauses : List Clause) (i : Nat) : Prop :=
  1 ≤ i ∧ ∃ c, clauses[i - 1]? = some c ∧ a.Misses c

variable {a : Assignment}

theorem misses_iff {c : Clause} : a.Misses c ↔ a.satisfiesClause c = false := by
  rw [satisfiesClause, List.any_eq_false]
  simp only [Misses, satisfies, beq_iff_eq, ne_eq]

theorem not_missesAt_of_satisfied {clauses : List Clause}
    (h : ∀ c ∈ clauses, a.satisfiesClause c = true) (i : Nat) : ¬a.MissesAt clauses i := by
  intro hmiss
  obtain ⟨-, c, hc, hmisses⟩ := hmiss
  have hsatisfied := h c (List.mem_of_getElem? hc)
  rw [misses_iff.1 hmisses] at hsatisfied
  exact absurd hsatisfied (by decide)

theorem isLeast_missesAt {before after : List Clause} {c : Clause}
    (hbefore : ∀ d ∈ before, a.satisfiesClause d = true) (hc : a.satisfiesClause c = false) :
    IsLeast {i | a.MissesAt (before ++ c :: after) i} (before.length + 1) := by
  constructor
  · refine ⟨Nat.le_add_left 1 _, c, ?_, misses_iff.2 hc⟩
    rw [Nat.add_sub_cancel, List.getElem?_append_right (Nat.le_refl _), Nat.sub_self,
      List.getElem?_cons_zero]
  · -- a smaller index belongs to one of the clauses in front
    intro i hmiss
    obtain ⟨hpos, d, hd, hmisses⟩ := hmiss
    by_contra hlt
    rw [List.getElem?_append_left (by omega)] at hd
    exact not_missesAt_of_satisfied hbefore i ⟨hpos, d, hd, hmisses⟩

end Assignment

/-- The verdict says which of the clauses is the first that the assignment misses. -/
structure Verdict.Decides (v : Verdict) (clauses : List Clause) (a : Assignment)
    (settings : CheckSettings) : Prop where
  index : ∀ i, v.firstUnsatIndex = some i ↔ IsLeast {i | a.MissesAt clauses i} i
  none_missed : v.firstUnsatIndex = none ↔ ∀ i, ¬a.MissesAt clauses i
  clause : v.firstUnsatClause = v.firstUnsatIndex.bind fun i => clauses[i - 1]?
  checked : v.clausesChecked = v.firstUnsatIndex.getD clauses.length
  ok_iff : v.ok = true ↔ v.firstUnsatIndex = none ∧
    (settings.strictUnassigned = some true →
      ∀ x : Nat, 1 ≤ x → (x : Int) ≤ settings.numVars → a.get x ≠ none)

namespace Verdict

variable {a : Assignment} {settings : CheckSettings}

private theorem ofSearch_ok_iff_values (ha : a.Built)
    (hwithin : (a.maxVar : Int) ≤ settings.numVars) (checked : Nat) (unsat : Option Clause) :
    (ofSearch a settings checked unsat).ok = true ↔
      (ofSearch a settings checked unsat).firstUnsatIndex = none ∧
        (settings.strictUnassigned = some true →
          ∀ x : Nat, 1 ≤ x → (x : Int) ≤ settings.numVars → a.get x ≠ none) := by
  obtain ⟨n, hn⟩ := Int.eq_ofNat_of_zero_le (Int.le_trans (Int.natCast_nonneg _) hwithin)
  have hindex : (ofSearch a settings checked unsat).firstUnsatIndex = none ↔ unsat = none :=
    Option.map_eq_none_iff
  rw [ofSearch_ok_iff, hindex, hn, Assignment.unassignedCount_eq_zero_iff ha.size_pos]
  simp only [Int.ofNat_le]

theorem decides_of_satisfied (ha : a.Built) (hwithin : (a.maxVar : Int) ≤ settings.numVars)
    {clauses : List Clause} (hall : ∀ c ∈ clauses, a.satisfiesClause c = true) :
    (ofSearch a settings clauses.length none).Decides clauses a settings where
  index i := by
    have hnone := a.not_missesAt_of_satisfied hall i
    constructor
    · intro h
      simp [ofSearch] at h
    · intro hleast
      exact absurd hleast.1 hnone
  none_missed := by simp [ofSearch, a.not_missesAt_of_satisfied hall]
  clause := rfl
  checked := rfl
  ok_iff := ofSearch_ok_iff_values ha hwithin _ none

theorem decides_of_unsatisfied (ha : a.Built) (hwithin : (a.maxVar : Int) ≤ settings.numVars)
    {before after : List Clause} {c : Clause}
    (hbefore : ∀ d ∈ before, a.satisfiesClause d = true) (hc : a.satisfiesClause c = false) :
    (ofSearch a settings (before.length + 1) (some c)).Decides (before ++ c :: after) a
      settings := by
  have hleast : IsLeast {i | a.MissesAt (before ++ c :: after) i} (before.length + 1) :=
    a.isLeast_missesAt hbefore hc
  have hindex : (ofSearch a settings (before.length + 1) (some c)).firstUnsatIndex =
      some (before.length + 1) := rfl
  exact {
    index := by
      intro i
      rw [hindex, Option.some.injEq]
      constructor
      · rintro rfl
        exact hleast
      · exact hleast.unique
    none_missed := by
      rw [hindex]
      constructor
      · intro h
        simp at h
      · intro h
        exact absurd hleast.1 (h _)
    clause := by
      rw [hindex]
      simp [ofSearch]
    checked := rfl
    ok_iff := ofSearch_ok_iff_values ha hwithin _ (some c) }

end Verdict

theorem delivered_append_of_series {cs rest : List Clause} {ps : List (Pulled (List Clause))}
    (h : Series cs ps rest) : ps.filterMap delivered ++ rest = cs := by
  induction ps generalizing cs with
  | nil => exact Eq.symm h
  | cons p ps ih =>
      obtain ⟨hpull, hrest⟩ := h
      subst hpull
      cases cs with
      | nil => exact ih hrest
      | cons c cs => exact congrArg (c :: ·) (ih hrest)

/-- A check of a list with an assignment in range gives a verdict. -/
theorem exists_decides_of_check {a : Assignment} {settings : CheckSettings} (ha : a.Built)
    (hwithin : (a.maxVar : Int) ≤ settings.numVars) (clauses : List Clause) :
    ∃ v, (checkClauses clauses a settings).1 = .ok v ∧ v.Decides clauses a settings := by
  rw [checkClauses_within a clauses hwithin]
  have hdrain := drain_list clauses
  rcases satisfied_or_first_unsatisfied a clauses with
    hall | ⟨before, c, after, rfl, hbefore, hc⟩
  · refine ⟨.ofSearch a settings clauses.length none, ?_, ?_⟩
    · rw [searchFrom_satisfied a 0 (by rwa [hdrain]), hdrain, Nat.zero_add]
      rfl
    · exact Verdict.decides_of_satisfied ha hwithin hall
  · refine ⟨.ofSearch a settings (before.length + 1) (some c), ?_, ?_⟩
    · rw [searchFrom_unsatisfied a 0 (by rw [hdrain]) hbefore hc, Nat.zero_add]
      rfl
    · exact Verdict.decides_of_unsatisfied ha hwithin hbefore hc

section Pulls

variable (a : Assignment) (settings : CheckSettings) (clauses : List Clause)

theorem checkClauses_recorded :
    let r : Recorded (List Clause) := ⟨clauses, []⟩
    (checkClauses r a settings).1 = (checkClauses clauses a settings).1 ∧
      Recorded.Continues r (checkClauses r a settings).2 (checkClauses clauses a settings).2 := by
  intro r
  exact r.simulates.checked r.continues_self trivial

variable {a settings clauses}

theorem pulls_of_check_list {v : Verdict} {u : Recorded (List Clause)}
    (h : checkClauses (⟨clauses, []⟩ : Recorded (List Clause)) a settings = (.ok v, u)) :
    u.clauses = clauses.take v.clausesChecked ∧ u.source = clauses.drop v.clausesChecked ∧
      (v.firstUnsatIndex ≠ none →
        ∃ rest, u.pulls.getLast? = some (.ok v.firstUnsatClause, rest)) := by
  obtain ⟨ps, hpulls, hchecked, hlast⟩ := pulls_of_checkClauses h
  obtain rfl : u.pulls = ps := hpulls
  obtain ⟨hsource, qs, hqs, hseries⟩ := (checkClauses_recorded a settings clauses).2
  rw [h] at hsource hqs
  obtain rfl : u.pulls = qs := hqs
  have hsplit : u.clauses ++ u.source = clauses := by
    rw [hsource]
    exact delivered_append_of_series hseries
  have hlength : u.clauses.length = v.clausesChecked := hchecked.symm
  have htake : (u.clauses ++ u.source).take v.clausesChecked = u.clauses := List.take_left' hlength
  have hdrop : (u.clauses ++ u.source).drop v.clausesChecked = u.source := List.drop_left' hlength
  rw [hsplit] at htake hdrop
  refine ⟨htake.symm, hdrop.symm, fun hindex => ?_⟩
  obtain ⟨c, before, rest, hunsat, hfound⟩ := hlast hindex
  exact ⟨rest, by rw [hunsat, hfound, List.getLast?_concat]⟩

end Pulls

/-- A check finds the first clause of a list that the assignment misses and looks no further. With a
variable out of range, so with every negative number of variables, it is refused before a clause is
pulled: the variable is out of range, unless the number has too many digits to be written. Otherwise
there is a verdict: the index of the clause is the least with a clause that is missed, the clauses
pulled are those up to it, or all of them, and the answer is positive exactly if there is no such
clause and, where open variables are refused, no variable in range is open. -/
theorem first_unsatisfied_found {a : Assignment} (ha : a.Built) (clauses : List Clause)
    (settings : CheckSettings) :
    let r : Recorded (List Clause) := ⟨clauses, []⟩
    checkClauses clauses a settings =
      ((checkClauses r a settings).1, (checkClauses r a settings).2.source) ∧
    (settings.numVars < 0 ∨ settings.numVars < a.maxVar →
      (settings.numVars.natAbs < 10 ^ maxDigits → ∃ d : Diagnostic, d.kind = .variableOutOfRange ∧
        checkClauses r a settings = (.error (.rejected d), r)) ∧
      (10 ^ maxDigits ≤ settings.numVars.natAbs →
        checkClauses r a settings = (.error .unwritable, r))) ∧
    ((a.maxVar : Int) ≤ settings.numVars →
      ∃ v u, checkClauses r a settings = (.ok v, u) ∧ v.Decides clauses a settings ∧
        u.clauses = clauses.take v.clausesChecked ∧ u.source = clauses.drop v.clausesChecked ∧
        (v.firstUnsatIndex ≠ none →
          ∃ rest, u.pulls.getLast? = some (.ok v.firstUnsatClause, rest))) := by
  intro r
  obtain ⟨hsame, hsource, -⟩ := checkClauses_recorded a settings clauses
  refine ⟨Prod.ext hsame.symm hsource.symm, ?_, ?_⟩
  · intro hnegative
    have hbeyond : settings.numVars < a.maxVar := by omega
    rw [checkClauses_beyond a r hbeyond]
    constructor
    · intro hshort
      rw [Fault.mentioning_of_writable (isWritable_iff.2 hshort)]
      exact ⟨_, rfl, rfl⟩
    · intro hlong
      rw [Fault.mentioning, if_neg (mt isWritable_iff.1 (Nat.not_lt.2 hlong))]
  · intro hwithin
    obtain ⟨v, hv, hdecides⟩ := exists_decides_of_check ha hwithin clauses
    have hcheck : checkClauses r a settings = (.ok v, (checkClauses r a settings).2) :=
      Prod.ext (hsame.trans hv) rfl
    exact ⟨v, _, hcheck, hdecides, pulls_of_check_list hcheck⟩

/-- The second of three clauses is missed, by a variable that is set the other way and one behind
the end of the table. -/
theorem first_unsatisfied_found_between :
    let one : Literal := .ofVar 1 true (by decide)
    let two : Literal := .ofVar 2 true (by decide)
    let a := (Assignment.blank 1).recordEach [one]
    let clauses : List Clause := [[two, one], [-one, two], [one]]
    let settings : CheckSettings := { numVars := 2, numClauses := some 3 }
    ∃ v u, checkClauses (⟨clauses, []⟩ : Recorded (List Clause)) a settings = (.ok v, u) ∧
      v.firstUnsatIndex = some 2 ∧ v.ok = false ∧ u.clauses = [[two, one], [-one, two]] := by
  intro one two a clauses settings
  have ha : a.Built := ⟨0, _, _, by decide, rfl, rfl⟩
  have hleast : IsLeast {i | a.MissesAt ([[two, one]] ++ [-one, two] :: [[one]]) i} 2 :=
    a.isLeast_missesAt (by decide +kernel) (by decide +kernel)
  obtain ⟨v, u, hcheck, hdecides, hclauses, -⟩ :=
    (first_unsatisfied_found ha clauses settings).2.2 (by decide +kernel)
  have hindex : v.firstUnsatIndex = some 2 := (hdecides.index 2).2 hleast
  refine ⟨v, u, hcheck, hindex, ?_, ?_⟩
  · rw [← Bool.not_eq_true, hdecides.ok_iff, hindex]
    simp
  · rw [hclauses, hdecides.checked, hindex]
    rfl

/-- For the greatest negative number that cannot be written no variable is said to be out of range,
although every variable is. -/
theorem unwritable_bound_not_diagnosed :
    let settings : CheckSettings := { numVars := -(10 ^ maxDigits : Nat), numClauses := some 0 }
    settings.numVars < Assignment.empty.maxVar ∧
      checkClauses ([] : List Clause) .empty settings = (.error .unwritable, []) ∧
      ∀ d, (checkClauses ([] : List Clause) .empty settings).1 ≠ .error (.rejected d) := by
  intro settings
  have hpos : 0 < 10 ^ maxDigits := Nat.pow_pos (by decide)
  have hbeyond : settings.numVars < Assignment.empty.maxVar := by
    show -((10 ^ maxDigits : Nat) : Int) < (0 : Nat)
    omega
  have hunwritable : ¬isWritable settings.numVars = true := by
    rw [isWritable_iff, Int.natAbs_neg, Int.natAbs_natCast]
    exact Nat.lt_irrefl _
  rw [checkClauses_beyond _ _ hbeyond, Fault.mentioning, if_neg hunwritable]
  exact ⟨hbeyond, rfl, by simp⟩

end CnfAudit
