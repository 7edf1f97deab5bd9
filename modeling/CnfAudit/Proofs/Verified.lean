import CnfAudit.Proofs.FormulaText
import CnfAudit.Proofs.Modes
import CnfAudit.Proofs.OpenVariables

/-!
# What a positive verdict says
-/

namespace CnfAudit

namespace Assignment

theorem unassignedCount_eq_zero_iff {a : Assignment} (hsize : 0 < a.table.size) (n : Nat) :
    a.unassignedCount n = 0 ↔ ∀ i : Nat, 1 ≤ i → i ≤ n → a.get i ≠ none := by
  rw [unassignedCount_eq hsize, List.length_eq_zero_iff, openVars, List.filter_eq_nil_iff]
  simp only [List.mem_range'_1, Option.isNone_iff_eq_none]
  constructor
  · intro h i hpos hle
    exact h i ⟨hpos, by omega⟩
  · intro h i hi
    exact h i hi.1 (by omega)

section Listed

variable {a : Assignment} {ls : List Literal} (h : assignAll none empty ls = .ok a)

include h

/-- A clause is satisfied if it has one of the recorded integers. -/
theorem satisfiesClause_iff (c : Clause) :
    a.satisfiesClause c = true ↔ ∃ v ∈ c.map Literal.toInt, v ∈ ls.map Literal.toInt := by
  rw [satisfiesClause, List.any_eq_true]
  constructor
  · intro hsatisfied
    obtain ⟨l, hl, hvalue⟩ := hsatisfied
    have hrecorded := (satisfies_iff h l).1 hvalue
    exact ⟨l.toInt, List.mem_map_of_mem hl, List.mem_map_of_mem hrecorded⟩
  · intro hlisted
    obtain ⟨v, hv, hrecorded⟩ := hlisted
    obtain ⟨l, hl, rfl⟩ := List.mem_map.1 hv
    obtain ⟨k, hk, heq⟩ := List.mem_map.1 hrecorded
    obtain rfl := Literal.toInt_injective heq
    exact ⟨k, hl, (satisfies_iff h k).2 hk⟩

theorem unassignedCount_eq_zero_iff_listed (n : Nat) :
    a.unassignedCount n = 0 ↔
      ∀ x : Int, 1 ≤ x → x ≤ n → x ∈ ls.map Literal.toInt ∨ -x ∈ ls.map Literal.toInt := by
  have hsize : 0 < a.table.size := Nat.lt_of_lt_of_le Nat.one_pos (size_le_assignAll h)
  have hvalue (i : Nat) : a.get i ≠ none ↔
      (i : Int) ∈ ls.map Literal.toInt ∨ -(i : Int) ∈ ls.map Literal.toInt := by
    rw [ne_eq, get_eq_none_iff h]
    tauto
  rw [unassignedCount_eq_zero_iff hsize]
  constructor
  · intro hall x hpos hle
    obtain ⟨i, rfl⟩ := Int.eq_ofNat_of_zero_le (by omega : 0 ≤ x)
    exact (hvalue i).1 (hall i (by omega) (by omega))
  · intro hall i hpos hle
    exact (hvalue i).2 (hall i (by omega) (by omega))

end Listed

end Assignment

theorem Verdict.ofSearch_ok_iff {a : Assignment} {settings : CheckSettings} {checked : Nat}
    {unsat : Option Clause} :
    (Verdict.ofSearch a settings checked unsat).ok = true ↔
      unsat = none ∧
        (settings.strictUnassigned = some true → a.unassignedCount settings.numVars = 0) := by
  rw [Verdict.ofSearch, CheckSettings.isStrict]
  rcases settings.strictUnassigned with _ | _ | _ <;> simp

theorem Formula.check_ok_iff {f : Formula} {a : Assignment} (h : a.maxVar ≤ f.header.numVars)
    (strictUnassigned : Option Bool) :
    (∃ v, f.check a strictUnassigned = .ok v ∧ v.ok = true) ↔
      (∀ c ∈ f.clauses, a.satisfiesClause c = true) ∧
        (strictUnassigned = some true → a.unassignedCount f.header.numVars = 0) := by
  have hlist := drain_list f.clauses
  rw [Formula.check, checkClauses_of_le f.clauses (Int.ofNat_le.2 h)]
  rcases satisfied_or_first_unsatisfied a f.clauses with
    hall | ⟨before, c, after, hsplit, hbefore, hc⟩
  · rw [searchFrom_satisfied a 0 (by rw [hlist]; exact hall), hlist, and_iff_right hall]
    simp only [Except.map, Except.ok.injEq, exists_eq_left', Verdict.ofSearch_ok_iff, true_and]
  · have hdrain : (drain f.clauses).clauses = before ++ c :: after := by rw [hlist, hsplit]
    rw [searchFrom_unsatisfied a 0 hdrain hbefore hc]
    apply iff_of_false
    · simp only [Except.map, Except.ok.injEq, exists_eq_left', Verdict.ofSearch_ok_iff,
        reduceCtorEq, false_and, not_false_eq_true]
    · intro hall
      have hfalse := hall.1 c (by simp [hsplit])
      rw [hc] at hfalse
      simp at hfalse

section Verified

variable {t : FileTree} {cnf certificate : Path} {strictUnassigned : Option Bool}

private theorem validateWhole_ok_iff :
    (∃ v, validateWhole t cnf certificate strictUnassigned = .ok v ∧ v.ok = true) ↔
      ∃ f a, t.readFormula cnf = .ok f ∧
        t.readCertificate certificate (some f.header.numVars) = .ok a ∧
        (∀ c ∈ f.clauses, a.satisfiesClause c = true) ∧
        (strictUnassigned = some true → a.unassignedCount f.header.numVars = 0) := by
  rw [validateWhole]
  cases hformula : t.readFormula cnf with
  | error failure =>
      apply iff_of_false
      · cases t.readHeader cnf with
        | error failure => simp [bind, Except.bind]
        | ok header =>
            simp only [bind, Except.bind]
            cases t.readCertificate certificate (some header.numVars) <;> simp
      · simp
  | ok f =>
      rw [FileTree.readHeader_of_readFormula hformula]
      simp only [bind, Except.bind, Except.ok.injEq, exists_and_left, exists_eq_left']
      cases hcertificate : t.readCertificate certificate (some f.header.numVars) with
      | error failure => simp
      | ok a =>
          have hcheck := Formula.check_ok_iff
            (FileTree.maxVar_le_of_readCertificate hcertificate) strictUnassigned
          simp only [Except.ok.injEq, exists_eq_left', ← hcheck]
          cases f.check a strictUnassigned <;> simp [Except.mapError]

private theorem validate_ok_iff (mode : Mode) :
    (∃ v, validate t cnf certificate mode strictUnassigned = .ok v ∧ v.ok = true) ↔
      ∃ v, validateWhole t cnf certificate strictUnassigned = .ok v ∧ v.ok = true := by
  cases mode with
  | materialize => rfl
  | stream =>
      rw [validate]
      rcases validate_cases t cnf certificate strictUnassigned with
        ⟨failure, hs, hw⟩ | ⟨v, hs, hw⟩ | ⟨v, failure, hs, hw, hok, -⟩
      · simp [hs, hw]
      · simp [hs, hw]
      · simp [hs, hw, hok]

end Verified

/-- The checker says yes exactly to the pairs of texts that deserve it. For files that can be read,
in either mode: the verdict is positive if and only if the one file is the text of a formula, the
other one that of a certificate for its number of variables in which no variable has both signs,
every clause has an integer that the certificate lists and, where that is asked for, every variable
of the formula is listed. -/
theorem verified_iff {t : FileTree} {cnf certificate : Path}
    {cnfLines certificateLines : List String}
    (hcnf : t.readLines cnf = .ok ⟨cnfLines, .complete⟩)
    (hcertificate : t.readLines certificate = .ok ⟨certificateLines, .complete⟩)
    (mode : Mode) (strictUnassigned : Option Bool) :
    (∃ v, validateNamed t cnf certificate mode.name strictUnassigned = .ok v ∧ v.ok = true) ↔
      ∃ numVars numClauses values listed,
        FormulaText cnfLines numVars numClauses values ∧
        CertificateText (some numVars) certificateLines listed ∧
        Assignment.Consistent listed ∧
        (∀ run ∈ runs values, ∃ v ∈ run, v ∈ listed) ∧
        (strictUnassigned = some true →
          ∀ x : Int, 1 ≤ x → x ≤ numVars → x ∈ listed ∨ -x ∈ listed) := by
  rw [validateNamed_name, validate_ok_iff, validateWhole_ok_iff]
  constructor
  · intro h
    obtain ⟨f, a, hformula, hassignment, hclauses, hstrict⟩ := h
    obtain ⟨input, hlines, hread⟩ := FileTree.readWith_eq_ok_iff.1 hformula
    obtain rfl := Except.ok.inj (hcnf.symm.trans hlines)
    obtain ⟨values, htext, hruns⟩ := Formula.read_eq_ok_iff.1 hread
    obtain ⟨input, hlines, hread⟩ := FileTree.readWith_eq_ok_iff.1 hassignment
    obtain rfl := Except.ok.inj (hcertificate.symm.trans hlines)
    obtain ⟨ls, hcertificateText, hassign⟩ := Certificate.read_eq_ok_iff_text.1 hread
    refine ⟨_, _, values, _, htext, hcertificateText,
      Assignment.assignAll_empty_ok_iff.1 ⟨a, hassign⟩, ?_, ?_⟩
    · intro run hrun
      rw [hruns] at hrun
      obtain ⟨c, hc, rfl⟩ := List.mem_map.1 hrun
      exact (Assignment.satisfiesClause_iff hassign c).1 (hclauses c hc)
    · intro hasked
      exact (Assignment.unassignedCount_eq_zero_iff_listed hassign _).1 (hstrict hasked)
  · intro h
    obtain ⟨numVars, numClauses, values, listed, htext, hcertificateText, hconsistent, hclauses,
      hstrict⟩ := h
    obtain ⟨f, rfl, rfl, hruns⟩ := htext.exists_formula
    obtain ⟨ls, rfl⟩ := hcertificateText.exists_literals
    obtain ⟨a, hassign⟩ := Assignment.assignAll_empty_ok_iff.2 hconsistent
    refine ⟨f, a, ?_, ?_, ?_, ?_⟩
    · exact FileTree.readWith_eq_ok_iff.2
        ⟨_, hcnf, Formula.read_eq_ok_iff.2 ⟨values, htext, hruns⟩⟩
    · exact FileTree.readWith_eq_ok_iff.2
        ⟨_, hcertificate, Certificate.read_eq_ok_iff_text.2 ⟨ls, hcertificateText, hassign⟩⟩
    · intro c hc
      apply (Assignment.satisfiesClause_iff hassign c).2
      apply hclauses
      rw [hruns]
      exact List.mem_map_of_mem hc
    · intro hasked
      exact (Assignment.unassignedCount_eq_zero_iff_listed hassign _).2 (hstrict hasked)

/-- The formula that denies its only variable, and a certificate that has its status line last. -/
def denialTree : FileTree where
  nodes :=
    [(["formula"], .file [112, 32, 99, 110, 102, 32, 49, 32, 49, 10, 45, 49, 32, 48, 10]),
      (["certificate"],
        .file [118, 32, 45, 49, 10, 115, 32, 83, 65, 84, 73, 83,
          70, 73, 65, 66, 76, 69, 10])]

theorem denialTree_verified :
    ∃ v, validateNamed denialTree ⟨"", ["formula"]⟩ ⟨"", ["certificate"]⟩ "stream" (some true) =
      .ok v ∧ v.ok = true := by
  have hcnf : denialTree.readLines ⟨"", ["formula"]⟩ = .ok ⟨["p cnf 1 1", "-1 0"], .complete⟩ := by
    decide +kernel
  have hcertificate : denialTree.readLines ⟨"", ["certificate"]⟩ =
      .ok ⟨["v -1", "s SATISFIABLE"], .complete⟩ := by decide +kernel
  have hminus : Spells "-1" (-1) := (readInteger_eq_ok_iff {}).1 (by decide +kernel)
  have hzero : Spells "0" 0 := (readInteger_eq_ok_iff {}).1 (by decide +kernel)
  have hheader : HeaderLine "p cnf 1 1" 1 1 := by
    have hparse : Header.parse "p cnf 1 1" {} = .ok ⟨1, 1, by decide⟩ := by decide +kernel
    exact (Header.parse_eq_ok_iff {}).1 hparse
  have htokens : ["-1 0"].flatMap Text.fields = ["-1", "0"] := by decide +kernel
  have hformula : FormulaText ["p cnf 1 1", "-1 0"] 1 1 [-1, 0] := by
    refine ⟨⟨"p cnf 1 1", ["-1 0"], by decide +kernel, hheader, by decide +kernel, ?_⟩,
      by decide, by decide, by decide, by decide⟩
    rw [htokens]
    exact .cons hminus (.cons hzero .nil)
  have hvalues : taggedFields 'v' ["v -1", "s SATISFIABLE"] = [["-1"]] := by decide +kernel
  have hlisted : CertificateText (some 1) ["v -1", "s SATISFIABLE"] [-1] := by
    refine ⟨by decide +kernel, by decide +kernel, [[-1]], ?_, rfl⟩
    rw [hvalues]
    exact .cons ⟨.cons hminus .nil, by simp [InBound, maxVariable], by simp⟩ .nil
  have hclauses : ∀ run ∈ runs [-1, 0], ∃ v ∈ run, v ∈ ([-1] : List Int) := by decide
  have hall : ∀ x : Int, 1 ≤ x → x ≤ 1 → x ∈ ([-1] : List Int) ∨ -x ∈ ([-1] : List Int) := by
    intro x hpos hle
    obtain rfl : x = 1 := by omega
    decide
  exact (verified_iff hcnf hcertificate .stream (some true)).2
    ⟨1, 1, [-1, 0], [-1], hformula, hlisted, by simp [Assignment.Consistent], hclauses,
      fun _ => hall⟩

end CnfAudit
