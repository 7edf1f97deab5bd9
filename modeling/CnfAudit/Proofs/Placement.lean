import CnfAudit.Proofs.FaultOrigins
import CnfAudit.Proofs.Modes

/-!
# The place of a diagnostic
-/

namespace CnfAudit

/-- The diagnostic points at a line with content, with a cause that lines are rejected for, or at no
line, with a cause that the end of an input is rejected for. Lines are counted from one. -/
def Diagnostic.PlacedIn (d : Diagnostic) (lines : List String) (atLine atEnd : Cause → Prop) :
    Prop :=
  (atLine d.cause ∧ ∃ n line, d.place.line = some ((n + 1 : Nat) : Int) ∧
      lines[n]? = some line ∧ ¬IsSkipped line) ∨
    (atEnd d.cause ∧ d.place.line = none)

theorem Diagnostic.PlacedIn.mono {d : Diagnostic} {lines : List String}
    {atLine atEnd others : Cause → Prop} (h : d.PlacedIn lines atLine atEnd)
    (hcauses : ∀ cause, atLine cause → others cause) : d.PlacedIn lines others atEnd :=
  h.imp_left fun hline => ⟨hcauses _ hline.1, hline.2⟩

theorem Diagnostic.PlacedIn.cause {d : Diagnostic} {lines : List String}
    {atLine atEnd : Cause → Prop} (h : d.PlacedIn lines atLine atEnd) :
    atLine d.cause ∨ atEnd d.cause :=
  h.imp And.left And.left

/-- A diagnostic is placed where its origin is. -/
theorem Origin.placed {k : Rejections} {source : Option String} {input : LineSource}
    {d : Diagnostic}
    (h : Origin k source input.ending (numberedContent 0 input.lines) (.rejected d)) :
    d.place.source = source ∧ d.PlacedIn input.lines k.atLine k.atEnd := by
  cases h with
  | line hmem h =>
      cases h with
      | rejected hcause =>
          obtain ⟨n, rfl, hline, hskip⟩ := mem_numberedContent_iff.1 hmem
          refine ⟨rfl, .inl ⟨hcause, n, _, ?_, hline, hskip⟩⟩
          rw [Nat.zero_add, Nat.add_comm]
  | atEnd _ hcause => exact ⟨rfl, .inr ⟨hcause, rfl⟩⟩

/-- The causes that come without a place, or from making a literal. -/
def Cause.isUnplaced : Cause → Bool
  | .wordWithoutVariable _ | .variableOutside _ | .terminatorAsLiteral | .exceedsDeclared ..
  | .assignsBeyond .. => true
  | _ => false

theorem Cause.isUnplaced_eq_false {cause : Cause}
    (h : (cause.isOfFormulaLine || cause.isOfFormulaEnd || cause.isOfCertificateLine) = true) :
    cause.isUnplaced = false := by
  cases cause with
  | wordWithoutVariable | variableOutside | terminatorAsLiteral | exceedsDeclared
  | assignsBeyond => cases h
  | _ => rfl

theorem Formula.check_eq_ok {f : Formula} {a : Assignment} (h : a.maxVar ≤ f.header.numVars)
    (strictUnassigned : Option Bool) : ∃ v, f.check a strictUnassigned = .ok v := by
  rw [Formula.check, checkClauses_of_le f.clauses (Int.ofNat_le.2 h)]
  rcases searchFrom_drained a f.clauses with ⟨checked, c, hfound, -⟩ | ⟨-, hfound⟩
  · rw [hfound]
    exact ⟨_, rfl⟩
  · rw [hfound, drain_list]
    exact ⟨_, rfl⟩

theorem FileTree.readWith_eq_fault {α : Type} {t : FileTree} {p : Path}
    {reader : Option String → LineSource → Except Fault α} {fault : Fault}
    (h : t.readWith p reader = .error (.fault fault)) :
    ∃ input, t.readLines p = .ok input ∧ reader (some p.render) input = .error fault := by
  rw [readWith] at h
  split at h
  · rename_i failure hlines
    rw [Except.error.inj h, readLines] at hlines
    split at hlines <;> simp at hlines
  · rename_i input hlines
    refine ⟨input, hlines, ?_⟩
    cases hread : reader (some p.render) input with
    | error other =>
        rw [hread] at h
        rw [Failure.fault.inj (Except.error.inj h)]
    | ok x => simp [hread, Except.mapError] at h

theorem FileTree.readFormula_of_readHeader {t : FileTree} {p : Path} {failure : Failure}
    (h : t.readHeader p = .error failure) : t.readFormula p = .error failure := by
  rw [readHeader_eq] at h
  rw [readFormula_eq]
  cases hstream : t.openStream p with
  | error other =>
      rw [hstream] at h
      exact congrArg Except.error (Except.error.inj h)
  | ok s => simp [hstream, Except.map] at h

section Validation

variable {t : FileTree} {cnf certificate : Path} {strictUnassigned : Option Bool} {fault : Fault}

theorem fault_of_validateWhole
    (h : validateWhole t cnf certificate strictUnassigned = .error (.fault fault)) :
    t.readFormula cnf = .error (.fault fault) ∨
      ∃ header : Header, t.readCertificate certificate (some header.numVars) =
        .error (.fault fault) := by
  rw [validateWhole] at h
  cases hheader : t.readHeader cnf with
  | error failure =>
      rw [hheader] at h
      obtain rfl : failure = .fault fault := Except.error.inj h
      exact .inl (FileTree.readFormula_of_readHeader hheader)
  | ok header =>
      simp only [hheader, bind, Except.bind] at h
      cases hcertificate : t.readCertificate certificate (some header.numVars) with
      | error failure =>
          rw [hcertificate] at h
          exact .inr ⟨header, hcertificate.trans (congrArg _ (Except.error.inj h))⟩
      | ok a =>
          simp only [hcertificate] at h
          cases hformula : t.readFormula cnf with
          | error failure =>
              rw [hformula] at h
              exact .inl (congrArg _ (Except.error.inj h))
          | ok f =>
              -- the range of the certificate is that of the formula
              have hsame := FileTree.readHeader_of_readFormula hformula
              rw [hheader] at hsame
              obtain rfl := Except.ok.inj hsame
              have hle := FileTree.maxVar_le_of_readCertificate hcertificate
              obtain ⟨v, hcheck⟩ := Formula.check_eq_ok hle strictUnassigned
              simp [hformula, hcheck, Except.mapError] at h

/-- In both modes a validation fails only as that of the whole formula does. -/
theorem validateWhole_of_failure {mode : String}
    (h : validateNamed t cnf certificate mode strictUnassigned = .error (.fault fault)) :
    validateWhole t cnf certificate strictUnassigned = .error (.fault fault) := by
  rw [validateNamed] at h
  split at h
  · simp at h
  · rename_i known hknown
    cases known with
    | materialize => exact h
    | stream =>
        have hstream : validateStream t cnf certificate strictUnassigned =
            .error (.fault fault) := h
        rcases validate_cases t cnf certificate strictUnassigned with
          ⟨failure, hs, hw⟩ | ⟨v, hs, -⟩ | ⟨v, failure, hs, -⟩
        · rw [hw, ← hs, hstream]
        · simp [hstream] at hs
        · simp [hstream] at hs

end Validation

/-- A diagnostic of a validation, in either mode, names the formula or the certificate. It points at
a line of that file which is neither blank nor a comment, unless the file has come to its end
without a header, within a clause, with clauses missing or without a status. What is wrong is never
the range of an assignment that has been read, nor an integer that is no literal. -/
theorem diagnostics_placed {t : FileTree} {cnf certificate : Path} {mode : String}
    {strictUnassigned : Option Bool} {d : Diagnostic}
    (h : validateNamed t cnf certificate mode strictUnassigned =
      .error (.fault (.rejected d))) :
    ((∃ input, t.readLines cnf = .ok input ∧ d.place.source = some cnf.render ∧
        d.PlacedIn input.lines (fun cause => cause.isOfFormulaLine = true)
          (fun cause => cause.isOfFormulaEnd = true)) ∨
      (∃ input, t.readLines certificate = .ok input ∧
        d.place.source = some certificate.render ∧
        d.PlacedIn input.lines (fun cause => cause.isOfCertificateLine = true)
          (fun cause => cause = .statusMissing))) ∧
    d.cause.isUnplaced = false := by
  have hwhole := validateWhole_of_failure h
  rcases fault_of_validateWhole hwhole with hformula | ⟨header, hcertificate⟩
  · obtain ⟨input, hlines, hread⟩ := FileTree.readWith_eq_fault hformula
    have hplaced := (Formula.origin_of_read hread).placed
    refine ⟨.inl ⟨input, hlines, hplaced⟩, Cause.isUnplaced_eq_false ?_⟩
    have hcause : d.cause.isOfFormulaLine = true ∨ d.cause.isOfFormulaEnd = true :=
      hplaced.2.cause
    simp [hcause]
  · obtain ⟨input, hlines, hread⟩ := FileTree.readWith_eq_fault hcertificate
    have hplaced := (Certificate.origin_of_read hread).placed
    have hfits : ∀ cause, CertificateCause (some header.numVars) cause →
        cause.isOfCertificateLine = true := by
      intro cause hcause
      rcases hcause with hcause | ⟨-, hbeyond⟩
      · exact hcause
      · have hlt := hbeyond _ rfl
        have hle := header.numVars_le
        omega
    have hbounded := hplaced.2.mono hfits
    refine ⟨.inr ⟨input, hlines, hplaced.1, hbounded⟩, ?_⟩
    rcases hbounded.cause with hcause | (hcause : d.cause = .statusMissing)
    · apply Cause.isUnplaced_eq_false
      simp [hcause]
    · rw [hcause]
      rfl

/-- A formula with a literal out of range on its fourth line, behind a comment and a blank line. -/
def remarkTree : FileTree where
  nodes :=
    [(["formula"],
        .file [99, 32, 120, 10, 10, 112, 32, 99, 110, 102, 32, 49, 32, 49, 10, 50, 32, 48, 10]),
      (["certificate"],
        .file [115, 32, 83, 65, 84, 73, 83, 70, 73, 65, 66, 76, 69, 10])]

theorem remarkTree_placed :
    let d : Diagnostic := ⟨.literalOutOfRange 2 1, ⟨some "formula", some 4⟩⟩
    validateNamed remarkTree ⟨"", ["formula"]⟩ ⟨"", ["certificate"]⟩ "stream" (some false) =
        .error (.fault (.rejected d)) ∧
      d.PlacedIn ["c x", "", "p cnf 1 1", "2 0"] (fun cause => cause.isOfFormulaLine = true)
        (fun cause => cause.isOfFormulaEnd = true) := by
  intro d
  have hcnf : remarkTree.readLines ⟨"", ["formula"]⟩ =
      .ok ⟨["c x", "", "p cnf 1 1", "2 0"], .complete⟩ := by decide +kernel
  have hfails : validateNamed remarkTree ⟨"", ["formula"]⟩ ⟨"", ["certificate"]⟩ "stream"
      (some false) = .error (.fault (.rejected d)) := by decide +kernel
  refine ⟨hfails, ?_⟩
  rcases (diagnostics_placed hfails).1 with ⟨input, hlines, -, hplaced⟩ | ⟨input, -, hname, -⟩
  · obtain rfl := Except.ok.inj (hcnf.symm.trans hlines)
    exact hplaced
  · exact absurd hname (by decide +kernel)

end CnfAudit
