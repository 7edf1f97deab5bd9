import CnfAudit.Proofs.CertificateText
import CnfAudit.Proofs.Draining
import CnfAudit.Validation

/-!
# The two modes

Only the mode that reads the whole formula meets the faults behind the clause at which the search
ends. This is the only difference.
-/

namespace CnfAudit

namespace FileTree

variable {t : FileTree} {p : Path}

theorem readHeader_eq : t.readHeader p = (t.openStream p).map ClauseStream.header := by
  simp only [readHeader, openStream, readWith, Header.read]
  cases t.readLines p with
  | error failure => rfl
  | ok input =>
      simp only
      cases (ClauseStream.start (some p.render) input).1 <;> rfl

theorem readWith_eq_ok_iff {α : Type} {reader : Option String → LineSource → Except Fault α}
    {x : α} :
    t.readWith p reader = .ok x ↔
      ∃ input, t.readLines p = .ok input ∧ reader (some p.render) input = .ok x := by
  rw [readWith]
  cases t.readLines p with
  | error failure => simp
  | ok input =>
      simp only [Except.ok.injEq, exists_eq_left']
      cases reader (some p.render) input <;> simp [Except.mapError]

theorem readFormula_eq :
    t.readFormula p =
      (t.openStream p).bind fun s =>
        match (drain s).fault with
        | some fault => .error (.fault fault)
        | none => .ok ⟨s.header, (drain s).clauses⟩ := by
  simp only [readFormula, openStream, readWith, Formula.read]
  cases t.readLines p with
  | error failure => rfl
  | ok input =>
      simp only
      cases (ClauseStream.start (some p.render) input).1 with
      | error fault => rfl
      | ok s =>
          simp only [Except.mapError, Except.bind]
          cases (drain s).fault <;> rfl

theorem readHeader_of_readFormula {f : Formula} (h : t.readFormula p = .ok f) :
    t.readHeader p = .ok f.header := by
  rw [readHeader_eq]
  rw [readFormula_eq] at h
  cases hstream : t.openStream p with
  | error failure => simp [hstream, Except.bind] at h
  | ok s =>
      simp only [hstream, Except.bind] at h
      cases hfault : (drain s).fault with
      | some fault => simp [hfault] at h
      | none =>
          rw [hfault] at h
          rw [← Except.ok.inj h]
          rfl

theorem maxVar_le_of_readCertificate {numVars : Nat} {a : Assignment}
    (h : t.readCertificate p (some numVars) = .ok a) : a.maxVar ≤ numVars := by
  obtain ⟨input, -, hread⟩ := readWith_eq_ok_iff.1 h
  exact Certificate.maxVar_le_of_read hread

end FileTree

theorem checkClauses_of_le {σ : Type} [ClauseSource σ] (s : σ) {a : Assignment}
    {settings : CheckSettings} (h : (a.maxVar : Int) ≤ settings.numVars) :
    (checkClauses s a settings).1 =
      (searchFrom ⟨a, false⟩ 0 s).1.map fun found => .ofSearch a settings found.1 found.2 := by
  rw [checkClauses_within a s h]

/-- A stream and the formula drained from it are checked alike, but for the fault that only the
stream meets, and only if no clause ends the check before. -/
theorem check_drained {s : ClauseStream} {a : Assignment} (h : a.maxVar ≤ s.header.numVars)
    (strictUnassigned : Option Bool) :
    ∃ v : Verdict,
      Formula.check ⟨s.header, (drain s).clauses⟩ a strictUnassigned =
        .ok { v with mode := some Mode.materialize.name } ∧
      (((s.check a strictUnassigned).1 = .ok { v with mode := some Mode.stream.name } ∧
          v.ok = false ∧ v.firstUnsatIndex ≠ none) ∨
        (s.check a strictUnassigned).1 =
          match (drain s).fault with
          | some fault => .error fault
          | none => .ok { v with mode := some Mode.stream.name }) := by
  have hle := Int.ofNat_le.2 h
  rw [Formula.check, ClauseStream.check, checkClauses_of_le (drain s).clauses hle,
    checkClauses_of_le s hle]
  rcases searchFrom_drained a s with ⟨checked, c, hs, hlist⟩ | ⟨hlist, hs⟩
  · refine ⟨.ofSearch a ⟨s.header.numVars, some s.header.numClauses, none, strictUnassigned⟩
      checked (some c), ?_, .inl ⟨?_, rfl, by simp [Verdict.ofSearch]⟩⟩
    · rw [hlist]
      rfl
    · rw [hs]
      rfl
  · refine ⟨.ofSearch a ⟨s.header.numVars, some s.header.numClauses, none, strictUnassigned⟩
      (drain s).clauses.length none, ?_, .inr ?_⟩
    · rw [hlist]
      rfl
    · rw [hs]
      cases (drain s).fault <;> rfl

section Validation

variable (t : FileTree) (cnf certificate : Path) (strictUnassigned : Option Bool)

/-- The two modes fail alike, or give one verdict, or the stream ends at a clause in front of the
fault that the other mode meets. -/
theorem validate_cases :
    (∃ failure, validateStream t cnf certificate strictUnassigned = .error failure ∧
      validateWhole t cnf certificate strictUnassigned = .error failure) ∨
    (∃ v : Verdict, validateStream t cnf certificate strictUnassigned =
        .ok { v with mode := some Mode.stream.name } ∧
      validateWhole t cnf certificate strictUnassigned =
        .ok { v with mode := some Mode.materialize.name }) ∨
    (∃ v failure, validateStream t cnf certificate strictUnassigned = .ok v ∧
      validateWhole t cnf certificate strictUnassigned = .error failure ∧
      v.ok = false ∧ v.firstUnsatIndex ≠ none) := by
  simp only [validateStream, validateWhole, FileTree.readHeader_eq, FileTree.readFormula_eq]
  cases t.openStream cnf with
  | error failure => exact .inl ⟨failure, rfl, rfl⟩
  | ok s =>
      simp only [bind, Except.bind, Except.map]
      cases hcertificate : t.readCertificate certificate (some s.header.numVars) with
      | error failure => exact .inl ⟨failure, rfl, rfl⟩
      | ok a =>
          have hle := FileTree.maxVar_le_of_readCertificate hcertificate
          obtain ⟨v, hwhole, hstream⟩ := check_drained hle strictUnassigned
          cases hfault : (drain s).fault with
          | some fault =>
              rcases hstream with ⟨hstream, hok, hindex⟩ | hstream
              · right; right
                simp only [hstream]
                exact ⟨_, _, rfl, rfl, hok, hindex⟩
              · left
                simp only [hstream, hfault]
                exact ⟨_, rfl, rfl⟩
          | none =>
              have hsame : (s.check a strictUnassigned).1 =
                  .ok { v with mode := some Mode.stream.name } := by
                rcases hstream with ⟨hstream, -⟩ | hstream
                · exact hstream
                · rw [hstream, hfault]
              right; left
              simp only [hsame, hwhole]
              exact ⟨v, rfl, rfl⟩

theorem validateNamed_name (mode : Mode) :
    validateNamed t cnf certificate mode.name strictUnassigned =
      validate t cnf certificate mode strictUnassigned := by
  cases mode <;> rfl

end Validation

/-- The modes agree. Whatever verdict the whole formula gives, the stream gives too; whatever way
the stream fails, the whole formula fails in the same way. Where only the whole formula fails, the
stream's verdict names a clause that is not satisfied. A verdict of the stream that names none, and
so every positive one, is therefore the verdict on the whole formula. -/
theorem modes_agree (t : FileTree) (cnf certificate : Path) (strictUnassigned : Option Bool) :
    (∀ v, validateNamed t cnf certificate "materialize" strictUnassigned = .ok v →
      validateNamed t cnf certificate "stream" strictUnassigned =
        .ok { v with mode := some "stream" }) ∧
    (∀ failure, validateNamed t cnf certificate "stream" strictUnassigned = .error failure →
      validateNamed t cnf certificate "materialize" strictUnassigned = .error failure) ∧
    (∀ failure v,
      validateNamed t cnf certificate "materialize" strictUnassigned = .error failure →
      validateNamed t cnf certificate "stream" strictUnassigned = .ok v →
        v.ok = false ∧ v.firstUnsatIndex ≠ none) ∧
    (∀ v, validateNamed t cnf certificate "stream" strictUnassigned = .ok v →
      v.firstUnsatIndex = none ∨ v.ok = true →
        validateNamed t cnf certificate "materialize" strictUnassigned =
          .ok { v with mode := some "materialize" }) := by
  have hstream : validateNamed t cnf certificate "stream" strictUnassigned =
      validateStream t cnf certificate strictUnassigned :=
    validateNamed_name t cnf certificate strictUnassigned .stream
  have hwhole : validateNamed t cnf certificate "materialize" strictUnassigned =
      validateWhole t cnf certificate strictUnassigned :=
    validateNamed_name t cnf certificate strictUnassigned .materialize
  rw [hstream, hwhole]
  rcases validate_cases t cnf certificate strictUnassigned with
    ⟨failure, hs, hw⟩ | ⟨v, hs, hw⟩ | ⟨v, failure, hs, hw, hok, hindex⟩
  · rw [hs, hw]
    simp
  · rw [hs, hw]
    refine ⟨?_, ?_, ?_, ?_⟩
    · intro u hu
      rw [← Except.ok.inj hu]
      rfl
    · simp
    · simp
    · intro u hu _
      rw [← Except.ok.inj hu]
      rfl
  · rw [hs, hw]
    refine ⟨?_, ?_, ?_, ?_⟩
    · simp
    · simp
    · intro _ u _ hu
      obtain rfl := Except.ok.inj hu
      exact ⟨hok, hindex⟩
    · intro u hu hverdict
      obtain rfl := Except.ok.inj hu
      rcases hverdict with h | h
      · exact absurd h hindex
      · rw [hok] at h
        simp at h

end CnfAudit
