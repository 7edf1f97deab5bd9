import CnfAudit.Proofs.BodyText
import CnfAudit.Proofs.OpenVariables
import CnfAudit.Proofs.Verified

/-!
# What a verdict reports

Each part of a verdict is compared with the texts of the two files.
-/

namespace CnfAudit

/-- The report of a verdict agrees with a text that has this header and with the integers that a
certificate lists. -/
structure Verdict.Exact (v : Verdict) (header : Header) (lines : List String) (listed : List Int)
    (strictUnassigned : Option Bool) : Prop where
  numVars : v.numVars = header.numVars
  numClauses : v.numClauses = some (header.numClauses : Int)
  satisfied : v.firstUnsatIndex = none →
    v.firstUnsatClause = none ∧ v.clausesChecked = header.numClauses
  unsatisfied : ∀ k, v.firstUnsatIndex = some k →
    1 ≤ k ∧ k ≤ header.numClauses ∧ v.clausesChecked = k ∧
      ∃ c, v.firstUnsatClause = some c ∧
        (header.soundClauses lines)[k - 1]? = some c.integers ∧
        (∀ x ∈ c.integers, x ∉ listed) ∧
        ∀ clause ∈ (header.soundClauses lines).take (k - 1), ∃ x ∈ clause, x ∈ listed
  counted : v.unassignedCount + (listed.map Int.natAbs).toFinset.card = header.numVars
  named : v.firstUnassigned = (unlisted header.numVars listed).take (min 20 v.unassignedCount)
  length_named : v.firstUnassigned.length = min 20 v.unassignedCount
  ok_iff : v.ok = true ↔
    v.firstUnsatIndex = none ∧ ¬(strictUnassigned = some true ∧ 0 < v.unassignedCount)

theorem Verdict.Exact.of_mode {v : Verdict} {mode : Option String} {header : Header}
    {lines : List String} {listed : List Int} {strictUnassigned : Option Bool}
    (h : Verdict.Exact { v with mode } header lines listed strictUnassigned) :
    v.Exact header lines listed strictUnassigned :=
  ⟨h.numVars, h.numClauses, h.satisfied, h.unsatisfied, h.counted, h.named, h.length_named,
    h.ok_iff⟩

namespace ClauseStream

private theorem length_readPieces {source : Option String} {ending : Ending} {header : Header}
    {pieces : List Piece} {read : Clause} {count : Nat}
    (h : (readPieces source ending header pieces read count).2 = none) :
    count + (readPieces source ending header pieces read count).1.length = header.numClauses := by
  induction pieces generalizing read count with
  | nil =>
      simp only [readPieces, endFault] at h ⊢
      cases ending with
      | undecodable refusal => simp at h
      | complete =>
          simp only at h
          split at h
          · simp at h
          · split at h
            · simp at h
            · rename_i hcount
              simpa using hcount
  | cons piece pieces ih =>
      cases piece with
      | header line text => simp [readPieces] at h
      | token line text =>
          rw [readPieces] at h ⊢
          split at h
          · simp at h
          · split at h
            · split at h
              · rename_i hread hzero hcount
                simp only [hzero, hcount, dite_true, if_true, prepend, List.length_cons] at h ⊢
                have hrest := ih h
                omega
              · simp at h
            · split at h
              · rename_i hread hzero hrange
                simp only [hzero, hrange, dite_false, dite_true]
                exact ih h
              · simp at h

/-- A stream that ends without a fault has given as many clauses as its header declares. -/
theorem length_clauses_drain {source : Option String} {input : LineSource} {s : ClauseStream}
    (h : (start source input).1 = .ok s) (hfault : (drain s).fault = none) :
    (drain s).clauses.length = s.header.numClauses := by
  obtain ⟨taken, rest, hseek⟩ := start_eq_ok_iff.1 ⟨s, h, rfl⟩
  have houtcome := outcome_of_start h hseek
  rw [s.drain_eq_outcome.2, houtcome] at hfault
  have hlength := length_readPieces hfault
  rw [s.drain_eq_outcome.1, houtcome]
  omega

end ClauseStream

section Check

variable {source : Option String} {input : LineSource} {s : ClauseStream} {a : Assignment}
  {ls : List Literal} {strictUnassigned : Option Bool}

private theorem soundClauses_of_drain (hstart : (ClauseStream.start source input).1 = .ok s)
    {before after : List Clause} {c : Clause}
    (hsplit : (drain s).clauses = before ++ c :: after) :
    before.length + 1 ≤ s.header.numClauses ∧
      (s.header.soundClauses input.lines)[before.length]? = some c.integers ∧
      (s.header.soundClauses input.lines).take before.length = before.map Clause.integers := by
  have hsound : s.header.soundClauses input.lines =
      before.map Clause.integers ++ c.integers :: after.map Clause.integers := by
    rw [← clauses_drain_of_start hstart, hsplit, List.map_append, List.map_cons]
  have hlength : (s.header.soundClauses input.lines).length ≤ s.header.numClauses := by
    rw [Header.soundClauses]
    exact List.length_take_le ..
  rw [hsound] at hlength ⊢
  refine ⟨?_, ?_, ?_⟩
  · simp only [List.length_append, List.length_map, List.length_cons] at hlength
    omega
  · simp
  · simp

private theorem exact_ofSearch {header : Header} {lines : List String} {mode : Option String}
    {checked : Nat} {unsat : Option Clause}
    (hassign : Assignment.assignAll none .empty ls = .ok a)
    (hbound : ∀ x ∈ ls.map Literal.toInt, x ≠ 0 ∧ x.natAbs ≤ header.numVars)
    (hnone : unsat = none → checked = header.numClauses)
    (hsome : ∀ c, unsat = some c → 1 ≤ checked ∧ checked ≤ header.numClauses ∧
      (header.soundClauses lines)[checked - 1]? = some c.integers ∧
      (∀ x ∈ c.integers, x ∉ ls.map Literal.toInt) ∧
      ∀ clause ∈ (header.soundClauses lines).take (checked - 1),
        ∃ x ∈ clause, x ∈ ls.map Literal.toInt) :
    (Verdict.ofSearch a ⟨header.numVars, some header.numClauses, mode, strictUnassigned⟩ checked
      unsat).Exact header lines (ls.map Literal.toInt) strictUnassigned := by
  have hsize : 0 < a.table.size :=
    Nat.lt_of_lt_of_le Nat.one_pos (Assignment.size_le_assignAll hassign)
  have hopen := Assignment.openVars_eq_unlisted hassign header.numVars
  have hcount : a.unassignedCount header.numVars =
      (unlisted header.numVars (ls.map Literal.toInt)).length := by
    rw [Assignment.unassignedCount_eq hsize, hopen]
  have hnamed : a.unassignedVars header.numVars (some unassignedSample) =
      (unlisted header.numVars (ls.map Literal.toInt)).take
        (min 20 (a.unassignedCount header.numVars)) := by
    rw [hcount, ← List.take_take, List.take_length]
    have hvars := Assignment.unassignedVars_eq hsize header.numVars unassignedSample
    rw [hopen] at hvars
    exact hvars
  refine ⟨rfl, rfl, ?_, ?_, ?_, hnamed, ?_, ?_⟩
  · intro hindex
    obtain rfl : unsat = none := Option.map_eq_none_iff.1 hindex
    exact ⟨rfl, hnone rfl⟩
  · intro k hindex
    obtain ⟨c, rfl, rfl⟩ := Option.map_eq_some_iff.1 hindex
    obtain ⟨hpos, hle, hc, hunlisted, hbefore⟩ := hsome c rfl
    exact ⟨hpos, hle, rfl, c, rfl, hc, hunlisted, hbefore⟩
  · exact (congrArg (· + _) hcount).trans (length_unlisted_add_card hbound)
  · have hlength := congrArg List.length hnamed
    rw [List.length_take, ← hcount, Nat.min_assoc, Nat.min_self] at hlength
    exact hlength
  · rw [Verdict.ofSearch_ok_iff]
    simp only [Verdict.ofSearch, Option.map_eq_none_iff, Nat.pos_iff_ne_zero, not_and, not_not]

private theorem exact_of_check (hstart : (ClauseStream.start source input).1 = .ok s)
    (hassign : Assignment.assignAll none .empty ls = .ok a)
    (hbound : ∀ x ∈ ls.map Literal.toInt, x ≠ 0 ∧ x.natAbs ≤ s.header.numVars)
    (hle : a.maxVar ≤ s.header.numVars) {v : Verdict}
    (hcheck : (s.check a strictUnassigned).1 = .ok v) :
    v.Exact s.header input.lines (ls.map Literal.toInt) strictUnassigned := by
  rw [ClauseStream.check, checkClauses_of_le s (Int.ofNat_le.2 hle)] at hcheck
  rcases satisfied_or_first_unsatisfied a (drain s).clauses with
    hall | ⟨before, c, after, hsplit, hbefore, hc⟩
  · rw [searchFrom_satisfied a 0 hall] at hcheck
    cases hfault : (drain s).fault with
    | some fault => simp [hfault, Except.map] at hcheck
    | none =>
        have hlength := ClauseStream.length_clauses_drain hstart hfault
        rw [hfault, hlength, Nat.zero_add] at hcheck
        rw [← Except.ok.inj hcheck]
        apply exact_ofSearch hassign hbound
        · exact fun _ => rfl
        · simp
  · rw [searchFrom_unsatisfied a 0 hsplit hbefore hc, Nat.zero_add] at hcheck
    obtain ⟨hcount, hnumber, htake⟩ := soundClauses_of_drain hstart hsplit
    rw [← Except.ok.inj hcheck]
    apply exact_ofSearch hassign hbound
    · simp
    · rintro d ⟨rfl⟩
      rw [Nat.add_sub_cancel, htake]
      refine ⟨Nat.le_add_left .., hcount, hnumber, ?_, ?_⟩
      · intro x hx hlisted
        have hsatisfied := (Assignment.satisfiesClause_iff hassign c).2 ⟨x, hx, hlisted⟩
        rw [hc] at hsatisfied
        simp at hsatisfied
      · intro clause hclause
        obtain ⟨d, hd, rfl⟩ := List.mem_map.1 hclause
        exact (Assignment.satisfiesClause_iff hassign d).1 (hbefore d hd)

end Check

section Validation

variable {t : FileTree} {cnf certificate : Path} {strictUnassigned : Option Bool} {v : Verdict}

private theorem validateStream_of_validate {mode : Mode}
    (h : validate t cnf certificate mode strictUnassigned = .ok v) :
    ∃ name, validateStream t cnf certificate strictUnassigned = .ok { v with mode := name } := by
  cases mode with
  | stream => exact ⟨v.mode, h⟩
  | materialize =>
      rw [validate] at h
      rcases validate_cases t cnf certificate strictUnassigned with
        ⟨failure, -, hw⟩ | ⟨w, hs, hw⟩ | ⟨w, failure, -, hw, -⟩
      · simp [hw] at h
      · rw [hw] at h
        rw [← Except.ok.inj h]
        exact ⟨some Mode.stream.name, hs⟩
      · simp [hw] at h

private theorem validateStream_eq_ok
    (h : validateStream t cnf certificate strictUnassigned = .ok v) :
    ∃ s a, t.openStream cnf = .ok s ∧
      t.readCertificate certificate (some s.header.numVars) = .ok a ∧
      (s.check a strictUnassigned).1 = .ok v := by
  rw [validateStream] at h
  cases hstream : t.openStream cnf with
  | error failure => simp [hstream, bind, Except.bind] at h
  | ok s =>
      simp only [hstream, bind, Except.bind] at h
      cases hread : t.readCertificate certificate (some s.header.numVars) with
      | error failure => simp [hread] at h
      | ok a =>
          simp only [hread] at h
          cases hcheck : (s.check a strictUnassigned).1 with
          | error fault => simp [hcheck, Except.mapError] at h
          | ok w =>
              rw [hcheck] at h
              exact ⟨s, a, rfl, hread, hcheck.trans (congrArg _ (Except.ok.inj h))⟩

end Validation

/-- The report of a verdict is exact. If a validation gives one, in either mode, then the formula
has a header and the certificate is a text for its number of variables, and all that the verdict
reports can be read off the two texts. -/
theorem verdict_exact {t : FileTree} {cnf certificate : Path} {mode : Mode}
    {strictUnassigned : Option Bool} {v : Verdict}
    (h : validateNamed t cnf certificate mode.name strictUnassigned = .ok v) :
    ∃ input first body certificateLines listed, ∃ header : Header,
      t.readLines cnf = .ok input ∧ contentLines input.lines = first :: body ∧
      HeaderLine first header.numVars header.numClauses ∧
      t.readLines certificate = .ok ⟨certificateLines, .complete⟩ ∧
      CertificateText (some header.numVars) certificateLines listed ∧
      v.Exact header input.lines listed strictUnassigned := by
  rw [validateNamed_name] at h
  obtain ⟨name, hstream⟩ := validateStream_of_validate h
  obtain ⟨s, a, hopen, hcertificate, hcheck⟩ := validateStream_eq_ok hstream
  have hle := FileTree.maxVar_le_of_readCertificate hcertificate
  obtain ⟨input, hlines, hstart⟩ := FileTree.readWith_eq_ok_iff.1 hopen
  obtain ⟨taken, rest, hseek⟩ := ClauseStream.start_eq_ok_iff.1 ⟨s, hstart, rfl⟩
  obtain ⟨first, hcontent, hheader⟩ := ClauseStream.headerLine_of_seekHeader hseek
  obtain ⟨⟨certificateLines, ending⟩, hcertificateLines, hread⟩ :=
    FileTree.readWith_eq_ok_iff.1 hcertificate
  obtain rfl : ending = .complete := Certificate.complete_of_read hread
  obtain ⟨ls, htext, hassign⟩ := Certificate.read_eq_ok_iff_text.1 hread
  have hbound : ∀ x ∈ ls.map Literal.toInt, x ≠ 0 ∧ x.natAbs ≤ s.header.numVars := by
    intro x hx
    have hin := htext.spelled.inBound x hx
    exact ⟨hin.1, Int.ofNat_le.1 (hin.2.2 _ rfl)⟩
  refine ⟨input, first, _, certificateLines, _, s.header, hlines, hcontent, hheader,
    hcertificateLines, htext, ?_⟩
  exact (exact_of_check hstart hassign hbound hle hcheck).of_mode

/-- A formula with something that is no integer behind its two clauses, and a certificate that
leaves the second one without a listed integer. -/
def strayTree : FileTree where
  nodes :=
    [(["formula"],
        .file [112, 32, 99, 110, 102, 32, 51, 32, 50, 10, 49, 32, 45, 50, 32, 48, 10, 50, 32, 48,
          10, 120, 10]),
      (["certificate"],
        .file [115, 32, 83, 65, 84, 73, 83, 70, 73, 65, 66, 76, 69, 10, 118, 32, 45, 50, 32, 48,
          10])]

theorem strayTree_exact :
    ∃ v, validateNamed strayTree ⟨"", ["formula"]⟩ ⟨"", ["certificate"]⟩ "stream" (some true) =
        .ok v ∧
      v.firstUnsatIndex = some 2 ∧ v.firstUnassigned = [1, 3] ∧
      ∃ header listed,
        v.Exact header ["p cnf 3 2", "1 -2 0", "2 0", "x"] listed (some true) := by
  have hcnf : strayTree.readLines ⟨"", ["formula"]⟩ =
      .ok ⟨["p cnf 3 2", "1 -2 0", "2 0", "x"], .complete⟩ := by decide +kernel
  have hreport :
      ((validateNamed strayTree ⟨"", ["formula"]⟩ ⟨"", ["certificate"]⟩ Mode.stream.name
        (some true)).toOption.map fun v => (v.firstUnsatIndex, v.firstUnassigned)) =
          some (some 2, [1, 3]) := by
    decide +kernel
  cases hv : validateNamed strayTree ⟨"", ["formula"]⟩ ⟨"", ["certificate"]⟩ Mode.stream.name
      (some true) with
  | error failure =>
      simp [hv, Except.toOption] at hreport
  | ok v =>
      obtain ⟨hindex, hnamed⟩ : v.firstUnsatIndex = some 2 ∧ v.firstUnassigned = [1, 3] := by
        simpa [hv, Except.toOption] using hreport
      obtain ⟨input, first, body, certificateLines, listed, header, hlines, -, -, -, -, hexact⟩ :=
        verdict_exact hv
      obtain rfl := Except.ok.inj (hcnf.symm.trans hlines)
      exact ⟨v, hv, hindex, hnamed, header, listed, hexact⟩

end CnfAudit
