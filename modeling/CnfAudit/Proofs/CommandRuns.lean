import CnfAudit.CommandLine.Run
import CnfAudit.Proofs.FileTrees
import CnfAudit.Proofs.Modes
import CnfAudit.Proofs.ReportText

/-!
# Runs of the command

A report is written before anything is printed, and the digests for it are taken before that.
-/

namespace CnfAudit

/-- A failure that a run reports: an input was rejected, or the file system refused a file. -/
def Failure.IsReported : Failure → Prop
  | .fault (.rejected _) => True
  | .file (.error _) => True
  | _ => False

theorem FileTree.read_of_readWith {α : Type} {t : FileTree} {p : Path}
    {reader : Option String → LineSource → Except Fault α} {x : α}
    (h : t.readWith p reader = .ok x) : ∃ bytes, t.read p = .ok bytes := by
  obtain ⟨input, hlines, -⟩ := readWith_eq_ok_iff.1 h
  rw [readLines] at hlines
  split at hlines
  · cases hlines
  · exact ⟨_, ‹_›⟩

theorem read_of_validate {t : FileTree} {cnf certificate : Path} {mode : Mode}
    {strictUnassigned : Option Bool} {v : Verdict}
    (h : validate t cnf certificate mode strictUnassigned = .ok v) :
    (∃ bytes, t.read cnf = .ok bytes) ∧ ∃ bytes, t.read certificate = .ok bytes := by
  cases mode with
  | stream =>
      rw [validate, validateStream] at h
      cases hstream : t.openStream cnf with
      | error failure => simp [hstream, bind, Except.bind] at h
      | ok stream =>
          simp only [hstream, bind, Except.bind] at h
          cases hcertificate : t.readCertificate certificate (some stream.header.numVars) with
          | error failure => simp [hcertificate] at h
          | ok a => exact ⟨t.read_of_readWith hstream, t.read_of_readWith hcertificate⟩
  | materialize =>
      rw [validate, validateWhole] at h
      cases hheader : t.readHeader cnf with
      | error failure => simp [hheader, bind, Except.bind] at h
      | ok header =>
          simp only [hheader, bind, Except.bind] at h
          cases hcertificate : t.readCertificate certificate (some header.numVars) with
          | error failure => simp [hcertificate] at h
          | ok a => exact ⟨t.read_of_readWith hheader, t.read_of_readWith hcertificate⟩

namespace CommandLine

namespace Outcome

/-- The exit code, unless the run broke off. -/
def code? : Outcome → Option Nat
  | exited code _ _ _ => some code
  | brokeOff _ _ => none

/-- What a run prints. -/
def output : Outcome → String
  | exited _ output _ _ => output
  | brokeOff _ _ => ""

/-- The files that a run leaves. -/
def files : Outcome → FileTree
  | exited _ _ _ files => files
  | brokeOff _ files => files

end Outcome

section Verdicts

variable {t : FileTree} {args : Arguments} {v : Verdict}

/-- There is a verdict on the inputs that are given, in the mode that is given. -/
def Validated (t : FileTree) (args : Arguments) (v : Verdict) : Prop :=
  ∃ cnf certificate mode, args.cnf = some cnf ∧ args.certificate = some certificate ∧
    args.mode = some mode ∧ validate t cnf certificate mode (some args.strictUnassigned) = .ok v

theorem verdictFor_of_given {cnf certificate : Path} {mode : Mode} (hcnf : args.cnf = some cnf)
    (hcertificate : args.certificate = some certificate) (hmode : args.mode = some mode) :
    verdictFor t args =
      (validate t cnf certificate mode (some args.strictUnassigned)).mapError .failure := by
  simp only [verdictFor, hmode, verdictIn, hcnf, hcertificate]

theorem verdictFor_eq_ok_iff : verdictFor t args = .ok v ↔ Validated t args v := by
  constructor
  · intro h
    cases hmode : args.mode with
    | none => simp [verdictFor, hmode] at h
    | some mode =>
        cases hcnf : args.cnf with
        | none => simp [verdictFor, hmode, verdictIn, hcnf] at h
        | some cnf =>
            cases hcertificate : args.certificate with
            | none =>
                simp only [verdictFor, hmode, verdictIn, hcnf, hcertificate] at h
                split at h <;> cases h
            | some certificate =>
                rw [verdictFor_of_given hcnf hcertificate hmode] at h
                refine ⟨cnf, certificate, mode, hcnf, hcertificate, hmode, ?_⟩
                cases hvalidate : validate t cnf certificate mode (some args.strictUnassigned) with
                | error failure => simp [hvalidate, Except.mapError] at h
                | ok w => rw [← hvalidate]; simpa [hvalidate, Except.mapError] using h
  · rintro ⟨cnf, certificate, mode, hcnf, hcertificate, hmode, hvalidate⟩
    rw [verdictFor_of_given hcnf hcertificate hmode, hvalidate]
    rfl

/-- The digest that a report gives for an input. -/
def digestEntry (bytes : List UInt8) : Report.Value := .text (Digest.render (Digest.sha256 bytes))

theorem verdictEntries_eq_ok (h : Validated t args v) :
    ∃ cnf certificate formula values, args.cnf = some cnf ∧ args.certificate = some certificate ∧
      t.read cnf = .ok formula ∧ t.read certificate = .ok values ∧
      verdictEntries args v t =
        .ok (v.report ++ inputEntries args ++
          [("cnf_sha256", digestEntry formula), ("certificate_sha256", digestEntry values)]) := by
  obtain ⟨cnf, certificate, mode, hcnf, hcertificate, -, hvalidate⟩ := h
  obtain ⟨⟨formula, hformula⟩, values, hvalues⟩ := read_of_validate hvalidate
  refine ⟨cnf, certificate, formula, values, hcnf, hcertificate, hformula, hvalues, ?_⟩
  simp only [verdictEntries, hcnf, hcertificate, digestOf, hformula, hvalues, Except.map]
  rfl

theorem reportedKind_isSome_iff (failure : Failure) :
    (∃ kind, reportedKind failure = some kind) ↔ failure.IsReported := by
  rcases failure with fault | file | mode
  · cases fault <;> simp [reportedKind, Failure.IsReported]
  · cases file <;> simp [reportedKind, Failure.IsReported]
  · simp [reportedKind, Failure.IsReported]

end Verdicts

section Reports

variable {t : FileTree} {report : Option (Given Path)}

/-- The report that is asked for can be written: there is a path for it, the directories above it
can be made, and then it can be put there. -/
def CanReport (t : FileTree) : Option (Given Path) → Prop
  | none => True
  | some none => False
  | some (some p) =>
      (t.makeDirectories p.parent).1 = .ok () ∧ (t.makeDirectories p.parent).2.Writable p

/-- No file is touched, and directories are made only above the report. -/
def OnlyPrepared (t : FileTree) (report : Option (Given Path)) (files : FileTree) : Prop :=
  files = t ∨ ∃ p, report = some (some p) ∧ t.GrownAlong p.parent files

/-- The report is written, behind directories that are made above it. -/
def Written (t : FileTree) (report : Option (Given Path)) (entries : Report.Entries)
    (files : FileTree) : Prop :=
  match report with
  | none => files = t
  | some none => False
  | some (some p) => ∃ made, t.GrownAlong p.parent made ∧
      made.write p (Report.render entries).toUTF8.toList = .ok files

/-- Behind a report its path leads to it, and only directories above it are new. -/
theorem Written.changed {entries : Report.Entries} {files : FileTree} {p : Path}
    (h : Written t (some (some p)) entries files) (name : NodeName) :
    files.node? name = t.node? name ∨ files.LeadsTo p name ∨
      (t.node? name = none ∧ files.node? name = some .directory ∧
        ∃ above, above <+: p.parent.parts ∧ files.LeadsTo ⟨p.root, above⟩ name) := by
  obtain ⟨made, hgrown, hwrite⟩ := h
  obtain ⟨hgrows, place, hleads, -, hothers⟩ := FileTree.leadsTo_of_write hwrite
  by_cases hname : name = place
  · exact .inr (.inl (hname ▸ hleads))
  · rw [hothers name hname]
    refine (hgrown.changed name).imp_right fun hmade => .inr ?_
    obtain ⟨habsent, hdirectory, above, habove, hleads⟩ := hmade
    exact ⟨habsent, hdirectory, above, habove, hgrows.leadsTo hleads⟩

end Reports

/-- How a run on some arguments can end: with a verdict, with a failure that it reports, or broken
off because there is neither or because the report cannot be written. -/
inductive Ends (t : FileTree) (args : Arguments) : Outcome → Prop
  | verdict {v : Verdict} {entries : Report.Entries} {files : FileTree}
      (found : verdictFor t args = .ok v) (can : CanReport t args.report)
      (taken : verdictEntries args v t = .ok entries)
      (written : Written t args.report entries files) :
      Ends t args (.exited 0 (if v.ok then "VERIFIED\n" else "NOT VERIFIED\n") "" files)
  | failure {failure : Failure} {kind : String} {files : FileTree}
      (found : verdictFor t args = .error (.failure failure)) (can : CanReport t args.report)
      (reported : reportedKind failure = some kind)
      (written : Written t args.report (failureEntries args failure kind) files) :
      Ends t args (.exited 1 "" ("ERROR: " ++ failure.message ++ "\n") files)
  | broken {reason : Breakdown} {files : FileTree}
      (cause : CanReport t args.report → (∀ v, verdictFor t args ≠ .ok v) ∧
        ∀ failure, verdictFor t args = .error (.failure failure) → reportedKind failure = none)
      (prepared : OnlyPrepared t args.report files) : Ends t args (.brokeOff reason files)

/-- The entries of a report tell what the run prints, and name the inputs by what they held before
it. -/
structure Tells (t : FileTree) (args : Arguments) (outcome : Outcome) (entries : Report.Entries) :
    Prop where
  keys : (entries.map Prod.fst).Nodup
  ok : ∃ ok, entries.lookup "ok" = some (.bool ok) ∧ (ok = true ↔ outcome.output = "VERIFIED\n")
  digests : ∀ key path,
    (key, path) ∈ [("cnf_sha256", args.cnf), ("certificate_sha256", args.certificate)] →
    (outcome.code? = some 0 ∧ ∃ p bytes, path = some p ∧ t.read p = .ok bytes ∧
      entries.lookup key = some (digestEntry bytes)) ∨
    (outcome.code? ≠ some 0 ∧ entries.lookup key = none)

section Coherence

variable {t : FileTree} {args : Arguments} {outcome : Outcome}

private theorem tells_verdict {v : Verdict} {entries : Report.Entries} {files : FileTree}
    (h : Validated t args v) (htaken : verdictEntries args v t = .ok entries) :
    Tells t args (.exited 0 (if v.ok then "VERIFIED\n" else "NOT VERIFIED\n") "" files)
      entries := by
  obtain ⟨cnf, certificate, formula, values, hcnf, hcertificate, hformula, hvalues, hentries⟩ :=
    verdictEntries_eq_ok h
  rw [hentries] at htaken
  obtain rfl := Except.ok.inj htaken
  refine ⟨?_, ⟨v.ok, rfl, ?_⟩, ?_⟩
  · simp only [Verdict.report, inputEntries, List.cons_append, List.nil_append, List.map_cons,
      List.map_nil]
    decide
  · show v.ok = true ↔ (if v.ok then "VERIFIED\n" else "NOT VERIFIED\n") = "VERIFIED\n"
    cases v.ok <;> decide
  · intro key path hmem
    left
    rcases List.mem_pair.1 hmem with heq | heq
    · obtain ⟨rfl, rfl⟩ := Prod.mk.inj heq
      exact ⟨rfl, cnf, formula, hcnf, hformula, rfl⟩
    · obtain ⟨rfl, rfl⟩ := Prod.mk.inj heq
      exact ⟨rfl, certificate, values, hcertificate, hvalues, rfl⟩

private theorem tells_failure (failure : Failure) (kind errors : String) (files : FileTree) :
    Tells t args (.exited 1 "" errors files) (failureEntries args failure kind) := by
  refine ⟨?_, ⟨false, rfl, ?_⟩, ?_⟩
  · simp only [failureEntries, inputEntries, List.cons_append, List.nil_append, List.map_cons,
      List.map_nil]
    decide
  · show false = true ↔ "" = "VERIFIED\n"
    decide
  · intro key path hmem
    right
    refine ⟨by simp [Outcome.code?], ?_⟩
    rcases List.mem_pair.1 hmem with heq | heq <;>
      (obtain ⟨rfl, -⟩ := Prod.mk.inj heq; rfl)

private theorem Tells.sorted {entries : Report.Entries} (h : Tells t args outcome entries) :
    Tells t args outcome (Report.sorted entries) where
  keys := Report.keys_sorted h.keys
  ok := by
    rw [Report.lookup_sorted h.keys]
    exact h.ok
  digests key path hmem := by
    rw [Report.lookup_sorted h.keys]
    exact h.digests key path hmem

theorem Ends.report (h : Ends t args outcome) {p : Path} (hp : args.report = some (some p))
    (hcode : outcome.code? ≠ none) :
    ∃ text entries, outcome.files.read p = .ok text.toUTF8.toList ∧
      Report.read text = some entries ∧ Tells t args outcome entries := by
  cases h with
  | verdict found can taken written =>
      rw [hp] at written
      obtain ⟨made, -, hwrite⟩ := written
      exact ⟨_, _, FileTree.read_of_write hwrite, Report.read_render_entries _,
        (tells_verdict (verdictFor_eq_ok_iff.1 found) taken).sorted⟩
  | failure found can reported written =>
      rw [hp] at written
      obtain ⟨made, -, hwrite⟩ := written
      exact ⟨_, _, FileTree.read_of_write hwrite, Report.read_render_entries _,
        (tells_failure _ _ _ _).sorted⟩
  | broken cause prepared => exact absurd rfl hcode

/-- An outcome leaves the files as they were, or the report that is asked for and what is above
it. -/
theorem Ends.written_or_prepared (h : Ends t args outcome) :
    (outcome.code? ≠ none ∧ ∃ entries, Written t args.report entries outcome.files) ∨
      OnlyPrepared t args.report outcome.files := by
  cases h with
  | verdict found can taken written => exact .inl ⟨by simp [Outcome.code?], _, written⟩
  | failure found can reported written => exact .inl ⟨by simp [Outcome.code?], _, written⟩
  | broken cause prepared => exact .inr prepared

theorem Ends.unasked (h : Ends t args outcome) (hreport : args.report = none) :
    outcome.files = t := by
  rcases h.written_or_prepared with ⟨-, entries, hwritten⟩ | hsame | ⟨p, hp, -⟩
  · rwa [hreport] at hwritten
  · exact hsame
  · rw [hreport] at hp
    cases hp

theorem Ends.changed (h : Ends t args outcome) (name : NodeName) :
    outcome.files.node? name = t.node? name ∨
      ∃ p, args.report = some (some p) ∧
        ((outcome.code? ≠ none ∧ outcome.files.LeadsTo p name) ∨
          (t.node? name = none ∧ outcome.files.node? name = some .directory ∧
            ∃ above, above <+: p.parent.parts ∧ outcome.files.LeadsTo ⟨p.root, above⟩ name)) := by
  rcases h.written_or_prepared with ⟨hcode, entries, hwritten⟩ | hsame | ⟨p, hp, hgrown⟩
  · rcases hreport : args.report with _ | _ | p
    · exact .inl (by rw [h.unasked hreport])
    · rw [hreport] at hwritten
      exact hwritten.elim
    · rw [hreport] at hwritten
      refine (hwritten.changed name).imp_right fun hchanged => ⟨p, rfl, ?_⟩
      exact hchanged.imp_left fun hleads => ⟨hcode, hleads⟩
  · exact .inl (by rw [hsame])
  · exact (hgrown.changed name).imp_right fun hmade => ⟨p, hp, .inr hmade⟩

theorem Ends.failed (h : Ends t args outcome) {failure : Failure}
    (hfound : verdictFor t args = .error (.failure failure)) (hreported : failure.IsReported)
    (hcan : CanReport t args.report) :
    ∃ files, outcome = .exited 1 "" ("ERROR: " ++ failure.message ++ "\n") files := by
  cases h with
  | verdict found can taken written =>
      rw [hfound] at found
      cases found
  | failure found can reported written =>
      rw [hfound] at found
      cases found
      exact ⟨_, rfl⟩
  | broken cause prepared =>
      obtain ⟨kind, hkind⟩ := (reportedKind_isSome_iff failure).2 hreported
      rw [(cause hcan).2 failure hfound] at hkind
      cases hkind

end Coherence

end CommandLine

end CnfAudit
