import CnfAudit.CommandLine.Arguments
import CnfAudit.Digest
import CnfAudit.Report

/-!
# Running the command

Rejected inputs and file errors are reported. Any other failure ends the run without a verdict, and
so does a report that cannot be written.
-/

namespace CnfAudit.CommandLine

def usageText : String :=
  "usage: check_witness.py [-h] [--mode \x7bstream,materialize\x7d]\n" ++
  "                        [--strict-unassigned] [--report REPORT]\n" ++
  "                        cnf certificate\n"

def helpText : String :=
  usageText ++
  "\n" ++
  "Verify a SAT certificate against a DIMACS CNF formula\n" ++
  "\n" ++
  "positional arguments:\n" ++
  "  cnf                   DIMACS CNF formula\n" ++
  "  certificate           Solver output with 's SATISFIABLE' and 'v' lines\n" ++
  "\n" ++
  "options:\n" ++
  "  -h, --help            show this help message and exit\n" ++
  "  --mode \x7bstream,materialize\x7d\n" ++
  "                        stream: check clauses while reading (default);\n" ++
  "                        materialize: read the whole formula first\n" ++
  "  --strict-unassigned   Reject certificates that leave any declared variable\n" ++
  "                        unassigned\n" ++
  "  --report REPORT       Optional path to write a JSON report\n"

def UsageError.output (e : UsageError) : String :=
  usageText ++ "check_witness.py: error: " ++ e.text ++ "\n"

/-- Why a run broke off. -/
inductive Breakdown
  | failure (failure : Failure)
  /-- No path is given for a file that was to be opened. -/
  | noInputPath
  /-- No path is given for the report. -/
  | noReportPath
deriving DecidableEq, Repr

def Breakdown.message : Breakdown → String
  | .failure f => f.message
  | .noInputPath => "no path is given for an input"
  | .noReportPath => "no path is given for the report"

/-- How a run ends: with an exit code and the text of the two channels, or broken off. Either way it
leaves some files. -/
inductive Outcome
  | exited (code : Nat) (output errors : String) (files : FileTree)
  | brokeOff (reason : Breakdown) (files : FileTree)

/-- The name of the kind of a failure that a run reports. -/
def reportedKind : Failure → Option String
  | .fault (.rejected d) => some d.kind.name
  | .file (.error e) => some e.kind.name
  | _ => none

/-- The verdict for the operands in a mode. The formula is opened before it shows that no path is
given for the certificate. -/
def verdictIn (mode : Mode) (t : FileTree) (args : Arguments) : Except Breakdown Verdict :=
  match args.cnf, args.certificate with
  | none, _ => .error .noInputPath
  | some cnf, some certificate =>
      (validate t cnf certificate mode (some args.strictUnassigned)).mapError .failure
  | some cnf, none =>
      match t.readHeader cnf with
      | .error failure => .error (.failure failure)
      | .ok _ => .error .noInputPath

def verdictFor (t : FileTree) (args : Arguments) : Except Breakdown Verdict :=
  match args.mode with
  | none => .error (.failure (.unknownMode nothingShown))
  | some mode => verdictIn mode t args

/-- Writes a report and makes the directories above it. -/
def writeReport (t : FileTree) (p : Path) (entries : Report.Entries) :
    Except FileFailure Unit × FileTree :=
  match t.makeDirectories p.parent with
  | (.error failure, made) => (.error failure, made)
  | (.ok (), made) =>
      match made.write p (Report.render entries).toUTF8.toList with
      | .error failure => (.error failure, made)
      | .ok written => (.ok (), written)

/-- Writes a report if one is asked for. Its digests are taken before its path is looked at. -/
def writeIfAsked (t : FileTree) (report : Option (Given Path))
    (entries : FileTree → Except FileFailure Report.Entries) : Except Breakdown Unit × FileTree :=
  match report with
  | none => (.ok (), t)
  | some path =>
      match entries t, path with
      | .error failure, _ => (.error (.failure (.file failure)), t)
      | .ok _, none => (.error .noReportPath, t)
      | .ok entries, some p =>
          let written := writeReport t p entries
          (written.1.mapError fun failure => .failure (.file failure), written.2)

def digestOf (t : FileTree) (path : Given Path) : Except FileFailure String :=
  match path with
  | none => .ok ""
  | some p => (t.read p).map fun bytes => Digest.render (Digest.sha256 bytes)

def inputEntries (args : Arguments) : Report.Entries :=
  [("cnf", .text (showPath args.cnf)), ("certificate", .text (showPath args.certificate))]

def verdictEntries (args : Arguments) (v : Verdict) (t : FileTree) :
    Except FileFailure Report.Entries :=
  match digestOf t args.cnf, digestOf t args.certificate with
  | .error failure, _ => .error failure
  | .ok _, .error failure => .error failure
  | .ok cnf, .ok certificate =>
      .ok (v.report ++ inputEntries args ++
        [("cnf_sha256", .text cnf), ("certificate_sha256", .text certificate)])

def failureEntries (args : Arguments) (failure : Failure) (kind : String) : Report.Entries :=
  [("ok", .bool false), ("error", .text failure.message), ("error_type", .text kind)] ++
    inputEntries args

/-- Ends a run with the files that a report leaves. -/
def exitWith (written : Except Breakdown Unit × FileTree) (code : Nat) (output errors : String) :
    Outcome :=
  match written with
  | (.error reason, files) => .brokeOff reason files
  | (.ok (), files) => .exited code output errors files

def execute (t : FileTree) (args : Arguments) : Outcome :=
  match verdictFor t args with
  | .ok v =>
      exitWith (writeIfAsked t args.report (verdictEntries args v)) 0
        (if v.ok then "VERIFIED\n" else "NOT VERIFIED\n") ""
  | .error (.failure failure) =>
      match reportedKind failure with
      | none => .brokeOff (.failure failure) t
      | some kind =>
          exitWith (writeIfAsked t args.report fun _ => .ok (failureEntries args failure kind)) 1
            "" ("ERROR: " ++ failure.message ++ "\n")
  | .error reason => .brokeOff reason t

def run (t : FileTree) (argv : List String) : Outcome :=
  match parse argv with
  | .help => .exited 0 helpText "" t
  | .misuse e => .exited 2 "" e.output t
  | .run args => execute t args

end CnfAudit.CommandLine
