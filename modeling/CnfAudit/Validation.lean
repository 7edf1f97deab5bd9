import CnfAudit.Certificate
import CnfAudit.FileTree
import CnfAudit.Text.Lines
import CnfAudit.Verdict

/-!
# Validating a certificate against a formula

In either mode the header of the formula is read before the certificate, so that no value is
recorded that the formula cannot hold.
-/

namespace CnfAudit

/-- Why a validation gave no verdict. -/
inductive Failure
  | fault (fault : Fault)
  | file (failure : FileFailure)
  /-- The mode as it was asked for, as messages show it. -/
  | unknownMode (shown : String)
deriving DecidableEq, Repr

def Failure.message : Failure → String
  | .fault f => f.message
  | .file .nullInPath => "embedded null byte"
  | .file (.error e) => e.message
  | .unknownMode shown =>
      "unknown mode " ++ shown ++ "; expected one of " ++
        String.intercalate ", " (Mode.all.map Mode.name)

namespace FileTree

/-- Opens a file as lines of text. -/
def readLines (t : FileTree) (p : Path) : Except Failure LineSource :=
  match t.read p with
  | .error failure => .error (.file failure)
  | .ok bytes => .ok (Text.Lines.ofBytes bytes)

/-- Hands the lines of a file, and its path as the name of the input, to a reader. -/
def readWith {α : Type} (t : FileTree) (p : Path)
    (reader : Option String → LineSource → Except Fault α) : Except Failure α :=
  match t.readLines p with
  | .error failure => .error failure
  | .ok input => (reader (some p.render) input).mapError .fault

def readHeader (t : FileTree) (p : Path) : Except Failure Header := t.readWith p Header.read

def readFormula (t : FileTree) (p : Path) : Except Failure Formula := t.readWith p Formula.read

def openStream (t : FileTree) (p : Path) : Except Failure ClauseStream :=
  t.readWith p fun source input => (ClauseStream.start source input).1

def readCertificate (t : FileTree) (p : Path) (numVars : Option Int) :
    Except Failure Assignment :=
  t.readWith p fun source input => Certificate.read source numVars input

end FileTree

/-- Checks the certificate after reading the whole formula. -/
def validateWhole (t : FileTree) (cnf certificate : Path) (strictUnassigned : Option Bool) :
    Except Failure Verdict := do
  let header ← t.readHeader cnf
  let a ← t.readCertificate certificate (some header.numVars)
  let formula ← t.readFormula cnf
  (formula.check a strictUnassigned).mapError .fault

/-- Checks the certificate while reading the formula. -/
def validateStream (t : FileTree) (cnf certificate : Path) (strictUnassigned : Option Bool) :
    Except Failure Verdict := do
  let stream ← t.openStream cnf
  let a ← t.readCertificate certificate (some stream.header.numVars)
  (stream.check a strictUnassigned).1.mapError .fault

def validate (t : FileTree) (cnf certificate : Path) (mode : Mode)
    (strictUnassigned : Option Bool) : Except Failure Verdict :=
  match mode with
  | .stream => validateStream t cnf certificate strictUnassigned
  | .materialize => validateWhole t cnf certificate strictUnassigned

/-- Validation in a mode that is given by name; the name is looked up before any file is. -/
def validateNamed (t : FileTree) (cnf certificate : Path) (mode : String)
    (strictUnassigned : Option Bool) : Except Failure Verdict :=
  match Mode.ofName? mode with
  | none => .error (.unknownMode (Text.quoted mode))
  | some mode => validate t cnf certificate mode strictUnassigned

end CnfAudit
