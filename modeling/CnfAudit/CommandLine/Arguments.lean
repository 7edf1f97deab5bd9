import CnfAudit.Text.Digit
import CnfAudit.Text.Quoted
import CnfAudit.Validation

/-!
# Command-line arguments

Arguments are first told apart, and then acted on from left to right. The last of several values of
an option wins.
-/

namespace CnfAudit.CommandLine

open Text

inductive Flag
  | help
  | mode
  | strictUnassigned
  | report
deriving DecidableEq, Repr

namespace Flag

def all : List Flag := [help, mode, strictUnassigned, report]

def spelling : Flag → String
  | help => "--help"
  | mode => "--mode"
  | strictUnassigned => "--strict-unassigned"
  | report => "--report"

/-- How usage errors name an option. -/
def label : Flag → String
  | help => "-h/--help"
  | flag => flag.spelling

def takesValue : Flag → Bool
  | help | strictUnassigned => false
  | mode | report => true

end Flag

/-- Why the arguments cannot be used. -/
inductive UsageError
  | ambiguous (argument : String)
  | valueIgnored (flag : Flag) (value : String)
  | valueExpected (flag : Flag)
  | invalidMode (value : String)
  | missing (names : List String)
  | unrecognized (arguments : List String)
deriving DecidableEq, Repr

def UsageError.text : UsageError → String
  | .ambiguous argument =>
      "ambiguous option: " ++ argument ++ " could match " ++
        String.intercalate ", " (Flag.all.map Flag.spelling)
  | .valueIgnored flag value =>
      "argument " ++ flag.label ++ ": ignored explicit argument " ++ quoted value
  | .valueExpected flag => "argument " ++ flag.label ++ ": expected one argument"
  | .invalidMode value =>
      "argument " ++ Flag.mode.label ++ ": invalid choice: " ++ quoted value ++ " (choose from " ++
        String.intercalate ", " (Mode.all.map fun mode => quoted mode.name) ++ ")"
  | .missing names =>
      "the following arguments are required: " ++ String.intercalate ", " names
  | .unrecognized arguments =>
      "unrecognized arguments: " ++ String.intercalate " " arguments

/-- An argument by its form. -/
inductive Item
  | operand (text : String)
  | separator
  | option (flag : Flag) (value : Option String)
  | unknownOption (text : String)
deriving DecidableEq, Repr

/-- A minus sign and digits, which may have a point in front of or between them; a line feed may
stand at the end. -/
def isNegativeNumber (cs : List Char) : Bool :=
  match cs with
  | '-' :: cs =>
      let cs := if cs.getLast? = some '\n' then cs.dropLast else cs
      let whole := cs.takeWhile isScriptDigit
      match cs.dropWhile isScriptDigit with
      | [] => !whole.isEmpty
      | '.' :: fraction => !fraction.isEmpty && fraction.all isScriptDigit
      | _ => false
  | _ => false

/-- Cuts an argument at its first equals sign. -/
def splitValue (cs : List Char) : List Char × Option (List Char) :=
  match cs.dropWhile (· != '=') with
  | [] => (cs, none)
  | _ :: value => (cs.takeWhile (· != '='), some value)

/-- The letters behind `-h`, or behind its equals sign: each `h` asks for help again, and from any
other letter on they are refused. -/
def refusedBehindHelp : List Char → Option (List Char)
  | [] => none
  | 'h' :: cs => refusedBehindHelp cs
  | cs => some cs

/-- An argument that starts with a dash and is no option by its exact name. -/
def classifyDashed (arg : String) : Except UsageError Item :=
  let cs := arg.toList
  let (name, value) := splitValue cs
  let fallback : Item :=
    if isNegativeNumber cs || cs.contains ' ' then .operand arg else .unknownOption arg
  match cs with
  | '-' :: '-' :: _ =>
      match Flag.all.filter fun flag => name.isPrefixOf flag.spelling.toList with
      | [] => .ok fallback
      | [flag] => .ok (.option flag (value.map String.ofList))
      | _ => .error (.ambiguous arg)
  | ['-', 'h', '='] => .ok (.option .help (some ""))
  | '-' :: 'h' :: '=' :: letters | '-' :: 'h' :: letters =>
      .ok (.option .help ((refusedBehindHelp letters).map String.ofList))
  | ['-'] => .ok (.operand arg)
  | _ => .ok fallback

def classify (arg : String) : Except UsageError Item :=
  match arg.toList with
  | '-' :: _ =>
      match Flag.all.find? fun flag => flag.spelling == arg with
      | some flag => .ok (.option flag none)
      | none => classifyDashed arg
  | _ => .ok (.operand arg)

def classifyAll : List String → Except UsageError (List Item)
  | [] => .ok []
  | "--" :: rest => .ok (.separator :: rest.map .operand)
  | arg :: rest =>
      match classify arg with
      | .error e => .error e
      | .ok item => (classifyAll rest).map (item :: ·)

/-- What an argument stands for. A double dash is taken out wherever a value is read, so one that
stands alone gives nothing. -/
abbrev Given := Option

/-- What is shown where nothing is given. -/
def nothingShown : String := "[]"

def showPath : Given Path → String
  | none => nothingShown
  | some p => p.render

structure Arguments where
  cnf : Given Path
  certificate : Given Path
  mode : Given Mode := some .stream
  strictUnassigned : Bool := false
  /-- Absent unless a report is asked for. -/
  report : Option (Given Path) := none
deriving DecidableEq, Repr

/-- What has been understood so far. -/
structure Draft where
  operands : List (Given Path) := []
  mode : Given Mode := some .stream
  strictUnassigned : Bool := false
  report : Option (Given Path) := none
  /-- Arguments that nothing accepts. -/
  extras : List String := []

/-- What the arguments ask for. -/
inductive Request
  | run (arguments : Arguments)
  | help
  | misuse (error : UsageError)
deriving DecidableEq, Repr

namespace Draft

def isFull (d : Draft) : Bool := 2 ≤ d.operands.length

def addExtra (d : Draft) (text : String) : Draft := { d with extras := d.extras ++ [text] }

def addOperand (d : Draft) (operand : Given Path) : Draft :=
  { d with operands := d.operands ++ [operand] }

/-- Only a value that is given has to be a mode. -/
def setMode (d : Draft) (value : String) : Except UsageError Draft :=
  if value = "--" then .ok { d with mode := none }
  else
    match Mode.ofName? value with
    | none => .error (.invalidMode value)
    | some mode => .ok { d with mode := some mode }

def setReport (d : Draft) (value : String) : Draft :=
  { d with report := some (if value = "--" then none else some (.ofString value)) }

def setValue (d : Draft) (flag : Flag) (value : String) : Except UsageError Draft :=
  match flag with
  | .mode => d.setMode value
  | _ => .ok (d.setReport value)

/-- Operands that are missing are reported before arguments that nothing accepts. -/
def finish (d : Draft) : Request :=
  match d.operands with
  | cnf :: certificate :: _ =>
      if d.extras.isEmpty then
        .run { cnf, certificate, mode := d.mode, strictUnassigned := d.strictUnassigned,
               report := d.report }
      else .misuse (.unrecognized d.extras)
  | [_] => .misuse (.missing ["certificate"])
  | [] => .misuse (.missing ["cnf", "certificate"])

end Draft

/-- What stands right before an item: the separator belongs to an operand next to it. -/
inductive Before
  | nothing
  | operand
  | separator
deriving DecidableEq, Repr

def operandAfter (before : Before) (text : String) : Given Path :=
  if text = "--" && before ≠ .separator then none else some (.ofString text)

/-- Acts on the items from left to right. -/
def interpret (d : Draft) (before : Before) : List Item → Request
  | [] => d.finish
  | .operand text :: rest =>
      if d.isFull then interpret (d.addExtra text) .nothing rest
      else interpret (d.addOperand (operandAfter before text)) .operand rest
  | .separator :: rest =>
      if before = .operand then interpret d .nothing rest
      else if d.isFull then interpret (d.addExtra "--") .nothing rest
      else interpret d .separator rest
  | .unknownOption text :: rest => interpret (d.addExtra text) .nothing rest
  | .option .help none :: _ => .help
  | .option .strictUnassigned none :: rest =>
      interpret { d with strictUnassigned := true } .nothing rest
  | .option flag none :: .operand text :: rest =>
      match d.setValue flag text with
      | .error e => .misuse e
      | .ok d => interpret d .nothing rest
  | .option flag none :: _ => .misuse (.valueExpected flag)
  | .option flag (some value) :: rest =>
      if flag.takesValue then
        match d.setValue flag value with
        | .error e => .misuse e
        | .ok d => interpret d .nothing rest
      else .misuse (.valueIgnored flag value)

def parse (argv : List String) : Request :=
  match classifyAll argv with
  | .error e => .misuse e
  | .ok items => interpret {} .nothing items

end CnfAudit.CommandLine
