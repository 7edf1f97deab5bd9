import CnfAudit.CommandLine.Run

/-!
# The command

Looks up the paths that the arguments name, runs the command on what is there, and writes back the
directories that the run made and the files that it changed.
-/

namespace CnfAudit.Command

/-- Adds what the disk has under a name. -/
def look (t : FileTree) (name : NodeName) : IO FileTree := do
  let here ← IO.currentDir
  let location := here / ("/" ++ String.intercalate "/" name)
  if ← location.isDir then return t.put name .directory
  else if ← location.pathExists then
    return t.put name (.file (← IO.FS.readBinFile location).toList)
  else return t

/-- Adds all that a walk along a path can meet. -/
def lookAlong (t : FileTree) (p : Path) : IO FileTree := do
  let mut tree := t
  let mut name := t.startOf p
  for part in p.parts do
    name := if part = ".." then name.dropLast else name ++ [part]
    tree ← look tree name
  return tree

def pathsOf (args : CommandLine.Arguments) : List Path :=
  [args.cnf, args.certificate, args.report.join].reduceOption

def snapshot (argv : List String) : IO FileTree := do
  let here ← IO.currentDir
  let start := FileTree.emptyAt (here.components.filter fun part => !part.isEmpty)
  match CommandLine.parse argv with
  | .run args => (pathsOf args).foldlM lookAlong start
  | _ => return start

def store (before after : FileTree) : IO Unit := do
  for name in before.newDirectories after do
    IO.FS.createDirAll ("/" ++ String.intercalate "/" name)
  for (name, bytes) in before.changes after do
    IO.FS.writeBinFile ("/" ++ String.intercalate "/" name) bytes.toByteArray

end CnfAudit.Command

open CnfAudit in
def main (argv : List String) : IO UInt32 := do
  let before ← Command.snapshot argv
  match CommandLine.run before argv with
  | .exited code output errors after =>
      Command.store before after
      IO.print output
      IO.eprint errors
      return code.toUInt32
  | .brokeOff reason after =>
      Command.store before after
      IO.eprintln reason.message
      return 1
