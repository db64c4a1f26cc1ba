import DbImage.Command.Run

/-!
The program. It takes the working directory, and what else the arguments name, into memory, runs the
command line on that, and writes back what has changed.
-/

namespace DbImage
namespace Main

open Files (Entry Host Location Tree)

/-- The places of a path and of the directories around it. -/
def placesOn (l : Location) : List Location :=
  (List.range l.length).map fun n => l.take (n + 1)

/-- A place with the directories around it. -/
def withParents (t : Tree) (l : Location) (e : Entry) : Tree :=
  ((placesOn l).dropLast.foldl (fun t k => t.set k .directory) t).set l e

/-- Takes in a file, or a directory with all below it. -/
partial def takeIn (t : Tree) (entry : IO.FS.DirEntry) : IO Tree := do
  let place := Files.steps entry.path.toString
  if ← entry.path.isDir then
    let mut t := withParents t place .directory
    for inner in ← entry.path.readDir do
      t ← takeIn t inner
    return t
  else if ← entry.path.pathExists then
    return withParents t place (.file (← IO.FS.readBinFile entry.path))
  else return t

/-- The paths that arguments may name: each argument, and what follows an equals sign. -/
def namedPaths (args : List String) : List String :=
  args.flatMap fun arg => [arg, String.ofList ((arg.toList.dropWhile (· ≠ '=')).drop 1)]

/-- Names that stand after `${` somewhere in a text. -/
def namesIn : List Char → List String
  | [] => []
  | c :: rest =>
    let here := match c, rest with
      | '$', '{' :: inside => [String.ofList (inside.takeWhile fun d => d != '}' && d != ':')]
      | _, _ => []
    here ++ namesIn rest

/-- The variables of the environment that some file mentions. -/
def mentionedVariables (t : Tree) : IO Bindings := do
  let mut b : Bindings := []
  for (_, e) in t.entries do
    if let .file bytes := e then
      if let some s := String.fromUTF8? bytes then
        for name in namesIn s.toList do
          if let some value ← IO.getEnv name then
            b := Bindings.put name value b
  return b

/-- Writes what differs from what was taken in. -/
def writeBack (before after : Tree) : IO Unit := do
  for (l, e) in after.entries do
    if before.get? l ≠ some e then
      let path := "/" ++ "/".intercalate l
      match e with
      | .directory => IO.FS.createDirAll path
      | .file bytes => IO.FS.writeBinFile path bytes

def runHere (args : List String) : IO UInt32 := do
  let here ← IO.currentDir
  let root := Files.steps here.toString
  let mut tree := withParents .empty root .directory
  for entry in ← here.readDir do
    tree ← takeIn tree entry
  for path in namedPaths args do
    let l := Files.steps (Files.absolute here.toString path)
    let parent := "/" ++ "/".intercalate l.dropLast
    if let some name := l.getLast? then
      if !path.isEmpty && (tree.get? l).isNone then
        tree ← takeIn tree { root := parent, fileName := name }
  let host : Host :=
    { files := tree, workingDirectory := root, environment := ← mentionedVariables tree, log := [] }
  let (outcome, host) := Command.run args host
  writeBack tree host.files
  IO.print outcome.stdout
  IO.eprint outcome.stderr
  return UInt32.ofNat outcome.exitCode

end Main
end DbImage

def main (args : List String) : IO UInt32 :=
  DbImage.Main.runHere args
