import RecordRules.CommandLine

/-!
# The program

Reads the files and the standard input that a command may need, runs the command, and prints its lines or its
error.
-/
namespace RecordRules.Main

/-- How the program is called. -/
def usage : String :=
  "usage: compile FILE | fields FILE | match --expr TEXT [--context JSON] | " ++
    "check --rules FILE --input FILE [--threads COUNT] [--first]"

/-- The text of a file; none if it cannot be read. -/
def readText? (name : String) : IO (Option String) :=
  try
    let text ← IO.FS.readFile name
    pure (some text)
  catch _ => pure none

/-- The files of a list that can be read, with their texts. -/
def readFiles (names : List String) : IO (List (String × String)) := do
  let texts ← names.mapM fun name => do
    let text ← readText? name
    pure (text.map (name, ·))
  pure (texts.filterMap id)

/-- What a command can read. The standard input is read only if the command asks for it. -/
def sources (command : CommandLine.Command) : IO CommandLine.Sources := do
  let files ← readFiles command.files
  let stdin ←
    if command.input?.any FileName.isStandardInput then do
      let input ← IO.getStdin
      input.readToEnd
    else pure ""
  pure ⟨stdin, fun name => files.lookup name⟩

end RecordRules.Main

open RecordRules in
/-- Runs the program. -/
def main (args : List String) : IO UInt32 := do
  match CommandLine.ofArgs? args with
  | none =>
      IO.eprintln Main.usage
      pure 2
  | some command =>
      let sources ← Main.sources command
      match CommandLine.run sources command with
      | .ok lines =>
          lines.forM IO.println
          pure 0
      | .error failure =>
          IO.eprintln ("Error: " ++ failure.message)
          pure 1
