import RecordRules.Batch
import RecordRules.FileName
import RecordRules.Json.Yaml

/-!
# The command line

The arguments of the program, its four commands, and what they print. Options are given as `--name value`,
`--name=value`, `-n value`, `-nvalue` or `-n=value`; short flags can be run together. A separate value must
not start with a minus sign, unless it is a single one. No option may be repeated. The flag for verbose output
is allowed before and after the name of the command, and changes nothing of what is printed.

The commands take the files they read from a function, so that running a command is a computation.
-/
namespace RecordRules.CommandLine

/-! ### Arguments -/

/-- An option that a command accepts. -/
structure OptionSpec where
  long : String
  short : Option Char
  takesValue : Bool

/-- The flag for verbose output. -/
def verbose : OptionSpec := ⟨"verbose", some 'v', false⟩

/-- What was found in a list of arguments: options with their values (none for a flag), and the arguments
that are no options. -/
structure Found where
  options : List (String × Option String)
  plain : List String

namespace Found

/-- Nothing found yet. -/
def nothing : Found := ⟨[], []⟩

/-- Adds an option; none if it was there already. -/
def addOption? (f : Found) (long : String) (value : Option String) : Option Found :=
  if (f.options.lookup long).isSome then none else some { f with options := f.options ++ [(long, value)] }

/-- Adds an argument that is no option. -/
def addPlain (f : Found) (arg : String) : Found := { f with plain := f.plain ++ [arg] }

/-- The value of an option. -/
def value? (f : Found) (long : String) : Option String := (f.options.lookup long).join

/-- Whether a flag was given. -/
def flag (f : Found) (long : String) : Bool := (f.options.lookup long).isSome

end Found

/-- How a single argument ends: it is complete, or it is an option that waits for its value. -/
inductive Step where
  | complete (f : Found)
  | waiting (f : Found) (long : String)

/-- Short options run together, read after the minus sign. -/
def shortOptions? (specs : List OptionSpec) (f : Found) : List Char → Option Step
  | [] => some (.complete f)
  | c :: rest =>
      match specs.find? fun s => s.short == some c with
      | none => none
      | some s =>
          if s.takesValue then
            match rest with
            | [] => some (.waiting f s.long)
            | '=' :: value => (f.addOption? s.long (some (String.ofList value))).map .complete
            | value => (f.addOption? s.long (some (String.ofList value))).map .complete
          else (f.addOption? s.long none).bind fun f => shortOptions? specs f rest

/-- A long option, read after the two minus signs. -/
def longOption? (specs : List OptionSpec) (f : Found) (cs : List Char) : Option Step :=
  let name := String.ofList (cs.takeWhile (· != '='))
  match specs.find? fun s => s.long == name with
  | none => none
  | some s =>
      match cs.dropWhile (· != '='), s.takesValue with
      | [], true => some (.waiting f s.long)
      | [], false => (f.addOption? s.long none).map .complete
      | _ :: value, true => (f.addOption? s.long (some (String.ofList value))).map .complete
      | _ :: _, false => none

/-- One argument. -/
def argument? (specs : List OptionSpec) (f : Found) (arg : String) : Option Step :=
  match arg.toList with
  | '-' :: '-' :: cs => longOption? specs f cs
  | '-' :: c :: cs => shortOptions? specs f (c :: cs)
  | _ => some (.complete (f.addPlain arg))

/-- Whether an argument can be the separate value of an option. -/
def isValue (arg : String) : Bool :=
  match arg.toList with
  | '-' :: _ :: _ => false
  | _ => true

/-- The options and other arguments of a list. After two minus signs alone nothing is an option. -/
def scan? (specs : List OptionSpec) (f : Found) : List String → Option Found
  | [] => some f
  | arg :: rest =>
      if arg = "--" then some (rest.foldl Found.addPlain f)
      else match argument? specs f arg with
        | none => none
        | some (.complete f) => scan? specs f rest
        | some (.waiting f long) =>
            match rest with
            | [] => none
            | value :: rest =>
                if isValue value then
                  (f.addOption? long (some value)).bind fun f => scan? specs f rest
                else none

/-- A command with its arguments. -/
inductive Command where
  | compile (tree : String)
  | fields (tree : String)
  | holds (expr : String) (context : Option String)
  | check (rules input : String) (firstOnly : Bool)
deriving DecidableEq, Repr

/-- The name of a file; the empty name is refused. -/
def fileName? (s : String) : Option String := if s = "" then none else some s

/-- The single file that a command is given. -/
def onlyFile? (f : Found) : Option String :=
  match f.plain with
  | [s] => fileName? s
  | _ => none

/-- Whether a text is a count that fits 64 bits. -/
def isCount (s : String) : Bool :=
  match s.toList with
  | '-' :: _ => false
  | cs =>
      match Number.int? cs with
      | some n => n < 0x10000000000000000
      | none => false

/-- The command of a name with its arguments. -/
def command? (name : String) (args : List String) : Option Command :=
  if name = "compile" then do
    some (.compile (← onlyFile? (← scan? [verbose] .nothing args)))
  else if name = "fields" then do
    some (.fields (← onlyFile? (← scan? [verbose] .nothing args)))
  else if name = "match" then do
    let specs := [verbose, ⟨"expr", some 'e', true⟩, ⟨"context", some 'c', true⟩]
    let f ← scan? specs .nothing args
    let expr ← f.value? "expr"
    if f.plain = [] then some (.holds expr (f.value? "context")) else none
  else if name = "check" then do
    let specs := [verbose, ⟨"rules", some 'r', true⟩, ⟨"input", some 'i', true⟩,
      ⟨"threads", some 't', true⟩, ⟨"first", none, false⟩]
    let f ← scan? specs .nothing args
    let rules ← (f.value? "rules").bind fileName?
    let input ← (f.value? "input").bind fileName?
    if f.plain = [] ∧ (f.value? "threads").all isCount then some (.check rules input (f.flag "first"))
    else none
  else none

/-- The command of a list of arguments: flags, the name of the command, and its arguments. None if they are
not in order. -/
def parse? (f : Found) : List String → Option Command
  | [] => none
  | arg :: rest =>
      if arg = "--" then none
      else match argument? [verbose] f arg with
        | some (.complete g) => if g.plain = [] then parse? g rest else command? arg rest
        | _ => none

/-- The command of the arguments of the program. -/
def ofArgs? (args : List String) : Option Command := parse? .nothing args

/-! ### Running -/

/-- The innermost cause of a failure. -/
inductive Cause where
  | tree (e : TreeError)
  | eval (e : EvalError)
  | cast (e : CastError)

/-- Why a command failed. -/
structure Failure where
  message : String
  cause : Option Cause

/-- What a command can read: the standard input, and files by name. -/
structure Sources where
  stdin : String
  file? : String → Option String

/-- The text of an input. -/
def Sources.read (sources : Sources) (name : String) : Except Failure String :=
  if FileName.isStandardInput name then .ok sources.stdin
  else match sources.file? name with
    | some text => .ok text
    | none => .error ⟨"Input: Failed to read " ++ Text.quote name, none⟩

/-- Whether a file is declared to be YAML. Of YAML only JSON text is read. -/
def isYaml (name : String) : Bool :=
  let ext := (FileName.extension name).map Char.toLower
  ext == "yaml".toList || ext == "yml".toList

/-- The condition tree of an input, as JSON data. -/
def readTree (sources : Sources) (name : String) : Except Failure Json := do
  let text ← sources.read name
  let (format, tree) := if isYaml name then ("YAML", Yaml.ofText? text) else ("JSON", Json.ofText? text)
  match tree with
  | some j => .ok j
  | none => .error ⟨"Input: Invalid " ++ format ++ " in " ++ Text.quote name, none⟩

/-- The extensions of rule files. -/
def ruleExtensions : List String := ["json", "yaml", "yml", "json5"]

/-- The names tried for a rule file that is not there under its own name: each of the extensions is added. -/
def ruleNames (name : String) : List String := ruleExtensions.filterMap (FileName.addExtension? name)

/-- The text of a rule file. A file under the name itself must have one of the extensions. -/
def ruleText? (sources : Sources) (name : String) : Option String :=
  match sources.file? name with
  | some text => if ruleExtensions.contains (String.ofList (FileName.extension name)) then some text else none
  | none => (ruleNames name).findSome? sources.file?

/-- The input that a command reads, apart from rules. -/
def Command.input? : Command → Option String
  | .compile tree => some tree
  | .fields tree => some tree
  | .holds _ _ => none
  | .check _ input _ => some input

/-- The names of all files that a command may read. -/
def Command.files (command : Command) : List String :=
  command.input?.toList ++
    match command with
    | .check rules _ _ => rules :: ruleNames rules
    | _ => []

/-- The definition in a rule file. A byte order mark at its start is passed over. -/
def readRules (sources : Sources) (name : String) : Except Failure RuleSetDefinition :=
  let definition := do
    let text ← ruleText? sources name
    let j ← Json.ofChars? Json.maxNesting (Json.dropMark text.toList)
    RuleSetDefinition.ofFile? j
  match definition with
  | some d => .ok d
  | none => .error ⟨"Check: Failed to load rules from " ++ Text.quote name, none⟩

/-- Marks an error of a condition tree as the cause of a failure. -/
def failTree (message : String) (e : TreeError) : Failure := ⟨message, some (.tree e)⟩

/-- What a command prints, line by line. -/
def run (sources : Sources) (command : Command) (backend : Batch.Backend := .sequential) :
    Except Failure (List String) :=
  match command with
  | .compile tree => do
      let j ← readTree sources tree
      let text ← (Condition.compile j).mapError (failTree "Compile: Invalid condition tree")
      .ok [text]
  | .fields tree => do
      let j ← readTree sources tree
      let names ← (Condition.exportFields j).mapError (failTree "Fields: Invalid condition tree")
      .ok [(Json.ofStrings names).text]
  | .holds expr context => do
      let context ← match context with
        | none => .ok none
        | some text =>
            match Json.ofText? text with
            | none => .error ⟨"Match: Invalid context JSON", none⟩
            | some j =>
                (Context.ofJson j).mapError fun e => ⟨"Match: Invalid context", some (.cast e)⟩
      let b ← (Expr.holds .builtin expr context).mapError
        fun e => ⟨"Match: Evaluation failed", some (.eval e)⟩
      .ok [if b then "true" else "false"]
  | .check rules input firstOnly => do
      let definition ← readRules sources rules
      let set ← (RuleSet.compile definition).mapError fun e => ⟨e.message, none⟩
      let text ← sources.read input
      .ok (Batch.report backend .builtin set firstOnly text.toList)

end RecordRules.CommandLine
