import Conform.CommandLine.Arguments
import Conform.Check.Node
import Conform.Manifest.Build
import Conform.Manifest.Describe

/-!
# The commands

`validate` holds documents against the schema of a manifest; `normalize` writes a manifest out as
its schema describes itself. A command is a function of its arguments and of what it can read; it
answers with what to print or write and an exit code: 0 for success, 1 for documents that fail and
files that cannot be used, 2 for arguments that make no sense.

The extension of a file tells its format. JSON is read here; what texts in YAML and in TOML say is
up to the `World`, and without readers for them such files cannot be used.
-/

namespace Conform.CommandLine

/-- A call of the program. -/
structure Call where
  /-- The name that the program was called by. -/
  program : String
  /-- The environment variable that names a preferences file. -/
  prefsVariable : String
  /-- What the variable holds. -/
  prefs : Option String := none
  args : List String
  deriving Repr

/-- Options of a validation. -/
structure ValidateOptions where
  schema : String
  prefs : Option String := none
  allErrors : Bool := false
  noConvert : Bool := false
  allowUnknown : Bool := false
  stripUnknown : Bool := false
  json : Bool := false
  inputs : List String
  deriving Repr

/-- What the arguments ask for. -/
inductive Command
  | validate (options : ValidateOptions)
  | normalize (schema : String) (output : Option String)
  | help (text : String)
  deriving Repr

/-! ### Options -/

def commonSpecs : List OptionSpec :=
  [{ name := "verbose", short := some 'v', about := "Enable verbose output" },
    { name := "debug", short := some 'd', about := "Enable debug output" }, helpSpec]

def schemaSpec : OptionSpec :=
  { name := "schema", short := some 's', takesValue := true
    about := "Schema manifest (JSON, YAML or TOML)" }

/-- The option for a preferences file; its help shows the variable that stands in for it. -/
def prefsSpec (call : Call) : OptionSpec :=
  { name := "prefs", short := some 'p', takesValue := true
    about := "Preferences file (JSON, YAML or TOML) [env: " ++ call.prefsVariable ++ "=" ++
      call.prefs.getD "" ++ "]" }

def validateSpecs (call : Call) : List OptionSpec :=
  [schemaSpec, prefsSpec call,
    { name := "all-errors", about := "Report every failure instead of the first" },
    { name := "no-convert", about := "Disable type conversion" },
    { name := "allow-unknown", about := "Accept keys the schema does not declare" },
    { name := "strip-unknown", about := "Drop keys and items the schema does not declare" },
    { name := "json", about := "Print reports as JSON" }, helpSpec]

def normalizeSpecs : List OptionSpec :=
  [schemaSpec,
    { name := "output", short := some 'o', takesValue := true, about := "Output file path" },
    helpSpec]

/-! ### Help -/

def validateAbout : String := "Validate documents against a schema manifest"

def normalizeAbout : String := "Print the manifest as rebuilt by the engine"

def helpAbout : String := "Print this message or the help of the given subcommand(s)"

def commandsSection : String :=
  helpSection "Commands"
    [("validate", validateAbout), ("normalize", normalizeAbout), ("help", helpAbout)]

def generalHelp (call : Call) : String :=
  helpText "Validate JSON and YAML documents against schema manifests"
    (call.program ++ " [OPTIONS] <COMMAND>") [commandsSection, optionsSection commonSpecs]

def validateHelp (call : Call) : String :=
  helpText validateAbout (call.program ++ " validate [OPTIONS] --schema <SCHEMA> <INPUTS>...")
    [helpSection "Arguments" [("<INPUTS>...", "Documents to validate")],
      optionsSection (validateSpecs call)]

def normalizeHelp (call : Call) : String :=
  helpText normalizeAbout (call.program ++ " normalize [OPTIONS] --schema <SCHEMA>")
    [optionsSection normalizeSpecs]

def helpHelp (call : Call) : String :=
  helpText helpAbout (call.program ++ " help [COMMAND]...")
    [helpSection "Arguments" [("[COMMAND]...", "Print help for the subcommand(s)")]]

/-! ### Arguments -/

/-- Reads the arguments of `validate`; the variable counts when no preferences file is named. -/
def readValidate (call : Call) (args : List String) : Except Halt Command := do
  let g ← readArguments (validateSpecs call) false {} none args
  let prefs := g.value? "prefs" <|> call.prefs
  if prefs = some "" then throw .refused
  match g.value? "schema", g.words with
  | some schema, input :: inputs =>
    return .validate {
      schema, prefs
      allErrors := g.has "all-errors"
      noConvert := g.has "no-convert"
      allowUnknown := g.has "allow-unknown"
      stripUnknown := g.has "strip-unknown"
      json := g.has "json"
      inputs := input :: inputs }
  | _, _ => throw .refused

/-- Reads the arguments of `normalize`. -/
def readNormalize (args : List String) : Except Halt Command := do
  let g ← readArguments normalizeSpecs false {} none args
  match g.value? "schema", g.words with
  | some schema, [] => return .normalize schema (g.value? "output")
  | _, _ => throw .refused

/-- Help that is asked for is an answer. -/
def orHelp (text : String) (command : Except Halt Command) : Option Command :=
  match command with
  | .ok command => some command
  | .error .help => some (.help text)
  | .error .refused => none

/-- Reads the command after the general options. -/
def readWords (call : Call) : List String → Option Command
  | "validate" :: args => orHelp (validateHelp call) (readValidate call args)
  | "normalize" :: args => orHelp (normalizeHelp call) (readNormalize args)
  | ["help"] => some (.help (generalHelp call))
  | ["help", "validate"] => some (.help (validateHelp call))
  | ["help", "normalize"] => some (.help (normalizeHelp call))
  | ["help", "help"] => some (.help (helpHelp call))
  | _ => none

/-- Reads a call; none if it makes no sense. -/
def Command.ofCall? (call : Call) : Option Command :=
  match readArguments commonSpecs true {} none call.args with
  | .ok g => readWords call g.words
  | .error .help => some (.help (generalHelp call))
  | .error .refused => none

/-! ### Running -/

/-- The formats of files. -/
inductive Format
  | json
  | yaml
  | toml
  deriving DecidableEq, Repr

/-- What a command can see: texts of files, what texts in other formats than JSON say, and the
time. -/
structure World where
  read : String → Option String
  now : Instant
  yaml : String → Option Source := fun _ => none
  toml : String → Option Source := fun _ => none

/-- What a command does in the end. -/
inductive Effect
  | print (exit : Nat) (text : String)
  /-- Writes a file; the exit code is 0 if that succeeds, else 1. -/
  | write (file text : String)
  deriving DecidableEq, Repr

/-- Nothing but an exit code. -/
def Effect.fail (exit : Nat) : Effect := .print exit ""

/-- Whether the last step of a path ends in the extension and begins with something else. -/
def hasExtension (file extension : String) : Bool :=
  let step := file.toList.reverse.takeWhile (· != '/')
  let ending := '.' :: extension.toList
  ending.reverse.isPrefixOf step && ending.length < step.length

/-- The extensions that are known, with their formats. -/
def Format.extensions : List (String × Format) :=
  [("json", .json), ("yaml", .yaml), ("yml", .yaml), ("toml", .toml)]

/-- The format of a file, if its extension is known. -/
def Format.ofFile? (file : String) : Option Format :=
  extensions.findSome? fun (extension, format) =>
    if hasExtension file extension then some format else none

/-- What a text says in a format. -/
def World.parse? (world : World) : Format → String → Option Source
  | .json => Json.read?
  | .yaml => world.yaml
  | .toml => world.toml

/-- What a file says. -/
def World.source? (world : World) (file : String) : Option Source := do
  let text ← world.read file
  let format ← Format.ofFile? file
  world.parse? format text

/-- The schema of a manifest. -/
def World.schema? (world : World) (file : String) : Option Schema := do
  let manifest ← (world.source? file).bind Manifest.read?
  manifest.build.toOption

/-- The preferences of a file, with those of the command line on top. -/
def World.preferences? (world : World) (options : ValidateOptions) : Option Preferences := do
  let prefs ← match options.prefs with
    | some file => (world.source? file).bind Preferences.read?
    | none => some {}
  return { prefs with
    abortEarly := prefs.abortEarly && !options.allErrors
    convert := prefs.convert && !options.noConvert
    allowUnknown := prefs.allowUnknown || options.allowUnknown
    stripUnknown := if options.stripUnknown then ⟨true, true⟩ else prefs.stripUnknown }

/-- Validates a document. -/
def World.verdict? (world : World) (schema : Schema) (prefs : Preferences) (file : String) :
    Option (String × Verdict) := do
  let json ← (← world.source? file).toJson?
  let (verdict, _) ← (schema.validate { now := world.now } (Value.ofJson json) prefs).run {}
  return (file, verdict)

/-- A failure on one line. -/
def detailLine (d : Detail) : String :=
  let path := pathText d.path
  let place := if path.isEmpty then "<root>" else path
  "  - " ++ place ++ ": " ++ d.message ++ " [" ++ d.code ++ "]\n"

/-- What is said about a document. -/
def verdictText (file : String) (v : Verdict) : String :=
  if v.isOk then file ++ ": ok\n" ++ v.value.toJson.pretty ++ "\n"
  else file ++ ": invalid\n" ++ String.join (v.failures.map detailLine)

/-- What is said about a document in JSON. -/
def verdictJson (file : String) (v : Verdict) : Json :=
  .object <| ("input", .string file) ::
    if v.isOk then [("value", v.value.toJson)] else [("error", v.errorToJson)]

/-- Runs `validate`; none if some file cannot be used. -/
def validate? (world : World) (options : ValidateOptions) : Option Effect := do
  let schema ← world.schema? options.schema
  let prefs ← world.preferences? options
  let verdicts ← options.inputs.mapM (world.verdict? schema prefs)
  let text :=
    if options.json then
      (Json.array (verdicts.map fun (file, v) => verdictJson file v)).pretty ++ "\n"
    else String.join (verdicts.map fun (file, v) => verdictText file v)
  return .print (if verdicts.all fun (_, v) => v.isOk then 0 else 1) text

/-- Runs `normalize`; none if the manifest cannot be used. -/
def normalize? (world : World) (schema : String) (output : Option String) : Option Effect := do
  let text := (← world.schema? schema).describe.toJson.pretty
  match output with
  | some file => return .write file text
  | none => return .print 0 (text ++ "\n")

/-- The files that a command reads. -/
def Command.files : Command → List String
  | .validate options => options.schema :: options.prefs.toList ++ options.inputs
  | .normalize schema _ => [schema]
  | .help _ => []

/-- Runs a command. -/
def Command.run (world : World) : Command → Effect
  | .validate options => (validate? world options).getD (.fail 1)
  | .normalize schema output => (normalize? world schema output).getD (.fail 1)
  | .help text => .print 0 text

/-- Runs what a call asks for. -/
def run (world : World) (call : Call) : Effect :=
  match Command.ofCall? call with
  | some command => command.run world
  | none => .fail 2

end Conform.CommandLine
