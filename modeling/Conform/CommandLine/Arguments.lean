/-!
# Command lines

How a command line is read, and how help about it is set. A command line is options and words. An
option is long, `--name value` or `--name=value`, or short, `-n value` or `-nvalue`; short ones
without values may share a dash. Each option may be given once. After `--` all is words.
-/

namespace Conform.CommandLine

/-- An option of a command. -/
structure OptionSpec where
  name : String
  short : Option Char := none
  takesValue : Bool := false
  about : String

/-- Why reading a command line ends early. -/
inductive Halt
  | help
  | refused
  deriving DecidableEq, Repr

/-- What has been read: options with their values, empty for those that take none, and words. -/
structure Given where
  options : List (String × String) := []
  words : List String := []
  deriving Repr

namespace Given

def has (g : Given) (name : String) : Bool := g.options.any fun option => option.1 == name

def value? (g : Given) (name : String) : Option String := g.options.lookup name

/-- Notes a switch. -/
def switch (g : Given) (name : String) : Except Halt Given :=
  if g.has name then .error .refused else .ok { g with options := g.options ++ [(name, "")] }

/-- Notes the value of an option; it cannot be empty. -/
def set (g : Given) (name value : String) : Except Halt Given :=
  if g.has name || value.isEmpty then .error .refused
  else .ok { g with options := g.options ++ [(name, value)] }

/-- Notes words; none can be empty. -/
def say (g : Given) (words : List String) : Except Halt Given :=
  if words.any String.isEmpty then .error .refused else .ok { g with words := g.words ++ words }

end Given

/-- The option that every command has. -/
def helpSpec : OptionSpec := { name := "help", short := some 'h', about := "Print help" }

/-! ### Help -/

/-- A section of a help text: names and what they stand for, in two columns. -/
def helpSection (title : String) (rows : List (String × String)) : String :=
  let width := (rows.map fun row => row.1.length).foldl max 0
  let line (row : String × String) : String :=
    "  " ++ row.1.pushn ' ' (width - row.1.length) ++ "  " ++ row.2 ++ "\n"
  "\n" ++ title ++ ":\n" ++ String.join (rows.map line)

/-- An option as it is written, short and long; the value is named for the option. -/
def OptionSpec.usage (spec : OptionSpec) : String :=
  let short := match spec.short with
    | some c => "-" ++ c.toString ++ ", "
    | none => "    "
  let value := if spec.takesValue then " <" ++ spec.name.toUpper ++ ">" else ""
  short ++ "--" ++ spec.name ++ value

def optionsSection (specs : List OptionSpec) : String :=
  helpSection "Options" (specs.map fun spec => (spec.usage, spec.about))

/-- A help text: what a command is for, how it is written, and its sections. -/
def helpText (about usage : String) (sections : List String) : String :=
  about ++ "\n\nUsage: " ++ usage ++ "\n" ++ String.join sections

/-! ### Reading -/

/-- Text after its first equals sign, if there is one, and the text before. -/
def splitValue (cs : List Char) : String × Option String :=
  match cs.dropWhile (· != '=') with
  | _ :: value => (String.ofList (cs.takeWhile (· != '=')), some (String.ofList value))
  | [] => (String.ofList cs, none)

/-- Reads a long option after its dashes; gives the name of an option whose value comes next. -/
def readLong (specs : List OptionSpec) (g : Given) (cs : List Char) :
    Except Halt (Given × Option String) :=
  let (name, value) := splitValue cs
  match specs.find? fun spec => spec.name == name with
  | none => .error .refused
  | some spec =>
    match spec.takesValue, value with
    | true, some value => (g.set name value).map (·, none)
    | true, none => .ok (g, some name)
    | false, some _ => .error .refused
    | false, none => if name = helpSpec.name then .error .help else (g.switch name).map (·, none)

/-- Reads short options after their dash; gives the name of an option whose value comes next. -/
def readShort (specs : List OptionSpec) (g : Given) :
    List Char → Except Halt (Given × Option String)
  | [] => .ok (g, none)
  | c :: rest =>
    match specs.find? fun spec => spec.short == some c with
    | none => .error .refused
    | some spec =>
      match spec.takesValue, rest with
      | true, [] => .ok (g, some spec.name)
      | true, '=' :: value => (g.set spec.name (String.ofList value)).map (·, none)
      | true, value => (g.set spec.name (String.ofList value)).map (·, none)
      | false, rest =>
        if spec.name = helpSpec.name then .error .help
        else do readShort specs (← g.switch spec.name) rest

/-- Whether an argument has the shape of an option. -/
def isDashed (arg : String) : Bool :=
  match arg.toList with
  | '-' :: _ :: _ => true
  | _ => false

/-- Reads arguments from left to right, or only up to the first word if `leading`; then that word
and all that follows are the words. `pending` is an option whose value comes next. -/
def readArguments (specs : List OptionSpec) (leading : Bool) (g : Given) (pending : Option String) :
    List String → Except Halt Given
  | [] => if pending.isSome then .error .refused else .ok g
  | arg :: rest =>
    match pending with
    | some name =>
      if isDashed arg then .error .refused
      else do readArguments specs leading (← g.set name arg) none rest
    | none =>
      match arg.toList with
      | ['-', '-'] => if leading then .error .refused else g.say rest
      | '-' :: '-' :: cs => do
        let (g, pending) ← readLong specs g cs
        readArguments specs leading g pending rest
      | '-' :: c :: cs => do
        let (g, pending) ← readShort specs g (c :: cs)
        readArguments specs leading g pending rest
      | _ =>
        if leading then g.say [arg] |>.map fun g => { g with words := g.words ++ rest }
        else do readArguments specs leading (← g.say [arg]) none rest

end Conform.CommandLine
