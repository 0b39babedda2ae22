import ZoneRelay.Text.Reader

/-!
# The command line

What is asked for on the command line (`ZoneRelay.Command.ofArguments`). The two files can be
named, each once, by a long or a short option, with the path behind it or attached to it;
three options ask for something to be shown instead of serving. The first argument that
makes no sense is reported.
-/

namespace ZoneRelay

/-- The files named on the command line. -/
structure Options where
  config : Option String
  keys : Option String
  deriving DecidableEq, Repr

/-- What is asked for. -/
inductive Command where
  /-- Serve clients. -/
  | serve (options : Options)
  /-- Show the standard configuration. -/
  | printConfig
  /-- Show the version. -/
  | version
  /-- Show how the program is called. -/
  | help
  /-- Report an argument that makes no sense. -/
  | misuse (argument : String)
  deriving DecidableEq, Repr

namespace Command

/-- The value that an argument carries for a long option, as in `--keys=file`, or for a short
one, as in `-kfile` and `-k=file`. -/
def attached? (option argument : String) : Option String :=
  let long := option.startsWith "--"
  match Text.word? option argument.toList with
  | some ('=' :: value) => some (String.ofList value)
  | some [] => none
  | some value => if long then none else some (String.ofList value)
  | none => none

/-- What has been read so far. -/
structure Scan where
  options : Options
  print : Bool

/-- Notes the configuration file, once. -/
def Scan.setConfig? (scan : Scan) (path : String) : Option Scan :=
  if scan.options.config.isSome then none
  else some { scan with options := { scan.options with config := some path } }

/-- Notes the key file, once. -/
def Scan.setKeys? (scan : Scan) (path : String) : Option Scan :=
  if scan.options.keys.isSome then none
  else some { scan with options := { scan.options with keys := some path } }

/-- Notes an option with its value. -/
def Scan.set? (scan : Scan) (option path : String) : Option Scan :=
  if option = "-c" ∨ option = "--config" then scan.setConfig? path
  else if option = "-k" ∨ option = "--keys" then scan.setKeys? path
  else none

/-- An option that carries its value with it. -/
def Scan.setAttached? (scan : Scan) (argument : String) : Option Scan :=
  ["--config", "--keys", "-c", "-k"].findSome? fun option =>
    (attached? option argument).bind (scan.set? option)

/-- Reads arguments from the left. -/
def read : Scan → List String → Command
  | scan, [] => if scan.print then .printConfig else .serve scan.options
  | scan, argument :: rest =>
    if argument = "-h" ∨ argument = "--help" then .help
    else if argument = "-V" ∨ argument = "--version" then .version
    else if argument = "--print-config" then
      if scan.print then .misuse argument else read { scan with print := true } rest
    else
      match scan.setAttached? argument, rest with
      | some scan, rest => read scan rest
      | none, [] => .misuse argument
      | none, path :: rest =>
        match if path.startsWith "-" then none else scan.set? argument path with
        | some scan => read scan rest
        | none => .misuse argument

/-- The command that the arguments ask for. -/
def ofArguments (arguments : List String) : Command := read ⟨⟨none, none⟩, false⟩ arguments

end Command

end ZoneRelay
