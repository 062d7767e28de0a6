import SourceMarkers.Path.Basic

/-!
# The command line

The arguments of the program. Each of the three options takes one value, in
the next argument or behind an equals sign, and may be given once. Arguments
are taken in order, and the first that is wrong, or that asks for the help or
the version, decides.

An argument that starts with a dash is never the value of the option before
it, except a dash alone. Two dashes alone end the options; as the program
takes no other arguments, nothing may follow them.

## Main definitions

* `Options`: What was asked for.
* `Invocation`: To run, to show a text, or an argument that is wrong.
* `Invocation.ofArguments`: What the arguments ask for.
-/

namespace SourceMarkers

/-- What the program was asked to do. -/
structure Options where
  scratchDirectory : Option Path
  logFile : Option Path
  logLevel : Option String
deriving DecidableEq, Repr

/-- The options that take a value. -/
inductive OptionName where
  | scratchDirectory
  | logFile
  | logLevel
deriving DecidableEq, Repr

/-- The option of a name. -/
def OptionName.ofString? (name : String) : Option OptionName :=
  if name = "scratch-dir" then some .scratchDirectory
  else if name = "log-file" then some .logFile
  else if name = "log-level" then some .logLevel
  else none

namespace Options

/-- Nothing was asked for. -/
def none : Options := ⟨Option.none, Option.none, Option.none⟩

/-- The options with one more value; a path may not be empty, and no option
    comes twice. -/
def set? (o : Options) (name : OptionName) (value : String) : Option Options :=
  match name with
  | .scratchDirectory =>
    if o.scratchDirectory.isSome || value.isEmpty then Option.none
    else some { o with scratchDirectory := some (.ofString value) }
  | .logFile =>
    if o.logFile.isSome || value.isEmpty then Option.none
    else some { o with logFile := some (.ofString value) }
  | .logLevel =>
    if o.logLevel.isSome then Option.none else some { o with logLevel := some value }

end Options

/-- What the arguments ask for. -/
inductive Invocation where
  | run (options : Options)
  | showHelp
  | showVersion
  | wrong
deriving DecidableEq, Repr

namespace Invocation

/-- The argument may be the value of the option before it. -/
def isValue (argument : String) : Bool :=
  !argument.startsWith "-" || argument == "-"

/-- An option by its name, and the value behind an equals sign if there is
    one. -/
def splitEquals (text : List Char) : String × Option String :=
  let name := String.ofList (text.takeWhile fun c => c != '=')
  match text.dropWhile fun c => c != '=' with
  | [] => (name, none)
  | _ :: value => (name, some (String.ofList value))

/-- What the arguments ask for, after the given options. -/
def ofArgumentsFrom (o : Options) : List String → Invocation
  | [] => .run o
  | argument :: rest =>
    match argument.toList with
    | ['-', '-'] => if rest.isEmpty then .run o else .wrong
    | '-' :: '-' :: text =>
      match splitEquals text with
      | ("help", none) => .showHelp
      | ("version", none) => .showVersion
      | (name, value?) =>
        match OptionName.ofString? name, value?, rest with
        | none, _, _ => .wrong
        | some option, some value, rest =>
          match o.set? option value with
          | none => .wrong
          | some o => ofArgumentsFrom o rest
        | some _, none, [] => .wrong
        | some option, none, value :: rest =>
          if isValue value then
            match o.set? option value with
            | none => .wrong
            | some o => ofArgumentsFrom o rest
          else .wrong
    | '-' :: 'h' :: _ => .showHelp
    | '-' :: 'V' :: _ => .showVersion
    | _ => .wrong

/-- What the arguments ask for. -/
def ofArguments (arguments : List String) : Invocation := ofArgumentsFrom .none arguments

end Invocation

end SourceMarkers
