import Stylebook.Number.Numeral
import Stylebook.Path
import Stylebook.Text.Case

/-! The command line: what is asked for by the arguments, or by the environment where they say nothing. -/

namespace Stylebook
namespace Command

inductive UsageError
  | unknownCommand
  | unknownOption
  | missingArgument
  | unusedToken
  | repeatedArgument
  | badValue
  deriving DecidableEq, Repr

def UsageError.message : UsageError → Text
  | .unknownCommand => "unknown command".text
  | .unknownOption => "unknown option".text
  | .missingArgument => "missing argument".text
  | .unusedToken => "unused argument".text
  | .repeatedArgument => "repeated option".text
  | .badValue => "bad value".text

/-- A showcase of a style-sheet and all that it imports, or the tags of a single one. -/
inductive Request
  | build (root : Text) (config output : Option Path) (verbose : Bool)
  | tags (source : Text) (config : Option Path)
  deriving DecidableEq, Repr

abbrev Environment := List (Text × Text)

/-! ### Arguments -/

/-- What a command takes: the name of its argument, and options with and without a value. -/
structure Signature where
  argument : String
  options : List String
  flags : List String
  deriving DecidableEq, Repr

def buildSignature : Signature := ⟨"root", ["config", "output"], ["verbose"]⟩

def tagsSignature : Signature := ⟨"source", ["config"], []⟩

/-- Whether a token looks like an option: it begins with a dash and is not a number. -/
def isOptionLike (t : Text) : Bool :=
  t.head? == some '-' && !Numeral.isSum t && !Numeral.isNamedInteger t

/-- What the tokens of a command give: values by name, and tokens without a name. -/
structure Given where
  values : List (Text × Text) := []
  loose : List Text := []
  /-- These stand behind two dashes and are not options, whatever they look like. -/
  literal : List Text := []
  deriving DecidableEq, Repr

def Given.put (g : Given) (name value : Text) : Except UsageError Given :=
  if (g.values.lookup name).isSome then .error .repeatedArgument
  else .ok { g with values := (name, value) :: g.values }

/-- The truth value that a text means. -/
def truth? (t : Text) : Option Bool :=
  let t := Text.lower t
  if ["yes", "y", "1", "true", "t"].any (·.text = t) then some true
  else if ["no", "n", "0", "false", "f"].any (·.text = t) then some false
  else none

/-- Names are compared with hyphens in the place of underscores. -/
def optionName (t : Text) : Text := Text.replaceChar '_' ['-'] t

/-- The name and the value of an option: `--name` or `--name=value`. -/
def optionParts? (t : Text) : Option (Text × Option Text) :=
  (Text.after? "--".text t).map fun r =>
    match Text.cut? ['='] r with
    | some (name, value) => (optionName name, some value)
    | none => (optionName r, none)

def knows (names : List String) (name : Text) : Bool := names.any (·.text = name)

/-- The flag that a name means and what it says: `no-` in front turns it off. -/
def flag? (s : Signature) (name : Text) : Option (Text × Bool) :=
  if knows s.flags name then some (name, true)
  else
    match Text.after? "no-".text name with
    | some base => if knows s.flags base then some (base, false) else none
    | none => none

/-- What a flag says: its value, if it has one, or what its name says. -/
def flagValue (on : Bool) (value : Option Text) : Except UsageError Text :=
  let said : Option Bool := match value with
    | none => some on
    | some v => (truth? v).map (· == on)
  match said with
  | some b => .ok (if b then "true" else "false").text
  | none => .error .badValue

/-- Sorts the tokens of a command. -/
def sortTokens (s : Signature) (g : Given) : List Text → Except UsageError Given
  | [] => .ok g
  | t :: rest =>
    if t = "--".text then .ok { g with literal := rest }
    else
      match optionParts? t with
      | none => sortTokens s { g with loose := g.loose ++ [t] } rest
      | some (name, value) =>
        if knows (s.argument :: s.options) name then
          match value with
          | some v => do sortTokens s (← g.put name v) rest
          | none =>
            match rest with
            | [] => .error .missingArgument
            | v :: rest => if isOptionLike v then .error .missingArgument else do sortTokens s (← g.put name v) rest
        else
          match flag? s name with
          | some (base, on) => do sortTokens s (← g.put base (← flagValue on value)) rest
          | none => sortTokens s { g with loose := g.loose ++ [t] } rest

/-- The argument of a command: by its name, by its place, or from the environment; the rest of the tokens
    comes with it. -/
def takeArgument (s : Signature) (g : Given) : Except UsageError (Option Text × List Text) :=
  match g.values.lookup s.argument.text with
  | some v => .ok (some v, g.loose)
  | none =>
    match g.loose, g.literal with
    | t :: rest, _ => if isOptionLike t then .error .unknownOption else .ok (some t, rest)
    | [], t :: _ => .ok (some t, [])
    | [], [] => .ok (none, [])

/-- The tokens behind two dashes that are left when the argument has been taken. -/
def literalLeft (s : Signature) (g : Given) : List Text :=
  if (g.values.lookup s.argument.text).isNone && g.loose.isEmpty then g.literal.drop 1 else g.literal

/-- Tokens that nothing takes are a fault. -/
def refuse (left : List Text) : Except UsageError Unit :=
  if left.any isOptionLike then .error .unknownOption else if left.isEmpty then .ok () else .error .unusedToken

def variableName (name : Text) : Text := "INPUT_".text ++ name.map Char.toUpper

/-- The value of an option; where the arguments give none, that of its variable. -/
def valueOf? (env : Environment) (g : Given) (name : String) : Option Text :=
  match g.values.lookup name.text with
  | some v => some v
  | none => env.lookup (variableName name.text)

/-- Reads the tokens behind the name of a command. -/
def readTokens (env : Environment) (s : Signature) (tokens : List Text) : Except UsageError (Text × Given) := do
  let g ← sortTokens s {} tokens
  let (argument, left) ← takeArgument s g
  for name in s.flags do
    if let some v := valueOf? env g name then
      if (truth? v).isNone then throw .badValue
  let argument ← match argument.or (env.lookup (variableName s.argument.text)) with
    | some a => pure a
    | none => throw .missingArgument
  refuse (left ++ literalLeft s g)
  return (argument, g)

/-- Reads a command line. -/
def parse (env : Environment) (argv : List Text) : Except UsageError Request :=
  match argv with
  | [] => .error .unknownCommand
  | command :: tokens =>
    let path (g : Given) (name : String) : Option Path := (valueOf? env g name).map Path.ofText
    if command = "build".text then do
      let (root, g) ← readTokens env buildSignature tokens
      let verbose := ((valueOf? env g "verbose").bind truth?).getD false
      return .build root (path g "config") (path g "output") verbose
    else if command = "tags".text then do
      let (source, g) ← readTokens env tagsSignature tokens
      return .tags source (path g "config")
    else .error .unknownCommand

end Command
end Stylebook
