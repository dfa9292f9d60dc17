/-!
# The command line

A command line names a command with its arguments. The options for the settings file and the content
root may stand before or after the name of the command; those after it win.
-/

namespace Compendium.CommandLine

/-- What the program is asked to do. -/
inductive Command where
  | render (route : String)
  | tree (manifest : Bool)
  | search (query : String) (json : Bool)
  deriving DecidableEq, Repr

structure Options where
  config : Option String := none
  root : Option String := none
  deriving DecidableEq, Repr

/-- A command with its options. -/
structure Invocation where
  options : Options
  command : Command
  deriving DecidableEq, Repr

/-- What help is given on. -/
inductive Topic where
  | program
  | render
  | tree
  | search
  | help
  deriving DecidableEq, Repr

/-- Why nothing is done: the command line is not understood, or it asks for help. -/
inductive Stop where
  | usage
  | help (topic : Topic)
  deriving DecidableEq, Repr

/-- The options with a value. -/
inductive OptionName where
  | config
  | root
  deriving DecidableEq, Repr

/-- Whether an argument can only be an option. A hyphen alone is a value. -/
def looksLikeOption (arg : String) : Bool :=
  match arg.toList with
  | '-' :: _ :: _ => true
  | _ => false

/-- An option with a value, and the value if it stands behind an equals sign. -/
def option? (arg : String) : Option (OptionName × Option String) :=
  let name := arg.toList.takeWhile (· != '=')
  let value := match arg.toList.dropWhile (· != '=') with
    | _ :: value => some (String.ofList value)
    | [] => none
  if name = "--config".toList then some (.config, value)
  else if name = "--root".toList then some (.root, value)
  else none

def asksHelp (arg : String) : Bool :=
  arg = "--help" || arg.toList.take 2 = ['-', 'h']

namespace Options

/-- The value of an option. -/
def get? (o : Options) : OptionName → Option String
  | .config => o.config
  | .root => o.root

/-- Sets an option. Its value may not be empty, and it may not be set twice. -/
def set (o : Options) (name : OptionName) (value : String) : Except Stop Options :=
  if value.isEmpty || (o.get? name).isSome then .error .usage
  else
    match name with
    | .config => .ok { o with config := some value }
    | .root => .ok { o with root := some value }

def override (earlier later : Options) : Options :=
  ⟨later.config.or earlier.config, later.root.or earlier.root⟩

end Options

/-- The arguments of a command so far. -/
structure Given where
  options : Options := {}
  flag : Bool := false
  values : List String := []

/-- Reads the arguments of a command with one flag at most and a number of values at most. After two
hyphens all arguments are values. -/
def readGiven (topic : Topic) (flag : Option String) (slots : Nat) :
    List String → Given → Except Stop Given
  | [], g => .ok g
  | arg :: rest, g =>
    if arg = "--" then
      let values := g.values ++ rest
      if values.length ≤ slots then .ok { g with values } else .error .usage
    else if asksHelp arg then .error (.help topic)
    else
      match option? arg, rest with
      | some (name, some value), rest =>
        match g.options.set name value with
        | .error stop => .error stop
        | .ok options => readGiven topic flag slots rest { g with options }
      | some (_, none), [] => .error .usage
      | some (name, none), value :: rest =>
        if looksLikeOption value then .error .usage
        else
          match g.options.set name value with
          | .error stop => .error stop
          | .ok options => readGiven topic flag slots rest { g with options }
      | none, rest =>
        if some arg = flag then
          if g.flag then .error .usage else readGiven topic flag slots rest { g with flag := true }
        else if looksLikeOption arg then .error .usage
        else if g.values.length < slots then
          readGiven topic flag slots rest { g with values := g.values ++ [arg] }
        else .error .usage

/-- Reads the options before the name of the command: the options, the name and what follows it. -/
def readProgram : List String → Options → Except Stop (Options × String × List String)
  | [], _ => .error .usage
  | arg :: rest, o =>
    if asksHelp arg then .error (.help .program)
    else
      match option? arg, rest with
      | some (name, some value), rest =>
        match o.set name value with
        | .error stop => .error stop
        | .ok o => readProgram rest o
      | some (_, none), [] => .error .usage
      | some (name, none), value :: rest =>
        if looksLikeOption value then .error .usage
        else
          match o.set name value with
          | .error stop => .error stop
          | .ok o => readProgram rest o
      | none, rest => .ok (o, arg, rest)

/-- The topic that the arguments after the word for help name. -/
def helpTopic : List String → Stop
  | [] => .help .program
  | ["render"] => .help .render
  | ["tree"] => .help .tree
  | ["search"] => .help .search
  | ["help"] => .help .help
  | _ => .usage

def parse (args : List String) : Except Stop Invocation := do
  let (outer, name, rest) ← readProgram args {}
  match name with
  | "render" =>
    let g ← readGiven .render none 1 rest {}
    return ⟨outer.override g.options, .render (g.values.head?.getD "/")⟩
  | "tree" =>
    let g ← readGiven .tree (some "--manifest") 0 rest {}
    return ⟨outer.override g.options, .tree g.flag⟩
  | "search" =>
    let g ← readGiven .search (some "--json") 1 rest {}
    match g.values with
    | query :: _ => return ⟨outer.override g.options, .search query g.flag⟩
    | [] => throw .usage
  | "help" => throw (helpTopic rest)
  | _ => throw .usage

end Compendium.CommandLine
