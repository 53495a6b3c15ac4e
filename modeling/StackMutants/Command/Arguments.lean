/-!
# Command.Arguments — the arguments of the command line

A command line is options, the name of a command, and options of the command.  Options have a long name
and perhaps a letter; letters may be written together.  The value of an option is attached to it, with
or without an equals sign after a letter and with one after a name, or it is the next argument unless
that looks like an option itself.  No option may be given twice, and no value may be empty.
-/

namespace StackMutants

inductive Command where
  | mutants (program config : String)
  | plan (program config : String) (history writeHistory : Option String)
  | validate (config : String)
  | sample
deriving DecidableEq, Repr

/-- What a command line asks for. -/
inductive Request where
  | run (verbose : Bool) (command : Command)
  | help
  | version
deriving DecidableEq, Repr

/-- The line that tells the version of the program. -/
def versionLine : String := "bytecode-mutation-testing 0.1.0"

namespace Arguments

inductive Name where
  | program
  | config
  | history
  | writeHistory
  | verbose
  | help
  | version
deriving DecidableEq, Repr

namespace Name

def all : List Name := [program, config, history, writeHistory, verbose, help, version]

def long : Name → String
  | program => "program"
  | config => "config"
  | history => "history"
  | writeHistory => "write-history"
  | verbose => "verbose"
  | help => "help"
  | version => "version"

def letter? : Name → Option Char
  | program => some 'p'
  | config => some 'c'
  | verbose => some 'v'
  | help => some 'h'
  | version => some 'V'
  | history | writeHistory => none

def takesValue : Name → Bool
  | program | config | history | writeHistory => true
  | verbose | help | version => false

end Name

/-- The options given so far, with their values; an option without a value has an empty one. -/
abbrev Given := List (Name × String)

/-- Why the reading of options ends early. -/
inductive Stop where
  | refused
  | help
  | version
deriving DecidableEq, Repr

def Given.add (given : Given) (name : Name) (value : String) : Except Stop Given :=
  if (given.lookup name).isSome || (name.takesValue && value.isEmpty) then .error .refused
  else
    match name with
    | .help => .error .help
    | .version => .error .version
    | _ => .ok ((name, value) :: given)

def Given.has (given : Given) (name : Name) : Bool := (given.lookup name).isSome

/-- What one argument may be. -/
inductive Shape where
  | escape
  | long (name : String) (value : Option String)
  | letters (cs : List Char)
  | word
deriving DecidableEq, Repr

def shape (arg : String) : Shape :=
  match arg.toList with
  | ['-', '-'] => .escape
  | '-' :: '-' :: cs =>
    let name := cs.takeWhile (· != '=')
    let value := match cs.drop name.length with
      | _ :: value => some (String.ofList value)
      | [] => none
    .long (String.ofList name) value
  | '-' :: c :: cs => .letters (c :: cs)
  | _ => .word

/-- The options after reading letters, and the option whose value has to follow, if one has. -/
def letters (known : List Name) : List Char → Given → Except Stop (Given × Option Name)
  | [], given => .ok (given, none)
  | c :: cs, given =>
    match known.find? (·.letter? == some c) with
    | none => .error .refused
    | some name =>
      if name.takesValue then
        match cs with
        | [] => .ok (given, some name)
        | '=' :: value => do pure (← given.add name (String.ofList value), none)
        | value => do pure (← given.add name (String.ofList value), none)
      else do letters known cs (← given.add name "")

/-- The options after reading a long option, and the option whose value has to follow, if one has. -/
def long (known : List Name) (name : String) (value : Option String) (given : Given) :
    Except Stop (Given × Option Name) :=
  match known.find? (·.long == name), value with
  | none, _ => .error .refused
  | some name, some value =>
    if name.takesValue then do pure (← given.add name value, none) else .error .refused
  | some name, none =>
    if name.takesValue then .ok (given, some name) else do pure (← given.add name "", none)

/-- Reads options up to the first word that is no value.  `pending` is the option that waits for its
value. -/
def options (known : List Name) (pending : Option Name) (given : Given) :
    List String → Except Stop (Given × List String)
  | [] => if pending.isSome then .error .refused else .ok (given, [])
  | arg :: args =>
    match shape arg, pending with
    | .word, none => .ok (given, arg :: args)
    | .word, some name => do options known none (← given.add name arg) args
    | _, some _ => .error .refused
    | .escape, none => if args.isEmpty then .ok (given, []) else .error .refused
    | .long name value, none => do
      let (given, pending) ← long known name value given
      options known pending given args
    | .letters cs, none => do
      let (given, pending) ← letters known cs given
      options known pending given args

/-- The options that a command knows, besides those that all commands know. -/
def commandOptions? : String → Option (List Name)
  | "mutants" => some [.program, .config]
  | "plan" => some [.program, .config, .history, .writeHistory]
  | "validate" => some [.config]
  | "example" => some []
  | _ => none

/-- The command of a name with the options given to it. -/
def command (name : String) (given : Given) : Command :=
  let program := (given.lookup .program).getD "program.yaml"
  let config := (given.lookup .config).getD "mutation.yaml"
  match name with
  | "mutants" => .mutants program config
  | "plan" => .plan program config (given.lookup .history) (given.lookup .writeHistory)
  | "validate" => .validate config
  | _ => .sample

/-- Whether a command is asked to explain all commands or one of them. -/
def asksForHelp (name : String) (args : List String) : Bool :=
  name = "help" &&
    match args with
    | [] => true
    | [topic] => topic = "help" || (commandOptions? topic).isSome
    | _ => false

/-- Reads the options of a command, of which nothing may be left over. -/
def readCommand (verbose : Bool) (name : String) (args : List String) : Except Stop Request :=
  match commandOptions? name with
  | none => .error (if asksForHelp name args then .help else .refused)
  | some own => do
    let (given, rest) ← options (own ++ [.verbose, .help]) none [] args
    if rest.isEmpty then pure (.run (verbose || given.has .verbose) (command name given))
    else throw .refused

/-- What a command line asks for, unless it is refused. -/
def read? (args : List String) : Option Request :=
  let request : Except Stop Request := do
    let (given, rest) ← options [.verbose, .help, .version] none [] args
    match rest with
    | [] => throw .refused
    | name :: args => readCommand (given.has .verbose) name args
  match request with
  | .ok request => some request
  | .error .refused => none
  | .error .help => some .help
  | .error .version => some .version

end Arguments

end StackMutants
