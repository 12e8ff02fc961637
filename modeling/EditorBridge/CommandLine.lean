import EditorBridge.Numeral

/-!
# Command lines

The options that a program is started with. A grammar lists the options; `parse` reads arguments
from left to right and stops at the first one that is wrong, or that asks for the usage or the
version. An option with a value may be written `--name value`, `--name=value`, and with its letter
`-n value`, `-nvalue` or `-n=value`. A value on its own must not look like an option.
-/

namespace EditorBridge.CommandLine

/-- How often an option may be given, and whether it has a value: a flag at most once and without
one, a single option at most once, others any number of times. -/
inductive Arity where
  | flag
  | single
  | many
  deriving DecidableEq, Repr

/-- An option, with the name after two hyphens, the letter after one, if there is one, how often it
may be given, and which texts may be its value. -/
structure Switch where
  name : String
  letter : Option Char
  arity : Arity
  admits : String → Bool

/-- The options of a program, and whether the program tells its version. -/
structure Grammar where
  switches : List Switch
  hasVersion : Bool

/-- Why a program ends instead of doing its work: the arguments are wrong, or the usage or the
version is asked for. -/
inductive Stop where
  | usage
  | help
  | version
  deriving DecidableEq, Repr

/-- The exit code of a program that ends like this. -/
def Stop.exitCode : Stop → Nat
  | usage => 2
  | help | version => 0

/-- The options that were given, with their values, in order. Flags have an empty value. -/
abbrev Given := List (String × String)

namespace Given

/-- Whether an option was given. -/
def has (given : Given) (name : String) : Bool :=
  given.any (·.1 == name)

/-- The values of an option. -/
def all (given : Given) (name : String) : List String :=
  (given.filter (·.1 == name)).map Prod.snd

/-- The value of an option that may be given once. -/
def value? (given : Given) (name : String) : Option String :=
  (given.all name).head?

/-- The value of a numeric option. -/
def number? (given : Given) (name : String) : Option Nat :=
  (given.value? name).bind fun s => Numeral.natural? s.toList

end Given

/-- Whether a text is a natural number of 64 bits. -/
def isNumber (s : String) : Bool :=
  (Numeral.natural? s.toList).any (· < UInt64.size)

/-- Whether an argument looks like an option. -/
def isOption (arg : String) : Bool :=
  match arg.toList with
  | '-' :: _ :: _ => true
  | _ => false

/-- Adds an option to those that were given, if it may be given (again) with this value. -/
def add (given : Given) (switch : Switch) (value : String) : Except Stop Given :=
  let again := given.has switch.name && switch.arity != .many
  if again || !switch.admits value then .error .usage else .ok (given ++ [(switch.name, value)])

/-- What an argument that looks like an option means: either some options are given now, or one more
is, whose value is the next argument. -/
inductive Meaning where
  | given (given : Given)
  | awaits (given : Given) (switch : Switch)

/-- Reads an argument with two hyphens. -/
def readLong (grammar : Grammar) (given : Given) (arg : List Char) : Except Stop Meaning :=
  let name := String.ofList (arg.takeWhile (· != '='))
  let attached :=
    match arg.dropWhile (· != '=') with
    | _ :: value => some (String.ofList value)
    | [] => none
  match grammar.switches.find? (·.name == name), attached with
  | some switch, some value =>
      if switch.arity = .flag then .error .usage else (add given switch value).map .given
  | some switch, none =>
      if switch.arity = .flag then (add given switch "").map .given
      else .ok (.awaits given switch)
  | none, some _ => .error .usage
  | none, none =>
      if name = "help" then .error .help
      else if name = "version" && grammar.hasVersion then .error .version
      else .error .usage

/-- Reads the letters of an argument with one hyphen. -/
def readShort (grammar : Grammar) (given : Given) : List Char → Except Stop Meaning
  | [] => .ok (.given given)
  | c :: rest =>
      match grammar.switches.find? (·.letter == some c) with
      | some switch =>
          if switch.arity = .flag then
            match add given switch "" with
            | .ok given => readShort grammar given rest
            | .error stop => .error stop
          else
            match rest with
            | [] => .ok (.awaits given switch)
            | '=' :: value => (add given switch (String.ofList value)).map .given
            | value => (add given switch (String.ofList value)).map .given
      | none =>
          if c = 'h' then .error .help
          else if c = 'V' && grammar.hasVersion then .error .version
          else .error .usage

/-- Reads an argument, which has to be an option. -/
def readArgument (grammar : Grammar) (given : Given) (arg : String) : Except Stop Meaning :=
  match arg.toList with
  | '-' :: '-' :: name => readLong grammar given name
  | '-' :: c :: letters => readShort grammar given (c :: letters)
  | _ => .error .usage

/-- Reads arguments after the options that have been given so far. -/
def parseFrom (grammar : Grammar) (given : Given) : List String → Except Stop Given
  | [] => .ok given
  | arg :: rest =>
      if arg = "--" then if rest.isEmpty then .ok given else .error .usage
      else
        match readArgument grammar given arg, rest with
        | .error stop, _ => .error stop
        | .ok (.given given), rest => parseFrom grammar given rest
        | .ok (.awaits given switch), value :: rest =>
            if isOption value then .error .usage
            else
              match add given switch value with
              | .ok given => parseFrom grammar given rest
              | .error stop => .error stop
        | .ok (.awaits _ _), [] => .error .usage

/-- The options that arguments give. -/
def parse (grammar : Grammar) (args : List String) : Except Stop Given :=
  parseFrom grammar [] args

end EditorBridge.CommandLine
