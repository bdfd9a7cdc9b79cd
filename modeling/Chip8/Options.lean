import Chip8.Text.Numeral
import Chip8.Text.Quoted

/-!
# Command lines

A command line is a list of arguments, some of which are options. Options have long names that start
with two dashes and may be shortened as long as no other name starts in the same way. The value of
an option follows it as an argument of its own, or after an equals sign. What is not an option is
the operand, of which there is one at most. After two dashes on their own everything is an operand,
and so is a negative number and anything with a space in it. Two dashes after an equals sign are
dropped, and leave an option without a value.

Arguments are first told apart one by one, and then read in order; the first thing that is wrong is
reported.

## Main definitions

* `Grammar`: the options and the operand of a command
* `Token.classify`: what one argument is
* `Grammar.read`: a whole command line
* `UsageError.message`: what is said about a wrong one
-/

namespace Chip8.Options

/-- What an option takes. -/
inductive Kind where
  /-- Nothing: ask for help. -/
  | help
  /-- Nothing. -/
  | flag
  | text
  | integer
  deriving DecidableEq, Repr

/-- An option with its names. -/
structure Spec where
  names : List String
  kind : Kind
  deriving DecidableEq, Repr

/-- What a command can be given. -/
structure Grammar where
  options : List Spec
  /-- What the operand is called. -/
  operand : String
  operandRequired : Bool

/-- The value of an option that was given. -/
inductive Value where
  | flag
  | text (s : String)
  | integer (n : Int)
  /-- Two dashes stood in place of a value. -/
  | nothing
  deriving DecidableEq, Repr

/-- What is wrong with a command line. -/
inductive UsageError where
  /-- A shortened name that several names start with. -/
  | ambiguous (given : String) (names : List String)
  /-- An option without the value it takes. -/
  | valueMissing (option : Spec)
  /-- A value given to an option that takes none. -/
  | valueIgnored (option : Spec) (value : String)
  /-- A value that should be an integer. -/
  | notInteger (option : Spec) (value : String)
  | operandMissing (name : String)
  /-- Arguments that mean nothing. -/
  | unrecognized (arguments : List String)
  /-- A value that the command does not allow. -/
  | refused (reason : String)
  deriving DecidableEq, Repr

/-- The names of an option as messages show them. -/
def Spec.title (s : Spec) : String := "/".intercalate s.names

/-- A text as messages show it. -/
def shown (s : String) : String := String.ofList (Text.quoted s.toList)

/-- What is said about a wrong command line. -/
def UsageError.message : UsageError → String
  | ambiguous given names => s!"ambiguous option: {given} could match " ++ ", ".intercalate names
  | valueMissing option => s!"argument {option.title}: expected one argument"
  | valueIgnored option value =>
    s!"argument {option.title}: ignored explicit argument {shown value}"
  | notInteger option value => s!"argument {option.title}: invalid int value: {shown value}"
  | operandMissing name => s!"the following arguments are required: {name}"
  | unrecognized arguments => "unrecognized arguments: " ++ " ".intercalate arguments
  | refused reason => reason

/-- What an argument is. -/
inductive Token where
  /-- Two dashes, after which everything is an operand. -/
  | terminator
  | operand (text : String)
  /-- An option, with the value attached to it; `short` tells that its name has one letter. -/
  | option (spec : Spec) (attached : Option String) (short : Bool)
  /-- Something that looks like an option but is none. -/
  | unknown (text : String)
  deriving DecidableEq, Repr

/-- An option under one of its names. -/
structure Candidate where
  name : String
  spec : Spec
  attached : Option String
  short : Bool

namespace Grammar

/-- All options under all their names. -/
def names (g : Grammar) : List (String × Spec) :=
  g.options.flatMap fun spec => spec.names.map fun name => (name, spec)

/-- The option of a name written out in full. -/
def named? (g : Grammar) (name : List Char) : Option Spec :=
  (g.names.find? fun (n, _) => n.toList = name).map (·.2)

/-- A text up to its first equals sign, and what follows that if there is one. -/
def splitValue (cs : List Char) : List Char × Option String :=
  match cs.span (· ≠ '=') with
  | (name, []) => (name, none)
  | (name, _ :: value) => (name, some (String.ofList value))

/-- The options that an argument may be short for. A long name may be cut short; a name of one
letter may have its value attached. -/
def candidates (g : Grammar) (arg : List Char) : List Candidate :=
  if arg.take 2 = ['-', '-'] then
    let (start, value) := splitValue arg
    (g.names.filter fun (name, _) => start.isPrefixOf name.toList).map fun (name, spec) =>
      ⟨name, spec, value, false⟩
  else
    (g.names.filter fun (name, _) => name.toList = arg.take 2).map fun (name, spec) =>
      ⟨name, spec, some (String.ofList (arg.drop 2)), true⟩

end Grammar

/-- Whether characters are one or more decimal digits. -/
def isDigits (cs : List Char) : Bool := !cs.isEmpty && cs.all fun c => (Text.decimalDigit? c).isSome

/-- Whether an argument is a negative number, with or without a decimal point. A line end may
follow. -/
def isNegativeNumber (arg : List Char) : Bool :=
  match arg with
  | '-' :: cs =>
    let cs := if cs.getLast? = some '\n' then cs.dropLast else cs
    match cs.span (· ≠ '.') with
    | (whole, []) => isDigits whole
    | (whole, _ :: fraction) => (whole.isEmpty || isDigits whole) && isDigits fraction
  | _ => false

/-- What an argument is, before any terminator. -/
def Token.classify (g : Grammar) (arg : String) : Except UsageError Token :=
  let cs := arg.toList
  if cs.head? ≠ some '-' then .ok (.operand arg)
  else if arg = "--" then .ok .terminator
  else match g.named? cs with
    | some spec => .ok (.option spec none false)
    | none =>
      if cs.length = 1 then .ok (.operand arg)
      else match Grammar.splitValue cs with
        | (name, value) =>
          match value, g.named? name with
          | some value, some spec => .ok (.option spec (some value) (name.length = 2))
          | _, _ =>
            match g.candidates cs with
            | [c] => .ok (.option c.spec c.attached c.short)
            | [] =>
              if isNegativeNumber cs || cs.contains ' ' then .ok (.operand arg)
                else .ok (.unknown arg)
            | several => .error (.ambiguous arg (several.map (·.name)))

/-- What the arguments are. -/
def classifyAll (g : Grammar) : List String → Except UsageError (List Token)
  | [] => .ok []
  | arg :: args => do
    match ← Token.classify g arg with
    | .terminator => return .terminator :: args.map .operand
    | token => return token :: (← classifyAll g args)

/-- How far a command line has been read. -/
structure Progress where
  /-- The options given so far, last one first. -/
  given : List (String × Value) := []
  operand : Option String := none
  /-- Arguments without a meaning, last one first. -/
  extras : List String := []
  /-- Whether the operand has only just been read. -/
  operandLast : Bool := false

/-- Why reading ends early. -/
inductive Stop where
  | help
  | usage (cause : UsageError)
  deriving DecidableEq, Repr

namespace Progress

/-- After an option with its value. -/
def give (p : Progress) (spec : Spec) (value : Value) : Progress :=
  { p with given := (spec.names.getLast?.getD "", value) :: p.given, operandLast := false }

/-- After an argument without a meaning. -/
def extra (p : Progress) (text : String) : Progress :=
  { p with extras := text :: p.extras, operandLast := false }

/-- After something that may be the operand. -/
def operandOrExtra (p : Progress) (text : String) : Progress :=
  match p.operand with
  | none => { p with operand := some text, operandLast := true }
  | some _ => p.extra text

/-- The value of an option that takes one. -/
def giveValue (p : Progress) (spec : Spec) (text : String) : Except Stop Progress :=
  if text = "--" then .ok (p.give spec .nothing)
  else match spec.kind with
  | .integer =>
    match Text.readInteger 10 text.toList with
    | some n => .ok (p.give spec (.integer n))
    | none => .error (.usage (.notInteger spec text))
  | _ => .ok (p.give spec (.text text))

end Progress

/-- The request for help with something attached to it. Names of one letter may be written together,
and `h` is the only one there is; anything else that is attached is refused. -/
def attachedHelp (spec : Spec) (short : Bool) (cs : List Char) : Stop :=
  let rest := if short then cs.dropWhile (· = 'h') else cs
  if rest.isEmpty && !cs.isEmpty then .help
  else .usage (.valueIgnored spec (String.ofList rest))

/-- Read tokens in order. Two dashes are passed over if they stand right before or right after the
operand. -/
def readTokens (g : Grammar) (p : Progress) : List Token → Except Stop Progress
  | [] => .ok p
  | .unknown text :: tokens => readTokens g (p.extra text) tokens
  | .operand text :: tokens => readTokens g (p.operandOrExtra text) tokens
  | .terminator :: tokens =>
    if p.operandLast || (p.operand.isNone && (!g.operandRequired || !tokens.isEmpty)) then
      readTokens g { p with operandLast := false } tokens
    else readTokens g (p.extra "--") tokens
  | .option spec attached short :: tokens =>
    match spec.kind, attached with
    | .help, none => .error .help
    | .help, some text => .error (attachedHelp spec short text.toList)
    | .flag, none => readTokens g (p.give spec .flag) tokens
    | .flag, some text => .error (.usage (.valueIgnored spec text))
    | _, some text => do readTokens g (← p.giveValue spec text) tokens
    | _, none =>
      match tokens with
      | .operand text :: tokens => do readTokens g (← p.giveValue spec text) tokens
      | _ => .error (.usage (.valueMissing spec))

/-- What a command line says. -/
structure Reading where
  /-- The options given, in order. -/
  given : List (String × Value)
  operand : Option String

namespace Reading

/-- The values given to an option, in order. -/
def values (r : Reading) (name : String) : List Value :=
  (r.given.filter fun (n, _) => n = name).map (·.2)

/-- The value given last to an option. -/
def last? (r : Reading) (name : String) : Option Value := (r.values name).getLast?

/-- The option given last out of several. -/
def lastOf (r : Reading) (names : List String) : Option String :=
  ((r.given.map (·.1)).filter names.contains).getLast?

/-- Whether an option was given. -/
def has (r : Reading) (name : String) : Bool := (r.lastOf [name]).isSome

end Reading

/-- Read a whole command line. -/
def Grammar.read (g : Grammar) (args : List String) : Except Stop Reading := do
  let tokens ← (classifyAll g args).mapError .usage
  let p ← readTokens g {} tokens
  if g.operandRequired && p.operand.isNone then throw (.usage (.operandMissing g.operand))
  if !p.extras.isEmpty then throw (.usage (.unrecognized p.extras.reverse))
  return { given := p.given.reverse, operand := p.operand }

/-- The option that asks for help, which every command has. -/
def help : Spec := ⟨["-h", "--help"], .help⟩

end Chip8.Options
