import NodeTelemetry.Decimal.Numeral

/-!
# The command line

The agent takes a command and options.  Options stand before or after the command that they belong
to, short ones can be joined behind one dash, and the value of an option follows as the next
argument, after an equals sign, or directly behind a short option.  Arguments are taken one by one
from left to right; the first that is wrong decides the answer.
-/

namespace NodeTelemetry

/-- What the agent is called for. -/
inductive Command where
  /-- Aggregate and export until stopped. -/
  | run (config : Option String) (interval : Option UInt64) (nodeName : Option String)
      (synthetic : Bool)
  /-- Print the configuration. -/
  | config (config : Option String)
  deriving DecidableEq, Repr

/-- A command line that was understood. -/
structure Invocation where
  verbose : Bool
  command : Option Command
  deriving DecidableEq, Repr

/-- What is wrong with a command line. -/
inductive UsageError where
  /-- An option or a word is not known there. -/
  | unknownArgument
  /-- The command is not known. -/
  | unknownCommand
  /-- An option that takes no value has one. -/
  | unneededValue
  /-- An option stands there twice. -/
  | repeated
  /-- The value of an option is missing or empty. -/
  | missingValue
  /-- The value of an option is not a number. -/
  | badNumber
  deriving DecidableEq, Repr

/-- The answer to a command line that is not an invocation. -/
inductive UsageAnswer where
  /-- Help was asked for, on the agent or on a command. -/
  | help (command : Option String)
  /-- The version was asked for. -/
  | version
  | error (e : UsageError)
  deriving DecidableEq, Repr

namespace CommandLine

/-- The commands, by name. -/
inductive CommandName where
  | run
  | config
  deriving DecidableEq, Repr

/-- The command of a name. -/
def CommandName.ofString? (s : String) : Option CommandName :=
  if s = "run" then some .run else if s = "config" then some .config else none

/-- The name of a command. -/
def CommandName.text : CommandName → String
  | .run => "run"
  | .config => "config"

/-! ## Options -/

/-- The options that take a value. -/
inductive Setting where
  | config
  | interval
  | nodeName
  deriving DecidableEq, Repr

/-- The options. -/
inductive Switch where
  | verbose
  | synthetic
  | help
  | version
  /-- An option that takes a value. -/
  | setting (s : Setting)
  deriving DecidableEq, Repr

/-- An option with its names. -/
structure SwitchName where
  short : Char
  long : String
  switch : Switch

/-- The options that are known before the command, or behind one. -/
def switches : Option CommandName → List SwitchName
  | none => [⟨'v', "verbose", .verbose⟩, ⟨'h', "help", .help⟩, ⟨'V', "version", .version⟩]
  | some .run =>
    [⟨'c', "config", .setting .config⟩, ⟨'i', "interval", .setting .interval⟩,
      ⟨'n', "node-name", .setting .nodeName⟩, ⟨'s', "synthetic", .synthetic⟩,
      ⟨'v', "verbose", .verbose⟩, ⟨'h', "help", .help⟩]
  | some .config =>
    [⟨'c', "config", .setting .config⟩, ⟨'v', "verbose", .verbose⟩, ⟨'h', "help", .help⟩]

/-- The option of a short name. -/
def short? (level : Option CommandName) (c : Char) : Option Switch :=
  ((switches level).find? fun s => s.short == c).map SwitchName.switch

/-- The option of a long name. -/
def long? (level : Option CommandName) (name : String) : Option Switch :=
  ((switches level).find? fun s => s.long == name).map SwitchName.switch

/-! ## What was given so far -/

/-- The options given at one level.  `given` lists those that stood there, so that none stands there
twice.  The last option that takes a value is `pending`, with its value if that came, until the next
option or the end: only then its value is looked at. -/
structure Given where
  given : List Switch
  config : Option String
  interval : Option UInt64
  nodeName : Option String
  pending : Option (Setting × Option String)
  deriving DecidableEq, Repr

/-- Nothing given. -/
def Given.none : Given := ⟨[], Option.none, Option.none, Option.none, Option.none⟩

/-- Notes that an option stands there, once. -/
def Given.mark (g : Given) (s : Switch) : Except UsageError Given :=
  if g.given.contains s then .error .repeated else .ok { g with given := s :: g.given }

/-- The number that a text stands for: digits after an optional plus sign, below `2 ^ 64`. -/
def number? (text : String) : Option UInt64 :=
  (Decimal.bounded? UInt64.size text.toList).map UInt64.ofNat

/-- Gives an option its value. -/
def Given.assign (g : Given) (s : Setting) (value : String) : Except UsageError Given := do
  let g ← g.mark (.setting s)
  match s with
  | .config => if value.isEmpty then throw .missingValue else pure { g with config := some value }
  | .interval =>
    match number? value with
    | some n => pure { g with interval := some n }
    | Option.none => throw .badNumber
  | .nodeName => pure { g with nodeName := some value }

/-- Looks at the value of the pending option, which must have come. -/
def Given.settle (g : Given) : Except UsageError Given :=
  match g.pending with
  | Option.none => .ok g
  | some (_, Option.none) => .error .missingValue
  | some (s, some value) => { g with pending := Option.none }.assign s value

/-! ## Single arguments -/

/-- An option stands there, with the value that is joined to it, if there is one. -/
def Given.meet (level : Option CommandName) (g : Given) (s : Switch) (joined : Option String) :
    Except UsageAnswer Given := do
  let g ← g.settle.mapError .error
  match s with
  | .help => throw (.help (level.map CommandName.text))
  | .version => throw .version
  | .verbose | .synthetic => (g.mark s).mapError .error
  | .setting setting =>
    match joined with
    | some value => (g.assign setting value).mapError .error
    | Option.none => pure { g with pending := some (setting, Option.none) }

/-- Takes short options behind one dash.  What follows an option that takes a value is its value. -/
def shorts (level : Option CommandName) : List Char → Given → Except UsageAnswer Given
  | [], g => .ok g
  | c :: rest, g =>
    match short? level c with
    | Option.none => .error (.error .unknownArgument)
    | some (.setting s) =>
      let joined :=
        if rest.isEmpty then Option.none
        else some (String.ofList (if rest.head? = some '=' then rest.tail else rest))
      g.meet level (.setting s) joined
    | some s => do
      let g ← g.meet level s Option.none
      shorts level rest g

/-- Takes a long option, the text of which comes without its dashes. -/
def long (level : Option CommandName) (text : List Char) (g : Given) : Except UsageAnswer Given :=
  let name := String.ofList (text.takeWhile (· != '='))
  let joined :=
    if text.contains '=' then some (String.ofList ((text.dropWhile (· != '=')).drop 1))
    else Option.none
  match long? level name with
  | Option.none => .error (.error .unknownArgument)
  | some (.setting s) => g.meet level (.setting s) joined
  | some s => if joined.isSome then .error (.error .unneededValue) else g.meet level s Option.none

/-- The ways in which an argument can be read. -/
inductive Shape where
  /-- Two dashes alone, after which nothing is an option. -/
  | separator
  | long (text : List Char)
  | shorts (text : List Char)
  | word
  deriving DecidableEq, Repr

/-- How an argument is read. -/
def shapeOf (arg : String) : Shape :=
  match arg.toList with
  | ['-', '-'] => .separator
  | '-' :: '-' :: text => .long text
  | '-' :: c :: text => .shorts (c :: text)
  | _ => .word

/-! ## Whole command lines -/

/-- Takes the arguments behind a command.  No word belongs there except as the value of an
option. -/
def behindCommand (name : CommandName) : List String → Given → Except UsageAnswer Given
  | [], g => g.settle.mapError .error
  | arg :: rest, g =>
    match shapeOf arg with
    | .separator =>
      if rest.isEmpty then g.settle.mapError .error else .error (.error .unknownArgument)
    | .long text => do behindCommand name rest (← long (some name) text g)
    | .shorts text => do behindCommand name rest (← shorts (some name) text g)
    | .word =>
      match g.pending with
      | some (s, Option.none) => behindCommand name rest { g with pending := some (s, some arg) }
      | _ => .error (.error .unknownArgument)

/-- The command with the options given behind it. -/
def commandOf (name : CommandName) (g : Given) : Command :=
  match name with
  | .run => .run g.config g.interval g.nodeName (g.given.contains .synthetic)
  | .config => .config g.config

/-- The answer to a call for help on the commands named. -/
def helpOn : List String → UsageAnswer
  | [] => .help none
  | [name] =>
    if (CommandName.ofString? name).isSome || name = "help" then .help (some name)
    else .error .unknownCommand
  | _ => .error .unknownCommand

/-- Takes the arguments before a command, and the command. -/
def beforeCommand : List String → Given → Except UsageAnswer Invocation
  | [], g => .ok ⟨g.given.contains .verbose, none⟩
  | arg :: rest, g =>
    if arg = "help" then .error (helpOn rest)
    else
      match CommandName.ofString? arg with
      | some name => do
        let behind ← behindCommand name rest .none
        pure ⟨g.given.contains .verbose || behind.given.contains .verbose,
          some (commandOf name behind)⟩
      | none =>
        match shapeOf arg with
        | .separator =>
          match rest with
          | [] => .ok ⟨g.given.contains .verbose, none⟩
          | word :: _ =>
            .error (.error
              (if (CommandName.ofString? word).isSome || word = "help" then .unknownArgument
                else .unknownCommand))
        | .long text => do beforeCommand rest (← long none text g)
        | .shorts text => do beforeCommand rest (← shorts none text g)
        | .word => .error (.error .unknownCommand)

/-- Understands a command line. -/
def parse (args : List String) : Except UsageAnswer Invocation := beforeCommand args .none

end CommandLine

end NodeTelemetry
