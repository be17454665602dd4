/-!
# Arguments

The forms of the arguments of a command line, and how a command reads them one after
another.  An argument after `--` is never an option.  The first argument that is out of
place decides, as does the first one that asks for help or for the version.
-/

namespace EvidenceSynthesis.CommandLine

/-- The form of an argument. -/
inductive Argument where
  /-- The end of the options. -/
  | separator
  /-- An option or flag, maybe with a value behind an equals sign. -/
  | long (name : String) (value : Option String)
  /-- Flags of one letter each. -/
  | short (letters : List Char)
  /-- Anything else. -/
  | plain (text : String)
  deriving Repr, DecidableEq

/-- The form of a text. -/
def Argument.ofText (s : String) : Argument :=
  match s.toList with
  | ['-', '-'] => .separator
  | '-' :: '-' :: rest =>
    match rest.span (· != '=') with
    | (name, []) => .long (String.ofList name) none
    | (name, _ :: value) => .long (String.ofList name) (some (String.ofList value))
  | '-' :: c :: rest => .short (c :: rest)
  | _ => .plain s

/-- Why no command is read from a command line. -/
inductive Halt where
  /-- The command line is wrong. -/
  | usage (reason : String)
  /-- Help is asked for. -/
  | help
  /-- The version is asked for. -/
  | version
  deriving Repr, DecidableEq

/-! ### Flags that stand anywhere -/

/-- A flag that may stand before and behind the name of a command. -/
inductive GlobalFlag where
  | verbose
  | quiet
  | help
  | version
  deriving Repr, DecidableEq

namespace GlobalFlag

/-- The flag of a long name. -/
def ofName? (name : String) : Option GlobalFlag :=
  match name with
  | "verbose" => some verbose
  | "quiet" => some quiet
  | "help" => some help
  | "version" => some version
  | _ => none

/-- The flag of a letter. -/
def ofLetter? (letter : Char) : Option GlobalFlag :=
  match letter with
  | 'v' => some verbose
  | 'h' => some help
  | 'V' => some version
  | _ => none

end GlobalFlag

/-- How much a program is to say of its work. -/
structure Verbosity where
  verbose : Bool
  quiet : Bool
  deriving Repr, DecidableEq

namespace Verbosity

/-- What holds without flags. -/
def standard : Verbosity := ⟨false, false⟩

/-- What holds when either of two holds. -/
def join (a b : Verbosity) : Verbosity :=
  ⟨a.verbose || b.verbose, a.quiet || b.quiet⟩

/-- Takes a flag into account, which may be given once. -/
def raise (verbosity : Verbosity) : GlobalFlag → Except Halt Verbosity
  | .help => .error .help
  | .version => .error .version
  | .verbose =>
    if verbosity.verbose then .error (.usage "--verbose is given twice")
    else .ok { verbosity with verbose := true }
  | .quiet =>
    if verbosity.quiet then .error (.usage "--quiet is given twice")
    else .ok { verbosity with quiet := true }

/-- Takes a flag of one letter into account. -/
def raiseLetter (versionKnown : Bool) (verbosity : Verbosity) (letter : Char) :
    Except Halt Verbosity :=
  match GlobalFlag.ofLetter? letter with
  | some .version => if versionKnown then .error .version else .error (.usage "unknown flag")
  | some flag => verbosity.raise flag
  | none => .error (.usage s!"unknown flag -{letter}")

/-- Takes a flag with a long name into account. -/
def raiseName (versionKnown : Bool) (verbosity : Verbosity) (name : String)
    (value : Option String) : Except Halt Verbosity :=
  match GlobalFlag.ofName? name, value with
  | some .version, none =>
    if versionKnown then .error .version else .error (.usage "unknown option --version")
  | some flag, none => verbosity.raise flag
  | some _, some _ => .error (.usage s!"--{name} takes no value")
  | none, _ => .error (.usage s!"unknown option --{name}")

end Verbosity

/-! ### Forms of commands -/

/-- What a command takes; its arguments are given to a draft one by one. -/
structure Form (δ : Type) where
  /-- The draft without arguments. -/
  blank : δ
  /-- Options with a value; none comes of a value that the option does not take. -/
  options : List (String × (String → δ → Option δ))
  /-- Options without a value. -/
  switches : List (String × (δ → δ))
  /-- Arguments that are told apart by their order. -/
  places : List (String → δ → Option δ)

/-- How far the arguments of a command are read. -/
structure Progress (δ : Type) where
  draft : δ
  verbosity : Verbosity
  /-- The options and switches that were given. -/
  given : List String
  /-- The number of arguments that were told apart by their order. -/
  placed : Nat

namespace Form

variable {δ : Type}

/-- Notes that an option is given, which may happen once. -/
def note (name : String) (progress : Progress δ) : Except Halt (Progress δ) :=
  if name ∈ progress.given then .error (.usage s!"--{name} is given twice")
  else .ok { progress with given := name :: progress.given }

/-- Takes the value of an option into account. -/
def giveOption (name : String) (give : String → δ → Option δ) (value : String)
    (progress : Progress δ) : Except Halt (Progress δ) := do
  let progress ← note name progress
  match give value progress.draft with
  | some draft => return { progress with draft }
  | none => throw (.usage s!"invalid value for --{name}")

/-- Takes a switch into account. -/
def giveSwitch (name : String) (give : δ → δ) (progress : Progress δ) :
    Except Halt (Progress δ) := do
  let progress ← note name progress
  return { progress with draft := give progress.draft }

/-- Takes an argument at the next place into account. -/
def givePlace (form : Form δ) (text : String) (progress : Progress δ) :
    Except Halt (Progress δ) :=
  match form.places[progress.placed]? with
  | none => .error (.usage s!"unexpected argument {text}")
  | some give =>
    match give text progress.draft with
    | some draft => .ok { progress with draft, placed := progress.placed + 1 }
    | none => .error (.usage s!"invalid value {text}")

/-- Takes flags of one letter each into account. -/
def giveLetters (letters : List Char) (progress : Progress δ) : Except Halt (Progress δ) := do
  let verbosity ← letters.foldlM (Verbosity.raiseLetter false) progress.verbosity
  return { progress with verbosity }

/-- Whether an argument has the form of an option, so that it is no value of one. -/
def isOption (s : String) : Bool :=
  match Argument.ofText s with
  | .plain _ => false
  | _ => true

/-- Takes a flag or switch with a long name into account. -/
def giveName (form : Form δ) (name : String) (value : Option String)
    (progress : Progress δ) : Except Halt (Progress δ) :=
  match form.switches.lookup name, value with
  | some give, none => giveSwitch name give progress
  | some _, some _ => .error (.usage s!"--{name} takes no value")
  | none, _ =>
    (progress.verbosity.raiseName false name value).map fun verbosity =>
      { progress with verbosity }

/-- Reads the remaining arguments of a command. -/
def readFrom (form : Form δ) (progress : Progress δ) : List String → Except Halt (Progress δ)
  | [] => .ok progress
  | argument :: rest =>
    match Argument.ofText argument with
    | .separator => rest.foldlM (fun progress text => form.givePlace text progress) progress
    | .plain text =>
      match form.givePlace text progress with
      | .ok progress => form.readFrom progress rest
      | .error halt => .error halt
    | .short letters =>
      match giveLetters letters progress with
      | .ok progress => form.readFrom progress rest
      | .error halt => .error halt
    | .long name value =>
      match form.options.lookup name with
      | none =>
        match form.giveName name value progress with
        | .ok progress => form.readFrom progress rest
        | .error halt => .error halt
      | some give =>
        match value, rest with
        | some value, rest =>
          match giveOption name give value progress with
          | .ok progress => form.readFrom progress rest
          | .error halt => .error halt
        | none, value :: rest =>
          if isOption value then .error (.usage s!"--{name} needs a value")
          else
            match giveOption name give value progress with
            | .ok progress => form.readFrom progress rest
            | .error halt => .error halt
        | none, [] => .error (.usage s!"--{name} needs a value")

/-- Reads the arguments of a command. -/
def read (form : Form δ) (arguments : List String) : Except Halt (Progress δ) :=
  form.readFrom ⟨form.blank, .standard, [], 0⟩ arguments

end Form

end EvidenceSynthesis.CommandLine
