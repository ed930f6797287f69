import FabricPaths.Text.DecimalDigit
import FabricPaths.Text.Quoted

/-!
# Command line grammars

The options and positional arguments that a program takes, and what a single
argument is taken for: an option, perhaps shortened and perhaps with a value
behind an equals sign, or a plain argument. What looks like a negative number
or holds a space is plain unless it names an option; all arguments behind `--`
are plain.
-/

namespace FabricPaths.CommandLine

/-- What an option does to the settings. -/
inductive Effect (σ : Type)
  /-- It asks for help. -/
  | help
  /-- It changes the settings. -/
  | flag (change : σ → σ)
  /-- It changes the settings by its value, or by the lack of one. -/
  | value (change : Option String → σ → σ)

/-- An option. -/
structure Switch (σ : Type) where
  /-- Its names, each with its hyphens. -/
  names : List String
  /-- What it does. -/
  effect : Effect σ

/-- A positional argument, which has to be given. -/
structure Positional (σ : Type) where
  /-- Its name. -/
  name : String
  /-- What it does to the settings. -/
  change : Option String → σ → σ

/-- The arguments that a program takes. -/
structure Grammar (σ : Type) where
  /-- Its options. -/
  options : List (Switch σ)
  /-- Its positional arguments. -/
  positionals : List (Positional σ)

/-- Why a list of arguments is not taken. -/
inductive Refusal
  /-- It is wrong, for a reason that is shown. -/
  | wrong (message : String)
  /-- Help was asked for. -/
  | help
deriving DecidableEq, Inhabited

/-- An argument that looks like an option. -/
structure Candidate (σ : Type) where
  /-- The argument as given. -/
  argument : String
  /-- The option, if there is one of the name, and the name. -/
  option : Option (Switch σ × String)
  /-- A value given with it. -/
  attached : Option String

/-- What an argument is taken for. -/
inductive Token (σ : Type)
  /-- An option or what looks like one. -/
  | option (c : Candidate σ)
  /-- The first `--`. -/
  | mark
  /-- Anything else. -/
  | plain (s : String)

variable {σ : Type}

namespace Token

/-- The argument. -/
def text : Token σ → String
  | option c => c.argument
  | mark => "--"
  | plain s => s

/-- Whether the argument looks like an option. -/
def isOption : Token σ → Bool
  | option _ => true
  | _ => false

/-- Whether the argument is the mark that ends the options. -/
def isMark : Token σ → Bool
  | mark => true
  | _ => false

end Token

namespace Grammar

/-- All names of options, with the options. -/
def names (x : Grammar σ) : List (Switch σ × String) :=
  x.options.flatMap fun o => o.names.map (o, ·)

/-- The option of a name. -/
def named? (x : Grammar σ) (name : String) : Option (Switch σ × String) :=
  x.names.find? fun o => o.2 == name

/-- Divides a text at its first equals sign. -/
def splitValue (s : String) : String × Option String :=
  let cs := s.toList
  let name := cs.takeWhile (· != '=')
  match cs.drop name.length with
  | [] => (s, none)
  | _ :: value => (String.ofList name, some (String.ofList value))

/-- The options that an argument may stand for in short, with their values. -/
def abbreviated (x : Grammar σ) (s : String) : List (Candidate σ) :=
  match s.toList with
  | '-' :: '-' :: _ =>
    let (start, value) := splitValue s
    (x.names.filter fun o => o.2.startsWith start).map fun o => ⟨s, some o, value⟩
  | '-' :: c :: rest =>
    x.names.filterMap fun o =>
      if o.2 == String.ofList ['-', c] then some ⟨s, some o, some (String.ofList rest)⟩
      else if o.2.startsWith s then some ⟨s, some o, none⟩
      else none
  | _ => []

/-- Digits, perhaps none. -/
def allDigits (cs : List Char) : Bool := cs.all Text.isDigit

/-- Whether a text is a negative number; one line feed may follow it. -/
def isNegativeNumber (s : String) : Bool :=
  match s.toList with
  | '-' :: cs =>
    let cs := if cs.getLast? == some '\n' then cs.dropLast else cs
    match cs.dropWhile Text.isDigit with
    | [] => !cs.isEmpty
    | '.' :: fraction => !fraction.isEmpty && allDigits fraction
    | _ => false
  | _ => false

/-- What an argument before any mark is taken for. -/
def classify (x : Grammar σ) (s : String) : Except Refusal (Token σ) :=
  if !s.startsWith "-" || s == "-" then .ok (.plain s)
  else
    match x.named? s with
    | some o => .ok (.option ⟨s, some o, none⟩)
    | none =>
      let (name, value) := splitValue s
      match (if value.isSome then x.named? name else none) with
      | some o => .ok (.option ⟨s, some o, value⟩)
      | none =>
        match x.abbreviated s with
        | [c] => .ok (.option c)
        | [] =>
          if isNegativeNumber s || s.toList.contains ' ' then .ok (.plain s)
          else .ok (.option ⟨s, none, none⟩)
        | cs =>
          let matching := ", ".intercalate (cs.filterMap fun c => c.option.map (·.2))
          .error (.wrong s!"ambiguous option: {s} could match {matching}")

/-- What the arguments are taken for. -/
def tokens (x : Grammar σ) : List String → Except Refusal (List (Token σ))
  | [] => .ok []
  | "--" :: rest => .ok (.mark :: rest.map .plain)
  | s :: rest => do
    let t ← x.classify s
    return t :: (← x.tokens rest)

end Grammar

end FabricPaths.CommandLine
