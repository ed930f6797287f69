import FabricPaths.CommandLine.Grammar

/-!
# Command line options

How a list of arguments is divided among options and positional arguments.
Short flags may be combined, and an option that takes a value takes the plain
argument behind it. Positional arguments are filled in order, as many at a time
as there are plain arguments in a row. An option or a positional argument whose
value is `--` is given without a value.
-/

namespace FabricPaths.CommandLine

variable {σ : Type}

/-- What was read so far. -/
structure Reading (σ : Type) where
  /-- The settings. -/
  settings : σ
  /-- The positional arguments that are still to come. -/
  awaited : List (Positional σ)
  /-- Arguments that nothing was done with. -/
  extras : List String

/-- The message about an option. -/
def optionMessage (o : Switch σ) (text : String) : Refusal :=
  .wrong ("argument " ++ "/".intercalate o.names ++ ": " ++ text)

/-- The value among the arguments of an option or positional. One `--` is left
out, and where it stands alone there is no value. -/
def soleValue (args : List String) : Option String := (args.erase "--").head?

/-- Does what an option does. -/
def apply (o : Switch σ) (args : List String) (settings : σ) : Except Refusal σ :=
  match o.effect with
  | .help => .error .help
  | .flag change => .ok (change settings)
  | .value change => .ok (change (soleValue args) settings)

/-- The options of a combination of short flags and the arguments of the last. -/
def unfoldFlags (x : Grammar σ) (o : Switch σ) (name : String) :
    (attached : List Char) → Except Refusal (List (Switch σ × List String))
  | [] => .ok [(o, [])]
  | c :: rest =>
    match o.effect with
    | .value _ => .ok [(o, [String.ofList (c :: rest)])]
    | _ =>
      let ignored := optionMessage o
        s!"ignored explicit argument {Text.quoted (String.ofList (c :: rest))}"
      if name.startsWith "--" then .error ignored
      else
        match x.named? (String.ofList ['-', c]) with
        | none => .error ignored
        | some (next, nextName) => do
          return (o, []) :: (← unfoldFlags x next nextName rest)

/-- Reads an option and returns the arguments behind it. -/
def readOption (x : Grammar σ) (r : Reading σ) (c : Candidate σ) (rest : List (Token σ)) :
    Except Refusal (Reading σ × List (Token σ)) :=
  match c.option with
  | none => .ok ({ r with extras := r.extras ++ [c.argument] }, rest)
  | some (o, name) => do
    let (uses, rest) ← match c.attached, o.effect, rest with
      | some value, .value _, _ => pure ([(o, [value])], rest)
      | some "", _, _ => .error (optionMessage o "ignored explicit argument ''")
      | some value, _, _ => do
        let uses ← unfoldFlags x o name value.toList
        match uses.getLast?, rest with
        | some (⟨_, .value _⟩, []), .plain s :: rest =>
          pure (uses.dropLast ++ (uses.getLast?.map fun u => (u.1, [s])).toList, rest)
        | some (last@⟨_, .value _⟩, []), _ => .error (optionMessage last "expected one argument")
        | _, _ => pure (uses, rest)
      | none, .value _, .plain s :: rest => pure ([(o, [s])], rest)
      | none, .value _, _ => .error (optionMessage o "expected one argument")
      | none, _, _ => pure ([(o, [])], rest)
    let settings ← uses.foldlM (fun settings (o, args) => apply o args settings) r.settings
    return ({ r with settings }, rest)

/-- The arguments of one positional: a plain argument with the marks around it. -/
def takeGroup (ts : List (Token σ)) : Option (List String × List (Token σ)) :=
  let before := ts.takeWhile Token.isMark
  match ts.dropWhile Token.isMark with
  | .plain s :: rest =>
    let after := rest.takeWhile Token.isMark
    some ((before.map Token.text) ++ s :: after.map Token.text, rest.dropWhile Token.isMark)
  | _ => none

/-- Reads as many positional arguments as there are. -/
def readPositionals (r : Reading σ) (ts : List (Token σ)) :
    List (Positional σ) → Reading σ × List (Token σ)
  | [] => ({ r with awaited := [] }, ts)
  | p :: ps =>
    match takeGroup ts with
    | none => ({ r with awaited := p :: ps }, ts)
    | some (args, rest) =>
      readPositionals { r with settings := p.change (soleValue args) r.settings } rest ps

/-- Divides arguments among options and positionals, in at most `rounds`
rounds. -/
def divide (x : Grammar σ) : (rounds : Nat) → Reading σ → List (Token σ) →
    Except Refusal (Reading σ)
  | 0, r, _ => .ok r
  | rounds + 1, r, ts =>
    match ts with
    | .option c :: rest => do
      let (r, rest) ← readOption x r c rest
      divide x rounds r rest
    | _ => do
      let (r, rest) := readPositionals r ts r.awaited
      if rest.any Token.isOption then
        let skipped := if rest.length < ts.length then [] else rest.takeWhile (!·.isOption)
        divide x rounds { r with extras := r.extras ++ skipped.map Token.text }
          (rest.drop skipped.length)
      else return { r with extras := r.extras ++ rest.map Token.text }

/-- The settings that a list of arguments asks for. -/
def Grammar.read (x : Grammar σ) (start : σ) (args : List String) : Except Refusal σ := do
  let ts ← x.tokens args
  let r ← divide x (2 * ts.length + 1) ⟨start, x.positionals, []⟩ ts
  if !r.awaited.isEmpty then
    let missing := ", ".intercalate (r.awaited.map (·.name))
    .error (.wrong s!"the following arguments are required: {missing}")
  else if !r.extras.isEmpty then
    .error (.wrong ("unrecognized arguments: " ++ " ".intercalate r.extras))
  else return r.settings

end FabricPaths.CommandLine
