/-!
# The grammar of command lines

* A `Level` is what may be written after the program's name or after a command's: options, letters
  that stand for help or version, at most one operand, and commands. Reading it fills a draft.
* `Level.read` takes the words from left to right. The value of an option is either attached
  (`--name=value`) and used at once, or the next word. Such a word, and an operand, is held back
  until the next option or operand is accepted, or until the words end; `Progress.settle` uses it.
* After the word `--` every word is an operand. A command ends its level, and what is held back
  there stays so.
-/

namespace Wayfinding

/-- Why the reading of a command line ends without a command to run.

Help or the version is asked for, or nothing at all is given. An argument is unknown that is neither
an option nor wanted as an operand. A value is invalid if it is missing or none of those that an
option takes, and unreadable if it cannot be read as what it should be. An argument is missing if an
option must be given and is not; a conflict is an option given twice, or two that exclude each
other. There are too many values if one is attached to an option that takes none. The command is one
that there is not, or none is given. -/
inductive Stop where
  | help
  | version
  | nothingGiven
  | unknownArgument
  | invalidValue
  | unreadableValue
  | missingArgument
  | conflict
  | tooManyValues
  | unknownCommand
  | missingCommand
deriving DecidableEq, Repr

namespace Command

/-! ## 1. Levels -/

/-- What an option does with a draft: it takes no value, or one, or it ends the reading. -/
inductive Action (σ : Type) where
  | switch (apply : σ → σ)
  | value (apply : String → σ → Except Stop σ)
  | stop (why : Stop)

/-- An option, written with two hyphens before its name. `given` says whether a draft has it
already. -/
structure LongOption (σ : Type) where
  name : String
  given : σ → Bool
  action : Action σ

/-- What may be written between two commands. The letters are for a single hyphen; `operand` is what
an operand does, if one is wanted. -/
structure Level (σ : Type) where
  options : List (LongOption σ)
  letters : List (Char × Stop)
  operand : Option (String → σ → σ)
  commands : List String

variable {σ : Type}

/-- Uses an option with its value, unless it was given before. -/
def LongOption.use (long : LongOption σ) (value : String) (draft : σ) : Except Stop σ :=
  if long.given draft then .error .conflict
  else
    match long.action with
    | .switch apply => .ok (apply draft)
    | .value apply => apply value draft
    | .stop why => .error why

/-! ## 2. What is held back -/

/-- What was read but not used yet: nothing, an option whose value is the next word, an option with
its value, or an operand. -/
inductive Held (σ : Type) where
  | nothing
  | awaiting (long : LongOption σ)
  | valued (long : LongOption σ) (value : String)
  | operand (apply : σ → σ)

/-- The reading of a level so far, whether an operand is still wanted, and whether the word `--` was
read, so that only operands follow. -/
structure Progress (σ : Type) where
  draft : σ
  held : Held σ
  operandWanted : Bool
  onlyOperands : Bool

namespace Progress

/-- Uses what was held back. An option without its value is refused. -/
def settle (p : Progress σ) : Except Stop (Progress σ) :=
  match p.held with
  | .nothing => .ok p
  | .awaiting _ => .error .invalidValue
  | .valued long value => do
    let draft ← long.use value p.draft
    .ok { p with draft, held := .nothing }
  | .operand apply => .ok { p with draft := apply p.draft, held := .nothing }

/-- Whether the next word is the value of an option. -/
def isAwaiting (p : Progress σ) : Bool :=
  match p.held with
  | .awaiting _ => true
  | _ => false

/-- Uses an option at once. -/
def use (p : Progress σ) (long : LongOption σ) (value : String) : Except Stop (Progress σ) := do
  let p ← p.settle
  let draft ← long.use value p.draft
  .ok { p with draft }

end Progress

/-! ## 3. Words -/

namespace Level

/-- The reading of a level before its first word. -/
def begin (level : Level σ) (draft : σ) : Progress σ :=
  ⟨draft, .nothing, level.operand.isSome, false⟩

/-- Why an operand is refused that is not wanted. Where there are commands it is taken for a misspelt
one, unless it is the name of a command that stands after `--`. -/
def surplus (level : Level σ) (p : Progress σ) (word : String) : Stop :=
  if level.commands = [] then .unknownArgument
  else if p.onlyOperands && level.commands.contains word then .unknownArgument
  else .unknownCommand

/-- An operand. -/
def readOperand (level : Level σ) (word : String) (p : Progress σ) : Except Stop (Progress σ) :=
  match level.operand with
  | some apply =>
    if p.operandWanted then do
      let p ← p.settle
      .ok { p with held := .operand (apply word), operandWanted := false }
    else .error (level.surplus p word)
  | none => .error (level.surplus p word)

/-- A word with two hyphens: the name of an option and the value attached to it. -/
def readLong (level : Level σ) (name : String) (attached : Option String) (p : Progress σ) :
    Except Stop (Progress σ) :=
  match level.options.find? (·.name == name) with
  | none => .error .unknownArgument
  | some long =>
    match long.action, attached with
    | .value _, some value => p.use long value
    | .value _, none => do
      let p ← p.settle
      .ok { p with held := .awaiting long }
    | _, some _ => .error .tooManyValues
    | _, none => p.use long ""

/-- A word with one hyphen and a letter after it. -/
def readLetter (level : Level σ) (letter : Char) (p : Progress σ) : Except Stop (Progress σ) :=
  match level.letters.lookup letter with
  | none => .error .unknownArgument
  | some why => do
    let _ ← p.settle
    .error why

/-- A word that is no command. -/
def readWord (level : Level σ) (word : String) (p : Progress σ) : Except Stop (Progress σ) :=
  if p.onlyOperands then level.readOperand word p
  else
    match word.toList with
    | ['-', '-'] => .ok { p with onlyOperands := true }
    | '-' :: '-' :: rest =>
      let attached := match rest.dropWhile (· ≠ '=') with
        | [] => none
        | _ :: value => some (String.ofList value)
      level.readLong (String.ofList (rest.takeWhile (· ≠ '='))) attached p
    | '-' :: letter :: _ => level.readLetter letter p
    | _ =>
      match p.held with
      | .awaiting long => .ok { p with held := .valued long word }
      | _ => level.readOperand word p

/-- Reads words up to a command; that command and the words after it are left. -/
def read (level : Level σ) : List String → Progress σ →
    Except Stop (Progress σ × Option (String × List String))
  | [], p => .ok (p, none)
  | word :: words, p =>
    if level.commands.contains word && !p.onlyOperands && !p.isAwaiting then
      .ok (p, some (word, words))
    else
      match level.readWord word p with
      | .error why => .error why
      | .ok p => level.read words p

/-- Reads all words of a level that has no commands. -/
def readAll (level : Level σ) (words : List String) (draft : σ) : Except Stop σ := do
  let (p, _) ← level.read words (level.begin draft)
  let p ← p.settle
  .ok p.draft

end Level

end Command

end Wayfinding
