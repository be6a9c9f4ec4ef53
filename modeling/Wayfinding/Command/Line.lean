import Wayfinding.Command.Grammar
import Wayfinding.Plan.Basic

/-!
# The command line of the program

There are two commands. `search` looks for a route in a map file, `check` evaluates a formula.
`Invocation.read` reads either from the words of a command line.
-/

namespace Wayfinding

/-- How a result is written. -/
inductive Format where
  | text
  | json
deriving DecidableEq, Repr

/-- What the program is asked to do: search the map in a file, or evaluate a formula. -/
inductive Task where
  | search (file : String) (request : Request) (showPath : Bool)
  | check (source : String) (policy : Policy) (cost estimate : Nat)
deriving DecidableEq

/-- A task and the format of its result. -/
structure Invocation where
  task : Task
  format : Format
deriving DecidableEq

namespace Command

/-! ## 1. Values of options -/

/-- A value that is one of a few words. -/
def wordValue {α : Type} (choices : List (String × α)) (word : String) : Except Stop α :=
  match choices.lookup word with
  | some value => .ok value
  | none => .error .invalidValue

/-- A value that a reader accepts. -/
def readValue {α : Type} (reader : List Char → Option α) (word : String) : Except Stop α :=
  match reader word.toList with
  | some value => .ok value
  | none => .error .unreadableValue

/-- The name of a file, which is not empty. -/
def fileValue (word : String) : Except Stop String :=
  if word = "" then .error .invalidValue else .ok word

/-- The words for the formats. -/
def formats : List (String × Format) :=
  [("text", .text), ("json", .json)]

/-- The words for the neighbourhoods. -/
def neighbourhoods : List (String × Neighbourhood) :=
  [("four", .four), ("eight", .eight)]

/-- The words for the metrics. -/
def metrics : List (String × Metric) :=
  [("manhattan", .manhattan), ("chebyshev", .chebyshev), ("zero", .zero)]

/-- The words for the presets; the weight of one is an option of its own. -/
def presets : List (String × (Float → Preset)) :=
  [("a-star", fun _ => .aStar), ("weighted", .weighted), ("greedy", fun _ => .greedy),
    ("dijkstra", fun _ => .dijkstra)]

/-- An option that stores its value in a field which is still empty. -/
def storing {σ α : Type} (name : String) (field : σ → Option α) (reader : String → Except Stop α)
    (store : σ → α → σ) : LongOption σ where
  name := name
  given := fun draft => (field draft).isSome
  action := .value fun word draft => (reader word).map (store draft)

/-- An option without a value. -/
def switching {σ : Type} (name : String) (field : σ → Bool) (set : σ → σ) : LongOption σ where
  name := name
  given := field
  action := .switch set

/-- An option that ends the reading. -/
def stopping {σ : Type} (name : String) (why : Stop) : LongOption σ where
  name := name
  given := fun _ => false
  action := .stop why

/-! ## 2. Before the command -/

/-- The format, if it is given before the command. -/
structure MainDraft where
  format : Option Format := none

/-- The words before the command. -/
def mainLevel : Level MainDraft where
  options := [
    storing "format" MainDraft.format (wordValue formats) fun draft format =>
      { draft with format := some format },
    stopping "help" .help,
    stopping "version" .version]
  letters := [('h', .help), ('V', .version)]
  operand := none
  commands := ["search", "check", "help"]

/-! ## 3. Searching -/

/-- The options of a search. -/
structure SearchDraft where
  format : Option Format := none
  map : Option String := none
  start : Option Cell := none
  goal : Option Cell := none
  formula : Option String := none
  preset : Option (Float → Preset) := none
  weight : Option Float := none
  neighbourhood : Option Neighbourhood := none
  metric : Option Metric := none
  lenient : Bool := false
  showPath : Bool := false

/-- The words after the command `search`. -/
def searchLevel : Level SearchDraft where
  options := [
    storing "map" SearchDraft.map fileValue fun draft map => { draft with map := some map },
    storing "start" SearchDraft.start (readValue Cell.read?) fun draft start =>
      { draft with start := some start },
    storing "goal" SearchDraft.goal (readValue Cell.read?) fun draft goal =>
      { draft with goal := some goal },
    storing "formula" SearchDraft.formula .ok fun draft formula =>
      { draft with formula := some formula },
    storing "algorithm" SearchDraft.preset (wordValue presets) fun draft preset =>
      { draft with preset := some preset },
    storing "weight" SearchDraft.weight (readValue readFloat?) fun draft weight =>
      { draft with weight := some weight },
    storing "connectivity" SearchDraft.neighbourhood (wordValue neighbourhoods)
      fun draft neighbourhood => { draft with neighbourhood := some neighbourhood },
    storing "heuristic" SearchDraft.metric (wordValue metrics) fun draft metric =>
      { draft with metric := some metric },
    switching "lenient" SearchDraft.lenient fun draft => { draft with lenient := true },
    switching "show-path" SearchDraft.showPath fun draft => { draft with showPath := true },
    storing "format" SearchDraft.format (wordValue formats) fun draft format =>
      { draft with format := some format },
    stopping "help" .help]
  letters := [('h', .help)]
  operand := none
  commands := []

/-- The policy that the option `--lenient` chooses. -/
def policyOf (lenient : Bool) : Policy :=
  if lenient then .lenient else .strict

/-- The weight of a weighted preset if none is given. -/
def defaultWeight : Float := 2

/-- The priority: a formula, or a preset with its weight. -/
def SearchDraft.priority (draft : SearchDraft) : PriorityRule :=
  match draft.formula with
  | some source => .formula source
  | none => .preset (draft.preset.getD (fun _ => .aStar) (draft.weight.getD defaultWeight))

/-- The search that the options ask for. A formula and a preset exclude each other, the map and both
ends must be given. -/
def SearchDraft.task (draft : SearchDraft) : Except Stop Task :=
  if draft.formula.isSome && draft.preset.isSome then .error .conflict
  else
    match draft.map, draft.start, draft.goal with
    | some map, some start, some goal =>
      .ok (.search map
        { start := start
          goal := goal
          priority := draft.priority
          policy := policyOf draft.lenient
          neighbourhood := draft.neighbourhood.getD .four
          metric := draft.metric.getD .manhattan }
        draft.showPath)
    | _, _, _ => .error .missingArgument

/-! ## 4. Checking -/

/-- The options and the operand of a check. -/
structure CheckDraft where
  format : Option Format := none
  formula : Option String := none
  lenient : Bool := false
  cost : Option Nat := none
  estimate : Option Nat := none

/-- The words after the command `check`. -/
def checkLevel : Level CheckDraft where
  options := [
    switching "lenient" CheckDraft.lenient fun draft => { draft with lenient := true },
    storing "g" CheckDraft.cost (readValue readNatural?) fun draft cost =>
      { draft with cost := some cost },
    storing "h" CheckDraft.estimate (readValue readNatural?) fun draft estimate =>
      { draft with estimate := some estimate },
    storing "format" CheckDraft.format (wordValue formats) fun draft format =>
      { draft with format := some format },
    stopping "help" .help]
  letters := [('h', .help)]
  operand := some fun word draft => { draft with formula := some word }
  commands := []

/-- The check that the options ask for. -/
def CheckDraft.task (draft : CheckDraft) : Except Stop Task :=
  match draft.formula with
  | some source =>
    .ok (.check source (policyOf draft.lenient) (draft.cost.getD 0) (draft.estimate.getD 0))
  | none => .error .missingArgument

/-! ## 5. The whole line -/

/-- What `help` answers: the words after it may name one command. -/
def helpStop : List String → Stop
  | [] => .help
  | [command] => if mainLevel.commands.contains command then .help else .unknownCommand
  | _ => .unknownCommand

/-- The task after a command, and the format if it is given there. -/
def readTask (command : String) (words : List String) : Except Stop (Task × Option Format) :=
  if command = "search" then do
    let draft ← searchLevel.readAll words {}
    let task ← draft.task
    .ok (task, draft.format)
  else if command = "check" then do
    let draft ← checkLevel.readAll words {}
    let task ← draft.task
    .ok (task, draft.format)
  else .error (helpStop words)

/-- Reads the words of a command line. A format after the command counts before one in front of it. -/
def read (words : List String) : Except Stop Invocation := do
  let (p, found) ← mainLevel.read words (mainLevel.begin {})
  match found with
  | some (command, rest) =>
    let (task, format) ← readTask command rest
    let p ← p.settle
    .ok ⟨task, (format.or p.draft.format).getD .text⟩
  | none =>
    let p ← p.settle
    if p.draft.format.isSome then .error .missingCommand else .error .nothingGiven

end Command

end Wayfinding
