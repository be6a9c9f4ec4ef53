import Wayfinding.Number.Reader
import Wayfinding.Proofs.Formula.Yield

/-!
# Scanning by bytes

* A `Scanner` is a reading with everything it keeps: the byte it stands at, the depth of the
  expression it is in and the operators it has read. The text is only ever sliced at bytes.
* `ScanM`: a step of it. It has a result or halts, and the scanner is changed in either case. A
  step that does not end is `none`.
* Whenever the byte or the depth is set, a `Visit` is written down. With it stands how many
  expressions are being read inside one another at that time, which no step goes by.
* `Scan.parse` reads the text of a `Scan`. It has no levels and no rounds that could run out: the
  loops go on as long as their conditions hold, and the depth is a counter that is raised and
  lowered.
-/

namespace Wayfinding

open String (utf8Len)

/-! ## 1. Slices -/

/-- The text before a byte and the text from there on, if no character is cut in two. -/
def splitAt? : List Char → Nat → Option (List Char × List Char)
  | [], bytes => if bytes = 0 then some ([], []) else none
  | c :: cs, bytes =>
    if bytes = 0 then some ([], c :: cs)
    else if c.utf8Size ≤ bytes then
      (splitAt? cs (bytes - c.utf8Size)).map fun (before, rest) => (c :: before, rest)
    else none

/-- The part of a text between two bytes. -/
def slice? (cs : List Char) (start stop : Nat) : Option (List Char) :=
  if start ≤ stop then
    (splitAt? cs start).bind fun (_, rest) => (splitAt? rest (stop - start)).map Prod.fst
  else none

theorem splitAt?_append (before rest : List Char) :
    splitAt? (before ++ rest) (utf8Len before) = some (before, rest) := by
  induction before with
  | nil => cases rest <;> rfl
  | cons c before ih =>
      have hpos := c.utf8Size_pos
      rw [List.cons_append, splitAt?, String.utf8Len_cons, if_neg (by omega), if_pos (by omega),
        Nat.add_sub_cancel, ih]
      rfl

/-- A text is split between two characters only. -/
theorem splitAt?_eq_some_iff {cs before rest : List Char} {bytes : Nat} :
    splitAt? cs bytes = some (before, rest) ↔ cs = before ++ rest ∧ bytes = utf8Len before := by
  constructor
  · intro h
    induction cs generalizing before bytes with
    | nil =>
        rw [splitAt?] at h
        split at h
        next hzero =>
          cases h
          exact ⟨rfl, hzero⟩
        next => cases h
    | cons c cs ih =>
        rw [splitAt?] at h
        split at h
        next hzero =>
          cases h
          exact ⟨rfl, hzero⟩
        next =>
          split at h
          next hle =>
            obtain ⟨⟨before', rest'⟩, hsplit, heq⟩ := Option.map_eq_some_iff.mp h
            cases heq
            obtain ⟨rfl, hbytes⟩ := ih hsplit
            exact ⟨rfl, by rw [String.utf8Len_cons, ← hbytes, Nat.sub_add_cancel hle]⟩
          next => cases h
  · rintro ⟨rfl, rfl⟩
    exact splitAt?_append before rest

/-- **A slice begins and ends between two characters.** -/
theorem slice?_eq_some_iff {cs part : List Char} {start stop : Nat} :
    slice? cs start stop = some part ↔ ∃ before rest, cs = before ++ (part ++ rest) ∧
      start = utf8Len before ∧ stop = utf8Len before + utf8Len part := by
  unfold slice?
  constructor
  · intro h
    split at h
    next hle =>
      obtain ⟨⟨before, tail⟩, hsplit, h⟩ := Option.bind_eq_some_iff.mp h
      obtain ⟨⟨part', rest⟩, hsplit', rfl⟩ := Option.map_eq_some_iff.mp h
      obtain ⟨rfl, rfl⟩ := splitAt?_eq_some_iff.mp hsplit
      obtain ⟨rfl, hstop⟩ := splitAt?_eq_some_iff.mp hsplit'
      exact ⟨before, rest, rfl, rfl, by rw [← hstop, Nat.add_sub_cancel' hle]⟩
    next => cases h
  · rintro ⟨before, rest, rfl, rfl, rfl⟩
    rw [if_pos (Nat.le_add_right _ _), splitAt?_append, Nat.add_sub_cancel_left]
    dsimp only [Option.bind_some]
    rw [splitAt?_append]
    rfl

/-! ## 2. Scanners -/

/-- Why a scan ends without a tree: the text has a fault, or no part between the two bytes, or the
scan is where it should never get to. -/
inductive ScanError where
  | fault (fault : Fault)
  | slice (start stop : Nat)
  | misled (position : Nat) (message : String)
deriving DecidableEq

/-- Where a scanner was, and how many expressions were being read inside one another there. -/
structure Visit where
  position : Nat
  depth : Nat
  active : Nat
deriving DecidableEq

/-- A reading that is under way: the byte it stands at, the depth of the expression it is in, the
operators and choices it has read, and where it was, the last place first. -/
structure Scanner where
  position : Nat
  depth : Nat
  operators : Nat
  visits : List Visit
deriving DecidableEq

namespace Scanner

/-- The beginning of a text. -/
def start : Scanner :=
  ⟨0, 0, 0, [⟨0, 0, 0⟩]⟩

/-- The place is written down. -/
def visit (s : Scanner) (active : Nat) : Scanner :=
  { s with visits := ⟨s.position, s.depth, active⟩ :: s.visits }

/-- The scanner stands at another byte. -/
def moveTo (s : Scanner) (active position : Nat) : Scanner :=
  { s with position }.visit active

/-- One more expression is being read. -/
def enter (s : Scanner) (active : Nat) : Scanner :=
  { s with depth := s.depth + 1 }.visit (active + 1)

/-- The expression is read, or has failed. -/
def leave (s : Scanner) (active : Nat) : Scanner :=
  { s with depth := s.depth - 1 }.visit active

end Scanner

/-- A step of a scan. -/
abbrev ScanM := ExceptT ScanError (StateT Scanner Option)

/-- What is scanned, and how faults are taken. -/
structure Scan where
  text : List Char
  policy : Policy

namespace Scan

variable (p : Scan) (active : Nat)

/-! ## 3. Steps that read no expression -/

/-- The text from here on. -/
def rest : ScanM (List Char) := do
  let s ← get
  match slice? p.text s.position (utf8Len p.text) with
  | some cs => return cs
  | none => throw (.slice s.position (utf8Len p.text))

/-- The next character. -/
def peek : ScanM (Option Char) := do
  return (← p.rest).head?

/-- Goes on by so many bytes. -/
def move (bytes : Nat) : ScanM Unit :=
  modify fun s => s.moveTo active (s.position + bytes)

/-- A strict scan halts, a lenient one goes on with nothing. -/
def refuse (error : ScanError) : ScanM Expr :=
  match p.policy with
  | .strict => throw error
  | .lenient => return .degenerate

/-- Gives up the rest of the text. -/
def abandon (cause : FaultCause) : ScanM Expr := do
  let s ← get
  set (s.moveTo active (utf8Len p.text))
  p.refuse (.fault ⟨s.position, cause⟩)

/-- Whether there may be one more operator, which is then counted. -/
def countOperator : ScanM Bool := do
  let s ← get
  if maxOperators ≤ s.operators then
    return false
  else
    set { s with operators := s.operators + 1 }
    return true

/-- How strongly the operator binds that stands here, if one does. -/
def power : ScanM Nat := do
  return ((← p.peek).bind Operator.ofSymbol?).elim 0 Operator.power

/-- Passes over the character `wanted`, or says that it is missing. -/
def expect (wanted : Char) : ScanM Bool := do
  if (← p.peek) = some wanted then
    move active 1
    return true
  else
    let found ← p.peek
    let s ← get
    let _ ← p.refuse (.fault ⟨s.position, .missing wanted found⟩)
    return false

/-- Passes over digits. -/
def skipDigits (p : Scan) (active : Nat) : ScanM Unit := do
  match ← p.peek with
  | some c =>
    if c.isDigit then
      move active 1
      p |>.skipDigits active
    else return ()
  | none => return ()
partial_fixpoint

/-- The number that was passed over. -/
def number (start : Nat) : ScanM Expr := do
  let s ← get
  match slice? p.text start s.position with
  | some digits =>
    match readFloat? digits with
    | some value => return .constant value
    | none => p.refuse (.misled start s!"invalid number '{String.ofList digits}'")
  | none => throw (.slice start s.position)

/-- Digits, and after a point at least one more. -/
def constant : ScanM Expr := do
  let start := (← get).position
  p.skipDigits active
  if (← p.peek) = some '.' then
    move active 1
    let fraction := (← get).position
    p.skipDigits active
    if (← get).position = fraction then
      p.refuse (.fault ⟨fraction, .noFraction⟩)
    else p.number start
  else p.number start

/-- The fault of a character that cannot stand where it was found. -/
def unexpected (position : Nat) (c : Char) : Fault :=
  ⟨position, if Text.isBlank c then .blank else .unexpected c⟩

/-! ## 4. Expressions -/

mutual

/-- An expression, unless it is too deep. The depth is lowered again even if it fails. -/
def expression (p : Scan) (active bound : Nat) :
    StateT Scanner Option (Except ScanError Expr) := do
  if maxNesting ≤ (← get).depth then
    p.abandon active .tooDeep
  else
    modify fun s => s.enter active
    -- A fault is a result here, so the depth is lowered after it as well.
    let result ← p |>.folded (active + 1) bound
    modify fun s => s.leave active
    return result
partial_fixpoint

/-- An operand and the operators after it. -/
def folded (p : Scan) (active bound : Nat) : ScanM Expr := do
  let left ← p |>.operand active
  p |>.fold active bound left
partial_fixpoint

/-- All operators that bind more strongly than `bound`. -/
def fold (p : Scan) (active bound : Nat) (left : Expr) : ScanM Expr := do
  if bound < (← p.power) then
    let joined ← p |>.join active left
    p |>.fold active bound joined
  else return left
partial_fixpoint

/-- The operator that stands here and its right operand. -/
def join (p : Scan) (active : Nat) (left : Expr) : ScanM Expr := do
  let start := (← get).position
  match (← p.peek).bind Operator.ofSymbol? with
  | none => p.refuse (.misled start "expected an operator")
  | some op =>
    if ← countOperator then
      move active 1
      let right ← p |>.expression active op.power
      return .join op left right
    else p.abandon active .tooManyOperators
partial_fixpoint

/-- A part without an operator of its own. -/
def operand (p : Scan) (active : Nat) : ScanM Expr := do
  let start := (← get).position
  match ← p.rest with
  | [] => p.refuse (.fault ⟨start, .endOfFormula⟩)
  | c :: cs =>
    if c.isDigit then p.constant active
    else if c = 'G' then
      move active 1
      return .travelled
    else if c = 'H' then
      move active 1
      return .estimate
    else if c = 'i' ∧ cs.head? = some 'f' then p |>.choice active
    else if c = '(' then p |>.group active
    else match Operator.ofSymbol? c with
      | some op =>
        match p.policy with
        | .strict => throw (.fault ⟨start, .operator c⟩)
        | .lenient =>
          move active 1
          p |>.expression active op.power
      | none =>
        move active c.utf8Size
        p.refuse (.fault (unexpected start c))
partial_fixpoint

/-- An expression in parentheses. -/
def group (p : Scan) (active : Nat) : ScanM Expr := do
  move active 1
  let inner ← p |>.expression active 0
  if ← p.expect active ')' then return inner else return .degenerate
partial_fixpoint

/-- A choice between two expressions. -/
def choice (p : Scan) (active : Nat) : ScanM Expr := do
  if ← countOperator then
    move active 2
    if ← p.expect active '(' then
      let condition ← p |>.expression active 0
      let first ← p.expect active ','
      let whenTrue ← p |>.expression active 0
      let second ← p.expect active ','
      let whenFalse ← p |>.expression active 0
      let closed ← p.expect active ')'
      return if first && second && closed then .choose condition whenTrue whenFalse else .degenerate
    else return .degenerate
  else p.abandon active .tooManyOperators
partial_fixpoint

end

/-- The expression at the beginning of a text, and nothing behind it if the policy is strict. -/
def parse : ScanM Expr := do
  let tree ← p.expression 0 0
  match p.policy with
  | .lenient => return tree
  | .strict =>
    match ← p.peek with
    | some c => throw (.fault (unexpected (← get).position c))
    | none => return tree

end Scan

/-- Scans a text from its beginning on. -/
def scan (policy : Policy) (source : String) : Option (Except ScanError Expr × Scanner) :=
  (Scan.parse ⟨source.toList, policy⟩).run.run .start

end Wayfinding
