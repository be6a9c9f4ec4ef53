/-!
# The frontier

* An `Entry` proposes a cell at a travelled cost. `Entry.before` is the order of expansion: the
  lower priority, then the larger cost, then the smaller serial number.
* Priorities are compared as numbers, so the two zeros are equal. What is no number comes after
  every number and is equal to itself.
* A frontier is a list of entries in that order. `Frontier.push` inserts an entry; the next one to
  expand is the head.
-/

namespace Wayfinding

/-- The first priority is the lower one. -/
def precedes (a b : Float) : Bool :=
  !a.isNaN && (b.isNaN || decide (a < b))

/-- A cell to expand, among `n` cells. The serial number says how many entries were made before this
one. -/
structure Entry (n : Nat) where
  priority : Float
  cost : Nat
  serial : Nat
  cell : Fin n
deriving DecidableEq

/-- The first entry is expanded before the second one. -/
def Entry.before {n : Nat} (a b : Entry n) : Bool :=
  if precedes a.priority b.priority then true
  else if precedes b.priority a.priority then false
  else if a.cost = b.cost then decide (a.serial < b.serial)
  else decide (b.cost < a.cost)

/-- Entries in the order of their expansion. -/
abbrev Frontier (n : Nat) := List (Entry n)

namespace Frontier

variable {n : Nat}

/-- Inserts an entry before the first one that it comes before. -/
def push (entry : Entry n) : Frontier n → Frontier n
  | [] => [entry]
  | first :: others =>
    if entry.before first then entry :: first :: others else first :: push entry others

theorem push_perm (entry : Entry n) (frontier : Frontier n) :
    (push entry frontier).Perm (entry :: frontier) := by
  induction frontier with
  | nil => exact .refl _
  | cons first others ih =>
    rw [push]
    split
    · exact .refl _
    · exact (ih.cons first).trans (.swap ..)

@[simp] theorem mem_push {entry other : Entry n} {frontier : Frontier n} :
    other ∈ push entry frontier ↔ other = entry ∨ other ∈ frontier :=
  (push_perm entry frontier).mem_iff.trans List.mem_cons

@[simp] theorem length_push (entry : Entry n) (frontier : Frontier n) :
    (push entry frontier).length = frontier.length + 1 :=
  (push_perm entry frontier).length_eq

end Frontier

end Wayfinding
