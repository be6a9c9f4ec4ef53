import Wayfinding.Proofs.Formula.Soundness

/-!
# Misplaced characters

* Every phrase of the grammar ends with a character that ends an operand
  (`Derives.closesOperand`).
* `Awaits k fault`: the fault lies at the cursor, or behind a character after which an operand has to
  stand.
* `awaitsAll`: where a strict reading of an expression ends with a misplaced character, an operand is
  awaited. So what stands before such a fault is never a phrase.
-/

namespace Wayfinding

open String (utf8Len)

/-! ## 1. The ends of operands -/

/-- The fault is a character that cannot stand where it was found, a blank perhaps. -/
def Fault.IsMisplaced (fault : Fault) : Prop :=
  match fault.cause with
  | .blank => True
  | .unexpected _ => True
  | _ => False

theorem isMisplaced_unexpected (k : Cursor) (c : Char) : (k.unexpected c).IsMisplaced := by
  unfold Cursor.unexpected Cursor.fault Fault.IsMisplaced
  by_cases hblank : Text.isBlank c = true
  · rw [if_pos hblank]
    exact trivial
  · rw [if_neg hblank]
    exact trivial

/-- A character behind which an operand begins. -/
def StartsOperand (c : Char) : Prop :=
  c = '(' ∨ c = ',' ∨ ∃ op : Operator, c = op.symbol

/-- A character with which an operand ends. -/
def EndsOperand (c : Char) : Prop :=
  c.isDigit = true ∨ c = 'G' ∨ c = 'H' ∨ c = ')'

theorem not_endsOperand {c : Char} (h : StartsOperand c) : ¬ EndsOperand c := by
  have hnone : ∀ op : Operator, ¬ EndsOperand op.symbol := by
    intro op
    cases op <;> unfold EndsOperand <;> decide
  rcases h with rfl | rfl | ⟨op, rfl⟩
  · unfold EndsOperand
    decide
  · unfold EndsOperand
    decide
  · exact hnone op

/-- The last character of the text ends an operand. -/
def ClosesOperand (text : List Char) : Prop :=
  ∃ before c, text = before ++ [c] ∧ EndsOperand c

theorem ClosesOperand.behind {r : List Char} (h : ClosesOperand r) (l : List Char) (c : Char) :
    ClosesOperand (l ++ c :: r) := by
  obtain ⟨before, last, rfl, hlast⟩ := h
  exact ⟨l ++ c :: before, last, by rw [List.append_assoc, List.cons_append], hlast⟩

theorem closesOperand_digits {digits : List Char} (hne : digits ≠ [])
    (hd : ∀ c ∈ digits, c.isDigit = true) : ClosesOperand digits :=
  ⟨digits.dropLast, digits.getLast hne, (List.dropLast_append_getLast hne).symm,
    Or.inl (hd _ (List.getLast_mem hne))⟩

/-- Every phrase ends as an operand does. -/
theorem Derives.closesOperand {phrase : Phrase} {text : List Char} {tree : Expr} {n : Nat}
    (h : Derives phrase text tree n) : ClosesOperand text := by
  induction h with
  | literal hlit =>
      cases hlit with
      | whole hne hd => exact closesOperand_digits hne hd
      | fractional _ _ hne hd => exact (closesOperand_digits hne hd).behind _ _
  | travelled => exact ⟨[], 'G', rfl, Or.inr (Or.inl rfl)⟩
  | estimate => exact ⟨[], 'H', rfl, Or.inr (Or.inr (Or.inl rfl))⟩
  | group _ _ => exact ⟨_, ')', rfl, Or.inr (Or.inr (Or.inr rfl))⟩
  | choice _ _ _ _ _ _ => exact ⟨_, ')', rfl, Or.inr (Or.inr (Or.inr rfl))⟩
  | ofAtom _ ih => exact ih
  | ofProduct _ ih => exact ih
  | ofSum _ ih => exact ih
  | times _ _ _ ih => exact ih.behind _ _
  | plus _ _ _ ih => exact ih.behind _ _
  | minus _ _ _ ih => exact ih.behind _ _
  | less _ _ _ ih => exact ih.behind _ _

/-! ## 2. Where a misplaced character is found -/

/-- The fault lies behind a character after which an operand has to stand. -/
def Behind (k : Cursor) (fault : Fault) : Prop :=
  ∃ before c rest, k.rest = before ++ [c] ++ rest ∧ StartsOperand c ∧
    fault.position = k.position + utf8Len (before ++ [c])

/-- The fault lies where an operand has to stand. -/
def Awaits (k : Cursor) (fault : Fault) : Prop :=
  fault.position = k.position ∨ Behind k fault

section Awaits

variable {k k' : Cursor} {text before : List Char} {c : Char} {count : Nat} {fault : Fault}

theorem Behind.after (h : Behind k' fault) (hpasses : Passes k text count k') : Behind k fault := by
  obtain ⟨before, c, rest, hrest, hc, hposition⟩ := h
  refine ⟨text ++ before, c, rest, ?_, hc, ?_⟩
  · rw [hpasses.rest, hrest]
    simp only [List.append_assoc]
  · rw [hposition, hpasses.position, List.append_assoc, String.utf8Len_append text, Nat.add_assoc]

/-- Behind a character that starts an operand, one is awaited. -/
theorem Awaits.after (h : Awaits k' fault) (hpasses : Passes k (before ++ [c]) count k')
    (hc : StartsOperand c) : Behind k fault := by
  rcases h with hposition | hbehind
  · exact ⟨before, c, k'.rest, hpasses.rest, hc, hposition.trans hpasses.position⟩
  · exact hbehind.after hpasses

end Awaits

namespace Expr

variable {levels bound rounds : Nat} {k : Cursor} {tree left : Expr} {fault : Fault}
  {op : Operator} {rest : List Char}

/-- Where a strict reading of an expression ends with a misplaced character, an operand is awaited. -/
def AwaitsAll (levels : Nat) : Prop :=
  ∀ {bound : Nat} {k : Cursor} {fault : Fault}, expression .strict levels bound k = .error fault →
    fault.IsMisplaced → Awaits k fault

theorem not_isMisplaced_expect {c : Char} (h : k.expect .strict c = .error fault) :
    ¬ fault.IsMisplaced := by
  unfold Cursor.expect at h
  by_cases hhead : k.rest.head? = some c
  · rw [if_pos hhead] at h
    cases h
  · rw [if_neg hhead] at h
    cases h
    exact id

theorem not_isMisplaced_readConstant (h : readConstant .strict k = .error fault) :
    ¬ fault.IsMisplaced := by
  unfold readConstant at h
  dsimp only at h
  split at h
  · split at h
    · cases h
      exact id
    · cases h
  · cases h

theorem awaits_readUntil {closing : Char} (hin : AwaitsAll levels)
    (h : readUntil .strict closing (expression .strict levels) k = .error fault)
    (hm : fault.IsMisplaced) : Awaits k fault := by
  rcases bind_eq_error h with h | ⟨⟨tree, k₁⟩, -, h⟩
  · exact hin h hm
  · rcases bind_eq_error h with h | ⟨⟨closed, k₂⟩, -, h⟩
    · exact absurd hm (not_isMisplaced_expect h)
    · cases h

theorem awaits_readBranches (hin : AwaitsAll levels)
    (h : readBranches .strict (expression .strict levels) k = .error fault)
    (hm : fault.IsMisplaced) : Awaits k fault := by
  have hcomma : StartsOperand ',' := Or.inr (Or.inl rfl)
  rcases bind_eq_error h with h | ⟨⟨condition, k₁⟩, hcondition, h⟩
  · exact awaits_readUntil hin h hm
  obtain ⟨c, _, hpassesc, -⟩ := readUntil_sound (soundAll levels) hcondition
  rcases bind_eq_error h with h | ⟨⟨whenTrue, k₂⟩, hwhenTrue, h⟩
  · exact Or.inr ((awaits_readUntil hin h hm).after hpassesc hcomma)
  obtain ⟨t, _, hpassest, -⟩ := readUntil_sound (soundAll levels) hwhenTrue
  rcases bind_eq_error h with h | ⟨⟨whenFalse, k₃⟩, -, h⟩
  · exact Or.inr (((awaits_readUntil hin h hm).after hpassest hcomma).after hpassesc)
  · cases h

theorem behind_readChoice (hin : AwaitsAll levels) (hrest : k.rest = 'i' :: 'f' :: rest)
    (h : readChoice .strict (expression .strict levels) k = .error fault)
    (hm : fault.IsMisplaced) : Behind k fault := by
  unfold readChoice at h
  by_cases hlt : k.operators < maxOperators
  · simp only [if_pos hlt] at h
    rcases bind_eq_error h with h | ⟨⟨opened, k₁⟩, hopened, h⟩
    · exact absurd hm (not_isMisplaced_expect h)
    obtain ⟨rfl, hpasses⟩ := Passes.expect hopened
    exact (awaits_readBranches hin h hm).after (passes_choice hrest hlt hpasses) (Or.inl rfl)
  · rw [if_neg hlt] at h
    cases h
    exact absurd hm id

theorem awaits_readOperand (hin : AwaitsAll levels)
    (h : readOperand .strict (expression .strict levels) k = .error fault)
    (hm : fault.IsMisplaced) : Awaits k fault := by
  obtain ⟨part, hpart, hat⟩ := exists_operandAt k
  rw [hpart] at h
  cases hat with
  | nothing _ =>
      cases h
      exact absurd hm id
  | constant _ _ => exact absurd hm (not_isMisplaced_readConstant h)
  | travelled _ => cases h
  | estimate _ => cases h
  | choice hrest => exact Or.inr (behind_readChoice hin hrest h hm)
  | group hrest =>
      have hpasses : Passes k ([] ++ ['(']) 0 k.skip := .skip hrest
      exact Or.inr ((awaits_readUntil hin h hm).after hpasses (Or.inl rfl))
  | operator _ =>
      cases h
      exact absurd hm id
  | misplaced _ =>
      cases h
      exact Or.inl rfl

theorem behind_readOperator (hin : AwaitsAll levels) (hop : k.rest = op.symbol :: rest)
    (h : readOperator .strict (expression .strict levels) op left k = .error fault)
    (hm : fault.IsMisplaced) : Behind k fault := by
  unfold readOperator at h
  by_cases hlt : k.operators < maxOperators
  · simp only [if_pos hlt] at h
    have hpasses : Passes k ([] ++ [op.symbol]) 1 k.skip.countOperator :=
      .cons hop (.countOperator (k.operators_skip ▸ hlt) .nil)
    rcases bind_eq_error h with h | ⟨⟨right, k₁⟩, -, h⟩
    · exact (hin h hm).after hpasses (Or.inr (Or.inr ⟨op, rfl⟩))
    · cases h
  · rw [if_neg hlt] at h
    cases h
    exact absurd hm id

theorem behind_readOperators (hin : AwaitsAll levels)
    (h : readOperators .strict (expression .strict levels) bound rounds left k = .error fault)
    (hm : fault.IsMisplaced) : Behind k fault := by
  induction rounds generalizing left k with
  | zero => cases h
  | succ rounds ih =>
      unfold readOperators at h
      cases hop : k.rest.head?.bind Operator.ofSymbol? with
      | none =>
          simp only [hop] at h
          cases h
      | some op =>
          simp only [hop] at h
          obtain ⟨rest, hrest⟩ := exists_rest_of_operator hop
          by_cases hbound : bound < op.power
          · simp only [if_pos hbound] at h
            rcases bind_eq_error h with h | ⟨⟨joined, k₁⟩, hjoined, h⟩
            · exact behind_readOperator hin hrest h hm
            · obtain ⟨_, text, _, -, hpasses, -⟩ :=
                readOperator_passes (soundAll levels) hrest hjoined
              exact (ih h).after hpasses
          · simp only [if_neg hbound] at h
            cases h

/-- **Where a strict reading ends with a misplaced character, an operand is awaited.** -/
theorem awaitsAll (levels : Nat) : AwaitsAll levels := by
  induction levels with
  | zero =>
      intro bound k fault h hm
      cases h
      exact absurd hm id
  | succ levels ih =>
      intro bound k fault h hm
      rcases bind_eq_error h with h | ⟨⟨left, k₁⟩, hoperand, h⟩
      · exact awaits_readOperand ih h hm
      · obtain ⟨text, _, hpasses, -⟩ := readOperand_sound (soundAll levels) hoperand
        exact Or.inr ((behind_readOperators ih h hm).after hpasses)

end Expr

end Wayfinding
