import Wayfinding.Proofs.Formula.Completeness
import Wayfinding.Proofs.Sequence

/-!
# What a strict reading accepts

* `Passes k text count k'`: from the one cursor to the other lie the text and so many operators.
* `Consumes phrase levels k tree k'`: what lies between the two cursors is derived as the tree, in
  no more than so many levels, and the operators of the tree were counted.
* `soundAll`: whatever a strict reading of an expression accepts is such a phrase, and what follows
  it is no operator that the reading should have taken. The induction is on the levels, and in each
  of them on the rounds of the loop.
* `readStrict_eq_ok_iff`: so the texts that are accepted are those of the grammar, within the limits.
-/

namespace Wayfinding

open String (utf8Len)

/-! ## 1. What is passed -/

@[simp] theorem Cursor.operators_skip (k : Cursor) : k.skip.operators = k.operators := by
  unfold Cursor.skip
  split <;> rfl

/-- From `k` to `k'` lie the text and `count` operators, and no more than the limit allows. -/
structure Passes (k : Cursor) (text : List Char) (count : Nat) (k' : Cursor) : Prop where
  rest : k.rest = text ++ k'.rest
  position : k'.position = k.position + utf8Len text
  operators : k'.operators = k.operators + count
  within : k.operators ≤ maxOperators → k'.operators ≤ maxOperators

namespace Passes

variable {k k₁ k' : Cursor} {text text' rest : List Char} {count count' : Nat} {c : Char}

theorem nil : Passes k [] 0 k where
  rest := rfl
  position := rfl
  operators := rfl
  within ho := ho

theorem trans (h : Passes k text count k₁) (h' : Passes k₁ text' count' k') :
    Passes k (text ++ text') (count + count') k' where
  rest := by rw [h.rest, h'.rest, List.append_assoc]
  position := by rw [h'.position, h.position, String.utf8Len_append, Nat.add_assoc]
  operators := by rw [h'.operators, h.operators, Nat.add_assoc]
  within ho := h'.within (h.within ho)

theorem skip (h : k.rest = c :: rest) : Passes k [c] 0 k.skip := by
  obtain ⟨cs, position, operators⟩ := k
  cases h
  exact ⟨rfl, by rw [String.utf8Len_cons, String.utf8Len_nil, Nat.zero_add]; rfl, rfl, id⟩

/-- A character in front of what is passed. -/
theorem cons (h : k.rest = c :: rest) (h' : Passes k.skip text count k') :
    Passes k (c :: text) count k' :=
  Nat.zero_add count ▸ (skip h).trans h'

/-- Reading on, if the wanted character stands there. -/
theorem expect {found : Bool} (h : k.expect .strict c = .ok (found, k')) :
    found = true ∧ Passes k [c] 0 k' := by
  unfold Cursor.expect at h
  by_cases hhead : k.rest.head? = some c
  · rw [if_pos hhead] at h
    obtain ⟨others, hrest⟩ := List.head?_eq_some_iff.mp hhead
    cases h
    exact ⟨rfl, skip hrest⟩
  · rw [if_neg hhead] at h
    cases h

/-- One more operator is within the limit as long as it is not reached. -/
theorem countOperator (hlt : k.operators < maxOperators)
    (h : Passes k.countOperator text count k') : Passes k text (count + 1) k' where
  rest := h.rest
  position := h.position
  operators := h.operators.trans (by simp only [Cursor.countOperator]; omega)
  within _ := h.within hlt

end Passes

namespace Expr

variable {levels bound rounds : Nat} {k k' : Cursor} {tree left : Expr} {phrase : Phrase}
  {op : Operator} {rest : List Char}

/-- Between the cursors lies a phrase that means the tree, and its operators were counted. -/
def Consumes (phrase : Phrase) (levels : Nat) (k : Cursor) (tree : Expr) (k' : Cursor) : Prop :=
  ∃ text n, Passes k text tree.operators k' ∧ n ≤ levels ∧ Derives phrase text tree n

/-- No operator that binds more strongly than `bound` stands here. -/
def Stops (bound : Nat) (rest : List Char) : Prop :=
  ∀ op, rest.head?.bind Operator.ofSymbol? = some op → op.power ≤ bound

/-- Whatever a strict reading accepts is a phrase, and no operator that belongs to it follows. -/
def SoundAll (levels : Nat) : Prop :=
  ∀ (phrase : Phrase) {k k' : Cursor} {tree : Expr},
    expression .strict levels phrase.bound k = .ok (tree, k') →
      Consumes phrase levels k tree k' ∧ Stops phrase.bound k'.rest

theorem Consumes.loosen (h : Consumes phrase levels k tree k') {phrase' : Phrase}
    (hle : phrase'.bound ≤ phrase.bound) : Consumes phrase' levels k tree k' := by
  obtain ⟨text, n, hpasses, hn, hd⟩ := h
  exact ⟨text, n, hpasses, hn, hd.loosen hle⟩

/-! ## 2. Operands -/

/-- What is read as an operand at a cursor, by the characters that stand there. -/
inductive OperandAt (k : Cursor) : (Policy → (Nat → Part) → Except Fault (Expr × Cursor)) → Prop where
  | nothing (h : k.rest = []) : OperandAt k fun policy _ => failAt policy .endOfFormula k
  | constant {c : Char} {rest : List Char} (h : k.rest = c :: rest) (hc : c.isDigit = true) :
      OperandAt k fun policy _ => readConstant policy k
  | travelled {rest : List Char} (h : k.rest = 'G' :: rest) :
      OperandAt k fun _ _ => .ok (.travelled, k.skip)
  | estimate {rest : List Char} (h : k.rest = 'H' :: rest) :
      OperandAt k fun _ _ => .ok (.estimate, k.skip)
  | choice {rest : List Char} (h : k.rest = 'i' :: 'f' :: rest) :
      OperandAt k fun policy inside => readChoice policy inside k
  | group {rest : List Char} (h : k.rest = '(' :: rest) :
      OperandAt k fun policy inside => readGroup policy inside k
  | operator {op : Operator} {rest : List Char} (h : k.rest = op.symbol :: rest) :
      OperandAt k fun policy inside => readBareOperator policy inside op k
  | misplaced {c : Char} {rest : List Char} (h : k.rest = c :: rest) :
      OperandAt k fun policy _ => policy.recover (k.unexpected c) (degenerate, k.skip)

/-- The characters at a cursor decide what is read there, under any policy. -/
theorem exists_operandAt (k : Cursor) :
    ∃ part, (∀ policy inside, readOperand policy inside k = part policy inside) ∧
      OperandAt k part := by
  unfold readOperand
  cases hrest : k.rest with
  | nil => exact ⟨_, fun _ _ => rfl, .nothing hrest⟩
  | cons c rest =>
      dsimp only
      by_cases hdigit : c.isDigit = true
      · simp only [if_pos hdigit]
        exact ⟨_, fun _ _ => rfl, .constant hrest hdigit⟩
      simp only [if_neg hdigit]
      by_cases hG : c = 'G'
      · simp only [if_pos hG]
        exact ⟨_, fun _ _ => rfl, .travelled (hG ▸ hrest)⟩
      simp only [if_neg hG]
      by_cases hH : c = 'H'
      · simp only [if_pos hH]
        exact ⟨_, fun _ _ => rfl, .estimate (hH ▸ hrest)⟩
      simp only [if_neg hH]
      by_cases hif : c = 'i' ∧ rest.head? = some 'f'
      · simp only [if_pos hif]
        obtain ⟨rfl, hf⟩ := hif
        obtain ⟨others, rfl⟩ := List.head?_eq_some_iff.mp hf
        exact ⟨_, fun _ _ => rfl, .choice hrest⟩
      simp only [if_neg hif]
      by_cases hopen : c = '('
      · simp only [if_pos hopen]
        exact ⟨_, fun _ _ => rfl, .group (hopen ▸ hrest)⟩
      simp only [if_neg hopen]
      cases hop : Operator.ofSymbol? c with
      | some op =>
          exact ⟨_, fun _ _ => rfl, .operator (Operator.ofSymbol?_eq_some_iff.mp hop ▸ hrest)⟩
      | none => exact ⟨_, fun _ _ => rfl, .misplaced hrest⟩

theorem readConstant_sound {c : Char} (hrest : k.rest = c :: rest) (hc : c.isDigit = true)
    (h : readConstant .strict k = .ok (tree, k')) : Consumes .atom (levels + 1) k tree k' := by
  obtain ⟨cs, position, operators⟩ := k
  cases hrest
  rcases readConstant_cases rest hc position operators with
    ⟨text, value, rest', htext, hlit, hread⟩ | ⟨_, _, _, hread⟩
  · cases (hread .strict).symm.trans h
    exact ⟨text, 1, ⟨htext, by rw [hlit.utf8Len_eq], rfl, id⟩, Nat.succ_le_succ (Nat.zero_le _),
      .literal hlit⟩
  · cases (hread .strict).symm.trans h

theorem readUntil_sound {closing : Char} (hin : SoundAll levels)
    (h : readUntil .strict closing (expression .strict levels) k = .ok (tree, k')) :
    ∃ text n, Passes k (text ++ [closing]) tree.operators k' ∧ n ≤ levels ∧
      Derives .comparison text tree n := by
  obtain ⟨⟨inner, k₁⟩, hinner, h⟩ := bind_eq_ok h
  obtain ⟨⟨closed, k₂⟩, hclosed, h⟩ := bind_eq_ok h
  obtain ⟨rfl, hpasses'⟩ := Passes.expect hclosed
  cases h
  obtain ⟨⟨text, n, hpasses, hn, hd⟩, -⟩ := hin .comparison hinner
  exact ⟨text, n, hpasses.trans hpasses', hn, hd⟩

theorem readGroup_sound (hin : SoundAll levels) (hrest : k.rest = '(' :: rest)
    (h : readGroup .strict (expression .strict levels) k = .ok (tree, k')) :
    Consumes .atom (levels + 1) k tree k' := by
  obtain ⟨text, n, hpasses, hn, hd⟩ := readUntil_sound hin h
  exact ⟨_, n + 1, Passes.cons hrest hpasses, Nat.succ_le_succ hn, hd.group⟩

theorem readBranches_sound (hin : SoundAll levels)
    (h : readBranches .strict (expression .strict levels) k = .ok (tree, k')) :
    ∃ c t f condition whenTrue whenFalse l m n, tree = conditional condition whenTrue whenFalse ∧
      Passes k (c ++ [','] ++ (t ++ [','] ++ (f ++ [')'])))
        (condition.operators + (whenTrue.operators + whenFalse.operators)) k' ∧
      (Derives .comparison c condition l ∧ l ≤ levels) ∧
      (Derives .comparison t whenTrue m ∧ m ≤ levels) ∧
      (Derives .comparison f whenFalse n ∧ n ≤ levels) := by
  obtain ⟨⟨condition, k₁⟩, hcondition, h⟩ := bind_eq_ok h
  obtain ⟨⟨whenTrue, k₂⟩, hwhenTrue, h⟩ := bind_eq_ok h
  obtain ⟨⟨whenFalse, k₃⟩, hwhenFalse, h⟩ := bind_eq_ok h
  obtain ⟨c, l, hpassesc, hl, hdc⟩ := readUntil_sound hin hcondition
  obtain ⟨t, m, hpassest, hm, hdt⟩ := readUntil_sound hin hwhenTrue
  obtain ⟨f, n, hpassesf, hn, hdf⟩ := readUntil_sound hin hwhenFalse
  cases h
  exact ⟨c, t, f, condition, whenTrue, whenFalse, l, m, n,
    choose_of_ne hdc.ne_degenerate hdt.ne_degenerate hdf.ne_degenerate,
    hpassesc.trans (hpassest.trans hpassesf), ⟨hdc, hl⟩, ⟨hdt, hm⟩, ⟨hdf, hn⟩⟩

/-- The word `if` and the parenthesis after it are passed, and count as one operator. -/
theorem passes_choice (hrest : k.rest = 'i' :: 'f' :: rest) (hlt : k.operators < maxOperators)
    (h : Passes k.skip.skip.countOperator ['('] 0 k') : Passes k (['i', 'f'] ++ ['(']) 1 k' := by
  have hskip : k.skip.rest = 'f' :: rest := by
    rw [Cursor.skip, hrest]
  have hwithin : k.skip.skip.operators < maxOperators := by
    rw [Cursor.operators_skip, Cursor.operators_skip]
    exact hlt
  exact .cons hrest (.cons hskip (.countOperator hwithin h))

theorem readChoice_sound (hin : SoundAll levels) (hrest : k.rest = 'i' :: 'f' :: rest)
    (h : readChoice .strict (expression .strict levels) k = .ok (tree, k')) :
    Consumes .atom (levels + 1) k tree k' := by
  unfold readChoice at h
  by_cases hlt : k.operators < maxOperators
  · simp only [if_pos hlt] at h
    obtain ⟨⟨opened, k₁⟩, hopened, h⟩ := bind_eq_ok h
    obtain ⟨rfl, hpasses⟩ := Passes.expect hopened
    obtain ⟨c, t, f, condition, whenTrue, whenFalse, l, m, n, rfl, hbranches, ⟨hdc, hl⟩, ⟨hdt, hm⟩,
      ⟨hdf, hn⟩⟩ := readBranches_sound hin h
    refine ⟨_, max l (max m n) + 1, ?_, ?_, hdc.choice hdt hdf⟩
    · convert (passes_choice hrest hlt hpasses).trans hbranches using 1
      · simp only [List.cons_append, List.append_assoc, List.nil_append]
      · simp only [Expr.operators]
        omega
    · exact Nat.succ_le_succ (Nat.max_le.mpr ⟨hl, Nat.max_le.mpr ⟨hm, hn⟩⟩)
  · rw [if_neg hlt] at h
    cases h

/-- What a strict reading accepts as an operand is an atom. -/
theorem readOperand_sound (hin : SoundAll levels)
    (h : readOperand .strict (expression .strict levels) k = .ok (tree, k')) :
    Consumes .atom (levels + 1) k tree k' := by
  have hone : 1 ≤ levels + 1 := Nat.succ_le_succ (Nat.zero_le _)
  obtain ⟨part, hpart, hat⟩ := exists_operandAt k
  rw [hpart] at h
  cases hat with
  | nothing _ => cases h
  | constant hrest hc => exact readConstant_sound hrest hc h
  | travelled hrest =>
      cases h
      exact ⟨['G'], 1, .skip hrest, hone, .travelled⟩
  | estimate hrest =>
      cases h
      exact ⟨['H'], 1, .skip hrest, hone, .estimate⟩
  | choice hrest => exact readChoice_sound hin hrest h
  | group hrest => exact readGroup_sound hin hrest h
  | operator _ => cases h
  | misplaced _ => cases h

/-! ## 3. Operators -/

theorem exists_rest_of_operator (h : k.rest.head?.bind Operator.ofSymbol? = some op) :
    ∃ rest, k.rest = op.symbol :: rest := by
  obtain ⟨c, hhead, hc⟩ := Option.bind_eq_some_iff.mp h
  obtain ⟨rest, hrest⟩ := List.head?_eq_some_iff.mp hhead
  exact ⟨rest, Operator.ofSymbol?_eq_some_iff.mp hc ▸ hrest⟩

/-- An operator and its right operand are passed. -/
theorem readOperator_passes (hin : SoundAll levels) (hop : k.rest = op.symbol :: rest)
    (h : readOperator .strict (expression .strict levels) op left k = .ok (tree, k')) :
    ∃ right text n, tree = join op left right ∧
      Passes k (op.symbol :: text) (right.operators + 1) k' ∧ n ≤ levels ∧
      Derives op.operand text right n ∧ Stops op.power k'.rest := by
  unfold readOperator at h
  by_cases hlt : k.operators < maxOperators
  · simp only [if_pos hlt] at h
    obtain ⟨⟨right, k₁⟩, hright, h⟩ := bind_eq_ok h
    cases h
    rw [← op.bound_operand] at hright
    obtain ⟨⟨text, n, hpasses, hn, hd⟩, hstops⟩ := hin op.operand hright
    exact ⟨right, text, n, rfl, .cons hop (.countOperator (k.operators_skip ▸ hlt) hpasses), hn, hd,
      op.bound_operand ▸ hstops⟩
  · rw [if_neg hlt] at h
    cases h

/-- An operator and its right operand go on with the left one. -/
theorem readOperator_sound (hin : SoundAll levels) {start : Cursor} (hop : k.rest = op.symbol :: rest)
    (hleft : Consumes op.phrase (levels + 1) start left k)
    (h : readOperator .strict (expression .strict levels) op left k = .ok (tree, k')) :
    Consumes op.phrase (levels + 1) start tree k' ∧ Stops op.power k'.rest ∧
      k'.rest.length < k.rest.length := by
  obtain ⟨right, r, n, rfl, hpasses, hn, hdr, hstops⟩ := readOperator_passes hin hop h
  obtain ⟨l, m, hpassesl, hm, hdl⟩ := hleft
  rw [join_of_ne hdl.ne_degenerate hdr.ne_degenerate]
  refine ⟨⟨_, max m (n + 1), ?_, Nat.max_le.mpr ⟨hm, Nat.succ_le_succ hn⟩, hdl.join op hdr⟩, hstops,
    ?_⟩
  · have hcount : (binary op left right).operators = left.operators + (right.operators + 1) := by
      rw [Expr.operators, Nat.add_assoc]
    rw [hcount]
    exact hpassesl.trans hpasses
  · rw [hpasses.rest, List.length_append, List.length_cons]
    omega

/-- **The loop reads a phrase**: its left operand is one that no operator above the last one
follows. -/
theorem readOperators_sound (hin : SoundAll levels) {start : Cursor} {leftPhrase : Phrase}
    (hrounds : k.rest.length ≤ rounds) (hloose : phrase.bound ≤ leftPhrase.bound)
    (hleft : Consumes leftPhrase (levels + 1) start left k) (hlimit : Stops leftPhrase.limit k.rest)
    (h : readOperators .strict (expression .strict levels) phrase.bound rounds left k =
      .ok (tree, k')) :
    Consumes phrase (levels + 1) start tree k' ∧ Stops phrase.bound k'.rest := by
  induction rounds generalizing left leftPhrase k with
  | zero =>
      have hnil : k.rest = [] := List.length_eq_zero_iff.mp (Nat.le_zero.mp hrounds)
      cases h
      refine ⟨hleft.loosen hloose, fun op hop => ?_⟩
      rw [hnil] at hop
      cases hop
  | succ rounds ih =>
      unfold readOperators at h
      cases hop : k.rest.head?.bind Operator.ofSymbol? with
      | none =>
          simp only [hop] at h
          cases h
          refine ⟨hleft.loosen hloose, fun op hop' => ?_⟩
          rw [hop] at hop'
          cases hop'
      | some op =>
          simp only [hop] at h
          by_cases hbound : phrase.bound < op.power
          · simp only [if_pos hbound] at h
            obtain ⟨⟨joined, k₁⟩, hjoined, h⟩ := bind_eq_ok h
            obtain ⟨others, hrest⟩ := exists_rest_of_operator hop
            have hleft' := hleft.loosen (Operator.bound_phrase_le (hlimit op hop))
            obtain ⟨hconsumes, hstops, hshort⟩ := readOperator_sound hin hrest hleft' hjoined
            exact ih (by omega) (Operator.bound_le_bound_phrase hbound) hconsumes
              (op.limit_phrase ▸ hstops) h
          · simp only [if_neg hbound] at h
            cases h
            refine ⟨hleft.loosen hloose, fun op' hop' => ?_⟩
            rw [hop, Option.some.injEq] at hop'
            exact hop' ▸ Nat.not_lt.mp hbound

/-! ## 4. Expressions -/

/-- **Whatever a strict reading accepts is a phrase of the grammar.** -/
theorem soundAll (levels : Nat) : SoundAll levels := by
  induction levels with
  | zero =>
      intro phrase k k' tree h
      cases h
  | succ levels ih =>
      intro phrase k k' tree h
      obtain ⟨⟨left, k₁⟩, hoperand, h⟩ := bind_eq_ok h
      have hbound : phrase.bound ≤ Phrase.atom.bound := by cases phrase <;> decide
      have hlimit : Stops Phrase.atom.limit k₁.rest := fun op _ => by cases op <;> decide
      exact readOperators_sound ih (Nat.le_refl _) hbound (readOperand_sound ih hoperand) hlimit h

/-- A text that a strict reading accepts as a whole is derived within the limits. -/
theorem derives_of_read {cs : List Char} (h : read .strict cs = .ok tree) :
    ∃ n, Derives .comparison cs tree n ∧ tree.Fits n maxNesting 0 := by
  obtain ⟨⟨tree', k⟩, hexpression, h⟩ := bind_eq_ok h
  obtain ⟨text, n, hpasses, hn, hd⟩ := (soundAll maxNesting .comparison hexpression).1
  cases hrest : k.rest with
  | cons c others =>
      simp only [hrest] at h
      cases h
  | nil =>
      simp only [hrest] at h
      cases h
      have htext : cs = text := by
        rw [← List.append_nil text, ← hrest]
        exact hpasses.rest
      subst htext
      exact ⟨n, hd, hn, hpasses.operators ▸ hpasses.within (Nat.zero_le _)⟩

end Expr

/-- **The texts that a strict reading accepts** are those that the grammar derives as a whole, with
no more operators and choices and no more levels than the limits allow; it returns the tree that the
text means. -/
theorem readStrict_eq_ok_iff (source : String) (formula : Formula) :
    Formula.readStrict source = .ok formula ↔
      formula.source = source ∧ ∃ nesting,
        Derives .comparison source.toList formula.tree nesting ∧
          formula.tree.operators ≤ maxOperators ∧ nesting ≤ maxNesting := by
  unfold Formula.readStrict Formula.read
  constructor
  · intro h
    cases hread : Expr.read .strict source.toList with
    | error fault =>
        rw [hread] at h
        cases h
    | ok tree =>
        rw [hread] at h
        cases h
        obtain ⟨n, hd, hn, ho⟩ := Expr.derives_of_read hread
        rw [Nat.zero_add] at ho
        exact ⟨rfl, n, hd, ho, hn⟩
  · rintro ⟨rfl, n, hd, ho, hn⟩
    rw [(Expr.read_derived .strict hd).ok ⟨hn, (Nat.zero_add _).trans_le ho⟩]
    rfl

end Wayfinding
