import Wayfinding.Proofs.Formula.Grammar

/-!
# Reading what the grammar derives

A phrase of the grammar is read as its tree under any policy, whatever follows that does not go on
with it, as long as there are levels and operators left for it. If there are not, a strict reading
fails. `expression_derived` says both at once (`Bounded`), so a derivation decides how its text is
read.

The induction is on the levels. In each of them it is on the derivation, whose left operands are
read by the same loop as the whole (`expression_absorbs`).
-/

namespace Wayfinding

/-! ## 1. Readings within limits -/

/-- The reading is `value` if the limits are kept. If not, a strict reading fails. -/
structure Bounded {α : Type} (policy : Policy) (kept : Prop) (reading value : Except Fault α) :
    Prop where
  ok : kept → reading = value
  error : ¬ kept → policy = .strict → ∃ fault, reading = .error fault

namespace Bounded

variable {α β : Type} {policy : Policy} {kept kept' : Prop} {reading value : Except Fault α}
  {value' : Except Fault β}

theorem of_eq (hk : kept) (h : reading = value) : Bounded policy kept reading value where
  ok _ := h
  error hn := absurd hk hn

theorem congr (h : Bounded policy kept reading value) (hiff : kept' ↔ kept) :
    Bounded policy kept' reading value where
  ok hk := h.ok (hiff.mp hk)
  error hn := h.error fun hk => hn (hiff.mpr hk)

/-- A reading whose value is itself a reading within limits. -/
theorem trans {reading' : Except Fault α} (h : Bounded policy kept reading reading')
    (hn : kept → Bounded policy kept' reading' value) :
    Bounded policy (kept ∧ kept') reading value where
  ok hk := (h.ok hk.1).trans ((hn hk.1).ok hk.2)
  error hnot hs := by
    by_cases hk : kept
    · rw [h.ok hk]
      exact (hn hk).error (fun hk' => hnot ⟨hk, hk'⟩) hs
    · exact h.error hk hs

/-- A reading that another one follows. -/
theorem bind {a : α} {next : α → Except Fault β} (h : Bounded policy kept reading (.ok a))
    (hn : kept → Bounded policy kept' (next a) value') :
    Bounded policy (kept ∧ kept') (reading >>= next) value' where
  ok hk := by
    rw [h.ok hk.1]
    exact (hn hk.1).ok hk.2
  error hnot hs := by
    by_cases hk : kept
    · rw [h.ok hk]
      exact (hn hk).error (fun hk' => hnot ⟨hk, hk'⟩) hs
    · obtain ⟨fault, hf⟩ := h.error hk hs
      exact ⟨fault, by rw [hf]; rfl⟩

/-- A reading after which nothing can fail. -/
theorem bind_ok {a : α} {next : α → Except Fault β} (h : Bounded policy kept reading (.ok a))
    (hn : next a = value') : Bounded policy kept (reading >>= next) value' where
  ok hk := by
    rw [h.ok hk]
    exact hn
  error hnot hs := by
    obtain ⟨fault, hf⟩ := h.error hnot hs
    exact ⟨fault, by rw [hf]; rfl⟩

end Bounded

/-! ## 2. What may follow a phrase -/

/-- Nothing that goes on with a literal, nor an operator that binds more strongly than `bound`. -/
def Ends (bound : Nat) (rest : List Char) : Prop :=
  ∀ c, rest.head? = some c → (c.isDigit = false ∧ c ≠ '.') ∧
    ∀ op, Operator.ofSymbol? c = some op → op.power ≤ bound

namespace Ends

variable {bound bound' : Nat} {rest : List Char}

theorem mono (h : Ends bound rest) (hle : bound ≤ bound') : Ends bound' rest :=
  fun c hc => ⟨(h c hc).1, fun op hop => ((h c hc).2 op hop).trans hle⟩

theorem nil : Ends bound [] := by
  intro c hc
  cases hc

theorem close : Ends bound (')' :: rest) := by
  intro c hc
  cases hc
  exact ⟨⟨rfl, by decide⟩, fun op hop => by cases hop⟩

theorem comma : Ends bound (',' :: rest) := by
  intro c hc
  cases hc
  exact ⟨⟨rfl, by decide⟩, fun op hop => by cases hop⟩

theorem operator (op : Operator) : Ends op.power (op.symbol :: rest) := by
  intro c hc
  cases hc
  refine ⟨by cases op <;> decide, fun op' hop => ?_⟩
  rw [Operator.ofSymbol?_symbol, Option.some.injEq] at hop
  exact (congrArg Operator.power hop).ge

end Ends

/-! ## 3. The parts of a phrase -/

namespace Expr

variable {policy : Policy} {levels bound position operators l m n : Nat}
  {rest text c t f : List Char} {tree condition whenTrue whenFalse : Expr} {phrase : Phrase}

/-- The levels and operators that are left are enough for a phrase. -/
def Fits (tree : Expr) (n levels operators : Nat) : Prop :=
  n ≤ levels ∧ operators + tree.operators ≤ maxOperators

/-- Every phrase is read as its tree if it fits. -/
def ReadsAll (policy : Policy) (levels : Nat) : Prop :=
  ∀ {phrase : Phrase} {text : List Char} {tree : Expr} {n : Nat}, Derives phrase text tree n →
    ∀ {rest : List Char} (position : Nat) {operators : Nat}, Ends phrase.bound rest →
      operators ≤ maxOperators →
      Bounded policy (tree.Fits n levels operators)
        (expression policy levels phrase.bound ⟨text ++ rest, position, operators⟩)
        (.ok (tree, ⟨rest, position + text.length, operators + tree.operators⟩))

/-- The character that is wanted is read. -/
theorem expect_cons (policy : Policy) {c : Char} (hc : c.utf8Size = 1) (rest : List Char)
    (position operators : Nat) :
    Cursor.expect policy c ⟨c :: rest, position, operators⟩ =
      .ok (true, ⟨rest, position + 1, operators⟩) := by
  simp only [Cursor.expect, Cursor.skip, List.head?_cons, if_true, hc]

/-- Beyond a limit a strict reading fails. -/
theorem bounded_giveUp {kept : Prop} {value : Except Fault (Expr × Cursor)} (hn : ¬ kept)
    (cause : FaultCause) (k : Cursor) : Bounded policy kept (giveUp policy cause k) value where
  ok hk := absurd hk hn
  error _ hs := by
    subst hs
    exact ⟨_, rfl⟩

/-- An expression is read with the character that ends it. -/
theorem readUntil_derived {closing : Char} (h : ReadsAll policy levels)
    (hd : Derives .comparison text tree n) (hsize : closing.utf8Size = 1)
    (he : Ends 0 (closing :: rest)) (position : Nat) (ho : operators ≤ maxOperators) :
    Bounded policy (tree.Fits n levels operators)
      (readUntil policy closing (expression policy levels)
        ⟨text ++ closing :: rest, position, operators⟩)
      (.ok (tree, ⟨rest, position + text.length + 1, operators + tree.operators⟩)) := by
  refine (h hd position he ho).bind_ok ?_
  simp only [expect_cons policy hsize]
  rfl

theorem readGroup_derived (h : ReadsAll policy levels) (hd : Derives .comparison text tree n)
    (rest : List Char) (position : Nat) (ho : operators ≤ maxOperators) :
    Bounded policy (tree.Fits n levels operators)
      (readGroup policy (expression policy levels)
        ⟨'(' :: (text ++ ')' :: rest), position, operators⟩)
      (.ok (tree, ⟨rest, position + 1 + text.length + 1, operators + tree.operators⟩)) :=
  readUntil_derived h hd rfl Ends.close (position + 1) ho

theorem readBranches_derived (h : ReadsAll policy levels)
    (hc : Derives .comparison c condition l) (ht : Derives .comparison t whenTrue m)
    (hf : Derives .comparison f whenFalse n) (rest : List Char) (position : Nat)
    (ho : operators ≤ maxOperators) :
    Bounded policy
      (condition.Fits l levels operators ∧
        whenTrue.Fits m levels (operators + condition.operators) ∧
        whenFalse.Fits n levels (operators + condition.operators + whenTrue.operators))
      (readBranches policy (expression policy levels)
        ⟨c ++ ',' :: (t ++ ',' :: (f ++ ')' :: rest)), position, operators⟩)
      (.ok (conditional condition whenTrue whenFalse,
        ⟨rest, position + c.length + 1 + t.length + 1 + f.length + 1,
          operators + condition.operators + whenTrue.operators + whenFalse.operators⟩)) := by
  refine (readUntil_derived h hc rfl Ends.comma position ho).bind fun hkc => ?_
  refine (readUntil_derived h ht rfl Ends.comma _ hkc.2).bind fun hkt => ?_
  refine (readUntil_derived h hf rfl Ends.close _ hkt.2).bind_ok ?_
  simp only [choose_of_ne hc.ne_degenerate ht.ne_degenerate hf.ne_degenerate]
  rfl

theorem readChoice_derived (h : ReadsAll policy levels)
    (hc : Derives .comparison c condition l) (ht : Derives .comparison t whenTrue m)
    (hf : Derives .comparison f whenFalse n) (rest : List Char) (position : Nat)
    (ho : operators ≤ maxOperators) :
    Bounded policy
      ((conditional condition whenTrue whenFalse).Fits (max l (max m n)) levels operators)
      (readChoice policy (expression policy levels)
        ⟨'i' :: 'f' :: '(' :: (c ++ ',' :: (t ++ ',' :: (f ++ ')' :: rest))), position, operators⟩)
      (.ok (conditional condition whenTrue whenFalse,
        ⟨rest, position + 1 + 1 + 1 + c.length + 1 + t.length + 1 + f.length + 1,
          operators + (conditional condition whenTrue whenFalse).operators⟩)) := by
  have hcount : operators + (conditional condition whenTrue whenFalse).operators =
      operators + 1 + condition.operators + whenTrue.operators + whenFalse.operators := by
    simp only [Expr.operators]
    omega
  rw [Fits, hcount]
  unfold readChoice
  by_cases hlt : operators < maxOperators
  · rw [if_pos hlt]
    refine (readBranches_derived h hc ht hf rest (position + 1 + 1 + 1)
      (Nat.succ_le_of_lt hlt)).congr ?_
    simp only [Fits]
    omega
  · rw [if_neg hlt]
    refine bounded_giveUp (fun hk => hlt ?_) _ _
    omega

/-- Where an operator may follow its left operand, it is read with its right one. -/
theorem readOperator_derived (h : ReadsAll policy levels) (op : Operator) {left : Expr}
    (hl : left ≠ degenerate) (hr : Derives op.operand text tree n) (he : Ends op.power rest)
    (position : Nat) (ho : operators ≤ maxOperators) :
    Bounded policy (n + 1 ≤ levels + 1 ∧ operators + 1 + tree.operators ≤ maxOperators)
      (readOperator policy (expression policy levels) op left
        ⟨op.symbol :: (text ++ rest), position, operators⟩)
      (.ok (binary op left tree,
        ⟨rest, position + 1 + text.length, operators + 1 + tree.operators⟩)) := by
  have hsize : op.symbol.utf8Size = 1 := by cases op <;> rfl
  unfold readOperator
  by_cases hlt : operators < maxOperators
  · simp only [if_pos hlt]
    have hright := h hr (position + 1) (op.bound_operand ▸ he) (Nat.succ_le_of_lt hlt)
    rw [op.bound_operand] at hright
    have hskip : Cursor.countOperator (Cursor.skip ⟨op.symbol :: (text ++ rest), position, operators⟩) =
        ⟨text ++ rest, position + 1, operators + 1⟩ := by
      simp only [Cursor.countOperator, Cursor.skip, hsize]
    rw [hskip]
    refine (hright.bind_ok ?_).congr ?_
    · simp only [join_of_ne hl hr.ne_degenerate]
      rfl
    · simp only [Fits]
      omega
  · rw [if_neg hlt]
    exact bounded_giveUp (fun hk => hlt (by omega)) _ _

/-- A round of the loop reads an operator that binds strongly enough. -/
theorem readOperators_derived (h : ReadsAll policy levels) {op : Operator} {left : Expr}
    (hbound : bound < op.power) (hl : left ≠ degenerate) (hr : Derives op.operand text tree n)
    (he : Ends op.power rest) (rounds position : Nat) (ho : operators ≤ maxOperators) :
    Bounded policy (n + 1 ≤ levels + 1 ∧ operators + 1 + tree.operators ≤ maxOperators)
      (readOperators policy (expression policy levels) bound (rounds + 1) left
        ⟨op.symbol :: (text ++ rest), position, operators⟩)
      (readOperators policy (expression policy levels) bound rounds (binary op left tree)
        ⟨rest, position + 1 + text.length, operators + 1 + tree.operators⟩) := by
  rw [readOperators, List.head?_cons, Option.bind_some, Operator.ofSymbol?_symbol]
  simp only [if_pos hbound]
  exact (readOperator_derived h op hl hr he position ho).bind_ok rfl

/-! ## 4. Phrases -/

/-- No operator that follows binds strongly enough to be read. -/
theorem readOperators_ends {inside : Nat → Part} (rounds : Nat) (left : Expr)
    (he : Ends bound rest) :
    readOperators policy inside bound rounds left ⟨rest, position, operators⟩ =
      .ok (left, ⟨rest, position, operators⟩) := by
  cases rounds with
  | zero => rfl
  | succ rounds =>
      unfold readOperators
      cases rest with
      | nil => rfl
      | cons c others =>
          dsimp only [List.head?_cons, Option.bind_some]
          cases hop : Operator.ofSymbol? c with
          | none => rfl
          | some op => exact if_neg (Nat.not_lt.mpr ((he c rfl).2 op hop))

/-- The reading goes on with the operators after the phrase, the tree of the phrase on their left. -/
def Absorbs (policy : Policy) (levels bound : Nat) (text : List Char) (tree : Expr) (n : Nat)
    (rest : List Char) (position operators : Nat) : Prop :=
  ∃ rounds, rest.length ≤ rounds ∧ Bounded policy (tree.Fits n (levels + 1) operators)
    (expression policy (levels + 1) bound ⟨text ++ rest, position, operators⟩)
    (readOperators policy (expression policy levels) bound rounds tree
      ⟨rest, position + text.length, operators + tree.operators⟩)

theorem absorbs_of_operand {kept : Prop}
    (h : Bounded policy kept
      (readOperand policy (expression policy levels) ⟨text ++ rest, position, operators⟩)
      (.ok (tree, ⟨rest, position + text.length, operators + tree.operators⟩)))
    (hiff : tree.Fits n (levels + 1) operators ↔ kept) :
    Absorbs policy levels bound text tree n rest position operators :=
  ⟨rest.length, Nat.le_refl _,
    (h.bind_ok rfl).congr hiff⟩

theorem absorbs_literal {value : Float} (hlit : IsLiteral text value)
    (position : Nat) (ho : operators ≤ maxOperators) (he : Ends Phrase.atom.limit rest) :
    Absorbs policy levels bound text (constant value) 1 rest position operators := by
  have hread := hlit.readConstant policy (fun c hc => (he c hc).1) position operators
  obtain ⟨c, others, rfl, hc⟩ := hlit.head
  have hoperand : readOperand policy (expression policy levels)
      ⟨(c :: others) ++ rest, position, operators⟩ =
        readConstant policy ⟨(c :: others) ++ rest, position, operators⟩ := by
    simp only [readOperand, List.cons_append, hc, if_true]
  exact absorbs_of_operand (.of_eq trivial (hoperand.trans hread)) (iff_true_intro ⟨by omega, ho⟩)

theorem absorbs_group (h : ReadsAll policy levels) {body : List Char}
    (hbody : Derives .comparison body tree n) (position : Nat) (ho : operators ≤ maxOperators) :
    Absorbs policy levels bound ('(' :: body ++ [')']) tree (n + 1) rest position operators := by
  have hread := readGroup_derived h hbody rest position ho
  have hlength : position + ('(' :: body ++ [')']).length = position + 1 + body.length + 1 := by
    simp only [List.length_append, List.length_cons, List.length_nil]
    omega
  have hfits : tree.Fits (n + 1) (levels + 1) operators ↔ tree.Fits n levels operators := by
    simp only [Fits, Nat.add_le_add_iff_right]
  refine absorbs_of_operand ?_ hfits
  rw [hlength]
  simp only [List.cons_append, List.append_assoc, List.nil_append]
  exact hread

theorem absorbs_choice (h : ReadsAll policy levels) {c t f : List Char}
    {condition whenTrue whenFalse : Expr} {l m n : Nat} (hc : Derives .comparison c condition l)
    (ht : Derives .comparison t whenTrue m) (hf : Derives .comparison f whenFalse n)
    (position : Nat) (ho : operators ≤ maxOperators) :
    Absorbs policy levels bound ('i' :: 'f' :: '(' :: c ++ ',' :: t ++ ',' :: f ++ [')'])
      (conditional condition whenTrue whenFalse) (max l (max m n) + 1) rest position operators := by
  have hread := readChoice_derived h hc ht hf rest position ho
  have hlength : position + ('i' :: 'f' :: '(' :: c ++ ',' :: t ++ ',' :: f ++ [')']).length =
      position + 1 + 1 + 1 + c.length + 1 + t.length + 1 + f.length + 1 := by
    simp only [List.length_append, List.length_cons, List.length_nil]
    omega
  have hfits : (conditional condition whenTrue whenFalse).Fits (max l (max m n) + 1) (levels + 1)
      operators ↔
        (conditional condition whenTrue whenFalse).Fits (max l (max m n)) levels operators := by
    simp only [Fits, Nat.add_le_add_iff_right]
  refine absorbs_of_operand ?_ hfits
  rw [hlength]
  simp only [List.cons_append, List.append_assoc, List.nil_append]
  exact hread

/-- An operator and its right operand are read by the loop that has read the left one. -/
theorem absorbs_join (h : ReadsAll policy levels) (op : Operator) {left right : Expr}
    {l r : List Char} {m n : Nat} (hb : bound ≤ op.phrase.bound)
    (hleft : ∀ rest, Ends op.phrase.limit rest →
      Absorbs policy levels bound l left m rest position operators)
    (hl : Derives op.phrase l left m) (hr : Derives op.operand r right n)
    (he : Ends op.phrase.limit rest) :
    Absorbs policy levels bound (l ++ op.symbol :: r) (binary op left right) (max m (n + 1)) rest
      position operators := by
  rw [op.limit_phrase] at he hleft
  obtain ⟨rounds, hrounds, habsorbs⟩ := hleft (op.symbol :: (r ++ rest)) (.operator op)
  obtain ⟨rounds, rfl⟩ : ∃ more, rounds = more + 1 :=
    Nat.exists_eq_add_one.mpr ((Nat.succ_pos _).trans_le hrounds)
  rw [List.length_cons, List.length_append] at hrounds
  refine ⟨rounds, by omega, ?_⟩
  have htext : l ++ op.symbol :: r ++ rest = l ++ op.symbol :: (r ++ rest) := List.append_assoc _ _ _
  have hlength : position + (l ++ op.symbol :: r).length = position + l.length + 1 + r.length := by
    rw [List.length_append, List.length_cons]
    omega
  have hcount : operators + (binary op left right).operators =
      operators + left.operators + 1 + right.operators := by
    simp only [Expr.operators]
    omega
  have hbound : bound < op.power := hb.trans_lt op.bound_phrase_lt
  have hround (hk : left.Fits m (levels + 1) operators) :=
    readOperators_derived h hbound hl.ne_degenerate hr he rounds (position + l.length) hk.2
  rw [htext, hlength, hcount]
  refine (habsorbs.trans hround).congr ?_
  simp only [Fits, Expr.operators]
  omega

/-- **The loop absorbs a phrase**: by induction on the derivation, in which the left operands are
phrases that the same loop has absorbed. -/
theorem absorbs_derived (h : ReadsAll policy levels) (hd : Derives phrase text tree n)
    (hb : bound ≤ phrase.bound) (position : Nat) (ho : operators ≤ maxOperators)
    (he : Ends phrase.limit rest) :
    Absorbs policy levels bound text tree n rest position operators := by
  induction hd generalizing rest with
  | literal hlit => exact absorbs_literal hlit position ho he
  | travelled => exact absorbs_of_operand (.of_eq trivial rfl) (iff_true_intro ⟨by omega, ho⟩)
  | estimate => exact absorbs_of_operand (.of_eq trivial rfl) (iff_true_intro ⟨by omega, ho⟩)
  | group hbody _ => exact absorbs_group h hbody position ho
  | choice hc ht hf _ _ _ => exact absorbs_choice h hc ht hf position ho
  | ofAtom _ ih => exact ih (hb.trans (by decide)) he
  | ofProduct _ ih => exact ih (hb.trans (by decide)) (he.mono (by decide))
  | ofSum _ ih => exact ih (hb.trans (by decide)) (he.mono (by decide))
  | times hl hr ihl _ => exact absorbs_join h .multiply hb (fun _ he' => ihl hb he') hl hr he
  | plus hl hr ihl _ => exact absorbs_join h .add hb (fun _ he' => ihl hb he') hl hr he
  | minus hl hr ihl _ => exact absorbs_join h .subtract hb (fun _ he' => ihl hb he') hl hr he
  | less hl hr ihl _ => exact absorbs_join h .lessThan hb (fun _ he' => ihl hb he') hl hr he

/-- **A phrase is read as its tree** if the levels and operators that are left are enough for it, and
a strict reading fails if they are not. -/
theorem readsAll (policy : Policy) (levels : Nat) : ReadsAll policy levels := by
  induction levels with
  | zero =>
      intro phrase text tree n hd rest position operators _ _
      exact bounded_giveUp (fun hk => absurd hk.1 (Nat.not_le.mpr hd.nesting_pos)) _ _
  | succ levels ih =>
      intro phrase text tree n hd rest position operators he ho
      obtain ⟨rounds, _, habsorbs⟩ :=
        absorbs_derived ih hd (Nat.le_refl _) position ho (he.mono phrase.bound_le_limit)
      exact (habsorbs.trans fun _ => .of_eq trivial (readOperators_ends rounds tree he)).congr
        (and_iff_left trivial).symm

/-- A whole text that is derived is read if it fits, and refused by a strict reading if not. -/
theorem read_derived (policy : Policy) (hd : Derives .comparison text tree n) :
    Bounded policy (tree.Fits n maxNesting 0) (read policy text) (.ok tree) := by
  have h := readsAll policy maxNesting hd 0 Ends.nil (Nat.zero_le _)
  rw [List.append_nil] at h
  exact h.bind_ok rfl

end Expr

end Wayfinding
