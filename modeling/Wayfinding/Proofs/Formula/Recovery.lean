import Wayfinding.Proofs.Formula.Misplaced

/-!
# What a lenient reading makes of a fault

* `Mirrors`: a lenient reading has the result of the strict one if there is one. Where the strict one
  fails for any cause but a bare operator, the lenient one has read nothing: a part of an expression
  is degenerate, and so is every expression around it (`mirrors_expression`).
* `LeftOver`: a text ends with a fault, but what stands before it is a formula. The fault lies behind
  the expression then, and not in it (`read_strict_ne_ok`).
* `readLenient_of_readStrict`: so a lenient reading of a text is known from the strict one, unless
  that one ends with a bare operator.
-/

namespace Wayfinding

open String (utf8Len)

/-! ## 1. Two readings of one text -/

/-- The lenient reading `y` has a result, which is that of the strict reading `x` if there is one.
If `x` fails for another cause than a bare operator, it is one of those that stand for nothing. -/
structure Mirrors {α : Type} (nothing : α → Prop) (x y : Except Fault α) : Prop where
  total : ∃ a, y = .ok a
  ok : ∀ a, x = .ok a → y = .ok a
  error : ∀ fault, x = .error fault → (∀ symbol, fault.cause ≠ .operator symbol) →
    ∀ a, y = .ok a → nothing a

namespace Mirrors

variable {α β : Type} {nothing : α → Prop} {nothing' : β → Prop}

theorem refl (a : α) : Mirrors nothing (.ok a) (.ok a) where
  total := ⟨a, rfl⟩
  ok _ h := h
  error _ h := by cases h

theorem recover (fault : Fault) {instead : α} (h : nothing instead) :
    Mirrors nothing (Policy.strict.recover fault instead)
      (Policy.lenient.recover fault instead) where
  total := ⟨instead, rfl⟩
  ok _ h := by cases h
  error _ _ _ a ha := by
    cases ha
    exact h

/-- What follows a mirrored reading has to keep nothing as nothing. -/
theorem bind {x y : Except Fault α} {f g : α → Except Fault β} (h : Mirrors nothing x y)
    (hf : ∀ a, Mirrors nothing' (f a) (g a))
    (hg : ∀ a, nothing a → ∀ b, g a = .ok b → nothing' b) :
    Mirrors nothing' (x >>= f) (y >>= g) := by
  obtain ⟨a, ha⟩ := h.total
  subst ha
  refine ⟨(hf a).total, fun b hb => ?_, fun fault hfault hcause b hb => ?_⟩
  · obtain ⟨a', ha', hb⟩ := bind_eq_ok hb
    cases h.ok a' ha'
    exact (hf a).ok b hb
  · rcases bind_eq_error hfault with hx | ⟨a', ha', hfault⟩
    · exact hg a (h.error fault hx hcause a rfl) b hb
    · cases h.ok a' ha'
      exact (hf a).error fault hfault hcause b hb

end Mirrors

namespace Expr

variable {levels bound : Nat} {k k' : Cursor} {tree : Expr} {fault : Fault}

/-- The result of a reading that could read nothing. -/
def IsNothing (result : Expr × Cursor) : Prop :=
  result.1 = degenerate

/-- A lenient reading of any part of an expression mirrors the strict one. -/
def MirrorsPart (part : Policy → Part) : Prop :=
  ∀ k, Mirrors IsNothing (part .strict k) (part .lenient k)

theorem mirrors_failAt (cause : FaultCause) : MirrorsPart fun policy => failAt policy cause :=
  fun _ => .recover _ rfl

theorem mirrors_giveUp (cause : FaultCause) : MirrorsPart fun policy => giveUp policy cause :=
  fun _ => .recover _ rfl

/-- A character that is missing counts as read nowhere. -/
theorem mirrors_expect (wanted : Char) (k : Cursor) :
    Mirrors (fun result => result.1 = false) (k.expect .strict wanted)
      (k.expect .lenient wanted) := by
  unfold Cursor.expect
  by_cases h : k.rest.head? = some wanted
  · simp only [if_pos h]
    exact .refl _
  · simp only [if_neg h]
    exact .recover _ rfl

theorem mirrors_readConstant : MirrorsPart readConstant := by
  intro k
  unfold readConstant
  dsimp only
  by_cases hpoint : k.skipDigits.rest.head? = some '.'
  · simp only [if_pos hpoint]
    by_cases hnone : k.skipDigits.skip.digits = []
    · simp only [if_pos hnone]
      exact mirrors_failAt _ _
    · simp only [if_neg hnone]
      exact .refl _
  · simp only [if_neg hpoint]
    exact .refl _

section Inside

variable {inside : Policy → Nat → Part}

theorem mirrors_readUntil (hin : ∀ bound, MirrorsPart fun policy => inside policy bound)
    (closing : Char) : MirrorsPart fun policy => readUntil policy closing (inside policy) := by
  intro k
  refine (hin 0 k).bind (fun r => (mirrors_expect closing r.2).bind (fun _ => .refl _) ?_) ?_
  · rintro ⟨closed, k'⟩ hclosed b hb
    cases hb
    exact if_neg (Bool.eq_false_iff.mp hclosed)
  · rintro ⟨tree, k'⟩ htree b hb
    obtain ⟨⟨closed, k''⟩, -, hb⟩ := bind_eq_ok hb
    cases hb
    cases htree
    exact ite_self degenerate

theorem mirrors_readBranches (hin : ∀ bound, MirrorsPart fun policy => inside policy bound) :
    MirrorsPart fun policy => readBranches policy (inside policy) := by
  intro k
  refine (mirrors_readUntil hin ',' k).bind (fun condition =>
    (mirrors_readUntil hin ',' condition.2).bind (fun whenTrue =>
      (mirrors_readUntil hin ')' whenTrue.2).bind (fun whenFalse => .refl _) ?_) ?_) ?_
  · rintro ⟨whenFalse, k'⟩ hnothing b hb
    cases hb
    exact choose_eq_degenerate_iff.mpr (Or.inr (Or.inr hnothing))
  · rintro ⟨whenTrue, k'⟩ hnothing b hb
    obtain ⟨_, -, hb⟩ := bind_eq_ok hb
    cases hb
    exact choose_eq_degenerate_iff.mpr (Or.inr (Or.inl hnothing))
  · rintro ⟨condition, k'⟩ hnothing b hb
    obtain ⟨_, -, hb⟩ := bind_eq_ok hb
    obtain ⟨_, -, hb⟩ := bind_eq_ok hb
    cases hb
    exact choose_eq_degenerate_iff.mpr (Or.inl hnothing)

theorem mirrors_readChoice (hin : ∀ bound, MirrorsPart fun policy => inside policy bound) :
    MirrorsPart fun policy => readChoice policy (inside policy) := by
  intro k
  unfold readChoice
  by_cases hlt : k.operators < maxOperators
  · simp only [if_pos hlt]
    refine (mirrors_expect '(' _).bind ?_ ?_
    · rintro ⟨opened, k'⟩
      cases opened with
      | true => exact mirrors_readBranches hin k'
      | false => exact .refl _
    · rintro ⟨opened, k'⟩ hopened b hb
      cases hopened
      cases hb
      rfl
  · simp only [if_neg hlt]
    exact mirrors_giveUp _ k

/-- A bare operator is the fault after which a lenient reading may go on with an expression. -/
theorem mirrors_readBareOperator (hin : ∀ bound, MirrorsPart fun policy => inside policy bound)
    (op : Operator) : MirrorsPart fun policy => readBareOperator policy (inside policy) op := by
  intro k
  refine ⟨(hin op.power k.skip).total, fun a h => ?_, fun fault h hcause => ?_⟩
  · cases h
  · cases h
    exact absurd rfl (hcause op.symbol)

theorem mirrors_readOperand (hin : ∀ bound, MirrorsPart fun policy => inside policy bound) :
    MirrorsPart fun policy => readOperand policy (inside policy) := by
  intro k
  obtain ⟨part, hpart, hat⟩ := exists_operandAt k
  simp only [hpart]
  cases hat with
  | nothing _ => exact mirrors_failAt _ k
  | constant _ _ => exact mirrors_readConstant k
  | travelled _ => exact .refl _
  | estimate _ => exact .refl _
  | choice _ => exact mirrors_readChoice hin k
  | group _ => exact mirrors_readUntil hin ')' k.skip
  | operator _ => exact mirrors_readBareOperator hin _ k
  | misplaced _ => exact .recover _ rfl

theorem mirrors_readOperator (hin : ∀ bound, MirrorsPart fun policy => inside policy bound)
    (op : Operator) (left : Expr) :
    MirrorsPart fun policy => readOperator policy (inside policy) op left := by
  intro k
  unfold readOperator
  by_cases hlt : k.operators < maxOperators
  · simp only [if_pos hlt]
    refine (hin op.power _).bind (fun _ => .refl _) ?_
    rintro ⟨right, k'⟩ hnothing b hb
    cases hb
    exact join_eq_degenerate_iff.mpr (Or.inr hnothing)
  · simp only [if_neg hlt]
    exact mirrors_giveUp _ k

/-- Operators after a degenerate operand leave it degenerate. -/
theorem isNothing_readOperators {inside : Nat → Part} {rounds : Nat} {result : Expr × Cursor}
    (h : readOperators .lenient inside bound rounds degenerate k = .ok result) :
    IsNothing result := by
  induction rounds generalizing k with
  | zero =>
      cases h
      rfl
  | succ rounds ih =>
      unfold readOperators at h
      cases hop : k.rest.head?.bind Operator.ofSymbol? with
      | none =>
          simp only [hop] at h
          cases h
          rfl
      | some op =>
          simp only [hop] at h
          by_cases hbound : bound < op.power
          · simp only [if_pos hbound] at h
            obtain ⟨⟨joined, k'⟩, hjoined, h⟩ := bind_eq_ok h
            have hnothing : joined = degenerate := by
              unfold readOperator at hjoined
              by_cases hlt : k.operators < maxOperators
              · simp only [if_pos hlt] at hjoined
                obtain ⟨⟨right, k''⟩, -, hjoined⟩ := bind_eq_ok hjoined
                cases hjoined
                exact join_eq_degenerate_iff.mpr (Or.inl rfl)
              · simp only [if_neg hlt] at hjoined
                cases hjoined
                rfl
            subst hnothing
            exact ih h
          · simp only [if_neg hbound] at h
            cases h
            rfl

theorem mirrors_readOperators (hin : ∀ bound, MirrorsPart fun policy => inside policy bound)
    (rounds : Nat) (left : Expr) :
    MirrorsPart fun policy => readOperators policy (inside policy) bound rounds left := by
  induction rounds generalizing left with
  | zero => exact fun k => .refl _
  | succ rounds ih =>
      intro k
      simp only [readOperators]
      cases k.rest.head?.bind Operator.ofSymbol? with
      | none => exact .refl _
      | some op =>
          by_cases hbound : bound < op.power
          · simp only [if_pos hbound]
            refine (mirrors_readOperator hin op left k).bind (fun joined => ih joined.1 joined.2) ?_
            rintro ⟨joined, k'⟩ hnothing b hb
            cases hnothing
            exact isNothing_readOperators hb
          · simp only [if_neg hbound]
            exact .refl _

end Inside

/-- **A lenient reading of an expression mirrors the strict one**, by induction on the levels. -/
theorem mirrors_expression (levels bound : Nat) :
    MirrorsPart fun policy => expression policy levels bound := by
  induction levels generalizing bound with
  | zero => exact mirrors_giveUp _
  | succ levels ih =>
      intro k
      refine (mirrors_readOperand ih k).bind
        (fun left => mirrors_readOperators ih _ left.1 left.2) ?_
      rintro ⟨left, k'⟩ hnothing b hb
      cases hnothing
      exact isNothing_readOperators hb

end Expr

/-! ## 2. Texts -/

/-- A text has one beginning of a given number of bytes. -/
theorem append_inj_of_utf8Len {head tail head' tail' : List Char}
    (h : head ++ tail = head' ++ tail') (hsize : utf8Len head = utf8Len head') : head = head' := by
  induction head generalizing head' with
  | nil => exact (String.utf8Len_eq_zero.mp hsize.symm).symm
  | cons c head ih =>
      cases head' with
      | nil => exact String.utf8Len_eq_zero.mp hsize
      | cons c' head' =>
          obtain ⟨rfl, htail⟩ := List.cons.inj h
          rw [String.utf8Len_cons, String.utf8Len_cons] at hsize
          rw [ih htail (Nat.add_right_cancel hsize)]

namespace Expr

variable {cs head tail : List Char} {k : Cursor} {tree : Expr} {fault : Fault}

/-- A text has the tree of the expression at its beginning. -/
theorem expression_of_read {policy : Policy} (h : read policy cs = .ok tree) :
    ∃ k, expression policy maxNesting 0 (Cursor.start cs) = .ok (tree, k) := by
  obtain ⟨⟨tree', k⟩, hexpression, h⟩ := bind_eq_ok h
  have htree : tree' = tree := by
    cases hrest : k.rest with
    | nil =>
        simp only [hrest] at h
        cases h
        rfl
    | cons c rest =>
        simp only [hrest] at h
        cases policy with
        | strict => cases h
        | lenient =>
            cases h
            rfl
  exact ⟨k, htree ▸ hexpression⟩

/-- A strict reading fails in the expression, or behind it. -/
theorem read_strict_eq_error (h : read .strict cs = .error fault) :
    expression .strict maxNesting 0 (Cursor.start cs) = .error fault ∨
      ∃ tree k c, expression .strict maxNesting 0 (Cursor.start cs) = .ok (tree, k) ∧
        fault = k.unexpected c := by
  rcases bind_eq_error h with h | ⟨⟨tree, k⟩, hexpression, h⟩
  · exact Or.inl h
  · cases hrest : k.rest with
    | nil =>
        simp only [hrest] at h
        cases h
    | cons c rest =>
        simp only [hrest] at h
        cases h
        exact Or.inr ⟨tree, k, c, hexpression, rfl⟩

/-- What is left over does not matter to a lenient reading. -/
theorem read_lenient_of_expression
    (h : expression .lenient maxNesting 0 (Cursor.start cs) = .ok (tree, k)) :
    read .lenient cs = .ok tree := by
  simp only [read, h, bind, Except.bind]
  cases k.rest with
  | nil => rfl
  | cons c rest => rfl

/-- What stands before the rest is a text of its own with the same tree. -/
theorem exists_head_of_expression
    (h : expression .strict maxNesting 0 (Cursor.start cs) = .ok (tree, k)) :
    ∃ head, cs = head ++ k.rest ∧ utf8Len head = k.position ∧ read .strict head = .ok tree := by
  obtain ⟨head, n, hpasses, hn, hd⟩ := (soundAll maxNesting .comparison h).1
  refine ⟨head, hpasses.rest, (Nat.zero_add _ ▸ hpasses.position).symm,
    (read_derived .strict hd).ok ⟨hn, ?_⟩⟩
  exact hpasses.operators ▸ hpasses.within (Nat.zero_le _)

/-- Before a misplaced character inside an expression stands no text that can be read on its own. -/
theorem read_strict_ne_ok
    (h : expression .strict maxNesting 0 (Cursor.start cs) = .error fault)
    (hm : fault.IsMisplaced) (hcs : cs = head ++ tail) (hsize : utf8Len head = fault.position) :
    read .strict head ≠ .ok tree := by
  intro hread
  obtain ⟨n, hd, -⟩ := derives_of_read hread
  obtain ⟨before, c, rfl, hc⟩ := hd.closesOperand
  rcases awaitsAll maxNesting h hm with hposition | ⟨before', c', rest, hrest, hc', hposition⟩
  · have hnil := String.utf8Len_eq_zero.mp (hsize.trans hposition)
    exact absurd hnil (List.append_ne_nil_of_right_ne_nil _ (List.cons_ne_nil c []))
  · have hhead : before ++ [c] = before' ++ [c'] := by
      refine append_inj_of_utf8Len (hcs.symm.trans hrest) (hsize.trans ?_)
      rw [hposition]
      exact Nat.zero_add _
    obtain ⟨-, hlast⟩ := List.append_inj' hhead rfl
    cases hlast
    exact not_endsOperand hc' hc

end Expr

/-! ## 3. Formulas -/

variable {policy : Policy} {source head : String} {formula : Formula} {fault : Fault} {tree : Expr}

theorem read_eq_ok (h : Formula.read policy source = .ok formula) :
    Expr.read policy source.toList = .ok formula.tree ∧ formula.source = source := by
  unfold Formula.read at h
  cases hread : Expr.read policy source.toList with
  | error fault =>
      rw [hread] at h
      cases h
  | ok tree =>
      rw [hread] at h
      cases h
      exact ⟨rfl, rfl⟩

theorem readStrict_eq_error (h : Formula.readStrict source = .error fault) :
    Expr.read .strict source.toList = .error fault := by
  unfold Formula.readStrict Formula.read at h
  cases hread : Expr.read .strict source.toList with
  | error fault' =>
      rw [hread] at h
      cases h
      rfl
  | ok tree =>
      rw [hread] at h
      cases h

theorem readLenient_eq (h : Expr.read .lenient source.toList = .ok tree) :
    Formula.readLenient source = ⟨source, tree⟩ := by
  unfold Formula.readLenient Formula.read
  rw [h]
  rfl

/-- Where a strict reading succeeds, a lenient one has the same formula. -/
theorem readLenient_of_ok (h : Formula.readStrict source = .ok formula) :
    Formula.readLenient source = formula := by
  obtain ⟨hread, hsource⟩ := read_eq_ok h
  obtain ⟨k, hexpression⟩ := Expr.expression_of_read hread
  have hmirrors := Expr.mirrors_expression maxNesting 0 (Cursor.start source.toList)
  rw [readLenient_eq (Expr.read_lenient_of_expression (hmirrors.ok _ hexpression)), ← hsource]

/-- A misplaced character is left over behind a text that is a formula on its own. -/
structure LeftOver (source : String) (fault : Fault) (formula : Formula) : Prop where
  misplaced : fault.IsMisplaced
  before : ∃ head tail, source = head ++ tail ∧ head.utf8ByteSize = fault.position ∧
    Formula.readStrict head = .ok formula

/-- What is left over is ignored. -/
theorem readLenient_of_leftOver (h : Formula.readStrict source = .error fault)
    (hleft : LeftOver source fault formula) :
    (Formula.readLenient source).tree = formula.tree := by
  obtain ⟨hm, head, tail, hsource, hsize, hhead⟩ := hleft
  obtain ⟨hhead, -⟩ := read_eq_ok hhead
  have hmirrors := Expr.mirrors_expression maxNesting 0 (Cursor.start source.toList)
  have hcs : source.toList = head.toList ++ tail.toList := by
    rw [hsource, String.toList_append]
  have hbytes : utf8Len head.toList = fault.position := by
    rw [← hsize, ← String.utf8ByteSize_ofList, String.ofList_toList]
  rcases Expr.read_strict_eq_error (readStrict_eq_error h) with
    hexpression | ⟨tree, k, c, hexpression, rfl⟩
  · exact absurd hhead (Expr.read_strict_ne_ok hexpression hm hcs hbytes)
  · obtain ⟨head', hcs', hbytes', hhead'⟩ := Expr.exists_head_of_expression hexpression
    have hsame : head.toList = head' :=
      append_inj_of_utf8Len (hcs.symm.trans hcs') (hbytes.trans hbytes'.symm)
    rw [hsame, hhead'] at hhead
    cases hhead
    rw [readLenient_eq (Expr.read_lenient_of_expression (hmirrors.ok _ hexpression))]

/-- Any other text that is refused is degenerate as a whole, a bare operator apart. -/
theorem readLenient_of_error (h : Formula.readStrict source = .error fault)
    (hcause : ∀ symbol, fault.cause ≠ .operator symbol)
    (hleft : ∀ formula, ¬ LeftOver source fault formula) :
    (Formula.readLenient source).tree = .degenerate := by
  rcases Expr.read_strict_eq_error (readStrict_eq_error h) with
    hexpression | ⟨tree, k, c, hexpression, rfl⟩
  · have hmirrors := Expr.mirrors_expression maxNesting 0 (Cursor.start source.toList)
    obtain ⟨⟨tree, k⟩, hlenient⟩ := hmirrors.total
    have hnothing : tree = .degenerate := hmirrors.error fault hexpression hcause _ hlenient
    rw [readLenient_eq (Expr.read_lenient_of_expression hlenient), hnothing]
  · obtain ⟨head, hcs, hbytes, hhead⟩ := Expr.exists_head_of_expression hexpression
    refine absurd ⟨isMisplaced_unexpected k c, String.ofList head, String.ofList k.rest, ?_, ?_, ?_⟩
      (hleft ⟨String.ofList head, tree⟩)
    · rw [← String.ofList_append, ← hcs, String.ofList_toList]
    · rw [String.utf8ByteSize_ofList]
      exact hbytes
    · unfold Formula.readStrict Formula.read
      rw [String.toList_ofList, hhead]
      rfl

/-- **A lenient reading is known from the strict one.** It has the formula of a strict reading that
succeeds. Of a text with something left over it has the tree of what stands before that. Otherwise a
text that is refused is degenerate as a whole, unless a bare operator is the fault. -/
theorem readLenient_of_readStrict (source : String) :
    (∀ formula, Formula.readStrict source = .ok formula → Formula.readLenient source = formula) ∧
    (∀ fault formula, Formula.readStrict source = .error fault → LeftOver source fault formula →
      (Formula.readLenient source).tree = formula.tree) ∧
    (∀ fault, Formula.readStrict source = .error fault →
      (∀ symbol, fault.cause ≠ .operator symbol) → (∀ formula, ¬ LeftOver source fault formula) →
        (Formula.readLenient source).tree = .degenerate) :=
  ⟨fun _ => readLenient_of_ok, fun _ _ => readLenient_of_leftOver, fun _ => readLenient_of_error⟩

/-- A sum, a sum with a parenthesis left over, and one with a parenthesis that is missing. -/
theorem readLenient_sums :
    Formula.readLenient "G+H" = ⟨"G+H", .binary .add .travelled .estimate⟩ ∧
      (Formula.readLenient "G+H)").tree = .binary .add .travelled .estimate ∧
      (Formula.readLenient "(G+H").tree = .degenerate := by
  have hsum : Formula.readStrict "G+H" = .ok ⟨"G+H", .binary .add .travelled .estimate⟩ := by rfl
  have hleft : LeftOver "G+H)" ⟨3, .unexpected ')'⟩ ⟨"G+H", .binary .add .travelled .estimate⟩ :=
    ⟨trivial, "G+H", ")", rfl, rfl, hsum⟩
  refine ⟨(readLenient_of_readStrict _).1 _ hsum,
    (readLenient_of_readStrict _).2.1 _ _ (by rfl) hleft,
    (readLenient_of_readStrict _).2.2 ⟨4, .missing ')' none⟩ (by rfl) (fun _ => nofun)
      fun _ hleft => hleft.misplaced⟩

end Wayfinding
