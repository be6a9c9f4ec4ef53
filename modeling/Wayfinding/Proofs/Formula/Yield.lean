import Wayfinding.Formula.Report
import Wayfinding.Proofs.Formula.Recovery

/-!
# What a reading yields

* `Expr.Assembled`: the tree is put together from leaves with `join` and `choose`. So it is
  degenerate as a whole or nowhere (`Assembled.isWhole`).
* `Before k k'` and `Lies k position`: places of the text behind a cursor, which are never in the
  middle of a character.
* `Yields k result`: the tree of the result was assembled, the cursor stands where `k` stood or
  further on, and the operators and choices of the tree were counted on the way. In a lenient
  reading more may have been counted, for what turned out degenerate.
* `readOperators_rounds`: the loop over operators needs no more rounds than there are characters.
* `yields_expression`: every reading yields such a result, whatever its policy. The induction is on
  the levels, and in each of them on the rounds of the loop.
* `degenerate_whole_or_nowhere`: so a formula is degenerate as a whole or nowhere, and one that is
  degenerate has the greatest value everywhere.
-/

namespace Wayfinding

open String (utf8Len)

/-! ## 1. Assembled trees -/

namespace Expr

variable {op : Operator} {tree left right condition whenTrue whenFalse : Expr}

/-- The tree is put together from leaves with `join` and `choose` only. -/
inductive Assembled : Expr → Prop where
  | constant (value : Float) : Assembled (constant value)
  | travelled : Assembled travelled
  | estimate : Assembled estimate
  | degenerate : Assembled degenerate
  | join (op : Operator) {left right : Expr} (hl : Assembled left) (hr : Assembled right) :
      Assembled (join op left right)
  | choose {condition whenTrue whenFalse : Expr} (hc : Assembled condition)
      (ht : Assembled whenTrue) (hf : Assembled whenFalse) :
      Assembled (choose condition whenTrue whenFalse)

/-- The tree is degenerate as a whole or nowhere. -/
def IsWhole (tree : Expr) : Prop :=
  tree = degenerate ∨ tree.hasDegenerate = false

theorem IsWhole.join (op : Operator) (hl : left.IsWhole) (hr : right.IsWhole) :
    (join op left right).IsWhole := by
  by_cases hnone : left = degenerate ∨ right = degenerate
  · exact Or.inl (join_eq_degenerate_iff.mpr hnone)
  · obtain ⟨hl', hr'⟩ := not_or.mp hnone
    rw [join_of_ne hl' hr']
    exact Or.inr (Bool.or_eq_false_iff.mpr ⟨hl.resolve_left hl', hr.resolve_left hr'⟩)

theorem IsWhole.choose (hc : condition.IsWhole) (ht : whenTrue.IsWhole) (hf : whenFalse.IsWhole) :
    (choose condition whenTrue whenFalse).IsWhole := by
  by_cases hnone : condition = degenerate ∨ whenTrue = degenerate ∨ whenFalse = degenerate
  · exact Or.inl (choose_eq_degenerate_iff.mpr hnone)
  · obtain ⟨hc', hnone⟩ := not_or.mp hnone
    obtain ⟨ht', hf'⟩ := not_or.mp hnone
    rw [choose_of_ne hc' ht' hf']
    exact Or.inr (Bool.or_eq_false_iff.mpr ⟨Bool.or_eq_false_iff.mpr
      ⟨hc.resolve_left hc', ht.resolve_left ht'⟩, hf.resolve_left hf'⟩)

/-- **An assembled tree is degenerate as a whole or nowhere.** -/
theorem Assembled.isWhole (h : tree.Assembled) : tree.IsWhole := by
  induction h with
  | constant _ => exact Or.inr rfl
  | travelled => exact Or.inr rfl
  | estimate => exact Or.inr rfl
  | degenerate => exact Or.inl rfl
  | join op _ _ ihl ihr => exact ihl.join op ihr
  | choose _ _ _ ihc iht ihf => exact ihc.choose iht ihf

theorem IsWhole.eq_degenerate (h : tree.IsWhole) (hd : tree.hasDegenerate = true) :
    tree = degenerate :=
  h.resolve_right fun hnone => Bool.noConfusion (hd.symm.trans hnone)

/-- An operator between two trees counts once more, if it is there at all. -/
theorem operators_join_le (op : Operator) (left right : Expr) :
    (join op left right).operators ≤ left.operators + right.operators + 1 := by
  by_cases hnone : left = degenerate ∨ right = degenerate
  · rw [join_eq_degenerate_iff.mpr hnone]
    exact Nat.zero_le _
  · obtain ⟨hl, hr⟩ := not_or.mp hnone
    rw [join_of_ne hl hr, Expr.operators]

theorem operators_choose_le (condition whenTrue whenFalse : Expr) :
    (choose condition whenTrue whenFalse).operators ≤
      condition.operators + whenTrue.operators + whenFalse.operators + 1 := by
  by_cases hnone : condition = degenerate ∨ whenTrue = degenerate ∨ whenFalse = degenerate
  · rw [choose_eq_degenerate_iff.mpr hnone]
    exact Nat.zero_le _
  · obtain ⟨hc, hnone⟩ := not_or.mp hnone
    obtain ⟨ht, hf⟩ := not_or.mp hnone
    rw [choose_of_ne hc ht hf, Expr.operators]

end Expr

/-! ## 2. Moves of the cursor under any policy -/

namespace Passes

variable {policy : Policy} {k k' : Cursor}

theorem skipDigits (k : Cursor) : Passes k k.digits 0 k.skipDigits where
  rest := List.takeWhile_append_dropWhile.symm
  position := by
    have hd : ∀ c ∈ k.digits, c.isDigit = true := fun c hc => List.mem_takeWhile_imp hc
    rw [utf8Len_digits hd]
    rfl
  operators := rfl
  within := id

theorem skipAll (k : Cursor) : Passes k k.rest 0 k.skipAll where
  rest := (List.append_nil _).symm
  position := by
    have hsum (cs : List Char) (bytes : Nat) :
        cs.foldl (fun bytes c => bytes + c.utf8Size) bytes = bytes + utf8Len cs := by
      induction cs generalizing bytes with
      | nil => rfl
      | cons c cs ih =>
          rw [List.foldl_cons, ih, String.utf8Len_cons, Nat.add_comm (utf8Len cs), Nat.add_assoc]
    exact hsum k.rest k.position
  operators := rfl
  within := id

/-- A character is skipped if there is one. -/
theorem exists_skip (k : Cursor) : ∃ text, Passes k text 0 k.skip := by
  cases hrest : k.rest with
  | nil =>
      refine ⟨[], ?_⟩
      unfold Cursor.skip
      rw [hrest]
      exact .nil
  | cons c rest => exact ⟨[c], .skip hrest⟩

/-- The wanted character is passed, or nothing is. -/
theorem exists_expect {wanted : Char} {found : Bool}
    (h : k.expect policy wanted = .ok (found, k')) : ∃ text, Passes k text 0 k' := by
  unfold Cursor.expect at h
  by_cases hhead : k.rest.head? = some wanted
  · rw [if_pos hhead] at h
    cases h
    exact exists_skip k
  · rw [if_neg hhead] at h
    cases policy with
    | strict => cases h
    | lenient =>
        cases h
        exact ⟨[], .nil⟩

end Passes

/-- A digit has one byte. -/
theorem utf8Size_digit {c : Char} (hc : c.isDigit = true) : c.utf8Size = 1 := by
  have hone : String.utf8Len [c] = [c].length := utf8Len_digits (by simpa using hc)
  rwa [String.utf8Len_cons, String.utf8Len_nil, Nat.zero_add] at hone

/-- Where no digits stand, none are skipped. -/
theorem Cursor.skipDigits_eq_self {k : Cursor} (h : k.digits = []) : k.skipDigits = k := by
  obtain ⟨cs, position, operators⟩ := k
  have hdrop : cs.dropWhile Char.isDigit = cs := by
    have hsplit := List.takeWhile_append_dropWhile (p := Char.isDigit) (l := cs)
    rwa [show cs.takeWhile Char.isDigit = [] from h] at hsplit
  unfold Cursor.skipDigits
  rw [h]
  exact congrArg (Cursor.mk · position operators) hdrop

/-- Digits are skipped one after the other. -/
theorem Cursor.skipDigits_skip {k : Cursor} {c : Char} {rest : List Char}
    (hrest : k.rest = c :: rest) (hc : c.isDigit = true) :
    k.skip.skipDigits = k.skipDigits := by
  obtain ⟨cs, position, operators⟩ := k
  cases hrest
  unfold Cursor.skip Cursor.skipDigits Cursor.digits
  simp only [utf8Size_digit hc, List.takeWhile_cons_of_pos hc, List.dropWhile_cons_of_pos hc,
    List.length_cons]
  congr 1
  omega

/-! ## 3. Places behind a cursor -/

/-- A reading of anything from a cursor on. -/
abbrev Reading (α : Type) := Cursor → Except Fault (α × Cursor)

/-- The cursor `k'` stands in the same text as `k`, there or further on. -/
def Before (k k' : Cursor) : Prop :=
  ∃ text, k.rest = text ++ k'.rest ∧ k'.position = k.position + utf8Len text

/-- The byte lies between two characters of the text behind the cursor, or at one of its ends. -/
def Lies (k : Cursor) (position : Nat) : Prop :=
  ∃ before rest, k.rest = before ++ rest ∧ position = k.position + utf8Len before

section Before

variable {k k₁ k' : Cursor} {position count : Nat} {text : List Char}

theorem Passes.before (h : Passes k text count k') : Before k k' :=
  ⟨text, h.rest, h.position⟩

theorem Before.refl (k : Cursor) : Before k k :=
  Passes.nil.before

theorem Before.trans (h : Before k k₁) (h' : Before k₁ k') : Before k k' := by
  obtain ⟨text, hrest, hposition⟩ := h
  obtain ⟨text', hrest', hposition'⟩ := h'
  refine ⟨text ++ text', ?_, ?_⟩
  · rw [hrest, hrest', List.append_assoc]
  · rw [hposition', hposition, String.utf8Len_append, Nat.add_assoc]

theorem Before.position_le (h : Before k k') : k.position ≤ k'.position := by
  obtain ⟨_, _, hposition⟩ := h
  exact hposition ▸ Nat.le_add_right _ _

theorem Before.skip (k : Cursor) : Before k k.skip := by
  obtain ⟨text, hpasses⟩ := Passes.exists_skip k
  exact hpasses.before

theorem Lies.here (k : Cursor) : Lies k k.position :=
  ⟨[], k.rest, rfl, rfl⟩

theorem Lies.after (h : Lies k' position) (hbefore : Before k k') : Lies k position := by
  obtain ⟨before, rest, hrest, hposition⟩ := h
  obtain ⟨text, hrest', hposition'⟩ := hbefore
  refine ⟨text ++ before, rest, ?_, ?_⟩
  · rw [hrest', hrest, List.append_assoc]
  · rw [hposition, hposition', String.utf8Len_append, Nat.add_assoc]

/-- Such a byte of a whole text is a valid position of it. -/
theorem Lies.isValid {source : String} (h : Lies (Cursor.start source.toList) position) :
    (⟨position⟩ : String.Pos.Raw).IsValid source := by
  obtain ⟨before, rest, hrest, hposition⟩ := h
  rw [String.Pos.Raw.isValid_iff_exists_append]
  refine ⟨String.ofList before, String.ofList rest, ?_, ?_⟩
  · rw [← String.ofList_append, ← show source.toList = before ++ rest from hrest,
      String.ofList_toList]
  · rw [hposition, ← String.utf8ByteSize_ofList]
    exact congrArg String.Pos.Raw.mk (Nat.zero_add _)

theorem Lies.le (h : Lies k position) : k.position ≤ position := by
  obtain ⟨_, _, _, hposition⟩ := h
  exact hposition ▸ Nat.le_add_right _ _

end Before

/-! ## 4. Results -/

namespace Expr

variable {policy : Policy} {levels bound rounds : Nat} {k k₁ : Cursor} {left : Expr}
  {op : Operator} {rest text : List Char} {result : Expr × Cursor}

/-- The tree was assembled on the way from `k` to the cursor of the result, and the operators in it
were counted. -/
structure Yields (k : Cursor) (result : Expr × Cursor) : Prop where
  assembled : result.1.Assembled
  passes : ∃ text count, Passes k text count result.2 ∧ result.1.operators ≤ count

/-- Every result of the part is such a one. -/
def YieldsPart (part : Part) : Prop :=
  ∀ {k : Cursor} {result : Expr × Cursor}, part k = .ok result → Yields k result

theorem Yields.after {count : Nat} (h : Yields k₁ result) (hpasses : Passes k text count k₁) :
    Yields k result := by
  obtain ⟨text', count', hpasses', hle⟩ := h.passes
  exact ⟨h.assembled, _, _, hpasses.trans hpasses', hle.trans (Nat.le_add_left _ _)⟩

theorem yields_leaf {tree : Expr} (hpasses : Passes k text 0 k₁) (ha : tree.Assembled)
    (h0 : tree.operators = 0) : Yields k (tree, k₁) :=
  ⟨ha, text, 0, hpasses, h0.le⟩

theorem yields_recover {fault : Fault} (hpasses : Passes k text 0 k₁)
    (h : policy.recover fault (degenerate, k₁) = .ok result) : Yields k result := by
  cases policy with
  | strict => cases h
  | lenient =>
      cases h
      exact yields_leaf hpasses .degenerate rfl

theorem yields_failAt (cause : FaultCause) : YieldsPart (failAt policy cause) :=
  fun h => yields_recover .nil h

theorem yields_giveUp (cause : FaultCause) : YieldsPart (giveUp policy cause) :=
  fun h => yields_recover (.skipAll _) h

theorem yields_readConstant : YieldsPart (readConstant policy) := by
  intro k result h
  unfold readConstant at h
  dsimp only at h
  have hwhole := Passes.skipDigits k
  by_cases hpoint : k.skipDigits.rest.head? = some '.'
  · rw [if_pos hpoint] at h
    obtain ⟨point, hskip⟩ := Passes.exists_skip k.skipDigits
    by_cases hnone : k.skipDigits.skip.digits = []
    · rw [if_pos hnone] at h
      exact (yields_failAt _ h).after (hwhole.trans hskip)
    · rw [if_neg hnone] at h
      cases h
      exact yields_leaf ((hwhole.trans hskip).trans (.skipDigits _)) (.constant _) rfl
  · rw [if_neg hpoint] at h
    cases h
    exact yields_leaf hwhole (.constant _) rfl

section Inside

variable {inside : Nat → Part}

theorem yields_readUntil (hin : ∀ bound, YieldsPart (inside bound)) (closing : Char) :
    YieldsPart (readUntil policy closing inside) := by
  intro k result h
  obtain ⟨⟨tree, k₁⟩, htree, h⟩ := bind_eq_ok h
  obtain ⟨⟨closed, k₂⟩, hclosed, h⟩ := bind_eq_ok h
  obtain ⟨text, hpasses⟩ := Passes.exists_expect hclosed
  obtain ⟨hassembled, text', count, hpasses', hle⟩ := hin 0 htree
  cases h
  refine ⟨?_, _, _, hpasses'.trans hpasses, ?_⟩
  · cases closed with
    | true => exact hassembled
    | false => exact .degenerate
  · cases closed with
    | true => exact hle
    | false => exact Nat.zero_le _

theorem yields_readGroup (hin : ∀ bound, YieldsPart (inside bound)) :
    YieldsPart (readGroup policy inside) := by
  intro k result h
  obtain ⟨text, hskip⟩ := Passes.exists_skip k
  exact (yields_readUntil hin ')' h).after hskip

/-- The operators of the three branches were counted, and there is one more for the choice. -/
theorem yields_readBranches (hin : ∀ bound, YieldsPart (inside bound))
    (h : readBranches policy inside k = .ok result) :
    result.1.Assembled ∧
      ∃ text count, Passes k text count result.2 ∧ result.1.operators ≤ count + 1 := by
  obtain ⟨⟨condition, k₁⟩, hcondition, h⟩ := bind_eq_ok h
  obtain ⟨⟨whenTrue, k₂⟩, hwhenTrue, h⟩ := bind_eq_ok h
  obtain ⟨⟨whenFalse, k₃⟩, hwhenFalse, h⟩ := bind_eq_ok h
  obtain ⟨hac, _, l, hpassesc, hlc⟩ := yields_readUntil hin ',' hcondition
  obtain ⟨hat, _, m, hpassest, hlt⟩ := yields_readUntil hin ',' hwhenTrue
  obtain ⟨haf, _, n, hpassesf, hlf⟩ := yields_readUntil hin ')' hwhenFalse
  cases h
  refine ⟨hac.choose hat haf, _, _, (hpassesc.trans hpassest).trans hpassesf, ?_⟩
  have hle := operators_choose_le condition whenTrue whenFalse
  dsimp only at hlc hlt hlf ⊢
  omega

theorem yields_readChoice (hin : ∀ bound, YieldsPart (inside bound)) :
    YieldsPart (readChoice policy inside) := by
  intro k result h
  unfold readChoice at h
  by_cases hlt : k.operators < maxOperators
  · simp only [if_pos hlt] at h
    obtain ⟨⟨opened, k₁⟩, hopened, h⟩ := bind_eq_ok h
    obtain ⟨_, hword⟩ := Passes.exists_skip k
    obtain ⟨_, hword'⟩ := Passes.exists_skip k.skip
    obtain ⟨_, hpasses⟩ := Passes.exists_expect hopened
    have hbegin := (hword.trans hword').trans
      (.countOperator (by rw [Cursor.operators_skip, Cursor.operators_skip]; exact hlt) hpasses)
    cases opened with
    | true =>
        obtain ⟨hassembled, _, count, hbranches, hle⟩ := yields_readBranches hin h
        refine ⟨hassembled, _, _, hbegin.trans hbranches, ?_⟩
        omega
    | false =>
        cases h
        exact ⟨.degenerate, _, _, hbegin, Nat.zero_le _⟩
  · rw [if_neg hlt] at h
    exact yields_giveUp _ h

theorem yields_readBareOperator (hin : ∀ bound, YieldsPart (inside bound)) (op : Operator) :
    YieldsPart (readBareOperator policy inside op) := by
  intro k result h
  cases policy with
  | strict => cases h
  | lenient =>
      obtain ⟨text, hskip⟩ := Passes.exists_skip k
      exact (hin op.power h).after hskip

theorem yields_readOperand (hin : ∀ bound, YieldsPart (inside bound)) :
    YieldsPart (readOperand policy inside) := by
  intro k result h
  obtain ⟨part, hpart, hat⟩ := exists_operandAt k
  rw [hpart] at h
  cases hat with
  | nothing _ => exact yields_failAt _ h
  | constant _ _ => exact yields_readConstant h
  | travelled hrest =>
      cases h
      exact yields_leaf (.skip hrest) .travelled rfl
  | estimate hrest =>
      cases h
      exact yields_leaf (.skip hrest) .estimate rfl
  | choice _ => exact yields_readChoice hin h
  | group _ => exact yields_readGroup hin h
  | operator _ => exact yields_readBareOperator hin _ h
  | misplaced hrest => exact yields_recover (.skip hrest) h

/-- What the operator and its right operand add to the left one was counted. -/
theorem yields_readOperator (hin : ∀ bound, YieldsPart (inside bound)) (hl : left.Assembled)
    (h : readOperator policy inside op left k = .ok result) :
    result.1.Assembled ∧ ∃ text count, Passes k text count result.2 ∧
      result.1.operators ≤ left.operators + count := by
  unfold readOperator at h
  by_cases hlt : k.operators < maxOperators
  · simp only [if_pos hlt] at h
    obtain ⟨⟨right, k₁⟩, hright, h⟩ := bind_eq_ok h
    obtain ⟨_, hskip⟩ := Passes.exists_skip k
    obtain ⟨hr, _, count, hpasses, hle⟩ := hin op.power hright
    cases h
    refine ⟨.join op hl hr, _, _,
      hskip.trans (.countOperator (by rw [Cursor.operators_skip]; exact hlt) hpasses), ?_⟩
    have hjoin := operators_join_le op left right
    dsimp only at hle ⊢
    omega
  · rw [if_neg hlt] at h
    obtain ⟨ha, _, count, hpasses, hle⟩ := yields_giveUp _ h
    exact ⟨ha, _, count, hpasses, hle.trans (Nat.le_add_left _ _)⟩

/-- The loop counts what it adds to the tree on its left. -/
theorem yields_readOperators (hin : ∀ bound, YieldsPart (inside bound)) (hl : left.Assembled)
    (h : readOperators policy inside bound rounds left k = .ok result) :
    result.1.Assembled ∧ ∃ text count, Passes k text count result.2 ∧
      result.1.operators ≤ left.operators + count := by
  induction rounds generalizing left k with
  | zero =>
      cases h
      exact ⟨hl, [], 0, .nil, Nat.le_refl _⟩
  | succ rounds ih =>
      unfold readOperators at h
      cases hop : k.rest.head?.bind Operator.ofSymbol? with
      | none =>
          simp only [hop] at h
          cases h
          exact ⟨hl, [], 0, .nil, Nat.le_refl _⟩
      | some op =>
          simp only [hop] at h
          by_cases hbound : bound < op.power
          · simp only [if_pos hbound] at h
            obtain ⟨⟨joined, k₁⟩, hjoined, h⟩ := bind_eq_ok h
            obtain ⟨ha, _, count, hpasses, hle⟩ := yields_readOperator hin hl hjoined
            obtain ⟨ha', _, count', hpasses', hle'⟩ := ih ha h
            refine ⟨ha', _, _, hpasses.trans hpasses', ?_⟩
            dsimp only at hle hle'
            omega
          · simp only [if_neg hbound] at h
            cases h
            exact ⟨hl, [], 0, .nil, Nat.le_refl _⟩

/-- An operator is passed where one is read. -/
theorem length_lt_of_readOperator (hin : ∀ bound, YieldsPart (inside bound)) (hrest : k.rest ≠ [])
    (h : readOperator policy inside op left k = .ok result) :
    result.2.rest.length < k.rest.length := by
  obtain ⟨c, rest, hrest⟩ := List.exists_cons_of_ne_nil hrest
  unfold readOperator at h
  by_cases hlt : k.operators < maxOperators
  · simp only [if_pos hlt] at h
    obtain ⟨⟨right, k₁⟩, hright, h⟩ := bind_eq_ok h
    obtain ⟨text, _, hpasses, -⟩ := (hin op.power hright).passes
    have hskip := (Passes.skip hrest).rest
    cases h
    rw [hskip, show k.skip.rest = text ++ k₁.rest from hpasses.rest]
    simp only [List.length_append, List.length_cons]
    omega
  · rw [if_neg hlt] at h
    cases policy with
    | strict => cases h
    | lenient =>
        cases h
        rw [hrest]
        exact Nat.succ_pos _

/-- Where the text ends, no round adds anything. -/
theorem readOperators_of_nil (left : Expr) (hnil : k.rest = []) :
    readOperators policy inside bound rounds left k = .ok (left, k) := by
  cases rounds with
  | zero => rfl
  | succ rounds =>
      unfold readOperators
      rw [hnil]
      rfl

/-- No more rounds are needed than there are characters. -/
theorem readOperators_rounds (hin : ∀ bound, YieldsPart (inside bound)) {rounds' : Nat}
    (left : Expr) (hle : k.rest.length ≤ rounds) (hle' : k.rest.length ≤ rounds') :
    readOperators policy inside bound rounds left k =
      readOperators policy inside bound rounds' left k := by
  induction rounds generalizing rounds' left k with
  | zero =>
      have hnil := List.length_eq_zero_iff.mp (Nat.le_zero.mp hle)
      rw [readOperators_of_nil left hnil, readOperators_of_nil left hnil]
  | succ rounds ih =>
      cases rounds' with
      | zero =>
          have hnil := List.length_eq_zero_iff.mp (Nat.le_zero.mp hle')
          rw [readOperators_of_nil left hnil, readOperators_of_nil left hnil]
      | succ rounds' =>
          unfold readOperators
          cases hop : k.rest.head?.bind Operator.ofSymbol? with
          | none => rfl
          | some op =>
              dsimp only
              by_cases hbound : bound < op.power
              · rw [if_pos hbound, if_pos hbound]
                cases hread : readOperator policy inside op left k with
                | error fault => rfl
                | ok result =>
                    have hrest : k.rest ≠ [] := by
                      intro hnil
                      rw [hnil] at hop
                      cases hop
                    -- The round has passed the operator, so one round less is enough for the rest.
                    have hlt := length_lt_of_readOperator hin hrest hread
                    exact ih result.1 (by omega) (by omega)
              · rw [if_neg hbound, if_neg hbound]

end Inside

/-- **Whatever a reading of an expression yields was assembled and counted.** -/
theorem yields_expression (policy : Policy) (levels bound : Nat) :
    YieldsPart (expression policy levels bound) := by
  induction levels generalizing bound with
  | zero => exact yields_giveUp _
  | succ levels ih =>
      intro k result h
      obtain ⟨⟨left, k₁⟩, hleft, h⟩ := bind_eq_ok h
      obtain ⟨hl, _, count, hpasses, hle⟩ := yields_readOperand ih hleft
      obtain ⟨ha, _, count', hpasses', hle'⟩ := yields_readOperators ih hl h
      refine ⟨ha, _, _, hpasses.trans hpasses', ?_⟩
      dsimp only at hle hle'
      omega

theorem assembled_of_read {cs : List Char} {tree : Expr} (h : read policy cs = .ok tree) :
    tree.Assembled := by
  obtain ⟨k, hexpression⟩ := expression_of_read h
  exact (yields_expression policy _ _ hexpression).assembled

end Expr

/-! ## 5. Formulas -/

variable {policy : Policy} {source : String} {formula : Formula}

/-- **A lenient reading always has a formula.** -/
theorem read_lenient_eq_ok (source : String) :
    Formula.read .lenient source = .ok (Formula.readLenient source) := by
  obtain ⟨⟨tree, k⟩, hexpression⟩ :=
    (Expr.mirrors_expression maxNesting 0 (Cursor.start source.toList)).total
  have hread := Expr.read_lenient_of_expression hexpression
  rw [readLenient_eq hread]
  unfold Formula.read
  rw [hread]
  rfl

theorem isWhole_of_read (h : Formula.read policy source = .ok formula) : formula.tree.IsWhole :=
  (Expr.assembled_of_read (read_eq_ok h).1).isWhole

/-- What a strict reading accepts has no degenerate part. -/
theorem hasDegenerate_of_readStrict (h : Formula.readStrict source = .ok formula) :
    formula.tree.hasDegenerate = false := by
  obtain ⟨n, hd, -⟩ := Expr.derives_of_read (read_eq_ok h).1
  exact (isWhole_of_read h).resolve_left hd.ne_degenerate

/-- **A formula is degenerate as a whole or nowhere.** So is every tree that was put together from
leaves with `join` and `choose`, and what a lenient reading makes of any text. A formula that was
read strictly is not degenerate. Whatever the policy, a formula that is degenerate has the greatest
finite float as its value everywhere, which is what an evaluation shows. -/
theorem degenerate_whole_or_nowhere :
    (∀ tree : Expr, tree.Assembled → tree = .degenerate ∨ tree.hasDegenerate = false) ∧
    (∀ source, (Formula.readLenient source).tree = .degenerate ∨
      (Formula.readLenient source).tree.hasDegenerate = false) ∧
    (∀ source formula, Formula.readStrict source = .ok formula →
      formula.tree.hasDegenerate = false) ∧
    (∀ policy source formula, Formula.read policy source = .ok formula →
      formula.isDegenerate = true → ∀ cost estimate,
        formula.priority cost estimate = Expr.greatest ∧
          (Evaluation.mk formula cost estimate).value = Expr.greatest) := by
  refine ⟨fun _ h => h.isWhole, fun source => isWhole_of_read (read_lenient_eq_ok source),
    fun _ _ => hasDegenerate_of_readStrict, fun policy source formula h hd cost estimate => ?_⟩
  have hvalue : formula.priority cost estimate = Expr.greatest := by
    unfold Formula.priority
    rw [(isWhole_of_read h).eq_degenerate hd]
    rfl
  exact ⟨hvalue, hvalue⟩

/-- A sum without its right operand, a sum, and a tree that was joined with a degenerate one. -/
theorem degenerate_sums :
    Formula.read .lenient "G+" = .ok ⟨"G+", .degenerate⟩ ∧
      (Evaluation.mk ⟨"G+", .degenerate⟩ 3 4).value = Expr.greatest ∧
      (Formula.readStrict "G+H" = .ok ⟨"G+H", .binary .add .travelled .estimate⟩ ∧
        (Expr.binary .add .travelled .estimate).hasDegenerate = false) ∧
      Expr.join .add .travelled .degenerate = .degenerate := by
  have hlenient : Formula.read .lenient "G+" = .ok ⟨"G+", .degenerate⟩ := by rfl
  have hstrict : Formula.readStrict "G+H" = .ok ⟨"G+H", .binary .add .travelled .estimate⟩ := by rfl
  obtain ⟨hassembled, -, hread, hvalue⟩ := degenerate_whole_or_nowhere
  refine ⟨hlenient, (hvalue .lenient "G+" _ hlenient rfl 3 4).2, ⟨hstrict, hread _ _ hstrict⟩, ?_⟩
  exact (hassembled _ (.join .add .travelled .degenerate)).resolve_right nofun

end Wayfinding
