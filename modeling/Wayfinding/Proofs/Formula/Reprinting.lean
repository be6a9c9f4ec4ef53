import Wayfinding.Proofs.Formula.Printing
import Wayfinding.Proofs.Formula.Recovery
import Wayfinding.Proofs.Formula.Soundness
import Wayfinding.Proofs.Number.Sign

/-!
# Reading a compiled formula again

* `Expr.constants` are the constants of a tree. Those of a tree that was read have no minus sign and
  are numbers (`Derives.unsigned`), so it can be printed if they are finite
  (`Derives.isPrintable_iff`).
* A literal that is too large is read as the infinity. Printed, that is a word with a letter that no
  formula contains (`mem_print_of_infinite`, `Derives.not_mem`).
* `readStrict_compiled`: so the text that a formula is compiled to is read again as the same tree
  exactly if its constants are finite and its parentheses keep the limit of levels. The text that it
  was read from may have had fewer of them.
-/

namespace Wayfinding

variable {phrase : Phrase} {text : List Char} {tree : Expr} {value : Float} {n : Nat}

/-! ## 1. Constants -/

namespace Expr

/-- The constants of a tree, from left to right. -/
def constants : Expr → List Float
  | constant value => [value]
  | travelled => []
  | estimate => []
  | binary _ left right => left.constants ++ right.constants
  | conditional condition whenTrue whenFalse =>
    condition.constants ++ (whenTrue.constants ++ whenFalse.constants)
  | degenerate => []

/-- No constant of the tree is infinite. -/
def IsFinite (tree : Expr) : Prop :=
  ∀ value ∈ tree.constants, value.isFinite = true

theorem isFinite_constant : (constant value).IsFinite ↔ value.isFinite = true :=
  List.forall_mem_singleton

section Constants

variable {p : Float → Prop} {op : Operator} {left right condition whenTrue whenFalse : Expr}

theorem forall_constants_binary :
    (∀ value ∈ (binary op left right).constants, p value) ↔
      (∀ value ∈ left.constants, p value) ∧ ∀ value ∈ right.constants, p value :=
  List.forall_mem_append

theorem forall_constants_conditional :
    (∀ value ∈ (conditional condition whenTrue whenFalse).constants, p value) ↔
      (∀ value ∈ condition.constants, p value) ∧ (∀ value ∈ whenTrue.constants, p value) ∧
        ∀ value ∈ whenFalse.constants, p value :=
  List.forall_mem_append.trans (and_congr_right' List.forall_mem_append)

end Constants

end Expr

theorem IsLiteral.unsigned (h : IsLiteral text value) :
    Layout.isNegative value = false ∧ value.isNaN = false := by
  cases h with
  | whole _ _ => exact ⟨Decimal.isNegative_toFloat _, Decimal.isNaN_toFloat _⟩
  | fractional _ _ _ _ => exact ⟨Decimal.isNegative_toFloat _, Decimal.isNaN_toFloat _⟩

namespace Derives

/-- **The constants of a derived tree are numbers without a minus sign.** -/
theorem unsigned (h : Derives phrase text tree n) :
    ∀ value ∈ tree.constants, Layout.isNegative value = false ∧ value.isNaN = false := by
  induction h with
  | literal hlit =>
      intro value hv
      rw [List.mem_singleton.mp hv]
      exact hlit.unsigned
  | travelled => exact List.forall_mem_nil _
  | estimate => exact List.forall_mem_nil _
  | group _ ih => exact ih
  | choice _ _ _ ihc iht ihf => exact Expr.forall_constants_conditional.mpr ⟨ihc, iht, ihf⟩
  | ofAtom _ ih => exact ih
  | ofProduct _ ih => exact ih
  | ofSum _ ih => exact ih
  | times _ _ ihl ihr => exact Expr.forall_constants_binary.mpr ⟨ihl, ihr⟩
  | plus _ _ ihl ihr => exact Expr.forall_constants_binary.mpr ⟨ihl, ihr⟩
  | minus _ _ ihl ihr => exact Expr.forall_constants_binary.mpr ⟨ihl, ihr⟩
  | less _ _ ihl ihr => exact Expr.forall_constants_binary.mpr ⟨ihl, ihr⟩

/-- **A derived tree can be printed** unless one of its constants is infinite. -/
theorem isPrintable_iff (h : Derives phrase text tree n) : tree.IsPrintable ↔ tree.IsFinite := by
  induction h with
  | literal hlit =>
      exact (and_iff_left hlit.unsigned.1).trans Expr.isFinite_constant.symm
  | travelled => exact iff_of_true trivial (List.forall_mem_nil _)
  | estimate => exact iff_of_true trivial (List.forall_mem_nil _)
  | group _ ih => exact ih
  | choice _ _ _ ihc iht ihf =>
      exact (and_congr ihc (and_congr iht ihf)).trans Expr.forall_constants_conditional.symm
  | ofAtom _ ih => exact ih
  | ofProduct _ ih => exact ih
  | ofSum _ ih => exact ih
  | times _ _ ihl ihr => exact (and_congr ihl ihr).trans Expr.forall_constants_binary.symm
  | plus _ _ ihl ihr => exact (and_congr ihl ihr).trans Expr.forall_constants_binary.symm
  | minus _ _ ihl ihr => exact (and_congr ihl ihr).trans Expr.forall_constants_binary.symm
  | less _ _ ihl ihr => exact (and_congr ihl ihr).trans Expr.forall_constants_binary.symm

end Derives

/-! ## 2. The infinity -/

theorem IsLiteral.not_mem (h : IsLiteral text value) : 'n' ∉ text := by
  have hdigits {digits : List Char} (hd : ∀ c ∈ digits, c.isDigit = true) : 'n' ∉ digits :=
    fun hn => absurd (hd 'n' hn) (by decide)
  cases h with
  | whole _ hd => exact hdigits hd
  | fractional _ hd _ hf =>
      simp only [List.mem_append, List.mem_cons, hdigits hd, hdigits hf, false_or, or_false]
      decide

/-- **No formula contains the letter**, the word `if` included. -/
theorem Derives.not_mem (h : Derives phrase text tree n) : 'n' ∉ text := by
  induction h with
  | literal hlit => exact hlit.not_mem
  | travelled => decide
  | estimate => decide
  | group _ ih => simp [ih]
  | choice _ _ _ ihc iht ihf => simp [ihc, iht, ihf]
  | ofAtom _ ih => exact ih
  | ofProduct _ ih => exact ih
  | ofSum _ ih => exact ih
  | times _ _ ihl ihr => simp [ihl, ihr]
  | plus _ _ ihl ihr => simp [ihl, ihr]
  | minus _ _ ihl ihr => simp [ihl, ihr]
  | less _ _ ihl ihr => simp [ihl, ihr]

/-- **An infinite constant brings the letter into the printed tree.** -/
theorem mem_print_of_infinite
    (hu : ∀ value ∈ tree.constants, Layout.isNegative value = false ∧ value.isNaN = false)
    (hf : ¬ tree.IsFinite) : 'n' ∈ tree.print := by
  induction tree with
  | constant value =>
      obtain ⟨hsign, hnan⟩ := hu value (List.mem_singleton_self value)
      have hinf : value.isFinite = false := by
        rw [← Bool.not_eq_true]
        exact fun hfinite => hf (Expr.isFinite_constant.mpr hfinite)
      show 'n' ∈ Layout.plain.write value
      rw [write_infinity hinf hnan hsign]
      decide
  | travelled => exact absurd (List.forall_mem_nil _) hf
  | estimate => exact absurd (List.forall_mem_nil _) hf
  | binary op left right ihl ihr =>
      obtain ⟨hul, hur⟩ := Expr.forall_constants_binary.mp hu
      rcases not_and_or.mp (mt Expr.forall_constants_binary.mpr hf) with hl | hr
      · simp [Expr.print, ihl hul hl]
      · simp [Expr.print, ihr hur hr]
  | conditional condition whenTrue whenFalse ihc iht ihf =>
      obtain ⟨huc, hut, huf⟩ := Expr.forall_constants_conditional.mp hu
      rcases not_and_or.mp (mt Expr.forall_constants_conditional.mpr hf) with hc | hrest
      · simp [Expr.print, ihc huc hc]
      · rcases not_and_or.mp hrest with ht | hf'
        · simp [Expr.print, iht hut ht]
        · simp [Expr.print, ihf huf hf']
  | degenerate => exact absurd (List.forall_mem_nil _) hf

/-! ## 3. Compiled formulas -/

/-- What is read has a derivation, and its operators keep the limit. -/
theorem derives_of_readStrict {source : String} {formula : Formula}
    (h : Formula.readStrict source = .ok formula) :
    ∃ n, Derives .comparison source.toList formula.tree n ∧
      formula.tree.operators ≤ maxOperators := by
  obtain ⟨hread, -⟩ := read_eq_ok h
  obtain ⟨n, hd, -, ho⟩ := Expr.derives_of_read hread
  exact ⟨n, hd, (Nat.zero_add _).symm.trans_le ho⟩

/-- **A printed tree is accepted exactly if it can be printed and keeps the limits.** -/
theorem Expr.read_print_of_finite (hd : Derives phrase text tree n) (hf : tree.IsFinite) :
    Bounded .strict (tree.nesting ≤ maxNesting ∧ tree.operators ≤ maxOperators)
      (read .strict tree.print) (.ok tree) := by
  have hprint : Derives .comparison tree.print tree tree.nesting :=
    (derives_print (hd.isPrintable_iff.mpr hf)).loosen (Nat.zero_le _)
  exact (read_derived .strict hprint).congr (by rw [Fits, Nat.zero_add])

/-- **When a compiled formula is read again.** The text that an accepted formula is compiled to is
accepted again, as the same tree and so with the same text, if no constant is infinite and its
parentheses keep the limit of levels. Otherwise it is refused. -/
theorem readStrict_compiled {source : String} {formula : Formula}
    (h : Formula.readStrict source = .ok formula) :
    (formula.tree.IsFinite ∧ formula.tree.nesting ≤ maxNesting →
      ∃ again, Formula.readStrict formula.compiled = .ok again ∧ again.tree = formula.tree ∧
        again.compiled = formula.compiled) ∧
    (¬ (formula.tree.IsFinite ∧ formula.tree.nesting ≤ maxNesting) →
      ∃ fault, Formula.readStrict formula.compiled = .error fault) := by
  obtain ⟨n, hd, ho⟩ := derives_of_readStrict h
  unfold Formula.readStrict Formula.read Formula.compiled
  rw [String.toList_ofList]
  refine ⟨fun hkept => ?_, fun hkept => ?_⟩
  · have hread := (Expr.read_print_of_finite hd hkept.1).ok ⟨hkept.2, ho⟩
    exact ⟨⟨String.ofList formula.tree.print, formula.tree⟩, by rw [hread]; rfl, rfl, rfl⟩
  · cases hread : Expr.read .strict formula.tree.print with
    | error fault => exact ⟨fault, rfl⟩
    | ok again =>
        obtain ⟨m, hd', -⟩ := Expr.derives_of_read hread
        by_cases hf : formula.tree.IsFinite
        · obtain ⟨fault, hfault⟩ := (Expr.read_print_of_finite hd hf).error
            (fun hlimits => hkept ⟨hf, hlimits.1⟩) rfl
          cases hread.symm.trans hfault
        · -- what was read again has a derivation, but no derived text has the letter
          exact absurd (mem_print_of_infinite hd.unsigned hf) hd'.not_mem

/-! ## 4. Formulas that are refused once compiled -/

section Chain

/-- The sum of so many travelled costs and one, written without parentheses. -/
def chainText : Nat → List Char
  | 0 => ['G']
  | n + 1 => chainText n ++ ['+', 'G']

/-- The tree of the sum. -/
def Expr.chain : Nat → Expr
  | 0 => .travelled
  | n + 1 => .binary .add (chain n) .travelled

variable (n : Nat)

theorem derives_chain : ∃ m ≤ 2, Derives .sum (chainText n) (.chain n) m := by
  induction n with
  | zero => exact ⟨1, by decide, Derives.travelled.ofAtom.ofProduct⟩
  | succ n ih =>
      obtain ⟨m, hm, hd⟩ := ih
      exact ⟨max m 2, Nat.max_le.mpr ⟨hm, Nat.le_refl 2⟩, hd.plus Derives.travelled.ofAtom⟩

theorem Expr.operators_chain : (chain n).operators = n := by
  induction n with
  | zero => rfl
  | succ n ih => simp only [chain, operators, ih, Nat.add_zero]

theorem Expr.nesting_chain : (chain (n + 1)).nesting = n + 3 := by
  induction n with
  | zero => rfl
  | succ n ih =>
      rw [chain, nesting, ih]
      simp only [nesting]
      omega

theorem Expr.isFinite_chain : (chain n).IsFinite := by
  induction n with
  | zero => exact List.forall_mem_nil _
  | succ n ih => exact forall_constants_binary.mpr ⟨ih, List.forall_mem_nil _⟩

/-- The sum is accepted up to the limit of operators, since its left operands take no levels. -/
theorem readStrict_chain (h : n ≤ maxOperators) :
    Formula.readStrict (String.ofList (chainText n)) =
      .ok ⟨String.ofList (chainText n), .chain n⟩ := by
  obtain ⟨m, hm, hd⟩ := derives_chain n
  have hfits : (Expr.chain n).Fits m maxNesting 0 :=
    ⟨hm.trans (by decide), by rw [Expr.operators_chain, Nat.zero_add]; exact h⟩
  unfold Formula.readStrict Formula.read
  rw [String.toList_ofList, (Expr.read_derived .strict hd.ofSum).ok hfits]
  rfl

end Chain

/-- Of sums without parentheses, one with 254 operators is read again once it is compiled. One with
255 operators is refused. -/
theorem readStrict_compiled_chain :
    (∃ again, Formula.readStrict
        (⟨String.ofList (chainText 254), .chain 254⟩ : Formula).compiled = .ok again) ∧
      ∃ fault, Formula.readStrict
        (⟨String.ofList (chainText 255), .chain 255⟩ : Formula).compiled = .error fault := by
  obtain ⟨hagain, -⟩ := readStrict_compiled (readStrict_chain 254 (by decide))
  obtain ⟨-, hfault⟩ := readStrict_compiled (readStrict_chain 255 (by decide))
  have hlow : (Expr.chain 254).nesting ≤ maxNesting := by
    rw [Expr.nesting_chain]
    decide
  have hhigh : ¬ (Expr.chain 255).nesting ≤ maxNesting := by
    rw [Expr.nesting_chain]
    decide
  obtain ⟨again, hread, -, -⟩ := hagain ⟨Expr.isFinite_chain 254, hlow⟩
  exact ⟨⟨again, hread⟩, hfault fun h => hhigh h.2⟩

/-- A one and so many zeros that no float is as large. -/
def hugeText : List Char :=
  '1' :: List.replicate 309 '0'

/-- What the text is read as. -/
def huge : Float :=
  (Decimal.ofDigits hugeText []).toFloat

/-- A literal that is too large is accepted, but the word that it is compiled to is no formula. -/
theorem readStrict_huge :
    Formula.readStrict (String.ofList hugeText) =
        .ok ⟨String.ofList hugeText, .constant huge⟩ ∧
      (⟨String.ofList hugeText, .constant huge⟩ : Formula).compiled = "inf" ∧
      Formula.readStrict "inf" = .error ⟨0, .unexpected 'i'⟩ := by
  have hlit : IsLiteral hugeText huge :=
    .whole (List.cons_ne_nil _ _) (List.forall_mem_cons.mpr ⟨rfl, isDigit_zeros⟩)
  have hinf : huge.isFinite = false := by decide +kernel
  have hfits : (Expr.constant huge).Fits 1 maxNesting 0 := ⟨by decide, Nat.zero_le _⟩
  have hd : Derives .comparison hugeText (.constant huge) 1 :=
    (Derives.literal hlit).loosen (Nat.zero_le _)
  refine ⟨?_, ?_, rfl⟩
  · unfold Formula.readStrict Formula.read
    rw [String.toList_ofList, (Expr.read_derived .strict hd).ok hfits]
    rfl
  · show String.ofList (Layout.plain.write huge) = "inf"
    rw [write_infinity hinf hlit.unsigned.2 hlit.unsigned.1]

end Wayfinding
