import Wayfinding.Proofs.Formula.Linear
import Wayfinding.Proofs.Number.Sign
import Wayfinding.Proofs.Plan.Failure

/-!
# Weights

A weighted preset writes its weight into the text `G+w*H`, which is then read as any other formula.

* `Preset.formula_weighted_iff`: the weights that have such a text are those that are finite and not
  less than zero.
* Such a weight is written as a literal of itself, unless it is the negative zero: that one is not
  less than zero, but is written with a minus sign, and no operand begins with one
  (`readStrict_neg_zero`).
* `weight_compiles`: so every accepted weight but the negative zero compiles.
-/

namespace Wayfinding

variable {request : Request} {weight : Float}

/-- The text of the formula of a weight. -/
def weightedText (weight : Float) : String :=
  String.ofList ('G' :: '+' :: Layout.plain.write weight ++ ['*', 'H'])

theorem Preset.formula_of_accepted (hfinite : weight.isFinite = true) (hlt : ¬ weight < 0) :
    (weighted weight).formula = .ok (weightedText weight) := by
  simp only [formula, hfinite, decide_eq_false hlt]
  rfl

/-- **The weights that have a formula** are those that are finite and not less than zero. -/
theorem Preset.formula_weighted_iff {source : String} :
    (weighted weight).formula = .ok source ↔
      weight.isFinite = true ∧ ¬ weight < 0 ∧ source = weightedText weight := by
  constructor
  · intro h
    have hgood : ¬ (weight.isFinite = false ∨ weight < 0) := by
      intro hbad
      cases h.symm.trans (formula_eq_error_iff.mpr ⟨weight, rfl, rfl, hbad⟩)
    obtain ⟨hfinite, hlt⟩ := not_or.mp hgood
    have hfinite' : weight.isFinite = true := Bool.not_eq_false _ ▸ hfinite
    exact ⟨hfinite', hlt, Except.ok.inj (h.symm.trans (formula_of_accepted hfinite' hlt))⟩
  · intro h
    obtain ⟨hfinite, hlt, rfl⟩ := h
    exact formula_of_accepted hfinite hlt

/-- A weight that is accepted is written as a literal of it, unless it is the negative zero. -/
theorem isLiteral_weight (hfinite : weight.isFinite = true) (hlt : ¬ weight < 0)
    (hne : weight ≠ -0) : IsLiteral (Layout.plain.write weight) weight := by
  refine isLiteral_write hfinite ?_
  cases hsign : Layout.isNegative weight with
  | true => exact absurd (eq_neg_zero hfinite hlt hsign) hne
  | false => rfl

/-- The minus sign of a zero is no operand. -/
theorem readStrict_neg_zero :
    weightedText (-0) = "G+-0*H" ∧
      Formula.readStrict (weightedText (-0)) = .error ⟨2, .operator '-'⟩ := by
  have htext : weightedText (-0) = "G+-0*H" := by decide +kernel
  rw [htext]
  exact ⟨rfl, rfl⟩

theorem compile_of_formula {source : String} (h : request.priority = .preset (.weighted weight))
    (hs : (Preset.weighted weight).formula = .ok source) :
    request.compile = (Formula.readStrict source).mapError .formula := by
  unfold Request.compile
  rw [h, PriorityRule.compile_preset hs]

theorem compile_of_neg_zero (h : request.priority = .preset (.weighted (-0))) :
    (Preset.weighted (-0)).formula = .ok "G+-0*H" ∧
      request.compile = .error (.formula ⟨2, .operator '-'⟩) := by
  obtain ⟨htext, hread⟩ := readStrict_neg_zero
  have hs : (Preset.weighted (-0)).formula = .ok (weightedText (-0)) :=
    Preset.formula_of_accepted (by decide) (by decide)
  rw [compile_of_formula h hs, hread]
  exact ⟨htext ▸ hs, rfl⟩

/-- **The weights that compile.** A weight that has a formula compiles to the travelled cost and so
many times the estimate, unless it is the negative zero. That one has a formula too, but it does not
compile. No other weight fails for its formula. -/
theorem weight_compiles (weight : Float) (h : request.priority = .preset (.weighted weight)) :
    (∀ source, (Preset.weighted weight).formula = .ok source → weight ≠ -0 →
      request.compile = .ok ⟨source, .linear weight⟩) ∧
    (weight = -0 → (Preset.weighted weight).formula = .ok "G+-0*H" ∧
      request.compile = .error (.formula ⟨2, .operator '-'⟩)) ∧
    ∀ error, request.compile = .error error → weight ≠ -0 → error = .weight weight := by
  have haccepted (source : String) (hs : (Preset.weighted weight).formula = .ok source)
      (hne : weight ≠ -0) : request.compile = .ok ⟨source, .linear weight⟩ := by
    obtain ⟨hfinite, hlt, rfl⟩ := Preset.formula_weighted_iff.mp hs
    have hread : Formula.readStrict (weightedText weight) =
        .ok ⟨weightedText weight, .linear weight⟩ :=
      read_linear (isLiteral_weight hfinite hlt hne) .strict
    rw [compile_of_formula h hs, hread]
    rfl
  refine ⟨haccepted, fun hzero => ?_, fun error he hne => ?_⟩
  · subst hzero
    exact compile_of_neg_zero h
  · have hrefused : request.priority.Refused request.policy error :=
      PriorityRule.compile_eq_error_iff.mp he
    rw [h] at hrefused
    cases hrefused with
    | weight _ => rfl
    | preset hs _ => cases (haccepted _ hs hne).symm.trans he

/-- A request by a weight, to stay on the first cell. -/
def weighing (weight : Float) : Request where
  start := ⟨0, 0⟩
  goal := ⟨0, 0⟩
  priority := .preset (.weighted weight)

/-- The least positive float compiles as a weight. What is no number does not fail for its
formula. -/
theorem weight_compiles_least :
    (weighing (Float.ofBits 1)).compile =
        .ok ⟨weightedText (Float.ofBits 1), .linear (Float.ofBits 1)⟩ ∧
      ∀ fault, (weighing (0 / 0)).compile ≠ .error (.formula fault) := by
  obtain ⟨haccepted, -, -⟩ := @weight_compiles (weighing (Float.ofBits 1)) (Float.ofBits 1) rfl
  obtain ⟨-, -, hrefused⟩ := @weight_compiles (weighing (0 / 0)) (0 / 0) rfl
  have hs : (Preset.weighted (Float.ofBits 1)).formula = .ok (weightedText (Float.ofBits 1)) :=
    Preset.formula_of_accepted (by decide) (by decide)
  refine ⟨haccepted _ hs (by decide), fun fault he => ?_⟩
  cases hrefused _ he (by decide)

/-- The negative zero is accepted as a weight, but the text that it gives is no formula. -/
theorem compile_neg_zero :
    (Preset.weighted (-0)).formula = .ok "G+-0*H" ∧
      (weighing (-0)).compile = .error (.formula ⟨2, .operator '-'⟩) :=
  compile_of_neg_zero rfl

end Wayfinding
