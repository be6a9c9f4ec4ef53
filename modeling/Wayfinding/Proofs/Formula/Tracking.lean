import Wayfinding.Proofs.Formula.Scanner

/-!
# A scan keeps within its bounds

* `Scanner.At`: the scanner stands where the cursor of a reading stands, between two characters of
  the text, in as many expressions as its depth says, and so it was at every place it visited.
* `Meets`: a scan ends, with the result or the fault of the reading, and stands at a cursor again.
* `meets_expression`: so does the scan of every expression, by induction on the levels that are left
  below it, and in each of them on the rounds of the loop.
* `scan_safe`: a scan of any text ends, whatever its policy. It never leaves the text, never cuts a
  character in two, never goes back and never nests too deeply, and its depth is restored whenever
  an expression ends. Its tree is of bounded size, and a lenient one always has a tree.
-/

namespace Wayfinding

open String (utf8Len)

/-! ## 1. Where a scanner stands -/

/-- The place lies between two characters of the text, or at one of its ends. The depth there is
that of the expressions being read, which are not too many. -/
structure Visit.Safe (text : List Char) (v : Visit) : Prop where
  lies : Lies (Cursor.start text) v.position
  depth : v.depth = v.active
  within : v.active ≤ maxNesting

namespace Scanner

/-- Every place was safe, and none was visited after one behind it. -/
structure Sound (text : List Char) (s : Scanner) : Prop where
  safe : ∀ v ∈ s.visits, v.Safe text
  behind : ∀ v ∈ s.visits, v.position ≤ s.position
  ordered : s.visits.Pairwise fun later earlier => earlier.position ≤ later.position

/-- The scanner stands at the cursor, in `active` expressions inside one another. -/
structure At (text : List Char) (active : Nat) (s : Scanner) (k : Cursor) : Prop where
  before : Before (Cursor.start text) k
  position : s.position = k.position
  operators : s.operators = k.operators
  depth : s.depth = active
  within : active ≤ maxNesting
  sound : s.Sound text

namespace At

variable {text : List Char} {active : Nat} {s : Scanner} {k k' : Cursor} {c : Char}
  {others : List Char}

/-- A place is written down. -/
theorem visit (h : s.At text active k) : (s.visit active).At text active k where
  before := h.before
  position := h.position
  operators := h.operators
  depth := h.depth
  within := h.within
  sound := by
    refine ⟨fun v hv => ?_, fun v hv => ?_,
      List.pairwise_cons.mpr ⟨h.sound.behind, h.sound.ordered⟩⟩
    · rcases List.mem_cons.mp hv with rfl | hv
      · exact ⟨h.position ▸ (Lies.here k).after h.before, h.depth, h.within⟩
      · exact h.sound.safe v hv
    · rcases List.mem_cons.mp hv with rfl | hv
      · exact Nat.le_refl _
      · exact h.sound.behind v hv

/-- The scanner goes on. -/
theorem moveTo (h : s.At text active k) (hbefore : Before k k') (ho : k'.operators = k.operators)
    {position : Nat} (hp : position = k'.position) :
    (s.moveTo active position).At text active k' := by
  subst hp
  have hle : s.position ≤ k'.position := h.position ▸ hbefore.position_le
  refine At.visit ⟨h.before.trans hbefore, rfl, h.operators.trans ho.symm, h.depth, h.within,
    h.sound.safe, fun v hv => (h.sound.behind v hv).trans hle, h.sound.ordered⟩

/-- The scanner goes on by a character. -/
theorem skip (h : s.At text active k) (hrest : k.rest = c :: others) {bytes : Nat}
    (hc : c.utf8Size = bytes) : (s.moveTo active (s.position + bytes)).At text active k.skip := by
  subst hc
  refine h.moveTo (Before.skip k) (Cursor.operators_skip k) ?_
  unfold Cursor.skip
  rw [hrest, h.position]

theorem countOperator (h : s.At text active k) :
    { s with operators := s.operators + 1 }.At text active k.countOperator where
  before := h.before
  position := h.position
  operators := congrArg (· + 1) h.operators
  depth := h.depth
  within := h.within
  sound := ⟨h.sound.safe, h.sound.behind, h.sound.ordered⟩

theorem enter (h : s.At text active k) (hlt : active < maxNesting) :
    (s.enter active).At text (active + 1) k :=
  At.visit ⟨h.before, h.position, h.operators, congrArg (· + 1) h.depth, hlt, h.sound.safe,
    h.sound.behind, h.sound.ordered⟩

theorem leave (h : s.At text (active + 1) k) : (s.leave active).At text active k :=
  At.visit ⟨h.before, h.position, h.operators, congrArg (· - 1) h.depth,
    (Nat.le_succ active).trans h.within, h.sound.safe, h.sound.behind, h.sound.ordered⟩

/-- A fault at the cursor is one at the scanner. -/
theorem fault_eq (h : s.At text active k) (cause : FaultCause) :
    k.fault cause = ⟨s.position, cause⟩ := by
  rw [h.position]
  rfl

/-- The text goes on from the cursor as it does from the scanner. -/
theorem exists_before (h : s.At text active k) :
    ∃ before, text = before ++ k.rest ∧ s.position = utf8Len before := by
  obtain ⟨before, hrest, hposition⟩ := h.before
  exact ⟨before, hrest, h.position.trans (hposition.trans (Nat.zero_add _))⟩

end At

end Scanner

/-! ## 2. Scans and readings -/

/-- The scan ends with the result of the reading, or with its fault, and then stands at a cursor. -/
inductive Meets {α : Type} (text : List Char) (active : Nat) :
    Option (Except ScanError α × Scanner) → Except Fault (α × Cursor) → Prop where
  | ok {a : α} {s : Scanner} {k : Cursor} (h : s.At text active k) :
      Meets text active (some (.ok a, s)) (.ok (a, k))
  | error {fault : Fault} {s : Scanner} {k : Cursor} (h : s.At text active k) :
      Meets text active (some (.error (.fault fault), s)) (.error fault)

namespace Scan

variable {α β : Type} {text : List Char} {p : Scan} {active : Nat} {s s' : Scanner} {k : Cursor}
  {c : Char} {others : List Char}

/-- A step that has a result is followed by the next one. -/
theorem bind_ok {x : ScanM α} {a : α} (h : x s = some (.ok a, s')) (g : α → ScanM β) :
    (x >>= g) s = g a s' := by
  show (x s).bind _ = _
  rw [h]
  rfl

theorem get_eq (s : Scanner) : (get : ScanM Scanner) s = some (.ok s, s) :=
  rfl

theorem move_eq (s : Scanner) (bytes : Nat) :
    move active bytes s = some (.ok (), s.moveTo active (s.position + bytes)) :=
  rfl

/-- **Steps that meet readings, one after the other, meet readings one after the other.** -/
theorem meets_bind_of_eq {x : ScanM α} {g : α → ScanM β} {y : Except Fault (α × Cursor)}
    {r : α × Cursor → Except Fault (β × Cursor)} (hx : Meets text active (x s) y)
    (hg : ∀ a s' k', y = .ok (a, k') → s'.At text active k' →
      Meets text active (g a s') (r (a, k'))) :
    Meets text active ((x >>= g) s) (y >>= r) := by
  generalize hrun : x s = run at hx
  cases hx with
  | ok h =>
      rw [bind_ok hrun]
      exact hg _ _ _ rfl h
  | error h =>
      have hbind : (x >>= g) s = (x s).bind _ := rfl
      rw [hbind, hrun]
      exact .error h

theorem meets_bind {x : ScanM α} {g : α → ScanM β} {y : Except Fault (α × Cursor)}
    {r : α × Cursor → Except Fault (β × Cursor)} (hx : Meets text active (x s) y)
    (hg : ∀ a s' k', s'.At text active k' → Meets text active (g a s') (r (a, k'))) :
    Meets text active ((x >>= g) s) (y >>= r) :=
  meets_bind_of_eq hx fun a s' k' _ => hg a s' k'

/-! ## 3. Steps that read no expression -/

/-- **No slice from a cursor on fails.** -/
theorem rest_eq (h : s.At p.text active k) : p.rest s = some (.ok k.rest, s) := by
  obtain ⟨before, htext, hposition⟩ := h.exists_before
  have hslice : slice? p.text s.position (utf8Len p.text) = some k.rest := by
    refine slice?_eq_some_iff.mpr ⟨before, [], ?_, hposition, ?_⟩
    · rw [List.append_nil, ← htext]
    · rw [← String.utf8Len_append, ← htext]
  unfold rest
  rw [bind_ok (get_eq s), hslice]
  rfl

theorem peek_eq (h : s.At p.text active k) : p.peek s = some (.ok k.rest.head?, s) := by
  unfold peek
  rw [bind_ok (rest_eq h)]
  rfl

theorem meets_refuse (h : s.At p.text active k) (fault : Fault) :
    Meets p.text active (p.refuse (.fault fault) s) (p.policy.recover fault (.degenerate, k)) := by
  obtain ⟨text, policy⟩ := p
  cases policy with
  | strict => exact .error h
  | lenient => exact .ok h

theorem meets_abandon (h : s.At p.text active k) (cause : FaultCause) :
    Meets p.text active (p.abandon active cause s) (Expr.giveUp p.policy cause k) := by
  have hend : (s.moveTo active (utf8Len p.text)).At p.text active k.skipAll := by
    refine h.moveTo (Passes.skipAll k).before rfl ?_
    obtain ⟨before, htext, hposition⟩ := h.exists_before
    rw [(Passes.skipAll k).position, ← h.position, hposition, ← String.utf8Len_append, ← htext]
  unfold Expr.giveUp
  rw [h.fault_eq]
  exact meets_refuse hend _

/-- An operator is counted as long as there may be one more. -/
theorem countOperator_eq (h : s.At p.text active k) :
    countOperator s = if k.operators < maxOperators then
      some (.ok true, { s with operators := s.operators + 1 }) else some (.ok false, s) := by
  have hrun : countOperator s = (if maxOperators ≤ s.operators then return false
    else do
      set { s with operators := s.operators + 1 }
      return true : ScanM Bool) s := rfl
  rw [hrun, h.operators]
  by_cases hlt : k.operators < maxOperators
  · rw [if_pos hlt, if_neg (Nat.not_le.mpr hlt)]
    rfl
  · rw [if_neg hlt, if_pos (Nat.not_lt.mp hlt)]
    rfl

theorem meets_expect {wanted : Char} (hsize : wanted.utf8Size = 1) (h : s.At p.text active k) :
    Meets p.text active (p.expect active wanted s) (k.expect p.policy wanted) := by
  unfold expect Cursor.expect
  rw [bind_ok (peek_eq h)]
  by_cases hhead : k.rest.head? = some wanted
  · obtain ⟨others, hrest⟩ := List.head?_eq_some_iff.mp hhead
    rw [if_pos hhead, if_pos hhead]
    exact .ok (h.skip hrest hsize)
  · rw [if_neg hhead, if_neg hhead, bind_ok (peek_eq h)]
    rw [h.fault_eq]
    obtain ⟨text, policy⟩ := p
    cases policy with
    | strict => exact .error h
    | lenient => exact .ok h

/-- Where no digit stands, the loop over digits ends. -/
theorem skipDigits_of_none (h : s.At p.text active k)
    (hnone : ∀ c, k.rest.head? = some c → c.isDigit = false) :
    p.skipDigits active s = some (.ok (), s) := by
  rw [skipDigits, bind_ok (peek_eq h)]
  cases hhead : k.rest.head? with
  | none => rfl
  | some c =>
      dsimp only
      rw [if_neg (Bool.eq_false_iff.mp (hnone c hhead))]
      rfl

/-- **The loop over digits ends behind them**, by induction on the text. -/
theorem skipDigits_eq {cs : List Char} (h : s.At p.text active k) (hrest : k.rest = cs) :
    ∃ s', p.skipDigits active s = some (.ok (), s') ∧ s'.At p.text active k.skipDigits := by
  induction cs generalizing k s with
  | nil =>
      have hdigits : k.digits = [] := by
        unfold Cursor.digits
        rw [hrest]
        rfl
      refine ⟨s, skipDigits_of_none h ?_, ?_⟩
      · rw [hrest]
        nofun
      · rw [Cursor.skipDigits_eq_self hdigits]
        exact h
  | cons c others ih =>
      by_cases hc : c.isDigit = true
      · have hmoved := h.skip hrest (utf8Size_digit hc)
        obtain ⟨s', hrun, hs'⟩ := ih hmoved (by rw [Cursor.skip, hrest])
        refine ⟨s', ?_, Cursor.skipDigits_skip hrest hc ▸ hs'⟩
        rw [skipDigits, bind_ok (peek_eq h), hrest]
        dsimp only [List.head?_cons]
        rw [if_pos hc]
        exact hrun
      · have hdigits : k.digits = [] := by
          unfold Cursor.digits
          rw [hrest, List.takeWhile_cons_of_neg hc]
        refine ⟨s, skipDigits_of_none h fun c' hc' => ?_, ?_⟩
        · rw [hrest] at hc'
          cases hc'
          exact Bool.eq_false_iff.mpr hc
        · rw [Cursor.skipDigits_eq_self hdigits]
          exact h

/-! ## 4. Constants -/

/-- A text that begins with a digit is no word. -/
theorem readFloat?_of_digit (hc : c.isDigit = true) :
    readFloat? (c :: others) = (readDecimal? (c :: others)).map Decimal.toFloat := by
  have hlower : c.toLower = c := by
    refine Char.toLower_eq_of_not_isUpper fun h => ?_
    simp only [Char.isUpper, Char.isDigit, Bool.and_eq_true, decide_eq_true_eq] at h hc
    exact absurd (UInt32.le_trans h.1 hc.2) (by decide)
  have hne : ∀ d : Char, d.isDigit = false → c ≠ d := by
    rintro d hd rfl
    exact Bool.noConfusion (hd.symm.trans hc)
  have hword : ∀ (word : String) (d : Char) (more : List Char), word.toList = d :: more →
      d.isDigit = false → String.ofList ((c :: others).map Char.toLower) ≠ word := by
    rintro word d more hword hd rfl
    rw [String.toList_ofList, List.map_cons, hlower] at hword
    exact hne d hd (List.cons.inj hword).1
  have hmagnitude : readFloat? (c :: others) = readMagnitude? (c :: others) := by
    unfold readFloat?
    split
    next h => exact absurd (List.cons.inj h).1 (hne '-' (by decide))
    next h => exact absurd (List.cons.inj h).1 (hne '+' (by decide))
    next => rfl
  rw [hmagnitude]
  unfold readMagnitude?
  dsimp only
  rw [if_neg, if_neg]
  · exact hword "nan" 'n' ['a', 'n'] rfl (by decide)
  · rintro (h | h)
    · exact hword "inf" 'i' ['n', 'f'] rfl (by decide) h
    · exact hword "infinity" 'i' ['n', 'f', 'i', 'n', 'i', 't', 'y'] rfl (by decide) h

section Digits

variable {whole fraction : List Char}

theorem readFloat?_whole (hne : whole ≠ []) (hw : ∀ c ∈ whole, c.isDigit = true) :
    readFloat? whole = some (Decimal.ofDigits whole []).toFloat := by
  obtain ⟨c, others, rfl⟩ := List.exists_cons_of_ne_nil hne
  have htake := List.takeWhile_eq_self_iff.mpr hw
  have hdrop := List.dropWhile_eq_nil_iff.mpr hw
  rw [readFloat?_of_digit (hw c List.mem_cons_self)]
  unfold readDecimal?
  simp only [htake, hdrop, hne, false_and, if_false, readExponent?, Option.map_some, Int.add_zero]

theorem readFloat?_fraction (hne : whole ≠ []) (hw : ∀ c ∈ whole, c.isDigit = true)
    (hf : ∀ c ∈ fraction, c.isDigit = true) :
    readFloat? (whole ++ '.' :: fraction) = some (Decimal.ofDigits whole fraction).toFloat := by
  have hpoint : ∀ c, ('.' :: fraction).head? = some c → c.isDigit = false := by
    intro c hc
    cases hc
    rfl
  have htake := takeWhile_digits hw hpoint
  have hdrop := dropWhile_digits hw hpoint
  have htake' := List.takeWhile_eq_self_iff.mpr hf
  have hdrop' := List.dropWhile_eq_nil_iff.mpr hf
  have hfloat : readFloat? (whole ++ '.' :: fraction) =
      (readDecimal? (whole ++ '.' :: fraction)).map Decimal.toFloat := by
    obtain ⟨c, others, rfl⟩ := List.exists_cons_of_ne_nil hne
    exact readFloat?_of_digit (hw c List.mem_cons_self)
  rw [hfloat]
  unfold readDecimal?
  simp only [htake, hdrop, htake', hdrop', hne, false_and, if_false, readExponent?, Option.map_some,
    Int.add_zero]

end Digits

/-- **The slice of a number never fails, and is always read.** -/
theorem number_eq {k' : Cursor} {digits : List Char} {count : Nat} {value : Float}
    (h : s.At p.text active k) (h' : s'.At p.text active k') (hpasses : Passes k digits count k')
    (hread : readFloat? digits = some value) :
    p.number s.position s' = some (.ok (.constant value), s') := by
  obtain ⟨before, htext, hposition⟩ := h.exists_before
  have hslice : slice? p.text s.position s'.position = some digits := by
    refine slice?_eq_some_iff.mpr ⟨before, k'.rest, ?_, hposition, ?_⟩
    · rw [htext, hpasses.rest]
    · rw [h'.position, hpasses.position, ← h.position, hposition]
  unfold number
  rw [bind_ok (get_eq s'), hslice]
  dsimp only
  rw [hread]
  rfl

theorem meets_constant (h : s.At p.text active k) (hrest : k.rest = c :: others)
    (hc : c.isDigit = true) :
    Meets p.text active (p.constant active s) (Expr.readConstant p.policy k) := by
  have hne : k.digits ≠ [] := by
    unfold Cursor.digits
    rw [hrest, List.takeWhile_cons_of_pos hc]
    exact List.cons_ne_nil _ _
  have hw : ∀ c ∈ k.digits, c.isDigit = true := fun c hc => List.mem_takeWhile_imp hc
  have hwhole := Passes.skipDigits k
  obtain ⟨s₁, hrun₁, h₁⟩ := skipDigits_eq h rfl
  unfold constant Expr.readConstant
  rw [bind_ok (get_eq s), bind_ok hrun₁, bind_ok (peek_eq h₁)]
  dsimp only
  by_cases hpoint : k.skipDigits.rest.head? = some '.'
  · obtain ⟨rest₁, hrest₁⟩ := List.head?_eq_some_iff.mp hpoint
    have h₂ := h₁.skip hrest₁ (show '.'.utf8Size = 1 from rfl)
    have hpasses := hwhole.trans (Passes.skip hrest₁)
    obtain ⟨s₃, hrun₃, h₃⟩ := skipDigits_eq h₂ rfl
    rw [if_pos hpoint, if_pos hpoint, bind_ok (move_eq s₁ 1), bind_ok (get_eq _), bind_ok hrun₃,
      bind_ok (get_eq _)]
    have hposition : s₃.position =
        (s₁.moveTo active (s₁.position + 1)).position + k.skipDigits.skip.digits.length := by
      rw [h₃.position, h₂.position]
      rfl
    by_cases hnone : k.skipDigits.skip.digits = []
    · rw [if_pos hnone, if_pos (by rw [hposition, hnone]; rfl)]
      rw [Cursor.skipDigits_eq_self hnone] at h₃
      unfold Expr.failAt Cursor.fault
      rw [← h₂.position]
      exact meets_refuse h₃ _
    · have hlength := List.length_pos_iff.mpr hnone
      have hf : ∀ c ∈ k.skipDigits.skip.digits, c.isDigit = true :=
        fun c hc => List.mem_takeWhile_imp hc
      have hread := readFloat?_fraction hne hw hf
      rw [List.append_cons] at hread
      rw [if_neg hnone, if_neg (by omega), number_eq h h₃ (hpasses.trans (.skipDigits _)) hread]
      exact .ok h₃
  · rw [if_neg hpoint, if_neg hpoint, number_eq h h₁ hwhole (readFloat?_whole hne hw)]
    exact .ok h₁

/-! ## 5. Expressions -/

theorem utf8Size_symbol (op : Operator) : op.symbol.utf8Size = 1 := by
  cases op <;> rfl

/-- Every expression one level further down is scanned as it is read. -/
def MeetsInside (p : Scan) (active : Nat) (inside : Nat → Expr.Part) :
    Prop :=
  ∀ bound {s k}, s.At p.text active k →
    Meets p.text active (p.expression active bound s) (inside bound k)

section Inside

variable {inside : Nat → Expr.Part}

theorem meets_group (hin : MeetsInside p active inside) (h : s.At p.text active k)
    (hrest : k.rest = '(' :: others) :
    Meets p.text active (p.group active s) (Expr.readGroup p.policy inside k) := by
  rw [group, bind_ok (move_eq s 1)]
  have hskip := h.skip hrest (show '('.utf8Size = 1 from rfl)
  refine meets_bind (hin 0 hskip) fun inner s' k' h' => ?_
  refine meets_bind (meets_expect rfl h') fun closed s' k' h' => ?_
  cases closed with
  | true => exact .ok h'
  | false => exact .ok h'

/-- A choice lacks no character if none of its three parts does. -/
theorem choose_flags (first second closed : Bool) (condition whenTrue whenFalse : Expr) :
    Expr.choose (if first then condition else .degenerate)
        (if second then whenTrue else .degenerate) (if closed then whenFalse else .degenerate) =
      if first && second && closed then .choose condition whenTrue whenFalse else .degenerate := by
  cases first with
  | false => rfl
  | true =>
      cases second with
      | false => exact Expr.choose_eq_degenerate_iff.mpr (Or.inr (Or.inl rfl))
      | true =>
          cases closed with
          | false => exact Expr.choose_eq_degenerate_iff.mpr (Or.inr (Or.inr rfl))
          | true => rfl

/-- The branches of a choice, with the characters that were found after each of them. -/
theorem readBranches_eq (k : Cursor) :
    Expr.readBranches p.policy inside k = do
      let (condition, k) ← inside 0 k
      let (first, k) ← k.expect p.policy ','
      let (whenTrue, k) ← inside 0 k
      let (second, k) ← k.expect p.policy ','
      let (whenFalse, k) ← inside 0 k
      let (closed, k) ← k.expect p.policy ')'
      return (if first && second && closed then .choose condition whenTrue whenFalse
        else .degenerate, k) := by
  unfold Expr.readBranches Expr.readUntil
  simp only [bind_assoc, pure_bind, choose_flags]

theorem meets_branches (hin : MeetsInside p active inside) (h : s.At p.text active k) :
    Meets p.text active
      ((do
        let condition ← p.expression active 0
        let first ← p.expect active ','
        let whenTrue ← p.expression active 0
        let second ← p.expect active ','
        let whenFalse ← p.expression active 0
        let closed ← p.expect active ')'
        return if first && second && closed then .choose condition whenTrue whenFalse
          else .degenerate : ScanM Expr) s)
      (Expr.readBranches p.policy inside k) := by
  rw [readBranches_eq]
  refine meets_bind (hin 0 h) fun condition s₁ k₁ h₁ => ?_
  refine meets_bind (meets_expect rfl h₁) fun first s₂ k₂ h₂ => ?_
  refine meets_bind (hin 0 h₂) fun whenTrue s₃ k₃ h₃ => ?_
  refine meets_bind (meets_expect rfl h₃) fun second s₄ k₄ h₄ => ?_
  refine meets_bind (hin 0 h₄) fun whenFalse s₅ k₅ h₅ => ?_
  exact meets_bind (meets_expect rfl h₅) fun closed s₆ k₆ h₆ => .ok h₆

theorem meets_choice (hin : MeetsInside p active inside) (h : s.At p.text active k)
    (hrest : k.rest = 'i' :: 'f' :: others) :
    Meets p.text active (p.choice active s) (Expr.readChoice p.policy inside k) := by
  rw [choice]
  unfold Expr.readChoice
  by_cases hlt : k.operators < maxOperators
  · have hcount := countOperator_eq h
    rw [if_pos hlt] at hcount
    rw [if_pos hlt, bind_ok hcount]
    dsimp only
    rw [if_pos rfl, bind_ok (move_eq _ 2)]
    have hrest' : k.skip.rest = 'f' :: others := by
      rw [Cursor.skip, hrest]
    have hword : Before k.countOperator k.skip.skip.countOperator :=
      (Before.skip k).trans (Before.skip k.skip)
    have hposition : s.position + 2 = k.skip.skip.countOperator.position := by
      rw [h.position]
      show k.position + 2 = k.skip.skip.position
      rw [(Passes.skip hrest').position, (Passes.skip hrest).position]
      rfl
    have hopen := h.countOperator.moveTo hword
      (by simp only [Cursor.countOperator, Cursor.operators_skip]) hposition
    refine meets_bind (meets_expect rfl hopen) fun opened s' k' h' => ?_
    cases opened with
    | true => exact meets_branches hin h'
    | false => exact .ok h'
  · have hcount := countOperator_eq h
    rw [if_neg hlt] at hcount
    rw [if_neg hlt, bind_ok hcount]
    exact meets_abandon h _

theorem meets_operand (hin : MeetsInside p active inside) (h : s.At p.text active k) :
    Meets p.text active (p.operand active s) (Expr.readOperand p.policy inside k) := by
  rw [operand, bind_ok (get_eq s), bind_ok (rest_eq h)]
  unfold Expr.readOperand
  cases hrest : k.rest with
  | nil =>
      unfold Expr.failAt
      rw [h.fault_eq]
      exact meets_refuse h _
  | cons c others =>
      dsimp only
      by_cases hdigit : c.isDigit = true
      · rw [if_pos hdigit, if_pos hdigit]
        exact meets_constant h hrest hdigit
      rw [if_neg hdigit, if_neg hdigit]
      by_cases hG : c = 'G'
      · rw [if_pos hG, if_pos hG, bind_ok (move_eq s 1)]
        exact .ok (h.skip hrest (hG ▸ rfl))
      rw [if_neg hG, if_neg hG]
      by_cases hH : c = 'H'
      · rw [if_pos hH, if_pos hH, bind_ok (move_eq s 1)]
        exact .ok (h.skip hrest (hH ▸ rfl))
      rw [if_neg hH, if_neg hH]
      by_cases hif : c = 'i' ∧ others.head? = some 'f'
      · rw [if_pos hif, if_pos hif]
        obtain ⟨rfl, hf⟩ := hif
        obtain ⟨more, rfl⟩ := List.head?_eq_some_iff.mp hf
        exact meets_choice hin h hrest
      rw [if_neg hif, if_neg hif]
      by_cases hopen : c = '('
      · rw [if_pos hopen, if_pos hopen]
        exact meets_group hin h (hopen ▸ hrest)
      rw [if_neg hopen, if_neg hopen]
      cases hop : Operator.ofSymbol? c with
      | some op =>
          obtain rfl := Operator.ofSymbol?_eq_some_iff.mp hop
          dsimp only
          obtain ⟨text, policy⟩ := p
          cases policy with
          | strict =>
              unfold Expr.readBareOperator
              dsimp only
              rw [h.fault_eq]
              exact .error h
          | lenient =>
              dsimp only
              rw [bind_ok (move_eq s 1)]
              exact hin op.power (h.skip hrest (utf8Size_symbol op))
      | none =>
          dsimp only
          rw [bind_ok (move_eq s c.utf8Size)]
          have hunexpected : k.unexpected c = unexpected s.position c := h.fault_eq _
          rw [hunexpected]
          exact meets_refuse (h.skip hrest rfl) _

theorem meets_join (hin : MeetsInside p active inside) (h : s.At p.text active k)
    {op : Operator} (hrest : k.rest = op.symbol :: others) (left : Expr) :
    Meets p.text active (p.join active left s) (Expr.readOperator p.policy inside op left k) := by
  have hcount := countOperator_eq h
  have hop : k.rest.head?.bind Operator.ofSymbol? = some op := by
    rw [hrest]
    exact Operator.ofSymbol?_symbol op
  rw [join, bind_ok (get_eq s), bind_ok (peek_eq h), hop]
  unfold Expr.readOperator
  dsimp only
  by_cases hlt : k.operators < maxOperators
  · rw [if_pos hlt] at hcount
    rw [if_pos hlt, bind_ok hcount, if_pos rfl, bind_ok (move_eq _ 1)]
    have hskip : (Scanner.moveTo { s with operators := s.operators + 1 } active
        (s.position + 1)).At p.text active k.skip.countOperator := by
      have hskip :=
        Scanner.At.skip (k := k.countOperator) h.countOperator hrest (utf8Size_symbol op)
      rwa [show k.countOperator.skip = k.skip.countOperator by
        unfold Cursor.skip
        rw [show k.countOperator.rest = _ from hrest, hrest]
        rfl] at hskip
    exact meets_bind (hin op.power hskip) fun right s' k' h' => .ok h'
  · rw [if_neg hlt] at hcount
    rw [if_neg hlt, bind_ok hcount]
    exact meets_abandon h _

theorem power_eq (h : s.At p.text active k) :
    p.power s = some (.ok ((k.rest.head?.bind Operator.ofSymbol?).elim 0 Operator.power), s) := by
  unfold power
  rw [bind_ok (peek_eq h)]
  rfl

/-- The loop over operators ends where none stands. -/
theorem fold_of_none {bound : Nat} (left : Expr) (h : s.At p.text active k)
    (hnone : k.rest.head?.bind Operator.ofSymbol? = none) :
    p.fold active bound left s = some (.ok left, s) := by
  have hzero : ¬ bound < (none : Option Operator).elim 0 Operator.power := Nat.not_lt_zero bound
  rw [fold, bind_ok (power_eq h), hnone, if_neg hzero]
  rfl

/-- **The loop over operators meets the rounds of the reading**, by induction on them: every round
passes over an operator. -/
theorem meets_fold (hin : MeetsInside p active inside)
    (hyields : ∀ bound, Expr.YieldsPart (inside bound)) {bound rounds : Nat} (left : Expr)
    (h : s.At p.text active k) (hle : k.rest.length ≤ rounds) :
    Meets p.text active (p.fold active bound left s)
      (Expr.readOperators p.policy inside bound rounds left k) := by
  induction rounds generalizing left s k with
  | zero =>
      have hnil := List.length_eq_zero_iff.mp (Nat.le_zero.mp hle)
      rw [fold_of_none left h (by rw [hnil]; rfl)]
      exact .ok h
  | succ rounds ih =>
      unfold Expr.readOperators
      cases hop : k.rest.head?.bind Operator.ofSymbol? with
      | none =>
          rw [fold_of_none left h hop]
          exact .ok h
      | some op =>
          dsimp only
          rw [fold, bind_ok (power_eq h), hop]
          have helim : (some op).elim 0 Operator.power = op.power := rfl
          by_cases hbound : bound < op.power
          · rw [if_pos (helim ▸ hbound), if_pos hbound]
            obtain ⟨c, hhead, hc⟩ := Option.bind_eq_some_iff.mp hop
            obtain ⟨others, hrest⟩ := List.head?_eq_some_iff.mp hhead
            rw [Operator.ofSymbol?_eq_some_iff.mp hc] at hrest
            refine meets_bind_of_eq (meets_join hin h hrest left) fun joined s' k' hread h' => ?_
            -- The condition of the loop is no bound on its rounds, but the text gets shorter.
            have hlt : k'.rest.length < k.rest.length := Expr.length_lt_of_readOperator hyields
              (hrest ▸ List.cons_ne_nil op.symbol others) hread
            exact ih joined h' (Nat.le_of_lt_succ (hlt.trans_le hle))
          · rw [if_neg (helim ▸ hbound), if_neg hbound]
            exact .ok h

end Inside

/-- **The scan of an expression meets its reading**, by induction on the levels that are left. -/
theorem meets_expression {levels : Nat} (hlevels : active + levels = maxNesting) :
    MeetsInside p active (Expr.expression p.policy levels) := by
  induction levels generalizing active with
  | zero =>
      intro bound s k h
      -- The depth is that of the levels that are used up.
      have hdepth : maxNesting ≤ s.depth := by
        rw [h.depth]
        omega
      have hrun : p.expression active bound s = p.abandon active .tooDeep s := by
        rw [expression]
        show (if maxNesting ≤ s.depth then p.abandon active .tooDeep else _ :
          StateT Scanner Option (Except ScanError Expr)) s = _
        rw [if_pos hdepth]
      rw [hrun]
      exact meets_abandon h .tooDeep
  | succ levels ih =>
      intro bound s k h
      have hlt : active < maxNesting := by omega
      have hdepth : ¬ maxNesting ≤ s.depth := by
        rw [h.depth]
        exact Nat.not_le.mpr hlt
      have hrun : p.expression active bound s =
          (p.folded (active + 1) bound (s.enter active)).map
            fun result => (result.1, result.2.leave active) := by
        rw [expression]
        show (if maxNesting ≤ s.depth then p.abandon active .tooDeep else _ :
          StateT Scanner Option (Except ScanError Expr)) s = _
        rw [if_neg hdepth]
        exact Option.map_eq_bind.symm
      have hin : MeetsInside p (active + 1) (Expr.expression p.policy levels) :=
        ih (by omega)
      have hfolded : Meets p.text (active + 1) (p.folded (active + 1) bound (s.enter active))
          (Expr.expression p.policy (levels + 1) bound k) := by
        rw [folded]
        refine meets_bind (meets_operand hin (h.enter hlt)) fun left s' k' h' => ?_
        exact meets_fold hin (Expr.yields_expression p.policy levels) left h' (Nat.le_refl _)
      rw [hrun]
      generalize p.folded (active + 1) bound (s.enter active) = run at hfolded
      generalize Expr.expression p.policy (levels + 1) bound k = reading at hfolded
      cases hfolded with
      | ok h' => exact .ok h'.leave
      | error h' => exact .error h'.leave

/-- **The scan of a text ends as its reading does**, and stands at a cursor then. -/
theorem exists_parse (p : Scan) :
    ∃ s k, p.parse .start = some ((Expr.read p.policy p.text).mapError ScanError.fault, s) ∧
      s.At p.text 0 k := by
  have hstart : Scanner.start.At p.text 0 (Cursor.start p.text) :=
    ⟨.refl _, rfl, rfl, rfl, Nat.zero_le _, fun v hv => by
      obtain rfl := List.mem_singleton.mp hv
      exact ⟨.here _, rfl, Nat.zero_le _⟩, fun v hv => by
      obtain rfl := List.mem_singleton.mp hv
      exact Nat.le_refl _, List.pairwise_singleton _ _⟩
  have hmeets : Meets p.text 0 (p.expression 0 0 .start)
      (Expr.expression p.policy maxNesting 0 (Cursor.start p.text)) :=
    meets_expression (Nat.zero_add maxNesting) 0 hstart
  unfold Expr.read
  generalize hrun : p.expression 0 0 .start = run at hmeets
  generalize Expr.expression p.policy maxNesting 0 (Cursor.start p.text) = reading at hmeets
  cases hmeets with
  | error h =>
      refine ⟨_, _, ?_, h⟩
      have hbind : p.parse .start = (p.expression 0 0 .start).bind _ := rfl
      rw [hbind, hrun]
      rfl
  | @ok tree s k h =>
      refine ⟨s, k, ?_, h⟩
      obtain ⟨others, position, operators⟩ := k
      unfold parse
      rw [bind_ok hrun]
      obtain ⟨text, policy⟩ := p
      cases policy with
      | lenient => cases others <;> rfl
      | strict =>
          dsimp only
          rw [bind_ok (peek_eq h)]
          cases others with
          | nil => rfl
          | cons c others =>
              dsimp only [List.head?_cons]
              rw [bind_ok (get_eq s), h.position]
              rfl

end Scan

/-! ## 6. Bounds -/

namespace Expr

/-- How many nodes stand below one another in a tree. -/
def height : Expr → Nat
  | binary _ left right => max left.height right.height + 1
  | conditional condition whenTrue whenFalse =>
    max condition.height (max whenTrue.height whenFalse.height) + 1
  | _ => 1

theorem height_le_operators (tree : Expr) : tree.height ≤ tree.operators + 1 := by
  induction tree with
  | binary op left right ihl ihr =>
      simp only [height, operators]
      omega
  | conditional condition whenTrue whenFalse ihc iht ihf =>
      simp only [height, operators]
      omega
  | _ => exact Nat.succ_le_succ (Nat.zero_le _)

/-- **Whatever is read has no more operators and choices than are counted.** -/
theorem operators_le_of_read {policy : Policy} {cs : List Char} {tree : Expr}
    (h : read policy cs = .ok tree) : tree.operators ≤ maxOperators := by
  obtain ⟨k, hexpression⟩ := expression_of_read h
  obtain ⟨-, text, count, hpasses, hle⟩ := yields_expression policy _ _ hexpression
  have hcount : k.operators = count := hpasses.operators.trans (Nat.zero_add _)
  exact hle.trans (hcount ▸ hpasses.within (Nat.zero_le _))

end Expr

/-- **A scan keeps within its bounds.** Whatever the policy and the text:

* it ends, and as the reading of the text does, so no slice of the text ever fails;
* wherever the scanner was lies between two characters of the text, or at one of its ends, and no
  place was visited after one behind it;
* the depth was that of the expressions being read inside one another everywhere, also after one of
  them had ended or failed, and there were never too many; in the end it is zero;
* a tree has a bounded number of operators and choices, and so is of bounded height;
* under a lenient policy there is always a tree, which is the one of the formula. -/
theorem scan_safe (policy : Policy) (source : String) :
    ∃ outcome s, scan policy source = some (outcome, s) ∧
      outcome = (Expr.read policy source.toList).mapError ScanError.fault ∧
      (∀ v ∈ s.visits, (⟨v.position⟩ : String.Pos.Raw).IsValid source ∧
        v.depth = v.active ∧ v.active ≤ maxNesting) ∧
      s.visits.Pairwise (fun later earlier => earlier.position ≤ later.position) ∧
      s.depth = 0 ∧
      (∀ tree, outcome = .ok tree →
        tree.operators ≤ maxOperators ∧ tree.height ≤ maxOperators + 1) ∧
      (policy = .lenient →
        ∃ tree, outcome = .ok tree ∧ Formula.readLenient source = ⟨source, tree⟩) := by
  obtain ⟨s, k, hrun, h⟩ := Scan.exists_parse ⟨source.toList, policy⟩
  refine ⟨_, s, hrun, rfl, fun v hv => ?_, h.sound.ordered, h.depth, fun tree htree => ?_, ?_⟩
  · have hsafe := h.sound.safe v hv
    exact ⟨hsafe.lies.isValid, hsafe.depth, hsafe.within⟩
  · have hread : Expr.read policy source.toList = .ok tree := by
      cases hread : Expr.read policy source.toList with
      | error fault =>
          rw [hread] at htree
          cases htree
      | ok tree' =>
          rw [hread] at htree
          cases htree
          rfl
    have hle := Expr.operators_le_of_read hread
    exact ⟨hle, (Expr.height_le_operators tree).trans (Nat.succ_le_succ hle)⟩
  · rintro rfl
    obtain ⟨hread, -⟩ := read_eq_ok (read_lenient_eq_ok source)
    exact ⟨_, by rw [hread]; rfl, readLenient_eq hread⟩

end Wayfinding
