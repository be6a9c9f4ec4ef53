import Wayfinding.Proofs.Formula.Yield

/-!
# How far a strict reading sees

* `sight`: of the text behind a place, a reading sees the character there, and behind an `i` one
  more.
* `Twins p tail tail'`: two cursors at the same place of two texts that are the same up to byte `p`.
* `Local`: what a reading does at or before byte `p` it does in the other text as well, if it sees
  the same there. If the other text ends at `p`, so does the reading.
* `Local.bind` and the lemmas beside it put local readings together. So a strict reading is local
  (`local_expression`), by induction on the levels, and in each of them on the rounds of the loop.
* `fault_position_exact`: the byte at which a strict reading fails is therefore the one at which the
  text stops being the beginning of a formula, whatever follows.
-/

namespace Wayfinding

open String (utf8Len)

/-! ## 1. Sight -/

/-- What a reading sees of the text behind a place: a character, and behind an `i` one more. -/
def sight (rest : List Char) : List Char :=
  rest.take (if rest.head? = some 'i' then 2 else 1)

theorem sight_cons {c : Char} (hc : c ≠ 'i') (rest : List Char) : sight (c :: rest) = [c] := by
  unfold sight
  rw [List.head?_cons, if_neg fun h => hc (Option.some.inj h)]
  rfl

theorem head?_sight (rest : List Char) : (sight rest).head? = rest.head? := by
  cases rest with
  | nil => rfl
  | cons c rest =>
      unfold sight
      split <;> rfl

theorem head?_eq_of_sight {rest rest' : List Char} (h : sight rest' = sight rest) :
    rest'.head? = rest.head? := by
  rw [← head?_sight rest', h, head?_sight]

/-- What is seen begins the text, and behind an `i` it is known what comes next. -/
theorem cons_of_sight {c : Char} {rest seen : List Char} (h : sight rest = c :: seen) :
    ∃ others, rest = c :: others ∧ (c = 'i' → others.head? = seen.head?) := by
  cases rest with
  | nil => cases h
  | cons c' others =>
      by_cases hc : c' = 'i'
      · subst hc
        have htake : sight ('i' :: others) = 'i' :: others.take 1 := rfl
        obtain ⟨rfl, rfl⟩ := List.cons.inj (htake.symm.trans h)
        refine ⟨others, rfl, fun _ => ?_⟩
        rw [List.head?_take, if_neg Nat.one_ne_zero]
      · obtain ⟨rfl, rfl⟩ := List.cons.inj ((sight_cons hc others).symm.trans h)
        exact ⟨others, rfl, fun hi => absurd hi hc⟩

/-! ## 2. Two texts -/

/-- The other text ends where this one goes on with `tail`, or a reading sees the same in both. -/
def Agree (tail tail' : List Char) : Prop :=
  tail' = [] ∨ sight tail' = sight tail

/-- Two cursors at the same place. Their texts are the same up to byte `p`, and go on with `tail`
and with `tail'` there. -/
structure Twins (p : Nat) (tail tail' : List Char) (k k' : Cursor) : Prop where
  ahead : ∃ ahead, k.rest = ahead ++ tail ∧ k'.rest = ahead ++ tail' ∧
    p = k.position + utf8Len ahead
  position : k'.position = k.position
  operators : k'.operators = k.operators

namespace Twins

variable {p : Nat} {tail tail' : List Char} {k k' : Cursor}

/-- Skipping a character, the cursor passes byte `p` or both stand at the same place again. -/
theorem skip (ha : Agree tail tail') (h : Twins p tail tail' k k') :
    p < k.skip.position ∨ Twins p tail tail' k.skip k'.skip := by
  obtain ⟨⟨ahead, hrest, hrest', hp⟩, hposition, hoperators⟩ := h
  unfold Cursor.skip
  cases ahead with
  | cons c ahead =>
      simp only [List.cons_append] at hrest hrest'
      simp only [hrest, hrest']
      refine Or.inr ⟨⟨ahead, rfl, rfl, ?_⟩, ?_, hoperators⟩
      · rw [hp, String.utf8Len_cons]
        dsimp only
        omega
      · rw [hposition]
  | nil =>
      simp only [List.nil_append] at hrest hrest'
      cases tail with
      | cons c tail =>
          rw [hrest]
          left
          rw [hp]
          exact Nat.add_lt_add_left c.utf8Size_pos _
      | nil =>
          have hnil : tail' = [] :=
            ha.elim id fun h => List.head?_eq_none_iff.mp (head?_eq_of_sight h)
          subst hnil
          simp only [hrest, hrest']
          exact Or.inr ⟨⟨[], hrest, hrest', hp⟩, hposition, hoperators⟩

theorem countOperator (h : Twins p tail tail' k k') :
    Twins p tail tail' k.countOperator k'.countOperator :=
  ⟨h.ahead, h.position, congrArg (· + 1) h.operators⟩

/-- The other text ends at the cursor, or the same character stands at both. -/
theorem head (ha : Agree tail tail') (h : Twins p tail tail' k k') :
    (k'.rest = [] ∧ tail' = [] ∧ p = k'.position) ∨ k'.rest.head? = k.rest.head? := by
  obtain ⟨⟨ahead, hrest, hrest', hp⟩, hposition, -⟩ := h
  cases ahead with
  | cons c ahead =>
      right
      rw [hrest, hrest']
      rfl
  | nil =>
      rcases ha with hnil | hsight
      · exact Or.inl ⟨hrest'.trans hnil, hnil, hp.trans hposition.symm⟩
      · right
        rw [hrest, hrest']
        exact head?_eq_of_sight hsight

/-- The other text ends at the cursor, or the same is seen at both, or `p` lies between the letters
of the word `if`. -/
theorem sight (ha : Agree tail tail') (h : Twins p tail tail' k k') :
    (k'.rest = [] ∧ tail' = [] ∧ p = k'.position) ∨ sight k'.rest = sight k.rest ∨
      (k.rest.head? = some 'i' ∧ p = k.position + 1) := by
  obtain ⟨⟨ahead, hrest, hrest', hp⟩, hposition, -⟩ := h
  rw [hrest, hrest']
  match ahead with
  | [] =>
      rcases ha with hnil | hsight
      · exact Or.inl ⟨hnil, hnil, hp.trans hposition.symm⟩
      · exact Or.inr (Or.inl hsight)
  | [c] =>
      by_cases hc : c = 'i'
      · subst hc
        exact Or.inr (Or.inr ⟨rfl, hp⟩)
      · simp only [List.cons_append, sight_cons hc, true_or, or_true]
  | c :: d :: ahead =>
      right
      left
      by_cases hc : c = 'i'
      · subst hc
        rfl
      · simp only [List.cons_append, sight_cons hc]

/-- Passing digits, the cursor passes byte `p` or the same digits stood before both. -/
theorem skipDigits (ha : Agree tail tail') (h : Twins p tail tail' k k') :
    p < k.skipDigits.position ∨
      (k'.digits = k.digits ∧ Twins p tail tail' k.skipDigits k'.skipDigits) := by
  obtain ⟨⟨ahead, hrest, hrest', hp⟩, hposition, hoperators⟩ := h
  obtain ⟨digits, others, rfl, hd, hothers⟩ := exists_digits ahead
  rw [List.append_assoc] at hrest hrest'
  rw [String.utf8Len_append, utf8Len_digits hd] at hp
  unfold Cursor.skipDigits Cursor.digits
  rw [hrest, hrest']
  by_cases hstop : ∀ c, (others ++ tail).head? = some c → c.isDigit = false
  · have hstop' : ∀ c, (others ++ tail').head? = some c → c.isDigit = false := by
      cases others with
      | cons c others => exact hothers
      | nil =>
          rcases ha with rfl | hsight
          · intro c hc
            cases hc
          · rw [List.nil_append, head?_eq_of_sight hsight]
            exact hstop
    simp only [takeWhile_digits hd hstop, takeWhile_digits hd hstop', dropWhile_digits hd hstop,
      dropWhile_digits hd hstop']
    refine Or.inr ⟨trivial, ⟨others, rfl, rfl, ?_⟩, ?_, hoperators⟩
    · rw [hp, Nat.add_assoc]
    · rw [hposition]
  · -- The digits go on behind byte `p`.
    left
    push Not at hstop
    obtain ⟨c, hc, hdigit⟩ := hstop
    cases others with
    | cons c' others => exact absurd (hothers c hc) hdigit
    | nil =>
        obtain ⟨rest, hrest⟩ := List.head?_eq_some_iff.mp hc
        rw [hrest, List.takeWhile_append_of_pos hd,
          List.takeWhile_cons_of_pos (Bool.eq_true_of_not_eq_false hdigit), hp]
        simp only [List.length_append, List.length_cons, String.utf8Len_nil]
        omega

end Twins

/-! ## 3. Local readings -/

/-- The reading fails at the given byte, or has read everything up to it and nothing is left. -/
inductive EndsAt {α : Type} (p : Nat) : Except Fault (α × Cursor) → Prop where
  | fault {fault : Fault} (h : fault.position = p) : EndsAt p (.error fault)
  | result {a : α} {k : Cursor} (hrest : k.rest = []) (h : k.position = p) : EndsAt p (.ok (a, k))

/-- Whatever comes of `x` at or before byte `p` comes of `y` in the other text as well. If the other
text ends at `p`, then `y` may end there instead. -/
structure Follows {α : Type} (p : Nat) (tail tail' : List Char)
    (x y : Except Fault (α × Cursor)) : Prop where
  ok : ∀ {a k}, x = .ok (a, k) → k.position ≤ p →
    (tail' = [] ∧ EndsAt p y) ∨ ∃ k', y = .ok (a, k') ∧ Twins p tail tail' k k'
  error : ∀ {fault}, x = .error fault → fault.position = p →
    (tail' = [] ∧ EndsAt p y) ∨ y = .error fault

/-- The reading goes forward, fails within the text, ends where the text ends, and sees no further
than `sight`. -/
structure Local {α : Type} (f : Reading α) : Prop where
  before : ∀ {k a k'}, f k = .ok (a, k') → Before k k'
  lies : ∀ {k fault}, f k = .error fault → Lies k fault.position
  atEnd : ∀ {k}, k.rest = [] → EndsAt k.position (f k)
  follows : ∀ {p tail tail' k k'}, Agree tail tail' → Twins p tail tail' k k' →
    Follows p tail tail' (f k) (f k')

namespace Local

variable {α β : Type} {f : Reading α} {g : α → Reading β} {p : Nat} {tail tail' : List Char}
  {k k' : Cursor}

/-- What begins behind byte `p` says nothing about what lies before it. -/
theorem beyond (hf : Local f) (hp : p < k.position) (y : Except Fault (α × Cursor)) :
    Follows p tail tail' (f k) y where
  ok h hle := absurd (hf.before h).position_le (Nat.not_le.mpr (hle.trans_lt hp))
  error h heq := absurd (hf.lies h).le (Nat.not_le.mpr (heq.trans_lt hp))

theorem congr {f' : Reading α} (hf : Local f) (h : ∀ k, f' k = f k) : Local f' :=
  funext h ▸ hf

theorem pure (a : α) : Local fun k => .ok (a, k) where
  before h := by
    cases h
    exact .refl _
  lies h := by cases h
  atEnd hrest := .result hrest rfl
  follows _ ht := by
    refine ⟨fun h _ => ?_, fun h _ => ?_⟩
    · cases h
      exact Or.inr ⟨_, rfl, ht⟩
    · cases h

theorem fail (cause : FaultCause) : Local (α := α) fun k => .error (k.fault cause) where
  before h := by cases h
  lies h := by
    cases h
    exact .here _
  atEnd _ := .fault rfl
  follows _ ht := by
    refine ⟨fun h _ => ?_, fun h _ => ?_⟩
    · cases h
    · cases h
      refine Or.inr ?_
      unfold Cursor.fault
      rw [ht.position]

theorem skip (hf : Local f) : Local fun k => f k.skip where
  before h := (Before.skip _).trans (hf.before h)
  lies h := (hf.lies h).after (Before.skip _)
  atEnd {k} hrest := by
    have hskip : k.skip = k := by
      unfold Cursor.skip
      rw [hrest]
    rw [hskip]
    exact hf.atEnd hrest
  follows ha ht := by
    rcases ht.skip ha with hp | ht
    · exact hf.beyond hp _
    · exact hf.follows ha ht

theorem countOperator (hf : Local f) : Local fun k => f k.countOperator where
  before {k _ k'} h := show Before k.countOperator k' from hf.before h
  lies {k fault} h := show Lies k.countOperator fault.position from hf.lies h
  atEnd {k} hrest := hf.atEnd (k := k.countOperator) hrest
  follows ha ht := hf.follows ha ht.countOperator

/-- The number of operators that were read is the same in both texts. -/
theorem ite_operators {f' : Reading α} (hf : Local f) (hf' : Local f') :
    Local fun k => if k.operators < maxOperators then f k else f' k := by
  refine ⟨fun h => ?_, fun h => ?_, fun hrest => ?_, fun ha ht => ?_⟩
  · split at h
    · exact hf.before h
    · exact hf'.before h
  · split at h
    · exact hf.lies h
    · exact hf'.lies h
  · split
    · exact hf.atEnd hrest
    · exact hf'.atEnd hrest
  · rw [ht.operators]
    split
    · exact hf.follows ha ht
    · exact hf'.follows ha ht

/-- A reading may go by the next character. -/
theorem onHead {h : Option Char → Reading α} (hh : ∀ c?, Local (h c?)) :
    Local fun k => h k.rest.head? k where
  before := (hh _).before
  lies := (hh _).lies
  atEnd := (hh _).atEnd
  follows {p tail tail' k k'} ha ht := by
    rcases ht.head ha with ⟨hrest, hnil, hp⟩ | hhead
    · -- The other text ends here, and so does the reading of it.
      have hends : tail' = [] ∧ EndsAt p (h k'.rest.head? k') := ⟨hnil, hp ▸ (hh _).atEnd hrest⟩
      exact ⟨fun _ _ => Or.inl hends, fun _ _ => Or.inl hends⟩
    · rw [hhead]
      exact (hh _).follows ha ht

/-- A reading may go by the digits it passed. -/
theorem onDigits {h : List Char → Reading α} (hh : ∀ digits, Local (h digits)) :
    Local fun k => h k.digits k.skipDigits where
  before h := (Passes.skipDigits _).before.trans ((hh _).before h)
  lies h := ((hh _).lies h).after (Passes.skipDigits _).before
  atEnd {k} hrest := by
    have hskip : k.skipDigits = k := by
      refine Cursor.skipDigits_eq_self ?_
      unfold Cursor.digits
      rw [hrest]
      rfl
    rw [hskip]
    exact (hh _).atEnd hrest
  follows ha ht := by
    rcases ht.skipDigits ha with hp | ⟨hdigits, ht⟩
    · exact (hh _).beyond hp _
    · rw [hdigits]
      exact (hh _).follows ha ht

theorem endsAt_bind {x : Except Fault (α × Cursor)} (hx : EndsAt p x) (hg : ∀ a, Local (g a)) :
    EndsAt p (x >>= fun r => g r.1 r.2) := by
  cases hx with
  | fault h => exact .fault h
  | result hrest h => exact h ▸ (hg _).atEnd hrest

/-- **Local readings, one after the other, are local.** -/
theorem bind (hf : Local f) (hg : ∀ a, Local (g a)) :
    Local fun k => f k >>= fun r => g r.1 r.2 where
  before h := by
    obtain ⟨⟨a, k₁⟩, ha, h⟩ := bind_eq_ok h
    exact (hf.before ha).trans ((hg a).before h)
  lies h := by
    rcases bind_eq_error h with h | ⟨⟨a, k₁⟩, ha, h⟩
    · exact hf.lies h
    · exact ((hg a).lies h).after (hf.before ha)
  atEnd hrest := endsAt_bind (hf.atEnd hrest) hg
  follows ha ht := by
    refine ⟨fun h hle => ?_, fun h hp => ?_⟩
    · obtain ⟨⟨a, k₁⟩, hok, h⟩ := bind_eq_ok h
      rcases (hf.follows ha ht).ok hok (((hg a).before h).position_le.trans hle) with
        ⟨hnil, hends⟩ | ⟨k₁', hy, ht₁⟩
      · exact Or.inl ⟨hnil, endsAt_bind hends hg⟩
      · rw [hy]
        exact ((hg a).follows ha ht₁).ok h hle
    · rcases bind_eq_error h with h | ⟨⟨a, k₁⟩, hok, h⟩
      · rcases (hf.follows ha ht).error h hp with ⟨hnil, hends⟩ | hy
        · exact Or.inl ⟨hnil, endsAt_bind hends hg⟩
        · rw [hy]
          exact Or.inr rfl
      · rcases (hf.follows ha ht).ok hok (hp ▸ ((hg a).lies h).le) with
          ⟨hnil, hends⟩ | ⟨k₁', hy, ht₁⟩
        · exact Or.inl ⟨hnil, endsAt_bind hends hg⟩
        · rw [hy]
          exact ((hg a).follows ha ht₁).error h hp

end Local

/-! ## 4. Parts of an expression -/

theorem Local.expect (wanted : Char) : Local (Cursor.expect .strict wanted) := by
  have hhead : ∀ c? : Option Char, Local fun k : Cursor =>
      if c? = some wanted then .ok (true, k.skip)
      else Policy.strict.recover (k.fault (.missing wanted c?)) (false, k) := by
    intro c?
    split
    · exact (Local.pure true).skip
    · exact .fail _
  exact .onHead hhead

namespace Expr

variable {bound : Nat} {inside : Nat → Part} {k k' : Cursor} {rest rest' : List Char}

theorem local_readConstant : Local (readConstant .strict) := by
  have hread : ∀ whole digits, Local fun k : Cursor =>
      if digits = [] then failAt .strict .noFraction k
      else .ok (constant (Decimal.ofDigits whole digits).toFloat, k) := by
    intro whole digits
    split
    · exact .fail _
    · exact .pure _
  have hfraction : ∀ whole, Local fun k : Cursor =>
      if k.digits = [] then failAt .strict .noFraction k
      else .ok (constant (Decimal.ofDigits whole k.digits).toFloat, k.skipDigits) := by
    intro whole
    refine (Local.onDigits (hread whole)).congr fun k => ?_
    by_cases h : k.digits = []
    · rw [if_pos h, if_pos h, Cursor.skipDigits_eq_self h]
    · rw [if_neg h, if_neg h]
  have hpoint : ∀ whole, ∀ c? : Option Char, Local fun k : Cursor =>
      if c? = some '.' then
        if k.skip.digits = [] then failAt .strict .noFraction k.skip
        else .ok (constant (Decimal.ofDigits whole k.skip.digits).toFloat, k.skip.skipDigits)
      else .ok (constant (Decimal.ofDigits whole []).toFloat, k) := by
    intro whole c?
    split
    · exact (hfraction whole).skip
    · exact .pure _
  exact .onDigits fun whole => .onHead (hpoint whole)

/-- Reads an operand strictly where a text looks like `seen`. -/
def readSeen (inside : Nat → Part) : List Char → Part
  | [], k => failAt .strict .endOfFormula k
  | c :: seen, k =>
    if c.isDigit then readConstant .strict k
    else if c = 'G' then .ok (travelled, k.skip)
    else if c = 'H' then .ok (estimate, k.skip)
    else if c = 'i' ∧ seen.head? = some 'f' then readChoice .strict inside k
    else if c = '(' then readGroup .strict inside k
    else match Operator.ofSymbol? c with
      | some op => readBareOperator .strict inside op k
      | none => .error (k.unexpected c)

/-- **What is seen decides what is read as an operand.** -/
theorem readOperand_eq (k : Cursor) :
    readOperand .strict inside k = readSeen inside (sight k.rest) k := by
  cases hseen : sight k.rest with
  | nil =>
      have hrest : k.rest = [] := by
        rw [← List.head?_eq_none_iff, ← head?_sight, hseen]
        rfl
      unfold readOperand
      rw [hrest]
      rfl
  | cons c seen =>
      obtain ⟨others, hrest, hsecond⟩ := cons_of_sight hseen
      have hif : (c = 'i' ∧ others.head? = some 'f') ↔ (c = 'i' ∧ seen.head? = some 'f') :=
        and_congr_right fun hc => by rw [hsecond hc]
      unfold readOperand
      rw [hrest]
      simp only [hif]
      rfl

/-- Reads on strictly after an operand if `c?` is the next character. -/
def readRound (inside : Nat → Part) (bound rounds : Nat) (left : Expr) (c? : Option Char) : Part :=
  fun k =>
    match c?.bind Operator.ofSymbol? with
    | none => .ok (left, k)
    | some op =>
      if bound < op.power then
        readOperator .strict inside op left k >>= fun joined =>
          readOperators .strict inside bound rounds joined.1 joined.2
      else .ok (left, k)

section Inside

variable (hin : ∀ bound, Local (inside bound))
include hin

theorem local_readUntil (closing : Char) : Local (readUntil .strict closing inside) :=
  (hin 0).bind fun tree => (Local.expect closing).bind fun closed =>
    .pure (if closed then tree else degenerate)

theorem local_readGroup : Local (readGroup .strict inside) :=
  (local_readUntil hin ')').skip

theorem local_readBranches : Local (readBranches .strict inside) :=
  (local_readUntil hin ',').bind fun condition =>
    (local_readUntil hin ',').bind fun whenTrue =>
      (local_readUntil hin ')').bind fun whenFalse => .pure (choose condition whenTrue whenFalse)

/-- A choice begins behind its word, unless there are too many operators. -/
theorem exists_local_choice :
    ∃ f, Local f ∧ ∀ k, readChoice .strict inside k =
      if k.operators < maxOperators then f k.skip.skip else .error (k.fault .tooManyOperators) := by
  have hopened : ∀ opened : Bool, Local fun k : Cursor =>
      if opened then readBranches .strict inside k else .ok (degenerate, k) := by
    intro opened
    cases opened with
    | true => exact local_readBranches hin
    | false => exact .pure degenerate
  exact ⟨_, ((Local.expect '(').bind hopened).countOperator, fun _ => rfl⟩

theorem local_readChoice : Local (readChoice .strict inside) := by
  obtain ⟨f, hf, heq⟩ := exists_local_choice hin
  exact (hf.skip.skip.ite_operators (.fail _)).congr heq

theorem local_readSeen (seen : List Char) : Local (readSeen inside seen) := by
  cases seen with
  | nil => exact .fail .endOfFormula
  | cons c seen =>
      unfold readSeen
      by_cases hdigit : c.isDigit = true
      · simp only [if_pos hdigit]
        exact local_readConstant
      simp only [if_neg hdigit]
      by_cases hG : c = 'G'
      · simp only [if_pos hG]
        exact (Local.pure travelled).skip
      simp only [if_neg hG]
      by_cases hH : c = 'H'
      · simp only [if_pos hH]
        exact (Local.pure estimate).skip
      simp only [if_neg hH]
      by_cases hif : c = 'i' ∧ seen.head? = some 'f'
      · simp only [if_pos hif]
        exact local_readChoice hin
      simp only [if_neg hif]
      by_cases hopen : c = '('
      · simp only [if_pos hopen]
        exact local_readGroup hin
      simp only [if_neg hopen]
      cases Operator.ofSymbol? c with
      | some op => exact .fail _
      | none => exact .fail _

/-- Between the letters of the word `if` nothing ends and nothing fails. -/
theorem follows_word {p : Nat} {tail tail' : List Char} (hi : k.rest.head? = some 'i')
    (hp : p = k.position + 1) (y : Except Fault (Expr × Cursor)) :
    Follows p tail tail' (readOperand .strict inside k) y := by
  have hfault : ∀ cause, Follows p tail tail' (.error (k.fault cause)) y := by
    refine fun cause => ⟨fun h _ => ?_, fun h heq => ?_⟩
    · cases h
    · cases h
      exact absurd (heq.trans hp) (Nat.ne_of_lt (Nat.lt_succ_self _))
  obtain ⟨rest, hrest⟩ := List.head?_eq_some_iff.mp hi
  have hread : readOperand .strict inside k =
      if rest.head? = some 'f' then readChoice .strict inside k else .error (k.unexpected 'i') := by
    unfold readOperand
    rw [hrest]
    dsimp only
    rw [if_neg (by decide), if_neg (by decide), if_neg (by decide)]
    by_cases hf : rest.head? = some 'f'
    · rw [if_pos ⟨rfl, hf⟩, if_pos hf]
    · rw [if_neg fun h => hf h.2, if_neg hf, if_neg (by decide)]
      rfl
  obtain ⟨f, hf, hchoice⟩ := exists_local_choice hin
  rw [hread, hchoice]
  split
  next hf' =>
    split
    next =>
      obtain ⟨others, rfl⟩ := List.head?_eq_some_iff.mp hf'
      refine hf.beyond ?_ _
      unfold Cursor.skip
      simp only [hrest]
      rw [hp]
      exact Nat.lt_succ_self _
    next => exact hfault _
  next => exact hfault _

/-- **A strict reading of an operand is local.** -/
theorem local_readOperand : Local (readOperand .strict inside) := by
  refine ⟨fun {k _ _} h => ?_, fun {k _} h => ?_, fun {k} hrest => ?_, fun {p _ _ k k'} ha ht => ?_⟩
  · exact (local_readSeen hin _).before ((readOperand_eq k).symm.trans h)
  · exact (local_readSeen hin _).lies ((readOperand_eq k).symm.trans h)
  · rw [readOperand_eq]
    exact (local_readSeen hin _).atEnd hrest
  · rcases ht.sight ha with ⟨hrest, hnil, hp⟩ | hsight | ⟨hi, hp⟩
    · -- The other text ends here, and so does the reading of it.
      have hends : EndsAt p (readOperand .strict inside k') := by
        rw [readOperand_eq, hp]
        exact (local_readSeen hin _).atEnd hrest
      exact ⟨fun _ _ => Or.inl ⟨hnil, hends⟩, fun _ _ => Or.inl ⟨hnil, hends⟩⟩
    · rw [readOperand_eq k', readOperand_eq k, hsight]
      exact (local_readSeen hin _).follows ha ht
    · exact follows_word hin hi hp _

theorem local_readOperator (op : Operator) (left : Expr) :
    Local (readOperator .strict inside op left) :=
  .ite_operators ((hin op.power).bind fun right => .pure (join op left right)).countOperator.skip
    (.fail _)

theorem local_readRound {rounds : Nat}
    (hnext : ∀ left, Local (readOperators .strict inside bound rounds left)) (left : Expr)
    (c? : Option Char) : Local (readRound inside bound rounds left c?) := by
  unfold readRound
  cases c?.bind Operator.ofSymbol? with
  | none => exact .pure left
  | some op =>
      by_cases hbound : bound < op.power
      · simp only [if_pos hbound]
        exact (local_readOperator hin op left).bind hnext
      · simp only [if_neg hbound]
        exact .pure left

theorem local_readOperators (rounds : Nat) (left : Expr) :
    Local (readOperators .strict inside bound rounds left) := by
  induction rounds generalizing left with
  | zero => exact .pure left
  | succ rounds ih => exact .onHead (local_readRound hin ih left)

end Inside

/-! ## 5. Expressions -/

/-- As many rounds as there are characters are enough in both texts. -/
theorem local_loop (hin : ∀ bound, YieldsPart (inside bound))
    (hlocal : ∀ bound, Local (inside bound)) (left : Expr) :
    Local fun k => readOperators .strict inside bound k.rest.length left k := by
  refine ⟨(local_readOperators hlocal _ left).before, (local_readOperators hlocal _ left).lies,
    (local_readOperators hlocal _ left).atEnd, fun {_ _ _ k k'} ha ht => ?_⟩
  rw [readOperators_rounds hin left (Nat.le_refl _) (Nat.le_max_left k.rest.length k'.rest.length),
    readOperators_rounds hin left (Nat.le_refl _) (Nat.le_max_right k.rest.length k'.rest.length)]
  exact (local_readOperators hlocal _ left).follows ha ht

/-- **A strict reading of an expression is local**, by induction on the levels. -/
theorem local_expression (levels bound : Nat) : Local (expression .strict levels bound) := by
  induction levels generalizing bound with
  | zero => exact .fail .tooDeep
  | succ levels ih =>
      exact (local_readOperand ih).bind fun left =>
        local_loop (yields_expression .strict levels) ih left

/-- An expression, and nothing behind it. -/
def readWhole : Reading Expr := fun k =>
  expression .strict maxNesting 0 k >>= fun r =>
    match r.2.rest.head? with
    | none => .ok r
    | some c => .error (r.2.unexpected c)

theorem local_readWhole : Local readWhole := by
  have hend : ∀ (tree : Expr) (c? : Option Char), Local fun k : Cursor =>
      match c? with
      | none => .ok (tree, k)
      | some c => .error (k.unexpected c) := by
    intro tree c?
    cases c? with
    | none => exact .pure tree
    | some c => exact .fail _
  exact (local_expression maxNesting 0).bind fun tree => .onHead (hend tree)

/-- A text is read strictly as a whole. -/
theorem read_strict_eq (cs : List Char) :
    read .strict cs = (readWhole (Cursor.start cs)).map Prod.fst := by
  unfold read readWhole
  cases expression .strict maxNesting 0 (Cursor.start cs) with
  | error fault => rfl
  | ok result =>
      obtain ⟨tree, k⟩ := result
      simp only [bind, Except.bind]
      cases k.rest with
      | nil => rfl
      | cons c rest => rfl

end Expr

/-! ## 6. Formulas -/

theorem readStrict_eq_error_iff {source : String} {fault : Fault} :
    Formula.readStrict source = .error fault ↔
      Expr.readWhole (Cursor.start source.toList) = .error fault := by
  unfold Formula.readStrict Formula.read
  rw [Expr.read_strict_eq]
  cases Expr.readWhole (Cursor.start source.toList) with
  | error fault' => exact ⟨fun h => by cases h; rfl, fun h => by cases h; rfl⟩
  | ok result => exact ⟨nofun, nofun⟩

/-- **The byte at which a strict reading fails is exact.** It is a place between two characters of
the text, or at one of its ends. What stands before it can be read or fails at that very place, and
not before. And whatever text begins with the same characters up to there, and with the one that is
seen there, fails at the same place for the same cause. Of an `i` the next character is seen as
well. -/
theorem fault_position_exact {source : String} {fault : Fault}
    (h : Formula.readStrict source = .error fault) :
    (⟨fault.position⟩ : String.Pos.Raw).IsValid source ∧ fault.position ≤ source.utf8ByteSize ∧
    ∀ head tail : String, source = head ++ tail → head.utf8ByteSize = fault.position →
      ((∃ formula, Formula.readStrict head = .ok formula) ∨
        ∃ fault', Formula.readStrict head = .error fault' ∧ fault'.position = fault.position) ∧
      ∀ other : String, sight other.toList = sight tail.toList →
        Formula.readStrict (head ++ other) = .error fault := by
  have hread := readStrict_eq_error_iff.mp h
  have hvalid := (Expr.local_readWhole.lies hread).isValid
  refine ⟨hvalid, hvalid.le_rawEndPos, fun head tail hsource hsize => ?_⟩
  subst hsource
  have hfollows : ∀ other : String, Agree tail.toList other.toList →
      Follows fault.position tail.toList other.toList
        (Expr.readWhole (Cursor.start (head ++ tail).toList))
        (Expr.readWhole (Cursor.start (head ++ other).toList)) := by
    refine fun other ha => Expr.local_readWhole.follows ha ⟨⟨head.toList, ?_, ?_, ?_⟩, rfl, rfl⟩
    · exact String.toList_append
    · exact String.toList_append
    · rw [String.utf8Len_toList, hsize]
      exact (Nat.zero_add _).symm
  constructor
  · cases hhead : Formula.readStrict head with
    | ok formula => exact Or.inl ⟨formula, rfl⟩
    | error fault' =>
        refine Or.inr ⟨fault', rfl, ?_⟩
        have hread' := readStrict_eq_error_iff.mp hhead
        rw [← String.append_empty (s := head)] at hread'
        rcases (hfollows "" (Or.inl rfl)).error hread rfl with ⟨-, hends⟩ | hsame
        · rw [hread'] at hends
          cases hends with
          | fault hposition => exact hposition
        · cases hread'.symm.trans hsame
          rfl
  · intro other hsight
    rcases (hfollows other (Or.inr hsight)).error hread rfl with ⟨hnil, -⟩ | hsame
    · -- Nothing is seen at the end of both texts.
      have htail : tail.toList = [] := by
        rw [← List.head?_eq_none_iff, ← head?_eq_of_sight hsight, hnil]
        rfl
      rwa [String.toList_inj.mp (hnil.trans htail.symm)]
    · exact readStrict_eq_error_iff.mpr hsame

/-- A parenthesis that is not closed, in a text with a letter of two bytes. -/
theorem fault_position_exact_parenthesis :
    Formula.readStrict "(Gé)" = .error ⟨2, .missing ')' (some 'é')⟩ ∧
      (∃ fault, Formula.readStrict "(G" = .error fault ∧ fault.position = 2) ∧
      Formula.readStrict "(Gé*H" = .error ⟨2, .missing ')' (some 'é')⟩ := by
  have hread : Formula.readStrict "(Gé)" = .error ⟨2, .missing ')' (some 'é')⟩ := by rfl
  obtain ⟨hhead, hother⟩ := (fault_position_exact hread).2.2 "(G" "é)" rfl rfl
  refine ⟨hread, hhead.resolve_left ?_, hother "é*H" rfl⟩
  rintro ⟨formula, hformula⟩
  have hfails : Formula.readStrict "(G" = .error ⟨2, .missing ')' none⟩ := by rfl
  cases hformula.symm.trans hfails

end Wayfinding
