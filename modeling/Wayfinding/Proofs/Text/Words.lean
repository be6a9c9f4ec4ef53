import Mathlib.Data.List.Basic
import Mathlib.Data.List.TakeWhile
import Wayfinding.Text.Blank

/-!
# Words and the blanks around them

* `Text.HasWords` says which words a text has: each of them is a part without blanks, and a blank or
  the end of the text comes after it. `hasWords_iff`: these are the words that `Text.words` finds.
* `Text.Embeds` says that a text is blank but for one part. `trim_eq_iff`: this part is what
  `Text.trim` leaves, if it is taken as small as possible.
-/

namespace Wayfinding.Text

/-- The words of a text. -/
inductive HasWords : List Char → List (List Char) → Prop where
  | nil : HasWords [] []
  | blank {c : Char} {rest : List Char} {others : List (List Char)} (h : isBlank c = true)
      (hrest : HasWords rest others) : HasWords (c :: rest) others
  | word {word rest : List Char} {others : List (List Char)} (hne : word ≠ [])
      (h : ∀ c ∈ word, isBlank c = false) (hend : ∀ c ∈ rest.head?, isBlank c = true)
      (hrest : HasWords rest others) : HasWords (word ++ rest) (word :: others)

/-! ## 1. The words that are found -/

theorem addToWords_blank {c : Char} (h : isBlank c = true) (found : Bool × List (List Char)) :
    addToWords c found = (false, found.2) := by
  unfold addToWords
  exact if_pos h

/-- Whether the next character belongs to a word. -/
theorem foldr_addToWords_fst {rest : List Char} (hend : ∀ c ∈ rest.head?, isBlank c = true) :
    (rest.foldr addToWords (false, [])).1 = false := by
  cases rest with
  | nil => rfl
  | cons c rest => rw [List.foldr_cons, addToWords_blank (hend c rfl)]

/-- A word goes in front of the words that are found after it. -/
theorem foldr_addToWords_word {word : List Char} (hne : word ≠ [])
    (h : ∀ c ∈ word, isBlank c = false) (others : List (List Char)) :
    word.foldr addToWords (false, others) = (true, word :: others) := by
  induction word with
  | nil => exact absurd rfl hne
  | cons c word ih =>
      have hc : ¬ isBlank c = true := by
        rw [h c List.mem_cons_self]
        decide
      rw [List.foldr_cons]
      by_cases hnil : word = []
      · rw [hnil]
        exact if_neg hc
      · rw [ih hnil fun d hd => h d (List.mem_cons_of_mem _ hd)]
        exact if_neg hc

/-- **The words of a text are the ones that are found.** -/
theorem HasWords.words_eq {cs : List Char} {found : List (List Char)} (h : HasWords cs found) :
    words cs = found := by
  unfold words
  induction h with
  | nil => rfl
  | blank h _ ih => rw [List.foldr_cons, addToWords_blank h, ih]
  | @word word rest others hne h hend _ ih =>
      have hrest : rest.foldr addToWords (false, []) = (false, others) :=
        Prod.ext (foldr_addToWords_fst hend) ih
      rw [List.foldr_append, hrest, foldr_addToWords_word hne h]

/-- Every text has words. -/
theorem exists_hasWords (cs : List Char) : ∃ found, HasWords cs found := by
  -- on the length of the text, since a word is taken off its front as a whole
  induction hlength : cs.length using Nat.strongRecOn generalizing cs with
  | _ length ih =>
      subst hlength
      cases cs with
      | nil => exact ⟨[], .nil⟩
      | cons c rest =>
          by_cases hc : isBlank c = true
          · obtain ⟨found, hrest⟩ := ih rest.length (Nat.lt_succ_self _) rest rfl
            exact ⟨found, .blank hc hrest⟩
          · let word := (c :: rest).takeWhile fun d => !isBlank d
            let after := (c :: rest).dropWhile fun d => !isBlank d
            have hsplit : word ++ after = c :: rest := List.takeWhile_append_dropWhile
            have hne : word ≠ [] := by
              show (c :: rest).takeWhile _ ≠ []
              rw [List.takeWhile_cons_of_pos (by simpa using hc)]
              exact List.cons_ne_nil _ _
            have hless : after.length < (c :: rest).length := by
              have hpos := List.length_pos_iff.mpr hne
              rw [← hsplit, List.length_append]
              omega
            obtain ⟨found, hafter⟩ := ih after.length hless after rfl
            refine ⟨word :: found, hsplit ▸ .word hne (fun d hd => ?_) (fun d hd => ?_) hafter⟩
            · simpa using List.mem_takeWhile_imp hd
            · have hstop := List.head?_dropWhile_not (fun d => !isBlank d) (c :: rest)
              rw [Option.mem_def.mp hd] at hstop
              simpa using hstop

/-- **`Text.words` finds the words of a text**, and it has no others. -/
theorem hasWords_iff {cs : List Char} {found : List (List Char)} :
    HasWords cs found ↔ words cs = found := by
  constructor
  · exact HasWords.words_eq
  · rintro rfl
    obtain ⟨found, h⟩ := exists_hasWords cs
    rw [h.words_eq]
    exact h

/-! ## 2. The part between blanks -/

/-- A text that is blank but for one part of it. -/
def Embeds (cs part : List Char) : Prop :=
  ∃ before after, cs = before ++ part ++ after ∧ ∀ c ∈ before ++ after, isBlank c = true

/-- A part that neither begins nor ends with a blank. -/
def IsTrimmed (part : List Char) : Prop :=
  (∀ c ∈ part.head?, isBlank c = false) ∧ ∀ c ∈ part.getLast?, isBlank c = false

theorem dropWhile_isBlank {before part : List Char} (h : ∀ c ∈ before, isBlank c = true)
    (hpart : ∀ c ∈ part.head?, isBlank c = false) :
    (before ++ part).dropWhile isBlank = part := by
  rw [List.dropWhile_append_of_pos h]
  cases part with
  | nil => rfl
  | cons c part => exact List.dropWhile_cons_of_neg (by rw [hpart c rfl]; decide)

/-- **Trimming leaves the part between the blanks.** -/
theorem trim_of_embeds {cs part : List Char} (h : Embeds cs part) (hpart : IsTrimmed part) :
    trim cs = part := by
  obtain ⟨before, after, rfl, hblank⟩ := h
  obtain ⟨hbefore, hafter⟩ := List.forall_mem_append.mp hblank
  unfold trim
  by_cases hnil : part = []
  · have hall : (before ++ [] ++ after).dropWhile isBlank = [] := by
      rw [List.append_nil]
      exact List.dropWhile_eq_nil_iff.mpr hblank
    rw [hnil, hall]
    rfl
  · have hhead : ∀ c ∈ (part ++ after).head?, isBlank c = false := by
      rw [List.head?_append_of_ne_nil _ hnil]
      exact hpart.1
    have hlast : ∀ c ∈ part.reverse.head?, isBlank c = false := by
      rw [List.head?_reverse]
      exact hpart.2
    rw [List.append_assoc, dropWhile_isBlank hbefore hhead, List.reverse_append,
      dropWhile_isBlank (fun c hc => hafter c (List.mem_reverse.mp hc)) hlast, List.reverse_reverse]

/-- Every text is blank but for what trimming leaves. -/
theorem embeds_trim (cs : List Char) : Embeds cs (trim cs) := by
  let rest := cs.dropWhile isBlank
  have hfront : cs.takeWhile isBlank ++ rest = cs := List.takeWhile_append_dropWhile
  have hback : trim cs ++ (rest.reverse.takeWhile isBlank).reverse = rest := by
    show (rest.reverse.dropWhile isBlank).reverse ++ _ = rest
    rw [← List.reverse_append, List.takeWhile_append_dropWhile, List.reverse_reverse]
  refine ⟨cs.takeWhile isBlank, (rest.reverse.takeWhile isBlank).reverse, ?_, ?_⟩
  · rw [List.append_assoc, hback, hfront]
  · refine List.forall_mem_append.mpr ⟨fun c hc => List.mem_takeWhile_imp hc, fun c hc => ?_⟩
    exact List.mem_takeWhile_imp (List.mem_reverse.mp hc)

/-- **`Text.trim` leaves a part without blanks at its ends** exactly if all else is blank. -/
theorem trim_eq_iff {cs part : List Char} (hpart : IsTrimmed part) :
    trim cs = part ↔ Embeds cs part := by
  constructor
  · rintro rfl
    exact embeds_trim cs
  · exact fun h => trim_of_embeds h hpart

end Wayfinding.Text
