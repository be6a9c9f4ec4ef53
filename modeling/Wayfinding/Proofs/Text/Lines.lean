import Wayfinding.Text.Line

/-!
# Where the lines of a text end

* `Text.HasLines` says how a text falls into lines, one line at a time. A line ends at a line feed
  or at the end of the text, and a carriage return before the line feed is no part of it.
* `hasLines_iff`: these are the lines that `Text.lines` finds, and every text has them.
* `hasLines_written`: lines that are written one below the other are read back, if none of them has
  a line feed in it or a carriage return at its end.
-/

namespace Wayfinding.Text

/-- How a text falls into lines. The last one need not be ended, but then something stands on it. -/
inductive HasLines : List Char → List (List Char) → Prop where
  | nil : HasLines [] []
  | last {line : List Char} (h : '\n' ∉ line) (hne : line ≠ []) : HasLines line [line]
  | feed {line rest : List Char} {others : List (List Char)} (h : '\n' ∉ line)
      (hend : line.getLast? ≠ some '\r') (hrest : HasLines rest others) :
      HasLines (line ++ '\n' :: rest) (line :: others)
  | carriage {line rest : List Char} {others : List (List Char)} (h : '\n' ∉ line)
      (hrest : HasLines rest others) :
      HasLines (line ++ '\r' :: '\n' :: rest) (line :: others)

/-! ## 1. The lines that are found -/

/-- What stands before the first line feed goes to the first line. -/
theorem foldr_addToLines_feed {line : List Char} (h : '\n' ∉ line) (rest : List Char) :
    (line ++ '\n' :: rest).foldr addToLines [] =
      (line ++ ['\n']) :: rest.foldr addToLines [] := by
  induction line with
  | nil =>
      rw [List.nil_append, List.foldr_cons]
      cases rest.foldr addToLines [] with
      | nil => rfl
      | cons next others => rfl
  | cons c line ih =>
      obtain ⟨hc, hline⟩ := List.ne_and_not_mem_of_not_mem_cons h
      rw [List.cons_append, List.foldr_cons, ih hline]
      exact if_neg (Ne.symm hc)

/-- A text without line feeds is one line. -/
theorem foldr_addToLines_last {line : List Char} (h : '\n' ∉ line) (hne : line ≠ []) :
    line.foldr addToLines [] = [line] := by
  induction line with
  | nil => exact absurd rfl hne
  | cons c line ih =>
      obtain ⟨hc, hline⟩ := List.ne_and_not_mem_of_not_mem_cons h
      rw [List.foldr_cons]
      by_cases hnil : line = []
      · rw [hnil]
        rfl
      · rw [ih hline hnil]
        exact if_neg (Ne.symm hc)

theorem dropLineEnd_of_not_mem {line : List Char} (h : '\n' ∉ line) : dropLineEnd line = line := by
  unfold dropLineEnd
  split
  · rename_i rest hrev
    exact absurd (List.mem_reverse.mp (hrev ▸ List.mem_cons_self)) h
  · rename_i rest _ hrev
    exact absurd (List.mem_reverse.mp (hrev ▸ List.mem_cons_self)) h
  · rfl

theorem dropLineEnd_feed {line : List Char} (hend : line.getLast? ≠ some '\r') :
    dropLineEnd (line ++ ['\n']) = line := by
  unfold dropLineEnd
  rw [List.reverse_append, List.reverse_singleton, List.singleton_append]
  rw [← List.head?_reverse] at hend
  split
  · rename_i rest hrev
    rw [List.cons.injEq] at hrev
    rw [hrev.2] at hend
    exact absurd rfl hend
  · rename_i rest _ hrev
    rw [List.cons.injEq] at hrev
    rw [← hrev.2, List.reverse_reverse]
  · rename_i _ hno
    exact absurd rfl (hno line.reverse)

theorem dropLineEnd_carriage (line : List Char) : dropLineEnd (line ++ ['\r', '\n']) = line := by
  unfold dropLineEnd
  rw [List.reverse_append]
  exact List.reverse_reverse line

/-- **The lines of a text are the ones that are found.** -/
theorem HasLines.lines_eq {cs : List Char} {found : List (List Char)} (h : HasLines cs found) :
    lines cs = found := by
  unfold lines
  induction h with
  | nil => rfl
  | last h hne => rw [foldr_addToLines_last h hne, List.map_singleton, dropLineEnd_of_not_mem h]
  | feed h hend _ ih => rw [foldr_addToLines_feed h, List.map_cons, ih, dropLineEnd_feed hend]
  | @carriage line rest _ h _ ih =>
      have hline : '\n' ∉ line ++ ['\r'] := by
        rw [List.mem_append, List.mem_singleton]
        exact fun hmem => hmem.elim h (by decide)
      have hsplit : line ++ '\r' :: '\n' :: rest = (line ++ ['\r']) ++ '\n' :: rest := by
        rw [List.append_assoc, List.singleton_append]
      rw [hsplit, foldr_addToLines_feed hline, List.map_cons, ih, List.append_assoc]
      exact congrArg (· :: _) (dropLineEnd_carriage line)

/-- Every text has lines. -/
theorem exists_hasLines (cs : List Char) : ∃ found, HasLines cs found := by
  -- on the length of the text, since a line is taken off its front as a whole
  induction hlength : cs.length using Nat.strongRecOn generalizing cs with
  | _ length ih =>
      subst hlength
      by_cases hmem : '\n' ∈ cs
      · obtain ⟨line, rest, rfl, hline⟩ := List.eq_append_cons_of_mem hmem
        have hless : rest.length < (line ++ '\n' :: rest).length := by
          rw [List.length_append, List.length_cons]
          omega
        obtain ⟨others, hrest⟩ := ih rest.length hless rest rfl
        by_cases hend : line.getLast? = some '\r'
        · obtain ⟨shorter, rfl⟩ := List.getLast?_eq_some_iff.mp hend
          rw [List.append_assoc]
          exact ⟨_, .carriage (fun h => hline (List.mem_append_left _ h)) hrest⟩
        · exact ⟨_, .feed hline hend hrest⟩
      · by_cases hne : cs = []
        · exact ⟨[], hne ▸ .nil⟩
        · exact ⟨[cs], .last hmem hne⟩

/-- **`Text.lines` finds the lines of a text**, and nothing else is a way for it to fall into
lines. -/
theorem hasLines_iff {cs : List Char} {found : List (List Char)} :
    HasLines cs found ↔ lines cs = found := by
  constructor
  · exact HasLines.lines_eq
  · rintro rfl
    obtain ⟨found, h⟩ := exists_hasLines cs
    rw [h.lines_eq]
    exact h

/-! ## 2. Lines that are written -/

/-- A line that is read back as it was written. -/
def IsPlainLine (line : List Char) : Prop :=
  '\n' ∉ line ∧ line.getLast? ≠ some '\r'

theorem isPlainLine_of_forall {line : List Char} (h : ∀ c ∈ line, c ≠ '\n' ∧ c ≠ '\r') :
    IsPlainLine line :=
  ⟨fun hfeed => (h _ hfeed).1 rfl, fun hend => (h _ (List.mem_of_getLast? hend)).2 rfl⟩

/-- **Written lines are read back**, in front of the lines of any other text. -/
theorem hasLines_written {written others : List (List Char)} {rest : List Char}
    (h : ∀ line ∈ written, IsPlainLine line) (hrest : HasLines rest others) :
    HasLines (written.flatMap (· ++ ['\n']) ++ rest) (written ++ others) := by
  induction written with
  | nil => exact hrest
  | cons line written ih =>
      obtain ⟨hline, hend⟩ := h line List.mem_cons_self
      rw [List.flatMap_cons, List.append_assoc, List.append_assoc, List.singleton_append]
      exact .feed hline hend (ih fun other hother => h other (List.mem_cons_of_mem _ hother))

end Wayfinding.Text
