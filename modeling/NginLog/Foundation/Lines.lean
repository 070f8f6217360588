import Mathlib.Data.List.Basic

/-!
# Files of lines

A file of lines is read up to its last separator.  What follows it is torn: it
is the beginning of a line that has not been written to its end.  A file that
lost its end to a crash reads as a part of the lines, from the first on.
-/

namespace NginLog
namespace Foundation

variable {item : Type} [DecidableEq item] (sep : item)

def unlines (ls : List (List item)) : List item :=
  ls.flatMap fun line => line ++ [sep]

/-- The complete lines of a text, without their ends. -/
def completeLines (text : List item) : List (List item) :=
  (text.splitOn sep).dropLast

/-- What follows the last line. -/
def tornLine (text : List item) : List item :=
  (text.splitOn sep).getLastD []

omit [DecidableEq item] in
@[simp] theorem unlines_nil : unlines sep [] = [] := rfl

omit [DecidableEq item] in
@[simp] theorem unlines_cons (line : List item) (ls : List (List item)) :
    unlines sep (line :: ls) = line ++ sep :: unlines sep ls := by
  simp [unlines]

variable {sep}

section

variable {ls : List (List item)} (hls : forall line, line ∈ ls -> sep ∉ line)

include hls

theorem splitOn_unlines (rest : List item) :
    (unlines sep ls ++ rest).splitOn sep = ls ++ rest.splitOn sep := by
  induction ls with
  | nil => rfl
  | cons line ls ih =>
      have hrest := ih fun l hl => hls l (List.mem_cons_of_mem _ hl)
      rw [unlines_cons, List.append_assoc, List.cons_append,
        List.splitOn_append_cons_self_of_not_mem (hls line List.mem_cons_self),
        hrest, List.cons_append]

theorem completeLines_unlines (rest : List item) :
    completeLines sep (unlines sep ls ++ rest) =
      ls ++ completeLines sep rest := by
  rw [completeLines, splitOn_unlines hls,
    List.dropLast_append_of_ne_nil (List.splitOn_ne_nil sep rest),
    completeLines]

theorem tornLine_unlines (rest : List item) :
    tornLine sep (unlines sep ls ++ rest) = tornLine sep rest := by
  have hne := List.splitOn_ne_nil sep rest
  rw [tornLine, splitOn_unlines hls, tornLine, List.getLastD_eq_getLast?,
    List.getLastD_eq_getLast?, List.getLast?_append_of_ne_nil _ hne]

end

theorem completeLines_of_not_mem {text : List item} (h : sep ∉ text) :
    completeLines sep text = [] := by
  rw [completeLines, List.splitOn_eq_singleton h]
  rfl

theorem tornLine_of_not_mem {text : List item} (h : sep ∉ text) :
    tornLine sep text = text := by
  rw [tornLine, List.splitOn_eq_singleton h]
  rfl

theorem exists_lines (text : List item) :
    exists ls rest, (forall line, line ∈ ls -> sep ∉ line) ∧ sep ∉ rest ∧
      text = unlines sep ls ++ rest := by
  induction text with
  | nil => exact ⟨[], [], nofun, List.not_mem_nil, rfl⟩
  | cons a text ih =>
      rcases ih with ⟨ls, rest, hls, hrest, rfl⟩
      by_cases ha : a = sep
      · subst ha
        refine ⟨[] :: ls, rest, ?_, hrest, by simp⟩
        intro line hline
        rcases List.mem_cons.mp hline with rfl | hline
        · exact List.not_mem_nil
        · exact hls line hline
      cases ls with
      | nil =>
          refine ⟨[], a :: rest, nofun, ?_, rfl⟩
          simp [hrest, Ne.symm ha]
      | cons line ls =>
          refine ⟨(a :: line) :: ls, rest, ?_, hrest, by simp⟩
          intro line' hline
          rcases List.mem_cons.mp hline with rfl | hline
          · simp [hls line List.mem_cons_self, Ne.symm ha]
          · exact hls line' (List.mem_cons_of_mem _ hline)

/-!
## Files that lost their end
-/

omit [DecidableEq item] in
theorem exists_of_prefix_unlines {text : List item} {ls : List (List item)}
    (h : text <+: unlines sep ls) :
    exists done rest, done <+: ls ∧ text = unlines sep done ++ rest ∧
      (rest = [] ∨ exists next, done ++ [next] <+: ls ∧ rest <+: next) := by
  induction ls generalizing text with
  | nil =>
      rw [unlines_nil, List.prefix_nil] at h
      exact ⟨[], [], List.nil_prefix, h, Or.inl rfl⟩
  | cons line ls ih =>
      rw [unlines_cons] at h
      have hshort : text <+: line ->
          exists done rest, done <+: line :: ls ∧
            text = unlines sep done ++ rest ∧
            (rest = [] ∨ exists next, done ++ [next] <+: line :: ls ∧
              rest <+: next) := fun hline =>
        ⟨[], text, List.nil_prefix, rfl,
          Or.inr ⟨line, List.prefix_append [line] ls, hline⟩⟩
      rcases List.prefix_or_prefix_of_prefix h (List.prefix_append line _) with
        hline | ⟨tail, rfl⟩
      · exact hshort hline
      rw [List.prefix_append_right_inj, List.prefix_cons_iff] at h
      rcases h with rfl | ⟨tail, rfl, htail⟩
      · exact hshort (by simp)
      rcases ih htail with ⟨done, rest, hdone, rfl, hrest⟩
      refine ⟨line :: done, rest, List.cons_prefix_cons.mpr ⟨rfl, hdone⟩,
        by simp, ?_⟩
      rcases hrest with hnone | ⟨next, hnext, hbegins⟩
      · exact Or.inl hnone
      · exact Or.inr ⟨next, List.cons_prefix_cons.mpr ⟨rfl, hnext⟩, hbegins⟩

section

variable {text : List item} {ls : List (List item)}
  (hls : forall line, line ∈ ls -> sep ∉ line)

include hls

theorem completeLines_of_unlines (h : text <+: unlines sep ls) :
    completeLines sep text <+: ls ∧ sep ∉ tornLine sep text ∧
      text = unlines sep (completeLines sep text) ++ tornLine sep text := by
  rcases exists_of_prefix_unlines h with ⟨done, rest, hdone, rfl, hrest⟩
  have hclean : sep ∉ rest := by
    rcases hrest with rfl | ⟨next, hnext, hbegins⟩
    · exact List.not_mem_nil
    · intro hmem
      exact hls next (hnext.subset (by simp)) (hbegins.subset hmem)
  have hdone' : forall line, line ∈ done -> sep ∉ line := fun line hline =>
    hls line (hdone.subset hline)
  rw [completeLines_unlines hdone', completeLines_of_not_mem hclean,
    tornLine_unlines hdone', tornLine_of_not_mem hclean, List.append_nil]
  exact ⟨hdone, hclean, rfl⟩

theorem prefix_completeLines {done : List (List item)} (hdone : done <+: ls)
    (hin : unlines sep done <+: text) :
    done <+: completeLines sep text := by
  rcases hin with ⟨rest, rfl⟩
  rw [completeLines_unlines fun line hline => hls line (hdone.subset hline)]
  exact List.prefix_append _ _

end

/-!
## Files that are written on
-/

/-- Lines that are written behind a torn one. -/
def joinTorn {item : Type} (torn : List item) : List (List item) ->
    List (List item)
  | [] => []
  | first :: rest => (torn ++ first) :: rest

@[simp] theorem joinTorn_nil {item : Type} (ls : List (List item)) :
    joinTorn [] ls = ls := by
  cases ls <;> rfl

theorem completeLines_append (text : List item) {more : List item}
    {ls : List (List item)} (hls : forall line, line ∈ ls -> sep ∉ line)
    (hmore : more <+: unlines sep ls) :
    completeLines sep (text ++ more) =
      completeLines sep text ++
        joinTorn (tornLine sep text) (completeLines sep more) := by
  rcases @exists_lines _ _ sep text with ⟨whole, torn, hwhole, htorn, rfl⟩
  rcases completeLines_of_unlines hls hmore with ⟨hdone, hclean, hsplit⟩
  generalize completeLines sep more = done at hdone hsplit
  generalize tornLine sep more = rest at hsplit hclean
  subst hsplit
  rw [List.append_assoc, completeLines_unlines hwhole,
    completeLines_unlines hwhole, tornLine_unlines hwhole,
    completeLines_of_not_mem htorn, tornLine_of_not_mem htorn,
    List.append_nil]
  congr 1
  cases done with
  | nil =>
      have hboth : sep ∉ torn ++ rest := by simp [htorn, hclean]
      simpa [joinTorn] using completeLines_of_not_mem hboth
  | cons first done =>
      have hjoined : forall line, line ∈ (torn ++ first) :: done ->
          sep ∉ line := by
        intro line hline
        rcases List.mem_cons.mp hline with rfl | hline
        · have hfirst := hls first (hdone.subset List.mem_cons_self)
          simp [htorn, hfirst]
        · exact hls line (hdone.subset (List.mem_cons_of_mem _ hline))
      have hread := completeLines_unlines hjoined rest
      rw [completeLines_of_not_mem hclean, List.append_nil] at hread
      simpa [joinTorn] using hread

end Foundation
end NginLog
