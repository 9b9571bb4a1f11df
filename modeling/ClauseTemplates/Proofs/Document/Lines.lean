import ClauseTemplates.Text.Blank
import Mathlib.Data.List.Basic

namespace ClauseTemplates

namespace Text

theorem mem_of_mem_splitOn {line cs : List Char} (h : line ∈ cs.splitOn '\n') {c : Char} (hc : c ∈ line) :
    c ∈ cs ∧ c ≠ '\n' := by
  induction cs generalizing line with
  | nil =>
    rw [List.splitOn_nil, List.mem_singleton] at h
    rw [h] at hc
    cases hc
  | cons d cs ih =>
    have hsplit := List.splitOn_cons_eq_if_modifyHead d cs (a := '\n')
    rw [hsplit] at h
    split at h
    · rcases List.mem_cons.mp h with rfl | h
      · cases hc
      · obtain ⟨hmem, hne⟩ := ih h hc
        exact ⟨List.mem_cons_of_mem d hmem, hne⟩
    · rename_i hd
      have hd : d ≠ '\n' := by simpa using hd
      obtain ⟨first, rest, hparts⟩ := List.exists_cons_of_ne_nil (List.splitOn_ne_nil '\n' cs)
      rw [hparts] at h ih
      rcases List.mem_cons.mp h with rfl | h
      · rcases List.mem_cons.mp hc with rfl | hc
        · exact ⟨List.mem_cons_self, hd⟩
        · obtain ⟨hmem, hne⟩ := ih List.mem_cons_self hc
          exact ⟨List.mem_cons_of_mem d hmem, hne⟩
      · obtain ⟨hmem, hne⟩ := ih (List.mem_cons_of_mem first h) hc
        exact ⟨List.mem_cons_of_mem d hmem, hne⟩

theorem getLast?_splitOn {cs : List Char} (hne : cs ≠ []) (hlast : cs.getLast? ≠ some '\n') :
    (cs.splitOn '\n').getLast? ≠ some [] := by
  induction cs with
  | nil => exact absurd rfl hne
  | cons c cs ih =>
    have hsplit := List.splitOn_cons_eq_if_modifyHead c cs (a := '\n')
    obtain ⟨first, rest, hparts⟩ := List.exists_cons_of_ne_nil (List.splitOn_ne_nil '\n' cs)
    rw [hsplit]
    cases cs with
    | nil =>
      have hc : c ≠ '\n' := by simpa using hlast
      simp [hc]
    | cons d cs =>
      rw [List.getLast?_cons_cons] at hlast
      have ih := ih (List.cons_ne_nil d cs) hlast
      rw [hparts] at ih ⊢
      cases rest with
      | nil => split <;> simp_all
      | cons second rest =>
        rw [List.getLast?_cons_cons] at ih
        split
        · rw [List.getLast?_cons_cons, List.getLast?_cons_cons]
          exact ih
        · rw [List.modifyHead_cons, List.getLast?_cons_cons]
          exact ih

theorem joinWith_eq_intercalate (between : List Char) (items : List (List Char)) :
    joinWith between items = between.intercalate items := by
  induction items with
  | nil => rfl
  | cons item items ih =>
    cases items with
    | nil => simp [joinWith, List.intercalate]
    | cons next items =>
      rw [joinWith, ih]
      · simp [List.intercalate]
      · simp

/-- Text is split into lines at its line feeds alone when no line ends in a carriage return and
something stands behind the last line feed. -/
theorem lines_go_eq_splitOn {cs current : List Char} {found : List (List Char)}
    (hfound : found = (cs.splitOn '\n').modifyHead (current.reverse ++ ·))
    (hreturn : ∀ line ∈ found, line.getLast? ≠ some '\r') (hlast : found.getLast? ≠ some []) :
    lines.go current cs = found := by
  induction cs generalizing current found with
  | nil =>
    rw [List.splitOn_nil, List.modifyHead_cons, List.append_nil] at hfound
    subst hfound
    cases current with
    | nil => exact absurd rfl hlast
    | cons c current => rfl
  | cons c cs ih =>
    have hsplit := List.splitOn_cons_eq_if_modifyHead c cs (a := '\n')
    rw [hsplit] at hfound
    by_cases hc : c = '\n'
    · subst hc
      rw [beq_self_eq_true, if_pos rfl, List.modifyHead_cons, List.append_nil] at hfound
      subst hfound
      obtain ⟨first, rest, hparts⟩ := List.exists_cons_of_ne_nil (List.splitOn_ne_nil '\n' cs)
      have hrest : lines.go [] cs = cs.splitOn '\n' := by
        apply ih
        · rw [hparts]
          rfl
        · intro line hline
          exact hreturn line (List.mem_cons_of_mem _ hline)
        · rw [hparts, List.getLast?_cons_cons] at hlast
          rw [hparts]
          exact hlast
      have hcurrent : withoutReturn current = current.reverse := by
        have hend := hreturn current.reverse List.mem_cons_self
        rw [List.getLast?_reverse] at hend
        rw [withoutReturn]
        rintro rest rfl
        exact hend rfl
      rw [lines.go, hrest, hcurrent]
    · have hc' : (c == '\n') = false := by simpa using hc
      have hnext : lines.go current (c :: cs) = lines.go (c :: current) cs := by
        rw [lines.go]
        exact hc
      rw [hnext]
      refine ih ?_ hreturn hlast
      rw [hfound, hc', if_neg Bool.false_ne_true, List.modifyHead_modifyHead, List.reverse_cons]
      congr 1
      funext line
      simp

theorem lines_eq_splitOn {cs : List Char} (hreturn : ∀ line ∈ cs.splitOn '\n', line.getLast? ≠ some '\r')
    (hlast : (cs.splitOn '\n').getLast? ≠ some []) : lines cs = cs.splitOn '\n' := by
  refine lines_go_eq_splitOn ?_ hreturn hlast
  obtain ⟨first, rest, hparts⟩ := List.exists_cons_of_ne_nil (List.splitOn_ne_nil '\n' cs)
  rw [hparts]
  rfl

theorem lines_joinWith {found : List (List Char)} (hline : ∀ line ∈ found, '\n' ∉ line)
    (hreturn : ∀ line ∈ found, line.getLast? ≠ some '\r') (hlast : found.getLast? ≠ some []) :
    lines (joinWith ['\n'] found) = found := by
  by_cases hne : found = []
  · rw [hne]
    rfl
  · have hsplit : (joinWith ['\n'] found).splitOn '\n' = found := by
      rw [joinWith_eq_intercalate]
      exact List.splitOn_intercalate '\n' hline hne
    have hlines : lines (joinWith ['\n'] found) = (joinWith ['\n'] found).splitOn '\n' := by
      apply lines_eq_splitOn
      · rw [hsplit]
        exact hreturn
      · rw [hsplit]
        exact hlast
    rw [hlines, hsplit]

theorem lines_of_no_return {cs : List Char} (hne : cs ≠ []) (hreturn : '\r' ∉ cs)
    (hlast : cs.getLast? ≠ some '\n') : lines cs = cs.splitOn '\n' := by
  refine lines_eq_splitOn ?_ (getLast?_splitOn hne hlast)
  intro line hline hend
  exact hreturn (mem_of_mem_splitOn hline (List.mem_of_getLast? hend)).1

theorem joinWith_lines {cs : List Char} (hreturn : '\r' ∉ cs) (hlast : cs.getLast? ≠ some '\n') :
    joinWith ['\n'] (lines cs) = cs := by
  by_cases hne : cs = []
  · rw [hne]
    rfl
  · rw [lines_of_no_return hne hreturn hlast, joinWith_eq_intercalate]
    exact List.intercalate_splitOn '\n'

end Text

end ClauseTemplates
