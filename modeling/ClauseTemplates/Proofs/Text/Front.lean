import ClauseTemplates.Text.Blank
import ClauseTemplates.Proofs.Number.Digits

namespace ClauseTemplates.Text

theorem dropStart?_append (start cs : List Char) : dropStart? start (start ++ cs) = some cs := by
  induction start with
  | nil => cases cs <;> rfl
  | cons s start ih => rw [List.cons_append, dropStart?, if_pos rfl, ih]

theorem dropStart?_ne {s : Char} {start cs : List Char} (h : cs.head? ≠ some s) :
    dropStart? (s :: start) cs = none := by
  cases cs with
  | nil => rfl
  | cons c cs =>
    rw [dropStart?, if_neg]
    rintro rfl
    exact h rfl

theorem eq_of_dropStart? {start cs rest : List Char} (h : dropStart? start cs = some rest) :
    cs = start ++ rest := by
  induction start generalizing cs with
  | nil =>
    cases h
    rfl
  | cons s start ih =>
    cases cs with
    | nil => cases h
    | cons c cs =>
      rw [dropStart?] at h
      split at h
      · rename_i heq
        rw [heq, ih h, List.cons_append]
      · cases h

/-- What stands behind a text does not count if no start goes on with it. -/
theorem dropStart?_behind {start rest : List Char} (h : ∀ c ∈ rest.head?, c ∉ start)
    (cs : List Char) :
    dropStart? start (cs ++ rest) = (dropStart? start cs).map (· ++ rest) := by
  induction start generalizing cs with
  | nil => cases cs <;> cases rest <;> rfl
  | cons s start ih =>
    cases cs with
    | nil =>
      refine dropStart?_ne fun hhead => ?_
      exact h s hhead List.mem_cons_self
    | cons c cs =>
      have hstart : ∀ c ∈ rest.head?, c ∉ start := fun d hd hmem =>
        h d hd (List.mem_cons_of_mem s hmem)
      rw [List.cons_append, dropStart?, dropStart?, ih hstart]
      split <;> rfl

theorem startsWith_append (start cs : List Char) : startsWith start (start ++ cs) = true := by
  rw [startsWith, dropStart?_append]
  rfl

theorem startsWith_ne {s : Char} {start cs : List Char} (h : cs.head? ≠ some s) :
    startsWith (s :: start) cs = false := by
  rw [startsWith, dropStart?_ne h]
  rfl

theorem length_le_of_startsWith {start cs : List Char} (h : startsWith start cs = true) :
    start.length ≤ cs.length := by
  obtain ⟨rest, hrest⟩ := Option.isSome_iff_exists.mp h
  rw [eq_of_dropStart? hrest, List.length_append]
  omega

theorem splitAt?_append {mark : Char} {before : List Char} (h : mark ∉ before) (after : List Char) :
    splitAt? mark (before ++ mark :: after) = some (before, after) := by
  have hbefore : ∀ c ∈ before, (c != mark) = true := by
    intro c hc
    rw [bne_iff_ne]
    rintro rfl
    exact h hc
  have hspan : (before ++ mark :: after).span (· != mark) = (before, mark :: after) := by
    apply span_append hbefore
    rintro c ⟨⟩
    exact bne_self_eq_false mark
  unfold splitAt?
  rw [hspan]

end ClauseTemplates.Text
