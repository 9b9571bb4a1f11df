import ClauseTemplates.Proofs.Document.Lines
import ClauseTemplates.Proofs.Markup.Inlines

namespace ClauseTemplates

theorem Text.escaped_append (front rest : List Char) :
    escaped (front ++ rest) = escaped front ++ escaped rest := by
  induction front with
  | nil => rfl
  | cons c front ih =>
    rw [List.cons_append, escaped, escaped, ih]
    split <;> rfl

theorem Text.escaped_injective : Function.Injective escaped := by
  have hmark : isMarkupChar '\\' = true := rfl
  intro cs ds h
  induction cs generalizing ds with
  | nil =>
    cases ds with
    | nil => rfl
    | cons d ds =>
      rw [escaped, escaped] at h
      split at h <;> cases h
  | cons c cs ih =>
    cases ds with
    | nil =>
      rw [escaped, escaped] at h
      split at h <;> cases h
    | cons d ds =>
      rw [escaped, escaped] at h
      -- A backslash is escaped itself, so it cannot stand for itself.
      split at h <;> split at h
      · injection h with _ h
        injection h with hc h
        rw [hc, ih h]
      · rename_i hd
        injection h with hc _
        exact absurd (hc ▸ hmark) hd
      · rename_i hc _
        injection h with hd _
        exact absurd (hd ▸ hmark) hc
      · injection h with hc h
        rw [hc, ih h]

namespace Node

/-- A line of text, which is no node if it is empty. -/
def ofLine (line : List Char) : List Node :=
  if line = [] then [] else [.text (String.ofList line)]

/-- Lines of text with a soft break between each two. -/
def ofLines : List (List Char) → List Node
  | [] => []
  | [line] => ofLine line
  | line :: rest => ofLine line ++ .leaf .softbreak :: ofLines rest

end Node

namespace Markup

open Scan Scanner

variable {inner : Scanner Char (List Node)}

/-- An escaped line in front of what is no text is a text of its own. -/
theorem Scans.line {text : List Char} {nodes : List Node} (h : Scans inner text nodes)
    (hapart : StartsApart nodes) (hhead : ∀ c ∈ text.head?, isPlain c = false) {line : List Char}
    (hline : '\n' ∉ line) :
    Scans inner (Text.escaped line ++ text) (Node.ofLine line ++ nodes) := by
  have htext := h.text hapart hhead line hline
  unfold Node.ofLine
  split at htext
  · rename_i hnil
    rw [if_pos hnil]
    exact htext
  · rename_i hne
    rw [if_neg hne]
    exact htext

theorem scans_lines (inner : Scanner Char (List Node)) : ∀ lines : List (List Char),
    (∀ line ∈ lines, '\n' ∉ line) →
      Scans inner (Text.escaped (Text.joinWith ['\n'] lines)) (Node.ofLines lines)
  | [], _ => scans_nil inner
  | [line], h => by
    have hline := (scans_nil inner).line trivial (by nofun) (h line List.mem_cons_self)
    rw [List.append_nil, List.append_nil] at hline
    exact hline
  | line :: next :: rest, h => by
    have hrest := scans_lines inner (next :: rest) fun l hl => h l (List.mem_cons_of_mem line hl)
    -- A line feed is never escaped, so it is read on its own and ends the text in front of it.
    have hbreak : Scans inner (['\n'] ++ Text.escaped (Text.joinWith ['\n'] (next :: rest)))
        (.leaf .softbreak :: Node.ofLines (next :: rest)) :=
      hrest.next (w := ['\n']) (by simp) fun offset => read?_newline inner offset _
    have hall := hbreak.line trivial (by rintro _ ⟨⟩; rfl) (h line List.mem_cons_self)
    rw [Text.joinWith, Text.escaped_append, Text.escaped_append, List.append_assoc]
    · exact hall
    · exact List.cons_ne_nil next rest

/-- Escaped text is read back as that text: its lines, each as one text, with a soft break for every
line feed. Nothing in it is taken for markup. -/
theorem readInlines_escape (s : String) :
    readInlines (Text.escape s).toList = .ok (Node.ofLines (s.toList.splitOn '\n')) := by
  have hlines : ∀ line ∈ s.toList.splitOn '\n', '\n' ∉ line :=
    fun line hline hmem => (Text.mem_of_mem_splitOn hline hmem).2 rfl
  have hjoin : Text.joinWith ['\n'] (s.toList.splitOn '\n') = s.toList := by
    rw [Text.joinWith_eq_intercalate, List.intercalate_splitOn]
  have hscans := scans_lines (inlines (Text.escaped s.toList).length) (s.toList.splitOn '\n') hlines
  rw [hjoin] at hscans
  rw [Text.escape, String.toList_ofList]
  exact hscans.readInlines

end Markup

end ClauseTemplates
