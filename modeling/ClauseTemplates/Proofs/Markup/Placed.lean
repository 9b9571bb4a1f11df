import ClauseTemplates.Markup.Inline
import ClauseTemplates.Proofs.Scan.Placed

namespace ClauseTemplates.Markup

open Scanner

theorem placed_chars (s : String) : Placed (chars s) := placed_exactly _

theorem placed_spaces (least : Nat) : Placed (spaces least) :=
  ((placed_exactly [' ']).many least).bind fun _ => placed_pure ()

theorem placed_ident : Placed ident :=
  ((placed_satisfying _).bind fun _ => ((placed_satisfying _).many 0).bind fun _ =>
    placed_pure _).tryMap _

theorem placed_quotedText : Placed quotedText :=
  (placed_chars _).bind fun _ => ((placed_satisfying _).many 0).bind fun _ =>
    (placed_chars _).bind fun _ => placed_pure _

theorem placed_openTag (keyword : String) : Placed (openTag keyword) :=
  (placed_chars _).bind fun _ => (placed_chars _).bind fun _ => placed_spaces 1

theorem placed_tagEnd : Placed tagEnd := (placed_spaces 0).bind fun _ => placed_chars _

theorem placed_closeTag (keyword : String) : Placed (closeTag keyword) :=
  (placed_chars _).bind fun _ => (placed_chars _).bind fun _ => placed_chars _

theorem placed_guard : Placed guard :=
  ((placed_chars _).bind fun _ => placed_quotedText.bind fun _ => placed_pure _).orElse
    (placed_ident.bind fun _ => placed_pure _)

theorem placed_formula : Placed formula :=
  (placed_exactly _).bind fun _ => (placed_exactly _).takeUntil.bind fun _ => placed_pure _

theorem placed_inlineVariable : Placed inlineVariable :=
  (placed_chars _).bind fun _ => (placed_spaces 0).bind fun _ => placed_ident.bind fun _ =>
    ((placed_spaces 1).bind fun _ => (placed_chars _).bind fun _ =>
      (placed_spaces 1).bind fun _ => placed_quotedText).optional.bind fun _ =>
        placed_tagEnd.bind fun _ => placed_pure _

theorem placed_linebreak : Placed linebreak :=
  (placed_chars _).bind fun _ => (placed_chars _).bind fun _ => placed_pure _

theorem placed_escapedChar : Placed escapedChar :=
  (placed_chars _).bind fun _ => (placed_satisfying _).bind fun _ => placed_pure _

theorem placed_code : Placed code :=
  (placed_chars _).bind fun _ => ((placed_satisfying _).many 0).bind fun _ =>
    (placed_chars _).bind fun _ => placed_pure _

theorem placed_softbreak : Placed softbreak := (placed_chars _).bind fun _ => placed_pure _

theorem placed_brace : Placed brace :=
  ((placed_chars _).bind fun _ => (placed_chars _).optional).tryMap _

theorem placed_plainText : Placed plainText :=
  ((placed_satisfying _).many 1).bind fun _ => placed_pure _

section

variable {inner : Scanner Char (List Node)} (hi : Placed inner)

include hi

theorem placed_elseBranch : Placed (elseBranch inner) :=
  ((placed_chars _).bind fun _ => hi).optional.bind fun _ => placed_pure _

theorem placed_conditional : Placed (conditional inner) :=
  (placed_openTag _).bind fun _ => placed_guard.bind fun _ => placed_tagEnd.bind fun _ =>
    hi.bind fun _ => (placed_elseBranch hi).bind fun _ => (placed_closeTag _).bind fun _ =>
      placed_pure _

theorem placed_optionalBlock : Placed (optionalBlock inner) :=
  (placed_openTag _).bind fun _ => placed_ident.bind fun _ => placed_tagEnd.bind fun _ =>
    hi.bind fun _ => (placed_elseBranch hi).bind fun _ => (placed_closeTag _).bind fun _ =>
      placed_pure _

theorem placed_withinBlock : Placed (withinBlock inner) :=
  (placed_openTag _).bind fun _ => placed_ident.bind fun _ => placed_tagEnd.bind fun _ =>
    hi.bind fun _ => (placed_closeTag _).bind fun _ => placed_pure _

theorem placed_joinBlock : Placed (joinBlock inner) :=
  (placed_openTag _).bind fun _ => placed_ident.bind fun _ =>
    ((placed_spaces 1).bind fun _ => (placed_chars _).bind fun _ => placed_quotedText).optional.bind
      fun _ => placed_tagEnd.bind fun _ => hi.bind fun _ => (placed_closeTag _).bind fun _ =>
        placed_pure _

theorem placed_strong : Placed (strong inner) :=
  (placed_chars _).bind fun _ => (hi.tryMap _).bind fun _ => (placed_chars _).bind fun _ =>
    placed_pure _

theorem placed_emph : Placed (emph inner) :=
  (placed_chars _).bind fun _ => (hi.tryMap _).bind fun _ => (placed_chars _).bind fun _ =>
    placed_pure _

theorem placed_inlineNode : Placed (inlineNode inner) := by
  refine placed_choice fun p hp => ?_
  simp only [List.mem_cons, List.not_mem_nil, or_false] at hp
  rcases hp with rfl | rfl | rfl | rfl | rfl | rfl | rfl | rfl | rfl | rfl | rfl | rfl | rfl | rfl
  · exact placed_formula
  · exact placed_conditional hi
  · exact placed_optionalBlock hi
  · exact placed_withinBlock hi
  · exact placed_joinBlock hi
  · exact placed_inlineVariable
  · exact placed_linebreak
  · exact placed_escapedChar
  · exact placed_strong hi
  · exact placed_emph hi
  · exact placed_code
  · exact placed_softbreak
  · exact placed_brace
  · exact placed_plainText

end

theorem placed_inlines (fuel : Nat) : Placed (inlines fuel) := by
  induction fuel with
  | zero => exact start_unexpected []
  | succ fuel ih => exact ((placed_inlineNode ih).many 0).bind fun _ => placed_pure _

/-- A text that is not read is refused at a place in it, or at its end. -/
theorem start_le_of_readInlines {text : List Char} {f : Scan.Failure Char}
    (h : readInlines text = .error f) : f.start ≤ text.length := by
  have hp : Placed (do let nodes ← inlines (text.length + 1); endOfInput; pure nodes) :=
    (placed_inlines _).bind fun _ => placed_endOfInput.bind fun _ => placed_pure _
  exact hp.run h

end ClauseTemplates.Markup
