import ClauseTemplates.Markup.Template
import ClauseTemplates.Proofs.Markup.Placed
import ClauseTemplates.Proofs.Markup.Stripped

namespace ClauseTemplates

theorem Text.not_mem_withoutReturn {c : Char} {reversed : List Char} (h : c ∉ reversed) :
    c ∉ withoutReturn reversed := by
  unfold withoutReturn
  split
  · rw [List.mem_reverse]
    exact fun hc => h (List.mem_cons_of_mem _ hc)
  · rwa [List.mem_reverse]

theorem Text.not_mem_lines {cs line : List Char} (h : line ∈ lines cs) : '\n' ∉ line := by
  suffices hgo : ∀ cs current : List Char, '\n' ∉ current → ∀ line ∈ lines.go current cs, '\n' ∉ line from
    hgo cs [] (by simp) line h
  intro cs current hcurrent
  fun_induction lines.go current cs with
  | case1 => simp
  | case2 current =>
    intro line hline
    rw [List.mem_singleton.mp hline, List.mem_reverse]
    exact hcurrent
  | case3 current rest ih =>
    exact List.forall_mem_cons.mpr ⟨not_mem_withoutReturn hcurrent, ih (by simp)⟩
  | case4 current c rest hc ih =>
    apply ih
    rintro (_ | ⟨_, hmem⟩)
    · exact hc rfl
    · exact hcurrent hmem

namespace Markup

/-- What stands at a line and column of a text, up to the end of the line. Both count from one. -/
def textFrom? (texts : List (List Char)) : Nat → Nat → Option (List Char)
  | number + 1, column + 1 => do
    let text ← texts[number]?
    if column ≤ text.length then some (text.drop column) else none
  | _, _ => none

/-- The line stands in the text where it says, and is one line of it. An empty line may have lost its
blanks. -/
structure Line.Stands (texts : List (List Char)) (line : Line) : Prop where
  single : '\n' ∉ line.text
  place : line.isBlank = false → textFrom? texts line.number line.column = some line.text

/-- The lists of lines that come to be read as blocks. -/
inductive Reached (all : List Line) : List Line → Prop
  | all : Reached all all
  | blank {line : Line} {rest : List Line} (h : Reached all (line :: rest))
      (hblank : line.isBlank = true) : Reached all rest
  | behind {line : Line} {rest after : List Line} {content : Content} (h : Reached all (line :: rest))
      (hcontent : contentOf line rest = .ok (content, after)) : Reached all after
  | inside {line : Line} {rest after inside : List Line} {content : Content}
      (h : Reached all (line :: rest)) (hcontent : contentOf line rest = .ok (content, after))
      (hinside : inside ∈ content.insides) : Reached all inside

/-- The text of some lines. -/
def joined (lines : List Line) : List Char := Text.joinWith ['\n'] (lines.map (·.text))

/-- A paragraph or heading that cannot be read, and the error that points at where it stops. -/
def Misread (texts : List (List Char)) (paragraph : List Line) (e : MarkupError) : Prop :=
  ∃ f, readInlines (joined paragraph) = .error f ∧ e.message = f.message ∧
    e.expected = f.expectedTexts ∧ f.start ≤ (joined paragraph).length ∧
    (∃ line, paragraph[((joined paragraph).take f.start).count '\n']? = some line ∧
      e.line = line.number) ∧
    textFrom? texts e.line e.column = some (((joined paragraph).drop f.start).takeWhile (· != '\n'))

/-- The error of a block that begins with a line. -/
inductive Faulty (texts : List (List Char)) (line : Line) (rest : List Line) : MarkupError → Prop
  | refused {message : String} (h : Refused line rest message)
      (hplace : textFrom? texts line.number line.column = some line.text) :
      Faulty texts line rest (line.error message)
  | misread {content : Content} {after paragraph : List Line} {e : MarkupError}
      (hcontent : contentOf line rest = .ok (content, after)) (htext : content.text? = some paragraph)
      (h : Misread texts paragraph e) : Faulty texts line rest e

variable {texts : List (List Char)} {line other : Line} {all lines rest after inside : List Line}
  {content : Content} {e : MarkupError}

theorem textFrom?_add {number column count : Nat} {text : List Char}
    (h : textFrom? texts number column = some text) (hcount : count ≤ text.length) :
    textFrom? texts number (column + count) = some (text.drop count) := by
  cases number with
  | zero => cases h
  | succ number =>
    cases column with
    | zero => cases h
    | succ column =>
      obtain ⟨source, hsource, h⟩ := Option.bind_eq_some_iff.mp h
      split at h
      · cases h
        rw [List.length_drop] at hcount
        have hle : column + count ≤ source.length := by omega
        rw [Nat.add_right_comm, textFrom?, hsource, List.drop_drop]
        exact if_pos hle
      · cases h

theorem Line.isBlank_skip {count : Nat} (h : (line.skip count).isBlank = false) : line.isBlank = false := by
  by_contra hblank
  rw [Bool.not_eq_false] at hblank
  have hall : (line.skip count).isBlank = true :=
    List.all_eq_true.mpr fun c hc => List.all_eq_true.mp hblank c (List.mem_of_mem_drop hc)
  rw [hall] at h
  cases h

/-- A line that is stripped still stands where it says. -/
theorem Line.Strips.stands (h : line.Strips other) (hline : line.Stands texts) : other.Stands texts := by
  cases h with
  | skip hcount =>
    constructor
    · exact fun hmem => hline.single (List.mem_of_mem_drop hmem)
    · exact fun hfull => textFrom?_add (hline.place (isBlank_skip hfull)) hcount
  | empty hblank =>
    constructor
    · exact List.not_mem_nil
    · nofun

theorem Within.stands (h : Within lines inside) (hlines : ∀ line ∈ lines, line.Stands texts) :
    ∀ line ∈ inside, line.Stands texts := by
  obtain ⟨run, hrun, hstrips⟩ := h
  have hstands : ∀ line ∈ run, line.Stands texts := fun line hline => hlines line (hrun.subset hline)
  clear hrun
  induction hstrips with
  | nil => exact hstands
  | cons hstrip _ ih =>
    obtain ⟨hfirst, hmore⟩ := List.forall_mem_cons.mp hstands
    exact List.forall_mem_cons.mpr ⟨hstrip.stands hfirst, ih hmore⟩

theorem stands_linesOf (markup : List Char) :
    ∀ line ∈ linesOf markup, line.Stands (Text.lines markup) := by
  intro line hline
  obtain ⟨⟨text, i⟩, hmem, rfl⟩ := List.mem_map.mp hline
  have htext := List.mk_mem_zipIdx_iff_getElem?.mp hmem
  constructor
  · exact Text.not_mem_lines (List.mem_of_getElem? htext)
  · intro _
    rw [textFrom?, htext]
    rfl

theorem Reached.stands {markup : List Char} (h : Reached (linesOf markup) lines) :
    ∀ line ∈ lines, line.Stands (Text.lines markup) := by
  induction h with
  | all => exact stands_linesOf markup
  | blank _ _ ih => exact fun line hline => ih line (List.mem_cons_of_mem _ hline)
  | behind _ hcontent ih =>
    intro line hline
    exact ih line (List.mem_cons_of_mem _ ((divides_of_contentOf hcontent).suffix.subset hline))
  | inside _ hcontent hinside ih => exact ((divides_of_contentOf hcontent).within hinside).stands ih

theorem joined_cons (line next : Line) (rest : List Line) :
    joined (line :: next :: rest) = line.text ++ '\n' :: joined (next :: rest) := by
  simp [joined, Text.joinWith]

/-- The place of a character of a text lies in the line where the character is, and what stands there
in the line is what stands there in the text. -/
theorem placeIn_eq (hne : lines ≠ []) (hsingle : ∀ line ∈ lines, '\n' ∉ line.text) {offset : Nat}
    (hoffset : offset ≤ (joined lines).length) :
    ∃ line count, lines[((joined lines).take offset).count '\n']? = some line ∧
      placeIn lines offset = (line.number, line.column + count) ∧ count ≤ line.text.length ∧
      line.text.drop count = ((joined lines).drop offset).takeWhile (· != '\n') := by
  induction lines generalizing offset with
  | nil => exact absurd rfl hne
  | cons line rest ih =>
    obtain ⟨hline, hrest⟩ := List.forall_mem_cons.mp hsingle
    have hcount : (line.text.take offset).count '\n' = 0 :=
      List.count_eq_zero.mpr fun hmem => hline (List.mem_of_mem_take hmem)
    have hdrop : ∀ c ∈ line.text.drop offset, (c != '\n') = true := by
      intro c hc
      rw [bne_iff_ne]
      rintro rfl
      exact hline (List.mem_of_mem_drop hc)
    cases rest with
    | nil =>
      have hjoined : joined [line] = line.text := rfl
      rw [hjoined] at hoffset ⊢
      refine ⟨line, offset, ?_, ?_, hoffset, ?_⟩
      · rw [hcount]
        rfl
      · rw [placeIn, Nat.min_eq_left hoffset]
      · rw [List.takeWhile_eq_self_iff.mpr hdrop]
    | cons next more =>
      rw [joined_cons] at hoffset ⊢
      by_cases hle : offset ≤ line.text.length
      · refine ⟨line, offset, ?_, ?_, hle, ?_⟩
        · rw [List.take_append_of_le_length hle, hcount]
          rfl
        · rw [placeIn, if_pos hle]
          simp
        · rw [List.drop_append_of_le_length hle, List.takeWhile_append_of_pos hdrop]
          simp
      · obtain ⟨behind, rfl⟩ : ∃ behind, offset = line.text.length + (behind + 1) :=
          ⟨offset - line.text.length - 1, by omega⟩
        rw [List.length_append, List.length_cons] at hoffset
        have hbehind : behind ≤ (joined (next :: more)).length := by omega
        obtain ⟨here, count, hhere, hplace, hle', heq⟩ := ih (by simp) hrest hbehind
        refine ⟨here, count, ?_, ?_, hle', ?_⟩
        · rw [List.take_length_add_append, List.take_succ_cons, List.count_append, List.count_cons_self,
            List.count_eq_zero.mpr hline, Nat.zero_add, List.getElem?_cons_succ]
          exact hhere
        · rw [placeIn, if_neg hle, ← hplace]
          · congr 1
            omega
          · simp
        · rw [List.drop_length_add_append, List.drop_succ_cons]
          exact heq

/-- What is read as one text stands where its lines say, and holds no ends of lines but its own. -/
theorem Divides.place_text (h : Divides line rest content after) (hfull : line.isBlank = false)
    (hlines : ∀ other ∈ line :: rest, other.Stands texts) {paragraph : List Line}
    (htext : content.text? = some paragraph) :
    paragraph ≠ [] ∧ ∀ other ∈ paragraph,
      '\n' ∉ other.text ∧ textFrom? texts other.number other.column = some other.text := by
  obtain ⟨hline, hrest⟩ := List.forall_mem_cons.mp hlines
  cases h with
  | @heading level hlevel =>
    cases htext
    refine ⟨by simp, List.forall_mem_singleton.mpr ⟨?_, ?_⟩⟩
    · exact fun hmem => hline.single (List.mem_of_mem_drop hmem)
    · exact textFrom?_add (hline.place hfull) (length_of_headingLevel? hlevel)
  | @paragraph more _ hsplit =>
    cases htext
    obtain ⟨heq, hmore, _⟩ := of_span hsplit
    refine ⟨by simp, List.forall_mem_cons.mpr ⟨⟨hline.single, hline.place hfull⟩, ?_⟩⟩
    intro other hother
    have hstands := hrest other (heq ▸ List.mem_append_left after hother)
    have hgoes := hmore other hother
    rw [Bool.and_eq_true_iff, Bool.not_eq_true'] at hgoes
    exact ⟨hstands.single, hstands.place hgoes.1⟩
  | _ => cases htext

theorem misread_of_readParagraphLines (hne : lines ≠ [])
    (hlines : ∀ line ∈ lines, '\n' ∉ line.text ∧ textFrom? texts line.number line.column = some line.text)
    (h : readParagraphLines lines = .error e) : Misread texts lines e := by
  unfold readParagraphLines at h
  split at h
  · cases h
  · rename_i f hread
    have hstart := start_le_of_readInlines hread
    obtain ⟨line, count, hline, hplace, hcount, hdrop⟩ :=
      placeIn_eq hne (fun line hline => (hlines line hline).1) hstart
    rw [hplace] at h
    cases h
    refine ⟨f, hread, rfl, rfl, hstart, ⟨line, hline, rfl⟩, ?_⟩
    rw [← hdrop]
    exact textFrom?_add (hlines line (List.mem_of_getElem? hline)).2 hcount

theorem exists_of_readItems {read : List Line → Reading (List Node)} {items : List (List Line)}
    (h : readItems read items = .error e) : ∃ item ∈ items, read item = .error e := by
  unfold readItems at h
  induction items with
  | nil => cases h
  | cons item items ih =>
    rw [List.mapM_cons] at h
    obtain h | ⟨node, _, h⟩ := bind_eq_error.mp h
    · obtain h | ⟨_, _, h⟩ := bind_eq_error.mp h
      · exact ⟨item, List.mem_cons_self, h⟩
      · cases h
    · obtain h | ⟨_, _, h⟩ := bind_eq_error.mp h
      · obtain ⟨found, hfound, herror⟩ := ih h
        exact ⟨found, List.mem_cons_of_mem item hfound, herror⟩
      · cases h

/-- A block whose lines are divided fails in what it encloses, in its text or for its attributes. -/
theorem error_of_node {read : List Line → Reading (List Node)} (hcontent : Divides line rest content after)
    (h : content.node read line = .error e) :
    (∃ inside ∈ content.insides, read inside = .error e) ∨
      (∃ paragraph, content.text? = some paragraph ∧ readParagraphLines paragraph = .error e) ∨
      ∃ message, Refused line rest message ∧ e = line.error message := by
  cases hcontent with
  | @region opening inside _ hopen _ =>
    obtain h | ⟨children, _, h⟩ := bind_eq_error.mp h
    · exact Or.inl ⟨inside, List.mem_singleton_self inside, h⟩
    · exact Or.inr (Or.inr (refused_of_regionNode hopen h))
  | fence => cases h
  | heading =>
    obtain h | ⟨children, _, h⟩ := bind_eq_error.mp h
    · exact Or.inr (Or.inl ⟨_, rfl, h⟩)
    · cases h
  | thematicBreak => cases h
  | quote =>
    obtain h | ⟨children, _, h⟩ := bind_eq_error.mp h
    · exact Or.inl ⟨_, List.mem_singleton_self _, h⟩
    · cases h
  | list =>
    obtain h | ⟨children, _, h⟩ := bind_eq_error.mp h
    · exact Or.inl (exists_of_readItems h)
    · cases h
  | paragraph =>
    obtain h | ⟨children, _, h⟩ := bind_eq_error.mp h
    · exact Or.inr (Or.inl ⟨_, rfl, h⟩)
    · cases h

/-- Blocks that cannot be read have a place in the text. -/
theorem faulty_of_readBlocks {markup : List Char} (fuel : Nat) (hreached : Reached (linesOf markup) lines)
    (h : readBlocks fuel lines = .error e) :
    ∃ line rest, Reached (linesOf markup) (line :: rest) ∧ line.isBlank = false ∧
      Faulty (Text.lines markup) line rest e := by
  induction fuel generalizing lines with
  | zero => cases h
  | succ fuel ih =>
    cases lines with
    | nil => cases h
    | cons line rest =>
      by_cases hblank : line.isBlank = true
      · rw [readBlocks, if_pos hblank] at h
        exact ih (.blank hreached hblank) h
      have hfull : line.isBlank = false := by simpa using hblank
      have hstands := hreached.stands
      have hplace := (hstands line List.mem_cons_self).place hfull
      rw [readBlocks_cons fuel rest hfull] at h
      obtain h | ⟨⟨content, after⟩, hcontent, h⟩ := bind_eq_error.mp h
      · obtain ⟨message, hrefused, rfl⟩ := refused_of_contentOf h
        exact ⟨line, rest, hreached, hfull, .refused hrefused hplace⟩
      have hdivides := divides_of_contentOf hcontent
      obtain h | ⟨node, _, h⟩ := bind_eq_error.mp h
      · obtain ⟨inside, hinside, h⟩ | ⟨paragraph, htext, h⟩ | ⟨message, hrefused, rfl⟩ :=
          error_of_node hdivides h
        · exact ih (.inside hreached hcontent hinside) h
        · obtain ⟨hne, hlines⟩ := hdivides.place_text hfull hstands htext
          exact ⟨line, rest, hreached, hfull,
            .misread hcontent htext (misread_of_readParagraphLines hne hlines h)⟩
        · exact ⟨line, rest, hreached, hfull, .refused hrefused hplace⟩
      · obtain h | ⟨nodes, _, h⟩ := bind_eq_error.mp h
        · exact ih (.behind hreached hcontent) h
        · cases h

/-- The error for markup that is not read points into it. It names the line where a block is refused,
without the marks of quotes and items in front, or where in its paragraph a text cannot be read on. -/
theorem read_error {markup : String} {e : MarkupError} (h : read markup = .error e) :
    ∃ line rest, Reached (linesOf markup.toList) (line :: rest) ∧ line.isBlank = false ∧
      Faulty (Text.lines markup.toList) line rest e := by
  obtain h | ⟨nodes, _, h⟩ := bind_eq_error.mp h
  · exact faulty_of_readBlocks _ .all h
  · cases h

set_option maxRecDepth 4000 in
/-- In an item of a quote, a variable with more than a name. -/
theorem read_error_quoted :
    read "> - a\n>   \x7b\x7bb c" =
        .error ⟨2, 9, ["' '", "'a'", "'\x7d'"], "unexpected 'c'"⟩ ∧
      ∃ line rest, Reached (linesOf "> - a\n>   \x7b\x7bb c".toList) (line :: rest) ∧
        line.isBlank = false ∧
        Faulty (Text.lines "> - a\n>   \x7b\x7bb c".toList) line rest
          ⟨2, 9, ["' '", "'a'", "'\x7d'"], "unexpected 'c'"⟩ := by
  have h : read "> - a\n>   \x7b\x7bb c" =
      .error ⟨2, 9, ["' '", "'a'", "'\x7d'"], "unexpected 'c'"⟩ :=
    (map_eq_error (f := fun _ => ())).mp (by decide +kernel)
  exact ⟨h, read_error h⟩

end Markup

end ClauseTemplates
