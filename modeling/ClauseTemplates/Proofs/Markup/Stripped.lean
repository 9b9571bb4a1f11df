import ClauseTemplates.Proofs.Markup.Content
import ClauseTemplates.Proofs.Markup.Regions
import ClauseTemplates.Proofs.Text.Front
import Mathlib.Data.List.Forall2
import Mathlib.Data.List.TakeWhile

namespace ClauseTemplates

/-- A list splits where a property ends. -/
theorem of_span {α : Type} {p : α → Bool} {xs front rest : List α} (h : xs.span p = (front, rest)) :
    xs = front ++ rest ∧ (∀ a ∈ front, p a = true) ∧ ∀ a ∈ rest.head?, p a = false := by
  rw [List.span_eq_takeWhile_dropWhile] at h
  cases h
  refine ⟨List.takeWhile_append_dropWhile.symm, fun a ha => List.mem_takeWhile_imp ha, ?_⟩
  intro a ha
  have hne := List.ne_nil_of_mem (List.mem_of_mem_head? ha)
  have hhead := List.head_dropWhile_not p hne
  rw [List.head?_eq_some_head hne] at ha
  cases ha
  exact hhead

namespace Markup

/-- What becomes of a line inside a quote, an item or a region. -/
inductive Line.Strips : Line → Line → Prop
  | skip {line : Line} {count : Nat} (h : count ≤ line.text.length) : Strips line (line.skip count)
  /-- Between the blocks of an item, a line of blanks holds nothing. -/
  | empty {line : Line} (h : line.isBlank = true) : Strips line { line with text := [] }

/-- Lines that are read inside some lines: a run of these without what marks them. -/
def Within (lines inside : List Line) : Prop :=
  ∃ run, run <:+: lines ∧ List.Forall₂ Line.Strips run inside

/-- How the lines in front divide into a block and what stands behind it. -/
inductive Divides (line : Line) (rest : List Line) : Content → List Line → Prop
  | region {opening : RegionOpening} {inside after : List Line}
      (hopen : regionOpening? line.text = some opening)
      (hsplit : splitRegion? opening.tag 0 rest = some (inside, after)) :
      Divides line rest (.region opening inside) after
  | fence {info : List Char} {body after : List Line} {close : Line}
      (hfence : Text.dropStart? Markdown.fence line.text = some info)
      (hspan : rest.span (fun line => !endsFence line) = (body, close :: after)) :
      Divides line rest (.whole (.leaf (.codeBlock
        (if (Text.trim info).isEmpty then none else some (String.ofList (Text.trim info)))
        (String.ofList (Text.joinWith ['\n'] (body.map (·.text))))))) after
  | heading {level : Nat} (hlevel : headingLevel? line.text = some level) :
      Divides line rest (.heading level (line.skip (level + 1))) rest
  | thematicBreak : Divides line rest (.whole (.leaf .thematicBreak)) rest
  | quote {quote after : List Line} (hquoted : isQuoted line.text = true)
      (hspan : (line :: rest).span (fun line => isQuoted line.text) = (quote, after)) :
      Divides line rest (.quote (quote.map unquoted)) after
  | list {kind : ListKind} {length : Nat} {items : List (List Line)} {after : List Line}
      (hmark : itemMark? kind line.text = some length)
      (hsplit : splitItems kind (rest.length + 1) (line :: rest) = (items, after)) :
      Divides line rest (.list kind (startOf kind line.text) items) after
  | paragraph {more after : List Line} (hsplit : splitParagraph rest = (more, after)) :
      Divides line rest (.paragraph (line :: more)) after

/-- Why a block is refused, apart from its texts. -/
inductive Refused (line : Line) (rest : List Line) : String → Prop
  | unclosedRegion {opening : RegionOpening} (hopen : regionOpening? line.text = some opening)
      (hinside : StaysOpen opening.tag 0 (rest.map Line.text)) :
      Refused line rest ("unclosed \x7b\x7b#" ++ opening.tag.name ++ "\x7d\x7d")
  | strayClosing (hclose : (regionClosing? line.text).isSome = true) :
      Refused line rest "closing tag without a matching opening tag"
  | unclosedFence {info : List Char} (hfence : Text.dropStart? Markdown.fence line.text = some info)
      (hinside : ∀ inside ∈ rest, endsFence inside = false) : Refused line rest "unclosed code fence"
  | unknownAttribute {opening : RegionOpening} {name value : String}
      (hopen : regionOpening? line.text = some opening) (hname : (name, value) ∈ opening.attributes)
      (hunknown : opening.tag = .clause → name ≠ "src" ∧ name ≠ "condition") :
      Refused line rest ("unknown attribute \x60" ++ name ++ "\x60 on " ++ opening.tag.name)
  | noSingleItem {opening : RegionOpening} (hopen : regionOpening? line.text = some opening)
      (hlist : opening.tag ≠ .clause) :
      Refused line rest (opening.tag.name ++ " must contain exactly one list item")

variable {line : Line} {lines rest after inside : List Line} {content : Content} {e : MarkupError}

theorem listContent_divides {kind : ListKind} (h : (itemMark? kind line.text).isSome = true) :
    Divides line rest (listContent kind line rest).1 (listContent kind line rest).2 := by
  obtain ⟨length, hlength⟩ := Option.isSome_iff_exists.mp h
  exact .list hlength rfl

theorem divides_of_contentOf (h : contentOf line rest = .ok (content, after)) :
    Divides line rest content after := by
  unfold contentOf at h
  split at h
  · rename_i opening hopen
    split at h
    · cases h
    · rename_i hsplit
      cases h
      exact .region hopen hsplit
  split at h
  · cases h
  split at h
  · rename_i info hfence
    obtain ⟨⟨node, after⟩, hread, h⟩ := bind_eq_ok.mp h
    cases h
    unfold readFence at hread
    split at hread
    · cases hread
    · rename_i hspan
      cases hread
      exact .fence hfence hspan
  split at h
  · rename_i hlevel
    cases h
    exact .heading hlevel
  split at h
  · cases h
    exact .thematicBreak
  split at h
  · rename_i hquoted
    cases h
    exact .quote hquoted rfl
  split at h
  · rename_i hbullet
    cases h
    exact listContent_divides hbullet
  split at h
  · rename_i hordered
    cases h
    exact listContent_divides hordered
  · cases h
    exact .paragraph rfl

theorem refused_of_contentOf (h : contentOf line rest = .error e) :
    ∃ message, Refused line rest message ∧ e = line.error message := by
  unfold contentOf at h
  split at h
  · rename_i opening hopen
    split at h
    · rename_i hsplit
      cases h
      exact ⟨_, .unclosedRegion hopen (splitRegion?_eq_none_iff.mp hsplit), rfl⟩
    · cases h
  split at h
  · rename_i hclose
    cases h
    exact ⟨_, .strayClosing hclose, rfl⟩
  split at h
  · rename_i info hfence
    obtain h | ⟨found, _, h⟩ := bind_eq_error.mp h
    · unfold readFence at h
      split at h
      · rename_i hspan
        cases h
        refine ⟨_, .unclosedFence hfence ?_, rfl⟩
        obtain ⟨heq, hopen, _⟩ := of_span hspan
        intro inside hinside
        rw [heq, List.append_nil] at hinside
        simpa using hopen inside hinside
      · cases h
    · cases h
  split at h
  · cases h
  · split_ifs at h

theorem clauseAttribute_error {found : Option String × Option String} {opening : RegionOpening}
    {attributes : List (String × String)} (hsub : attributes ⊆ opening.attributes)
    (h : attributes.foldlM
      (fun (src, condition) (name, value) =>
        if opening.tag = .clause ∧ name = "src" then .ok (some value, condition)
        else if opening.tag = .clause ∧ name = "condition" then .ok (src, some value)
        else
          .error (line.error ("unknown attribute \x60" ++ name ++ "\x60 on " ++ opening.tag.name)))
      found = Except.error e) :
    ∃ name value, (name, value) ∈ opening.attributes ∧
      (opening.tag = .clause → name ≠ "src" ∧ name ≠ "condition") ∧
      e = line.error ("unknown attribute \x60" ++ name ++ "\x60 on " ++ opening.tag.name) := by
  induction attributes generalizing found with
  | nil => cases h
  | cons first attributes ih =>
    obtain ⟨name, value⟩ := first
    obtain ⟨hmem, hsub⟩ := List.cons_subset.mp hsub
    rw [List.foldlM_cons] at h
    obtain h | ⟨next, _, h⟩ := bind_eq_error.mp h
    · dsimp only at h
      split_ifs at h with hsrc hcondition
      cases h
      exact ⟨name, value, hmem, fun htag => ⟨fun hn => hsrc ⟨htag, hn⟩, fun hn => hcondition ⟨htag, hn⟩⟩, rfl⟩
    · exact ih hsub h

theorem refused_of_regionNode {opening : RegionOpening} {children : List Node}
    (hopen : regionOpening? line.text = some opening)
    (h : regionNode line opening children = .error e) :
    ∃ message, Refused line rest message ∧ e = line.error message := by
  unfold regionNode at h
  obtain h | ⟨⟨src, condition⟩, _, h⟩ := bind_eq_error.mp h
  · obtain ⟨name, value, hname, hunknown, he⟩ := clauseAttribute_error (List.Subset.refl _) h
    exact ⟨_, .unknownAttribute hopen hname hunknown, he⟩
  · dsimp only at h
    split at h
    · cases h
    all_goals
      rename_i htag
      split at h
      · cases h
      · cases h
        exact ⟨_, .noSingleItem hopen (by rw [htag]; nofun), rfl⟩

/-! ### Lines inside others -/

theorem Line.Strips.refl (line : Line) : line.Strips line := .skip (Nat.zero_le _)

theorem strips_self (lines : List Line) : List.Forall₂ Line.Strips lines lines :=
  List.forall₂_same.mpr fun line _ => .refl line

theorem within_infix (h : inside <:+: lines) : Within lines inside := ⟨inside, h, strips_self inside⟩

theorem Within.mono {more : List Line} (h : Within lines inside) (hmore : lines <:+: more) :
    Within more inside := by
  obtain ⟨run, hrun, hstrips⟩ := h
  exact ⟨run, hrun.trans hmore, hstrips⟩

theorem strips_unquoted (h : isQuoted line.text = true) : line.Strips (unquoted line) := by
  apply Line.Strips.skip
  split
  · rename_i hmark
    exact Text.length_le_of_startsWith hmark
  · cases htext : line.text with
    | nil =>
      rw [htext] at h
      cases h
    | cons c rest => exact Nat.succ_pos _

theorem length_of_itemMark? {kind : ListKind} {text : List Char} {length : Nat}
    (h : itemMark? kind text = some length) : 2 ≤ length ∧ length ≤ text.length := by
  unfold itemMark? at h
  split at h
  · split at h
    · split at h
      · cases h
        simp
      · cases h
    · cases h
  · split at h
    · rename_i digits rest hspan
      split at h
      · cases h
      · cases h
        rw [(of_span hspan).1]
        simp
    · cases h

theorem length_of_headingLevel? {text : List Char} {level : Nat} (h : headingLevel? text = some level) :
    level + 1 ≤ text.length := by
  unfold headingLevel? at h
  split at h
  · rename_i marks rest hspan
    split at h
    · cases h
      rw [(of_span hspan).1]
      simp
    · cases h
  · cases h

/-- An item takes the lines in front, stripped of its indent. -/
theorem splitItem_run (indent : List Char) (lines : List Line) :
    ∃ run, lines = run ++ (splitItem indent lines).2 ∧
      List.Forall₂ Line.Strips run (splitItem indent lines).1 := by
  induction lines with
  | nil => exact ⟨[], rfl, .nil⟩
  | cons line rest ih =>
    obtain ⟨run, hrun, hstrips⟩ := ih
    rw [splitItem]
    split_ifs with hindent hgoes
    · exact ⟨line :: run, congrArg (line :: ·) hrun,
        .cons (.skip (Text.length_le_of_startsWith hindent)) hstrips⟩
    · exact ⟨line :: run, congrArg (line :: ·) hrun,
        .cons (.empty (Bool.and_eq_true_iff.mp hgoes).1) hstrips⟩
    · exact ⟨[], rfl, .nil⟩

theorem splitItem_suffix (indent : List Char) (lines : List Line) :
    (splitItem indent lines).2 <:+ lines := by
  obtain ⟨run, hrun, _⟩ := splitItem_run indent lines
  exact ⟨run, hrun.symm⟩

theorem splitItems_within (kind : ListKind) (count : Nat) (lines : List Line) :
    (splitItems kind count lines).2 <:+ lines ∧
      ∀ item ∈ (splitItems kind count lines).1, Within lines item := by
  induction count generalizing lines with
  | zero => exact ⟨List.suffix_refl _, by simp [splitItems]⟩
  | succ count ih =>
    cases lines with
    | nil => exact ⟨List.suffix_refl _, by simp [splitItems]⟩
    | cons line rest =>
      rw [splitItems]
      split
      · exact ⟨List.suffix_refl _, by simp⟩
      · rename_i length hmark
        obtain ⟨run, hrun, hstrips⟩ := splitItem_run (Markdown.itemIndent kind) rest
        obtain ⟨hsuffix, hitems⟩ := ih (splitItem (Markdown.itemIndent kind) rest).2
        have hafter := (splitItem_suffix (Markdown.itemIndent kind) rest).trans (List.suffix_cons line rest)
        refine ⟨hsuffix.trans hafter, List.forall_mem_cons.mpr ⟨?_, ?_⟩⟩
        · exact ⟨line :: run, ⟨[], _, congrArg (line :: ·) hrun.symm⟩,
            .cons (.skip (length_of_itemMark? hmark).2) hstrips⟩
        · exact fun item hitem => (hitems item hitem).mono hafter.isInfix

namespace Divides

theorem suffix (h : Divides line rest content after) : after <:+ rest := by
  cases h with
  | @region opening inside _ _ hsplit =>
    obtain ⟨close, heq, _⟩ := splitRegion?_eq_some_iff.mp hsplit
    exact ⟨inside ++ [close], by rw [heq, List.append_assoc, List.singleton_append]⟩
  | @fence _ body _ close _ hspan =>
    exact ⟨body ++ [close], by rw [(of_span hspan).1, List.append_assoc, List.singleton_append]⟩
  | heading _ => exact List.suffix_refl _
  | thematicBreak => exact List.suffix_refl _
  | quote hquoted hspan =>
    rw [List.span_eq_takeWhile_dropWhile, List.dropWhile_cons, if_pos hquoted] at hspan
    cases hspan
    exact List.dropWhile_suffix _
  | @list kind _ items _ hmark hsplit =>
    rw [splitItems, hmark] at hsplit
    cases hsplit
    exact (splitItems_within kind _ _).1.trans (splitItem_suffix _ _)
  | paragraph hsplit => exact ⟨_, (of_span hsplit).1.symm⟩

/-- What is read inside a block are lines of the block. -/
theorem within (h : Divides line rest content after) (hinside : inside ∈ content.insides) :
    Within (line :: rest) inside := by
  cases h with
  | region _ hsplit =>
    obtain ⟨close, heq, _⟩ := splitRegion?_eq_some_iff.mp hsplit
    cases List.mem_singleton.mp hinside
    exact within_infix ⟨[line], close :: after, by rw [heq]; rfl⟩
  | @quote quote _ hquoted hspan =>
    obtain ⟨heq, hall, _⟩ := of_span hspan
    cases List.mem_singleton.mp hinside
    refine ⟨quote, ⟨[], after, heq.symm⟩, List.forall₂_map_right_iff.mpr ?_⟩
    exact List.forall₂_same.mpr fun line hline => strips_unquoted (hall line hline)
  | @list kind _ items _ hmark hsplit =>
    have hitems := (splitItems_within kind (rest.length + 1) (line :: rest)).2
    rw [hsplit] at hitems
    exact hitems inside hinside
  | _ => cases hinside

end Divides

end Markup

end ClauseTemplates
