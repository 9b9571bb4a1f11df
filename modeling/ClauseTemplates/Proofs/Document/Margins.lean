import ClauseTemplates.Grammar.Compile
import Mathlib.Data.List.Basic
import Mathlib.Data.List.Infix

namespace ClauseTemplates

namespace Text

theorem trimEnd_concat (cs : List Char) (c : Char) :
    trimEnd (cs ++ [c]) = if isBlank c then trimEnd cs else cs ++ [c] := by
  unfold trimEnd
  rw [List.reverse_append, List.reverse_singleton, List.singleton_append, List.dropWhile_cons]
  split
  · rfl
  · rw [List.reverse_cons, List.reverse_reverse]

theorem trimEnd_prefix (cs : List Char) : trimEnd cs <+: cs := by
  unfold trimEnd
  rw [← List.reverse_suffix, List.reverse_reverse]
  exact List.dropWhile_suffix _

theorem isBlank_digit {c : Char} (h : c.isDigit = true) : isBlank c = false := by
  simp only [Char.isDigit, Bool.and_eq_true, decide_eq_true_eq, ge_iff_le] at h
  have h₁ : 48 ≤ c.toNat := h.1
  have h₂ : c.toNat ≤ 57 := h.2
  simp only [isBlank, inRanges, blankRanges, List.any_cons, List.any_nil, Bool.or_false,
    Bool.or_eq_false_iff, Bool.and_eq_false_iff, decide_eq_false_iff_not]
  omega

end Text

namespace Markdown

/-- What stands in front of lines inside quotes and items. -/
def Margin (margin : List Char) : Prop := ∃ nesting : List Nesting, margin = nesting.flatMap Nesting.margin

theorem margin_nil : Margin [] := ⟨[], rfl⟩

theorem margin_quote : Margin quoteMark := ⟨[.quote], rfl⟩

theorem margin_item (kind : ListKind) : Margin (itemIndent kind) := by
  refine ⟨[.item kind], ?_⟩
  rw [List.flatMap_singleton]
  rfl

namespace Margin

variable {margin inner : List Char}

theorem append (h : Margin margin) (h' : Margin inner) : Margin (margin ++ inner) := by
  obtain ⟨outer, rfl⟩ := h
  obtain ⟨nesting, rfl⟩ := h'
  exact ⟨outer ++ nesting, List.flatMap_append.symm⟩

theorem eq_or_eq (h : Margin margin) {c : Char} (hc : c ∈ margin) : c = ' ' ∨ c = '>' := by
  obtain ⟨nesting, rfl⟩ := h
  obtain ⟨n, _, hc⟩ := List.mem_flatMap.mp hc
  cases n with
  | quote =>
    simp only [Nesting.margin, quoteMark, List.mem_cons, List.not_mem_nil, or_false] at hc
    exact hc.symm
  | item kind =>
    cases kind <;> exact Or.inl (by simpa [Nesting.margin, itemIndent] using hc)

theorem newline_not_mem (h : Margin margin) : '\n' ∉ margin := by
  intro hc
  rcases h.eq_or_eq hc with h | h <;> cases h

/-- Margins end in blanks. -/
theorem split (h : Margin margin) :
    ∃ k, margin = Text.trimEnd margin ++ List.replicate k ' ' ∧ (margin ≠ [] → 0 < k) := by
  obtain ⟨nesting, rfl⟩ := h
  have hblank : Text.isBlank ' ' = true := by decide
  have hmark : Text.isBlank '>' = false := by decide
  induction nesting using List.reverseRecOn with
  | nil => exact ⟨0, rfl, fun h => absurd rfl h⟩
  | append_singleton outer n ih =>
    obtain ⟨k, hk, _⟩ := ih
    rw [List.flatMap_append, List.flatMap_singleton]
    cases n with
    | quote =>
      refine ⟨1, ?_, fun _ => Nat.one_pos⟩
      rw [show Nesting.margin .quote = ['>'] ++ [' '] from rfl, ← List.append_assoc,
        Text.trimEnd_concat, if_pos hblank, Text.trimEnd_concat, hmark]
      rfl
    | item kind =>
      cases kind with
      | bullet =>
        refine ⟨k + 2, ?_, fun _ => by omega⟩
        rw [show Nesting.margin (.item .bullet) = [' '] ++ [' '] from rfl, ← List.append_assoc,
          Text.trimEnd_concat, if_pos hblank, Text.trimEnd_concat, if_pos hblank]
        conv_lhs => rw [hk]
        simp [List.replicate_succ']
      | ordered =>
        refine ⟨k + 3, ?_, fun _ => by omega⟩
        rw [show Nesting.margin (.item .ordered) = [' '] ++ [' '] ++ [' '] from rfl,
          ← List.append_assoc, ← List.append_assoc, Text.trimEnd_concat, if_pos hblank,
          Text.trimEnd_concat, if_pos hblank, Text.trimEnd_concat, if_pos hblank]
        conv_lhs => rw [hk]
        simp [List.replicate_succ']

theorem newline_not_mem_trimEnd (h : Margin margin) : '\n' ∉ Text.trimEnd margin :=
  fun hc => h.newline_not_mem ((Text.trimEnd_prefix margin).subset hc)

theorem eq_blank_of_trimEnd (h : Margin margin) (h' : Margin inner)
    (heq : Text.trimEnd (margin ++ inner) = Text.trimEnd margin) : ∃ k, inner = List.replicate k ' ' := by
  obtain ⟨j, hj, _⟩ := h.split
  obtain ⟨k, hk, _⟩ := (h.append h').split
  rw [heq] at hk
  conv_lhs at hk => rw [hj, List.append_assoc]
  have hall := List.append_cancel_left hk
  refine ⟨inner.length, List.eq_replicate_of_mem fun c hc => ?_⟩
  have hmem : c ∈ List.replicate k ' ' := hall ▸ List.mem_append_right _ hc
  exact List.eq_of_mem_replicate hmem

end Margin

theorem prefix_of_newline {a b s t : List Char} (ha : '\n' ∉ a) (hb : '\n' ∉ b)
    (h : a ++ '\n' :: s <+: b ++ '\n' :: t) : a = b ∧ s <+: t := by
  induction a generalizing b with
  | nil =>
    cases b with
    | nil => exact ⟨rfl, (List.cons_prefix_cons.mp h).2⟩
    | cons c b => exact absurd (List.cons_prefix_cons.mp h).1 fun h => hb (h ▸ List.mem_cons_self)
  | cons c a ih =>
    cases b with
    | nil => exact absurd (List.cons_prefix_cons.mp h).1 fun h => ha (h ▸ List.mem_cons_self)
    | cons d b =>
      obtain ⟨rfl, hrest⟩ := List.cons_prefix_cons.mp h
      obtain ⟨rfl, hst⟩ := ih (fun h => ha (List.mem_cons_of_mem _ h))
        (fun h => hb (List.mem_cons_of_mem _ h)) hrest
      exact ⟨rfl, hst⟩

/-- No clause region begins, not even behind blanks. -/
def Shut (rest : List Char) : Prop := ∀ k, ¬ List.replicate k ' ' ++ clauseMark <+: rest

/-- What an item of a list begins with. -/
def IsMark (bullet : Char) (rest : List Char) : Prop :=
  [bullet, ' '] <+: rest ∨ ∃ d ∈ rest.head?, d.isDigit = true

/-- What stands behind a block at a margin: it is neither an item of a list inside the block nor a
clause that is left out of it. -/
structure Follows (bullet : Char) (margin rest : List Char) : Prop where
  shut : Shut rest
  items : ∀ inner more, Margin inner → rest = newline (margin ++ inner) ++ more → ¬ IsMark bullet more
  regions : ∀ inner, Margin inner → inner ≠ [] →
    ¬ blockSeparator (margin ++ inner) ++ clauseMark <+: rest

/-- What stands behind the last block at a margin. -/
structure Ends (bullet : Char) (margin rest : List Char) : Prop extends Follows bullet margin rest where
  region : ¬ blockSeparator margin ++ clauseMark <+: rest

section

variable {bullet : Char} {margin inner rest : List Char}

theorem Follows.inside (h : Follows bullet margin rest) (hinner : Margin inner) (hne : inner ≠ []) :
    Ends bullet (margin ++ inner) rest where
  shut := h.shut
  items more after hmore heq := by
    rw [List.append_assoc] at heq
    exact h.items (inner ++ more) after (hinner.append hmore) heq
  regions more hmore _ := by
    rw [List.append_assoc]
    exact h.regions (inner ++ more) (hinner.append hmore) (by simp [hne])
  region := h.regions inner hinner hne

theorem shut_of_head {c : Char} (hblank : c ≠ ' ') (hbrace : c ≠ '\x7b') (rest : List Char) :
    Shut (c :: rest) := by
  intro k hk
  cases k with
  | zero => exact hbrace (List.cons_prefix_cons.mp hk).1.symm
  | succ k => exact hblank (List.cons_prefix_cons.mp hk).1.symm

/-- Only blanks stand behind the last block. -/
theorem ends_blank (hbullet : Text.isBlank bullet = false) (hrest : Text.allBlank rest = true) :
    Ends bullet margin rest := by
  have hall : ∀ c ∈ rest, Text.isBlank c = true := List.all_eq_true.mp hrest
  have hbrace {before : List Char} (h : before ++ clauseMark <+: rest) : False := by
    have := hall '\x7b' (h.subset (List.mem_append_right _ (by decide)))
    exact absurd this (by decide)
  refine ⟨⟨fun k hk => hbrace hk, ?_, fun inner _ _ hk => hbrace hk⟩, fun hk => hbrace hk⟩
  rintro inner more _ rfl (hmark | ⟨d, hd, hdigit⟩)
  · have := hall bullet (List.mem_append_right _ (hmark.subset List.mem_cons_self))
    rw [hbullet] at this
    cases this
  · have hblank := hall d (List.mem_append_right _ (List.mem_of_mem_head? hd))
    rw [Text.isBlank_digit hdigit] at hblank
    cases hblank

theorem not_isMark {c : Char} {more : List Char} (hbullet : ¬ [bullet, ' '] <+: c :: more)
    (hdigit : c.isDigit = false) : ¬ IsMark bullet (c :: more) := by
  rintro (h | ⟨d, hd, h⟩)
  · exact hbullet h
  · cases hd
    rw [hdigit] at h
    cases h

/-- A line at a margin ends the blocks inside the margin, unless it goes on with them. -/
theorem ends_newline (hm : Margin margin) {c : Char}
    (hline : c ≠ '\n') (hhead : ∀ more, Margin more → (inner ++ more).head? ≠ some c)
    (hmark : inner = [] → ¬ IsMark bullet (c :: rest)) :
    Ends bullet (margin ++ inner) (newline margin ++ c :: rest) := by
  have hregion (more : List Char) (hmore : Margin more) :
      ¬ blockSeparator (margin ++ inner ++ more) ++ clauseMark <+: newline margin ++ c :: rest := by
    intro h
    simp only [blockSeparator, newline, List.append_assoc, List.cons_append, List.cons_prefix_cons,
      true_and] at h
    have hprefix := Text.trimEnd_prefix (margin ++ (inner ++ more))
    generalize Text.trimEnd (margin ++ (inner ++ more)) = trimmed at h hprefix
    rcases List.prefix_or_prefix_of_prefix hprefix (List.prefix_append margin (inner ++ more)) with
      ⟨u, rfl⟩ | ⟨u, rfl⟩
    · rw [List.append_assoc trimmed u (c :: rest), List.prefix_append_right_inj] at h
      cases u with
      | nil => exact hline (List.cons_prefix_cons.mp h).1.symm
      | cons d u =>
        refine hm.newline_not_mem ?_
        rw [(List.cons_prefix_cons.mp h).1]
        exact List.mem_append_right _ List.mem_cons_self
    · rw [List.append_assoc, List.prefix_append_right_inj] at h
      rw [List.prefix_append_right_inj] at hprefix
      cases u with
      | nil => exact hline (List.cons_prefix_cons.mp h).1.symm
      | cons d u =>
        obtain ⟨v, hv⟩ := hprefix
        apply hhead more hmore
        rw [← hv, ← (List.cons_prefix_cons.mp h).1]
        rfl
  refine ⟨⟨shut_of_head (by decide) (by decide) _, ?_, fun more hmore _ => hregion more hmore⟩, ?_⟩
  · intro more after hmore heq
    simp only [newline, List.append_assoc, List.cons_append, List.cons.injEq, true_and,
      List.append_cancel_left_eq] at heq
    rw [← List.append_assoc] at heq
    cases hx : inner ++ more with
    | nil =>
      rw [hx, List.nil_append] at heq
      rw [← heq]
      exact hmark (List.append_eq_nil_iff.mp hx).1
    | cons d x =>
      rw [hx, List.cons_append, List.cons.injEq] at heq
      refine absurd ?_ (hhead more hmore)
      rw [hx, heq.1]
      rfl
  · have h := hregion [] margin_nil
    rwa [List.append_nil] at h

/-- An empty line ends a block, if no clause region inside stands behind it. -/
theorem follows_separator (hm : Margin margin) (hbullet : Text.isBlank bullet = false)
    (h : ∀ k, 0 < k → ¬ List.replicate k ' ' ++ clauseMark <+: rest) :
    Follows bullet margin (blockSeparator margin ++ rest) := by
  refine ⟨shut_of_head (by decide) (by decide) _, ?_, ?_⟩
  · intro inner more hinner heq
    simp only [blockSeparator, newline, List.append_assoc, List.cons_append, List.cons.injEq,
      true_and] at heq
    obtain ⟨k, hk, hpos⟩ := hm.split
    cases k with
    | zero =>
      have hnil : margin = [] := by
        by_contra hne
        exact Nat.lt_irrefl 0 (hpos hne)
      subst hnil
      cases inner with
      | nil =>
        rw [← show _ = more from heq]
        refine not_isMark (fun hmark => ?_) (by decide)
        rw [(List.cons_prefix_cons.mp hmark).1] at hbullet
        exact absurd hbullet (by decide)
      | cons d inner =>
        exact absurd ((List.cons.inj heq).1 ▸ List.mem_cons_self) hinner.newline_not_mem
    | succ k =>
      conv_rhs at heq => rw [hk, List.append_assoc]
      have hchar := List.append_cancel_left heq
      cases hchar
  · rintro inner hinner hne hprefix
    simp only [blockSeparator, List.append_assoc, List.cons_append, List.cons_prefix_cons,
      true_and] at hprefix
    obtain ⟨heq, hrest⟩ := prefix_of_newline (hm.append hinner).newline_not_mem_trimEnd
      hm.newline_not_mem_trimEnd hprefix
    obtain ⟨k, rfl⟩ := hm.eq_blank_of_trimEnd hinner heq
    rw [List.prefix_append_right_inj] at hrest
    refine h k ?_ hrest
    rcases Nat.eq_zero_or_pos k with rfl | hk
    · exact absurd rfl hne
    · exact hk

end

end Markdown

end ClauseTemplates
