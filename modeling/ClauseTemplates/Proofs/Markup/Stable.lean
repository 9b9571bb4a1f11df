import ClauseTemplates.Markup.Inline
import ClauseTemplates.Proofs.Scan.Idle

namespace ClauseTemplates

namespace Scanner

open Scan

variable {τ α β : Type} {p q : Scanner τ α} {f g : α → Scanner τ β} {n : Nat}

/-- Two scanners do the same wherever fewer tokens are left. -/
def SameBelow (n : Nat) (p q : Scanner τ α) : Prop := ∀ c : Cursor τ, c.rest.length < n → p c = q c

theorem SameBelow.refl (p : Scanner τ α) : SameBelow n p p := fun _ _ => rfl

theorem andThen_congr {c : Cursor τ} (hp : p c = q c)
    (hf : ∀ a next, read? p c = some (a, next) → f a next = g a next) : (p >>= f) c = (q >>= g) c := by
  change andThen p f c = andThen q g c
  unfold andThen
  rw [← hp]
  cases hr : p c with
  | failure failure => rfl
  | success a next alt =>
    dsimp only
    rw [hf a next (read?_eq_some.mpr ⟨alt, hr⟩)]

theorem SameBelow.bind (hp : SameBelow n p q) (hadvances : Advances p)
    (hf : ∀ a, SameBelow n (f a) (g a)) : SameBelow n (p >>= f) (q >>= g) := by
  intro c hc
  refine andThen_congr (hp c hc) fun a next hread => ?_
  obtain ⟨w, hw⟩ := hadvances c a next hread
  exact hf a next (Nat.lt_of_le_of_lt hw.length_le hc)

/-- Behind what reads some text, fewer tokens are left. -/
theorem Consumes.sameBelow (hp : Consumes p) (hf : ∀ a, SameBelow n (f a) (g a)) :
    SameBelow (n + 1) (p >>= f) (p >>= g) := by
  intro c hc
  refine andThen_congr rfl fun a next hread => ?_
  have hlt := (hp c a next hread).length_lt
  exact hf a next (by omega)

theorem SameBelow.tryMap (hp : SameBelow n p q) (h : α → Except String β) :
    SameBelow n (p.tryMap h) (q.tryMap h) := by
  intro c hc
  unfold Scanner.tryMap
  rw [hp c hc]

theorem SameBelow.optional (hp : SameBelow n p q) : SameBelow n (optional p) (optional q) := by
  intro c hc
  unfold Scanner.optional
  rw [hp c hc]

theorem sameBelow_choice {ps qs : List (Scanner τ α)} (h : List.Forall₂ (SameBelow n) ps qs) :
    SameBelow n (choice ps) (choice qs) := by
  intro c hc
  unfold choice
  suffices hgo : ∀ earlier, choice.go earlier ps c = choice.go earlier qs c from hgo none
  induction h with
  | nil => exact fun _ => rfl
  | cons hp _ ih =>
    intro earlier
    unfold choice.go
    rw [hp c hc]
    split
    · rfl
    · exact ih _

/-- A round takes tokens or is the last, so more rounds than tokens are not asked for. -/
theorem rounds_congr (hp : SameBelow n p q) (hadvances : Advances p) (least : Nat) {most other : Nat}
    (count : Nat) (found : List α) (alt : Option (Failure τ)) {c : Cursor τ} (hc : c.rest.length < n)
    (hmost : c.rest.length < most) (hother : c.rest.length < other) :
    rounds p least most count found alt c = rounds q least other count found alt c := by
  induction most generalizing other count found alt c with
  | zero => omega
  | succ most ih =>
    obtain ⟨other, rfl⟩ : ∃ less, other = less + 1 := ⟨other - 1, by omega⟩
    unfold rounds
    rw [← hp c hc]
    cases hr : p c with
    | failure failure => rfl
    | success a next later =>
      obtain ⟨w, hw⟩ := hadvances c a next (read?_eq_some.mpr ⟨later, hr⟩)
      dsimp only
      split_ifs with hlt
      · rcases hw.before_or_eq with hbefore | rfl
        · have hless := hbefore.length_lt
          exact ih _ _ _ (by omega) (by omega) (by omega)
        · exact absurd hlt (Nat.lt_irrefl _)
      · rfl

theorem SameBelow.many (hp : SameBelow n p q) (hadvances : Advances p) (least : Nat) :
    SameBelow n (many p least) (many q least) := fun _ hc =>
  rounds_congr hp hadvances least 0 [] none hc (Nat.lt_succ_self _) (Nat.lt_succ_self _)

end Scanner

namespace Markup

open Scanner

theorem advances_chars (s : String) : Advances (chars s) := advances_exactly _

theorem advances_spaces (least : Nat) : Advances (spaces least) :=
  ((advances_exactly [' ']).many least).bind fun _ => advances_pure ()

theorem advances_ident : Advances ident :=
  ((advances_satisfying _).bind fun _ => ((advances_satisfying _).many 0).bind fun _ =>
    advances_pure _).tryMap _

theorem advances_quotedText : Advances quotedText :=
  (advances_chars _).bind fun _ => ((advances_satisfying _).many 0).bind fun _ =>
    (advances_chars _).bind fun _ => advances_pure _

theorem advances_tagEnd : Advances tagEnd := (advances_spaces 0).bind fun _ => advances_chars _

theorem advances_closeTag (keyword : String) : Advances (closeTag keyword) :=
  (advances_chars _).bind fun _ => (advances_chars _).bind fun _ => advances_chars _

theorem advances_guard : Advances guard :=
  ((advances_chars _).bind fun _ => advances_quotedText.bind fun _ => advances_pure _).orElse
    (advances_ident.bind fun _ => advances_pure _)

theorem advances_separator : Advances (optional do spaces 1; chars "separator="; quotedText) :=
  ((advances_spaces 1).bind fun _ => (advances_chars _).bind fun _ => advances_quotedText).optional

theorem advances_formula : Advances formula :=
  (advances_exactly _).bind fun _ => (advances_takeUntil_exactly _).bind fun _ => advances_pure _

theorem advances_inlineVariable : Advances inlineVariable :=
  (advances_chars _).bind fun _ => (advances_spaces 0).bind fun _ => advances_ident.bind fun _ =>
    ((advances_spaces 1).bind fun _ => (advances_chars _).bind fun _ =>
      (advances_spaces 1).bind fun _ => advances_quotedText).optional.bind fun _ =>
        advances_tagEnd.bind fun _ => advances_pure _

theorem advances_linebreak : Advances linebreak :=
  (advances_chars _).bind fun _ => (advances_chars _).bind fun _ => advances_pure _

theorem advances_escapedChar : Advances escapedChar :=
  (advances_chars _).bind fun _ => (advances_satisfying _).bind fun _ => advances_pure _

theorem advances_code : Advances code :=
  (advances_chars _).bind fun _ => ((advances_satisfying _).many 0).bind fun _ =>
    (advances_chars _).bind fun _ => advances_pure _

theorem advances_softbreak : Advances softbreak := (advances_chars _).bind fun _ => advances_pure _

theorem advances_brace : Advances brace :=
  ((advances_chars _).bind fun _ => (advances_chars _).optional).tryMap _

theorem advances_plainText : Advances plainText :=
  ((advances_satisfying _).many 1).bind fun _ => advances_pure _

theorem consumes_openTag (keyword : String) : Consumes (openTag keyword) :=
  (consumes_exactly (by decide)).bind fun _ => (advances_chars _).bind fun _ => advances_spaces 1

section

variable {inner other : Scanner Char (List Node)} {n : Nat} (hadvances : Advances inner)

include hadvances

theorem advances_elseBranch : Advances (elseBranch inner) :=
  ((advances_chars _).bind fun _ => hadvances).optional.bind fun _ => advances_pure _

theorem advances_inlineNode : Advances (inlineNode inner) := by
  have hopen (keyword : String) : Advances (openTag keyword) :=
    (advances_chars _).bind fun _ => (advances_chars _).bind fun _ => advances_spaces 1
  refine advances_choice fun p hp => ?_
  simp only [List.mem_cons, List.not_mem_nil, or_false] at hp
  rcases hp with rfl | rfl | rfl | rfl | rfl | rfl | rfl | rfl | rfl | rfl | rfl | rfl | rfl | rfl
  · exact advances_formula
  · exact (hopen _).bind fun _ => advances_guard.bind fun _ => advances_tagEnd.bind fun _ =>
      hadvances.bind fun _ => (advances_elseBranch hadvances).bind fun _ =>
        (advances_closeTag _).bind fun _ => advances_pure _
  · exact (hopen _).bind fun _ => advances_ident.bind fun _ => advances_tagEnd.bind fun _ =>
      hadvances.bind fun _ => (advances_elseBranch hadvances).bind fun _ =>
        (advances_closeTag _).bind fun _ => advances_pure _
  · exact (hopen _).bind fun _ => advances_ident.bind fun _ => advances_tagEnd.bind fun _ =>
      hadvances.bind fun _ => (advances_closeTag _).bind fun _ => advances_pure _
  · exact (hopen _).bind fun _ => advances_ident.bind fun _ => advances_separator.bind fun _ =>
      advances_tagEnd.bind fun _ => hadvances.bind fun _ => (advances_closeTag _).bind fun _ =>
        advances_pure _
  · exact advances_inlineVariable
  · exact advances_linebreak
  · exact advances_escapedChar
  · exact (advances_chars _).bind fun _ => (hadvances.tryMap _).bind fun _ =>
      (advances_chars _).bind fun _ => advances_pure _
  · exact (advances_chars _).bind fun _ => (hadvances.tryMap _).bind fun _ =>
      (advances_chars _).bind fun _ => advances_pure _
  · exact advances_code
  · exact advances_softbreak
  · exact advances_brace
  · exact advances_plainText

variable (h : SameBelow n inner other)

include h

theorem sameBelow_elseBranch : SameBelow n (elseBranch inner) (elseBranch other) :=
  ((SameBelow.refl _).bind (advances_chars _) fun _ => h).optional.bind
    ((advances_chars _).bind fun _ => hadvances).optional fun _ => .refl _

/-- What is enclosed begins behind a mark. -/
theorem sameBelow_inlineNode : SameBelow (n + 1) (inlineNode inner) (inlineNode other) := by
  have hbranch := sameBelow_elseBranch hadvances h
  have hadvancesElse := advances_elseBranch hadvances
  have hnonempty : SameBelow n (nonempty inner) (nonempty other) := h.tryMap _
  have hadvancesNonempty : Advances (nonempty inner) := hadvances.tryMap _
  refine sameBelow_choice (.cons (.refl _) (.cons ?_ (.cons ?_ (.cons ?_ (.cons ?_ (.cons (.refl _)
    (.cons (.refl _) (.cons (.refl _) (.cons ?_ (.cons ?_ (.cons (.refl _) (.cons (.refl _)
      (.cons (.refl _) (.cons (.refl _) .nil))))))))))))))
  · exact (consumes_openTag _).sameBelow fun _ => (SameBelow.refl _).bind advances_guard fun _ =>
      (SameBelow.refl _).bind advances_tagEnd fun _ => h.bind hadvances fun _ =>
        hbranch.bind hadvancesElse fun _ => .refl _
  · exact (consumes_openTag _).sameBelow fun _ => (SameBelow.refl _).bind advances_ident fun _ =>
      (SameBelow.refl _).bind advances_tagEnd fun _ => h.bind hadvances fun _ =>
        hbranch.bind hadvancesElse fun _ => .refl _
  · exact (consumes_openTag _).sameBelow fun _ => (SameBelow.refl _).bind advances_ident fun _ =>
      (SameBelow.refl _).bind advances_tagEnd fun _ => h.bind hadvances fun _ => .refl _
  · exact (consumes_openTag _).sameBelow fun _ => (SameBelow.refl _).bind advances_ident fun _ =>
      (SameBelow.refl _).bind advances_separator fun _ => (SameBelow.refl _).bind advances_tagEnd
        fun _ => h.bind hadvances fun _ => .refl _
  · exact (consumes_exactly (by decide)).sameBelow fun _ => hnonempty.bind hadvancesNonempty fun _ =>
      .refl _
  · exact (consumes_exactly (by decide)).sameBelow fun _ => hnonempty.bind hadvancesNonempty fun _ =>
      .refl _

end

theorem advances_inlines (fuel : Nat) : Advances (inlines fuel) := by
  induction fuel with
  | zero => nofun
  | succ fuel ih => exact ((advances_inlineNode ih).many 0).bind fun _ => advances_pure _

/-- Every bound on the levels of blocks and emphasis that is greater than the length of the text gives
the same. -/
theorem inlines_stable (fuel more : Nat) : SameBelow fuel (inlines fuel) (inlines (fuel + more)) := by
  induction fuel with
  | zero => nofun
  | succ fuel ih =>
    rw [Nat.add_right_comm]
    have hadvances := advances_inlines fuel
    exact ((sameBelow_inlineNode hadvances ih).many (advances_inlineNode hadvances) 0).bind
      ((advances_inlineNode hadvances).many 0) fun _ => .refl _

/-- Reads the text of a paragraph or heading with fewer than `fuel` levels of blocks and emphasis. -/
def readLevels (fuel : Nat) (text : List Char) : Except (Scan.Failure Char) (List Node) :=
  run (do let nodes ← inlines fuel; endOfInput; pure nodes) text

theorem readLevels_eq {fuel : Nat} {text : List Char} (h : text.length < fuel) :
    readLevels fuel text = readInlines text := by
  obtain ⟨more, rfl⟩ : ∃ more, fuel = text.length + 1 + more := ⟨fuel - (text.length + 1), by omega⟩
  have hsame := (inlines_stable (text.length + 1) more).bind (advances_inlines _)
    fun nodes => SameBelow.refl (do endOfInput; pure nodes)
  unfold readLevels readInlines run
  rw [hsame (Scan.Cursor.start text) (Nat.lt_succ_self _)]

end Markup

end ClauseTemplates
