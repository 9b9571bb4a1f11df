import ClauseTemplates.Format.Scalar
import ClauseTemplates.Proofs.Scan.Repeated
import Mathlib.Tactic.SplitIfs

namespace ClauseTemplates.ScalarProgram

open Scan Scanner

/-- One character of a quoted string, escaped or not. -/
def quotedPart : Scanner Char Char :=
  orElse (satisfying fun c => c != '\\' && c != '\x22' && c != '\n') escapeScanner

theorem read?_quotedPart (c : Char) (offset : Nat) (rest : List Char) :
    read? quotedPart ⟨offset, Text.quotedChar c ++ rest⟩ =
      some (c, ⟨offset + (Text.quotedChar c).length, rest⟩) := by
  unfold quotedPart Text.quotedChar
  split
  · subst c; rfl
  split
  · subst c; rfl
  split
  · subst c; rfl
  · rename_i h1 h2 h3
    simp [Scanner.satisfying, h1, h2, h3]

theorem read?_quotedPart_quote (offset : Nat) (rest : List Char) :
    read? quotedPart ⟨offset, '\x22' :: rest⟩ = none := rfl

theorem read?_quotedPart_passes {c : Char} {cursor next : Cursor Char}
    (h : read? quotedPart cursor = some (c, next)) : cursor.Passes (Text.quotedChar c) next := by
  rw [quotedPart, read?_orElse, Option.or_eq_some_iff] at h
  rcases h with h | ⟨_, h⟩
  · obtain ⟨offset, cs⟩ := cursor
    rw [Scanner.satisfying, read?_token] at h
    cases cs with
    | nil => cases h
    | cons d cs =>
      obtain ⟨e, he, hn⟩ := Option.map_eq_some_iff.mp h
      split at he
      · cases he
        cases hn
        rename_i hc
        simp only [Bool.and_eq_true, bne_iff_ne] at hc
        simp [Text.quotedChar, hc.1.1, hc.1.2, hc.2, Cursor.Passes]
      · cases he
  · rw [escapeScanner, read?_bind] at h
    obtain ⟨x, hx, h⟩ := Option.bind_eq_some_iff.mp h
    have hv := read?_exactly_some hx
    rw [read?_choice] at h
    obtain ⟨p, hp, h⟩ := List.exists_of_findSome?_eq_some h
    simp only [List.mem_cons, List.not_mem_nil, or_false] at hp
    rcases hp with rfl | rfl | rfl
    all_goals
      rw [read?_bind] at h
      obtain ⟨y, hy, h⟩ := Option.bind_eq_some_iff.mp h
      cases h
      exact hv.trans (read?_exactly_some hy)

theorem quotedChar_pos (c : Char) : 0 < (Text.quotedChar c).length := by
  unfold Text.quotedChar
  split_ifs <;> simp

theorem rounds?_quotedPart (s : List Char) (rest : List Char) (most count offset : Nat)
    (hm : (s.flatMap Text.quotedChar).length < most) :
    rounds? quotedPart 0 most count ⟨offset, s.flatMap Text.quotedChar ++ '\x22' :: rest⟩ =
      some (s, ⟨offset + (s.flatMap Text.quotedChar).length, '\x22' :: rest⟩) := by
  induction s generalizing most count offset with
  | nil =>
    obtain ⟨most, rfl⟩ : ∃ n, most = n + 1 := ⟨most - 1, by omega⟩
    simp [rounds?, read?_quotedPart_quote]
  | cons c s ih =>
    obtain ⟨most, rfl⟩ : ∃ n, most = n + 1 := ⟨most - 1, by omega⟩
    have hc := quotedChar_pos c
    simp only [List.flatMap_cons, List.length_append, List.append_assoc] at hm ⊢
    unfold rounds?
    simp only [read?_quotedPart]
    rw [if_pos (by omega), ih most (count + 1) _ (by omega)]
    simp [Nat.add_assoc]

theorem rounds?_quotedPart_passes {most count : Nat} {s : List Char} {c next : Cursor Char}
    (h : rounds? quotedPart 0 most count c = some (s, next)) :
    c.Passes (s.flatMap Text.quotedChar) next := by
  induction most generalizing count s c with
  | zero =>
    cases h
    exact Cursor.Passes.refl _
  | succ most ih =>
    unfold rounds? at h
    cases hr : read? quotedPart c with
    | none =>
      simp only [hr, Nat.not_lt_zero, if_false] at h
      cases h
      exact Cursor.Passes.refl _
    | some x =>
      have hx := read?_quotedPart_passes hr
      simp only [hr] at h
      split at h
      · obtain ⟨y, hy, hn⟩ := Option.map_eq_some_iff.mp h
        cases hn
        simpa using hx.trans (ih hy)
      · cases h
        simpa using hx

/-- A quoted string is read whatever stands behind it. -/
theorem read?_quotedScanner (s : List Char) (offset : Nat) (rest : List Char) :
    read? quotedScanner ⟨offset, Text.quoted s ++ rest⟩ =
      some (s, ⟨offset + (Text.quoted s).length, rest⟩) := by
  have h1 := read?_exactly ['\x22'] offset (s.flatMap Text.quotedChar ++ '\x22' :: rest)
  have h2 := rounds?_quotedPart s rest ((s.flatMap Text.quotedChar ++ '\x22' :: rest).length + 1) 0
    (offset + 1) (by rw [List.length_append]; omega)
  have h3 := read?_exactly ['\x22'] (offset + 1 + (s.flatMap Text.quotedChar).length) rest
  have hm : read? (many quotedPart 0)
      ⟨offset + 1, s.flatMap Text.quotedChar ++ '\x22' :: rest⟩ =
      some (s, ⟨offset + 1 + (s.flatMap Text.quotedChar).length, '\x22' :: rest⟩) := by
    rw [read?_many]
    exact h2
  have hq : Text.quoted s ++ rest =
      ['\x22'] ++ (s.flatMap Text.quotedChar ++ '\x22' :: rest) := by simp [Text.quoted]
  rw [hq]
  change read? (exactly ['\x22'] >>= fun _ => many quotedPart 0 >>= fun cs =>
    exactly ['\x22'] >>= fun _ => pure cs) _ = _
  rw [read?_bind, h1, Option.bind_some, read?_bind]
  simp only [List.length_singleton, hm, Option.bind_some, read?_bind]
  rw [show '\x22' :: rest = ['\x22'] ++ rest from rfl, h3]
  have hl : offset + 1 + (s.flatMap Text.quotedChar).length + ['\x22'].length =
      offset + (Text.quoted s).length := by
    simp only [Text.quoted, List.length_cons, List.length_append, List.length_nil]
    omega
  rw [hl]
  rfl

/-- Nothing but a quoted string is read. -/
theorem read?_quotedScanner_passes {s : List Char} {c next : Cursor Char}
    (h : read? quotedScanner c = some (s, next)) : c.Passes (Text.quoted s) next := by
  change read? (exactly ['\x22'] >>= fun _ => many quotedPart 0 >>= fun cs =>
    exactly ['\x22'] >>= fun _ => pure cs) c = _ at h
  rw [read?_bind] at h
  obtain ⟨x, hx, h⟩ := Option.bind_eq_some_iff.mp h
  rw [read?_bind] at h
  obtain ⟨y, hy, h⟩ := Option.bind_eq_some_iff.mp h
  rw [read?_bind] at h
  obtain ⟨z, hz, h⟩ := Option.bind_eq_some_iff.mp h
  cases h
  rw [read?_many] at hy
  have hv := (read?_exactly_some hx).trans
    ((rounds?_quotedPart_passes hy).trans (read?_exactly_some hz))
  simpa [Text.quoted] using hv

theorem advances_quotedScanner : Advances quotedScanner :=
  fun _ s _ h => ⟨Text.quoted s, read?_quotedScanner_passes h⟩

/-- A quoted string is read wherever it stands in front, and nothing else is. -/
theorem read?_quotedScanner_iff {s : List Char} {c next : Cursor Char} :
    read? quotedScanner c = some (s, next) ↔ c.Passes (Text.quoted s) next := by
  constructor
  · exact read?_quotedScanner_passes
  · intro h
    obtain ⟨offset, cs⟩ := c
    obtain ⟨rfl, hoffset⟩ :
      cs = Text.quoted s ++ next.rest ∧ next.offset = offset + (Text.quoted s).length := h
    rw [read?_quotedScanner, ← hoffset]

theorem quoted_prefix_iff {s t : List Char} : Text.quoted s <+: Text.quoted t ↔ s = t := by
  constructor
  -- Of the longer one, both are read at its beginning.
  · rintro ⟨rest, h⟩
    have hs := read?_quotedScanner s 0 rest
    have ht := read?_quotedScanner t 0 []
    rw [h, ← List.append_nil (Text.quoted t), ht] at hs
    exact (Prod.mk.inj (Option.some.inj hs)).1.symm
  · rintro rfl
    exact List.prefix_refl _

theorem newline_not_mem_quoted (s : List Char) : '\n' ∉ Text.quoted s := by
  have hchar (c : Char) : '\n' ∉ Text.quotedChar c := by
    unfold Text.quotedChar
    split_ifs with _ _ hline
    · decide
    · decide
    · decide
    · exact fun h => hline (List.mem_singleton.mp h).symm
  intro h
  rcases List.mem_append.mp h with h | h
  · rcases List.mem_cons.mp h with h | h
    · cases h
    · obtain ⟨c, -, hc⟩ := List.mem_flatMap.mp h
      exact hchar c hc
  · cases List.mem_singleton.mp h

/-- What is read as a string is what its quoting writes, and nothing else. Quoted strings tell where
they end: they hold no end of line, and none begins another one. -/
theorem string_exact (context : ScanContext) :
    (∀ (s : String) (offset : Nat) (rest : List Char),
      read? (scanner context .string) ⟨offset, (Text.quote s).toList ++ rest⟩ =
        some (.str s, ⟨offset + (Text.quote s).length, rest⟩)) ∧
    (∀ (value : Json) (c next : Cursor Char),
      read? (scanner context .string) c = some (value, next) ↔
        ∃ s, value = .str s ∧ c.Passes (Text.quote s).toList next) ∧
    (∀ s : String, '\n' ∉ (Text.quote s).toList) ∧
    ∀ s t : String, (Text.quote s).toList <+: (Text.quote t).toList ↔ s = t := by
  have hquote (s : String) : (Text.quote s).toList = Text.quoted s.toList := String.toList_ofList
  have hread (value : Json) (c next : Cursor Char) :
      read? (scanner context .string) c = some (value, next) ↔
        ∃ s, value = .str s ∧ c.Passes (Text.quote s).toList next := by
    rw [scanner, read?_bind]
    constructor
    · intro h
      obtain ⟨⟨cs, behind⟩, hcs, h⟩ := Option.bind_eq_some_iff.mp h
      cases h
      refine ⟨String.ofList cs, rfl, ?_⟩
      rw [hquote, String.toList_ofList]
      exact read?_quotedScanner_iff.mp hcs
    · rintro ⟨s, rfl, hpass⟩
      rw [hquote] at hpass
      rw [read?_quotedScanner_iff.mpr hpass, Option.bind_some, String.ofList_toList]
      rfl
  refine ⟨fun s offset rest => ?_, hread, fun s => ?_, fun s t => ?_⟩
  · rw [← String.length_toList]
    exact (hread _ _ _).mpr ⟨s, rfl, Cursor.passes_mk offset _ rest⟩
  · rw [hquote]
    exact newline_not_mem_quoted s.toList
  · rw [hquote, hquote, quoted_prefix_iff, String.toList_inj]

end ClauseTemplates.ScalarProgram
