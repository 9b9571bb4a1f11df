import ClauseTemplates.Proofs.Grammar.Spelling
import ClauseTemplates.Proofs.Scan.Rounds

namespace ClauseTemplates

namespace Scanner

open Scan

variable {τ α β : Type} {p p' : Scanner τ α} {q q' : α → Scanner τ β} {c : Cursor τ}

theorem bind_congr_at (h : p c = p' c)
    (hnext : ∀ a next, read? p c = some (a, next) → q a next = q' a next) :
    (p >>= q) c = (p' >>= q') c := by
  change andThen p q c = andThen p' q' c
  unfold andThen
  rw [← h]
  cases hp : p c with
  | failure f => rfl
  | success a next alt =>
    dsimp only
    rw [hnext a next (read?_eq_some.mpr ⟨alt, hp⟩)]

theorem map_congr_at (f : α → β) (h : p c = p' c) :
    (p >>= fun a => pure (f a)) c = (p' >>= fun a => pure (f a)) c :=
  bind_congr_at h fun _ _ _ => rfl

theorem orElse_congr_at {other other' : Scanner τ α} (h : p c = p' c)
    (hnone : read? p c = none → other c = other' c) : orElse p other c = orElse p' other' c := by
  unfold orElse
  rw [← h]
  cases hp : p c with
  | success a next alt => rfl
  | failure f =>
    have hread : read? p c = none := by
      unfold read?
      rw [hp]
      rfl
    dsimp only
    rw [hnone hread]

theorem optional_congr_at (h : p c = p' c) : optional p c = optional p' c := by
  unfold optional
  rw [h]

end Scanner

namespace Grammar

open Scan Scanner

section

variable (context : ScanContext) (compound : String → Scanner Char Captured)

mutual

/-- Reading at one place enters a record of a compound type at another. Records inside that one are
not meant. -/
def Enters : Grammar → Cursor Char → String → Cursor Char → Prop
  | .text _, _, _, _ => False
  | .seq first second, c, type, d => Enters first c type d ∨
    ∃ slots mid, read? (scanner context compound first) c = some (slots, mid) ∧
      Enters second mid type d
  | .either first second, c, type, d => Enters first c type d ∨
    read? (scanner context compound first) c = none ∧ Enters second c type d
  | .flagged branch _ _, c, type, d => Enters branch c type d
  | .slot _ value, c, type, d => EntersValue value c type d
  | .formula, _, _, _ => False
  | .orderedMark, _, _, _ => False
  | .optionally body, c, type, d => Enters body c type d

/-- A repetition enters records where its first item stands, and behind every separator that some
rounds lead to. -/
def EntersValue : ValueGrammar → Cursor Char → String → Cursor Char → Prop
  | .scalar _, _, _, _ => False
  | .reference _, _, _, _ => False
  | .enum _, _, _, _ => False
  | .compound type, c, other, d => other = type ∧ d = c
  | .record _ _ body, c, type, d => Enters body c type d
  | .element _ body, c, type, d => Enters body c type d
  | .items separator _ item, c, type, d => EntersValue item c type d ∨
    ∃ first next last between, read? (valueScanner context compound item) c = some (first, next) ∧
      Reaches (valueScanner context compound item) (exactly separator) next last ∧
      read? (exactly separator) last = some ((), between) ∧ EntersValue item between type d

end

end

section

variable {context : ScanContext} {compound compound' : String → Scanner Char Captured}

mutual

/-- What is read at a place depends only on the records that are entered from there. -/
theorem scanner_congr_at : ∀ (g : Grammar) (c : Cursor Char),
    (∀ type d, Enters context compound g c type d → compound type d = compound' type d) →
      scanner context compound g c = scanner context compound' g c
  | .text _, c, _ => by rw [scanner, scanner]
  | .seq first second, c, h => by
    rw [scanner, scanner]
    have hfirst := scanner_congr_at first c fun type d hd => h type d (Or.inl hd)
    refine bind_congr_at hfirst fun slots mid hread => ?_
    have hsecond := scanner_congr_at second mid fun type d hd =>
      h type d (Or.inr ⟨slots, mid, hread, hd⟩)
    exact map_congr_at (fun more => slots ++ more) hsecond
  | .either first second, c, h => by
    rw [scanner, scanner]
    have hfirst := scanner_congr_at first c fun type d hd => h type d (Or.inl hd)
    refine orElse_congr_at hfirst fun hnone => ?_
    exact scanner_congr_at second c fun type d hd => h type d (Or.inr ⟨hnone, hd⟩)
  | .flagged branch name flag, c, h => by
    rw [scanner, scanner]
    exact map_congr_at _ (scanner_congr_at branch c h)
  | .slot name value, c, h => by
    rw [scanner, scanner]
    exact map_congr_at _ (valueScanner_congr_at value c h)
  | .formula, c, _ => by rw [scanner, scanner]
  | .orderedMark, c, _ => by rw [scanner, scanner]
  | .optionally body, c, h => by
    rw [scanner, scanner]
    exact map_congr_at _ (optional_congr_at (scanner_congr_at body c h))

theorem valueScanner_congr_at : ∀ (g : ValueGrammar) (c : Cursor Char),
    (∀ type d, EntersValue context compound g c type d → compound type d = compound' type d) →
      valueScanner context compound g c = valueScanner context compound' g c
  | .scalar _, c, _ => by rw [valueScanner, valueScanner]
  | .reference _, c, _ => by rw [valueScanner, valueScanner]
  | .enum _, c, _ => by rw [valueScanner, valueScanner]
  | .compound type, c, h => by
    rw [valueScanner, valueScanner]
    exact h type c ⟨rfl, rfl⟩
  | .record type identifier body, c, h => by
    rw [valueScanner, valueScanner]
    exact map_congr_at _ (scanner_congr_at body c h)
  | .element type body, c, h => by
    rw [valueScanner, valueScanner]
    exact map_congr_at _ (scanner_congr_at body c h)
  | .items separator nonempty item, c, h => by
    rw [valueScanner, valueScanner]
    have hfirst := valueScanner_congr_at item c fun type d hd => h type d (Or.inl hd)
    have hlater : ∀ first next, read? (valueScanner context compound item) c = some (first, next) →
        ∀ last between, Reaches (valueScanner context compound item) (exactly separator) next last →
          read? (exactly separator) last = some ((), between) →
            valueScanner context compound item between =
              valueScanner context compound' item between :=
      fun first next hread last between hreaches hbetween =>
        valueScanner_congr_at item between fun type d hd =>
          h type d (Or.inr ⟨first, next, last, between, hread, hreaches, hbetween, hd⟩)
    exact map_congr_at _ (separated_congr nonempty false c hfirst hlater)

end

mutual

/-- A record is entered behind some of the text in front. -/
theorem enters_passes (hc : ∀ type, Advances (compound type)) : ∀ (g : Grammar)
    (c : Cursor Char) (type : String) (d : Cursor Char), Enters context compound g c type d →
      ∃ w, c.Passes w d
  | .text _, _, _, _, h => h.elim
  | .seq first second, c, type, d, h => by
    rcases h with h | ⟨slots, mid, hread, h⟩
    · exact enters_passes hc first c type d h
    · obtain ⟨v, hv⟩ := advances_scanner hc first c slots mid hread
      obtain ⟨w, hw⟩ := enters_passes hc second mid type d h
      exact ⟨v ++ w, hv.trans hw⟩
  | .either first second, c, type, d, h => by
    rcases h with h | ⟨_, h⟩
    · exact enters_passes hc first c type d h
    · exact enters_passes hc second c type d h
  | .flagged branch _ _, c, type, d, h => enters_passes hc branch c type d h
  | .slot _ value, c, type, d, h => entersValue_passes hc value c type d h
  | .formula, _, _, _, h => h.elim
  | .orderedMark, _, _, _, h => h.elim
  | .optionally body, c, type, d, h => enters_passes hc body c type d h

theorem entersValue_passes (hc : ∀ type, Advances (compound type)) : ∀ (g : ValueGrammar)
    (c : Cursor Char) (type : String) (d : Cursor Char), EntersValue context compound g c type d →
      ∃ w, c.Passes w d
  | .scalar _, _, _, _, h => h.elim
  | .reference _, _, _, _, h => h.elim
  | .enum _, _, _, _, h => h.elim
  | .compound _, c, _, d, h => by
    obtain ⟨-, hd⟩ := h
    exact ⟨[], hd ▸ Cursor.Passes.refl c⟩
  | .record _ _ body, c, type, d, h => enters_passes hc body c type d h
  | .element _ body, c, type, d, h => enters_passes hc body c type d h
  | .items separator _ item, c, type, d, h => by
    rcases h with h | ⟨first, next, last, between, hread, hreaches, hbetween, h⟩
    · exact entersValue_passes hc item c type d h
    · have hitem : Advances (valueScanner context compound item) := advances_valueScanner hc item
      obtain ⟨u, hu⟩ := hitem c first next hread
      obtain ⟨v, hv⟩ := hreaches.passes (advances_exactly separator) hitem
      have hs := read?_exactly_some hbetween
      obtain ⟨w, hw⟩ := entersValue_passes hc item between type d h
      exact ⟨_, ((hu.trans hv).trans hs).trans hw⟩

end

end

end Grammar

end ClauseTemplates
