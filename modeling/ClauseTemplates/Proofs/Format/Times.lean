import ClauseTemplates.Proofs.Format.Fields

namespace ClauseTemplates

open Scan Scanner

/-- The same time to the millisecond. -/
def Instant.toMillis (t : Instant) : Instant := { t with nanos := t.nanos / 1000000 * 1000000 }

namespace DateTimeFormat

theorem literal_nil_not_mem {source : Option (List Char)} {format : DateTimeFormat}
    (h : compile source = .ok format) : .literal [] ∉ format.tokens := by
  have htokens : format.tokens = tokensOf (source.getD standard) := by
    unfold compile at h
    dsimp only at h
    split at h
    · cases h
    · split at h
      · cases h
      · cases h
        rfl
  rw [htokens, tokensOf]
  simp

theorem read?_scanner_before {c : LocalTime} {seconds : Int} {format : DateTimeFormat}
    (hc : c.Ordinary) (hseconds : Instant.IsOffset seconds) (hcomplete : format.Complete)
    (hliteral : .literal [] ∉ format.tokens) (hdelimited : format.Delimited) {rest : List Char}
    (hrest : NoDigit rest) (context : ScanContext) (offset : Nat) :
    read? (format.scanner context) ⟨offset, format.tokens.flatMap (tokenText c seconds) ++ rest⟩ =
      some (.str (Instant.ofLocal c seconds).toMillis.text,
        ⟨offset + (format.tokens.flatMap (tokenText c seconds)).length, rest⟩) := by
  unfold scanner
  rw [read?_tryMap, read?_fieldScanner_before hc hseconds (fun h => absurd h hcomplete.2.1) hliteral
    hdelimited hrest, Option.bind_some, assemble_fieldsOf hc hseconds hcomplete]
  rfl

theorem read?_scanner {c : LocalTime} {seconds : Int} {format : DateTimeFormat} (hc : c.Ordinary)
    (hseconds : Instant.IsOffset seconds) (hcomplete : format.Complete)
    (hliteral : .literal [] ∉ format.tokens) (hdelimited : format.Delimited)
    (context : ScanContext) (offset : Nat) :
    read? (format.scanner context) ⟨offset, format.tokens.flatMap (tokenText c seconds)⟩ =
      some (.str (Instant.ofLocal c seconds).toMillis.text,
        ⟨offset + (format.tokens.flatMap (tokenText c seconds)).length, []⟩) := by
  have hend : NoDigit [] := by rintro e ⟨⟩
  have hread := read?_scanner_before hc hseconds hcomplete hliteral hdelimited hend context offset
  rwa [List.append_nil] at hread

/-- A format that tells a time to the millisecond reads the times it writes: nothing is lost but
what a millisecond does not show, and the offset and the clock of the reader do not matter. -/
theorem scan_draft {source : Option (List Char)} {format : DateTimeFormat}
    (hcompile : compile source = .ok format) (hcomplete : format.Complete)
    (hdelimited : format.Delimited) {s : String} {t : Instant}
    (hread : Instant.read s.toList = .ok t) (hleap : t.nanos < 1000000000)
    (context : ScanContext) :
    ∃ text, format.draft (.str s) = .ok text ∧
      (do let value ← format.scanner context
          endOfInput
          pure value : Scanner Char Json).run text = .ok (.str t.toMillis.text) ∧
      Instant.read t.toMillis.text.toList = .ok t.toMillis := by
  obtain ⟨c, offset, hc, hoffset, rfl⟩ := Instant.read_eq_ok hread hleap
  have hmillis : LocalTime.Ordinary { c with nanos := c.nanos / 1000000 * 1000000 } :=
    ⟨hc.date, hc.year, hc.hour, hc.minute, hc.second,
      (Nat.div_mul_le_self c.nanos 1000000).trans_lt hc.nanos⟩
  refine ⟨format.tokens.flatMap (tokenText c offset), ?_, ?_, ?_⟩
  · unfold draft
    dsimp only
    rw [hread]
    dsimp only
    rw [Instant.localTime_ofLocal hc]
    rfl
  · have hscan := read?_scanner hc hoffset hcomplete (literal_nil_not_mem hcompile) hdelimited
      context 0
    refine run_eq_ok.mpr ⟨⟨0 + (format.tokens.flatMap (tokenText c offset)).length, []⟩, ?_⟩
    rw [read?_bind, Cursor.start, hscan, Option.bind_some, read?_bind, read?_endOfInput]
    rfl
  · have htrimmed : (Instant.ofLocal c offset).toMillis =
        Instant.ofLocal { c with nanos := c.nanos / 1000000 * 1000000 } offset := rfl
    rw [Instant.text, String.toList_ofList, htrimmed]
    exact Instant.read_written hmillis (Nat.mul_mod_left (c.nanos / 1000000) 1000000) hoffset

namespace Minutes

def source : List Char := "[Signed on] D MMMM YYYY [at] h:mm:ss.SSS A (Z)".toList

def format : DateTimeFormat := ⟨tokensOf source⟩

def value : String := "2024-02-29T23:59:07.123456789-03:30"

def time : Instant := ⟨1709263747, 123456789, -12600⟩

/-- A leap day, told by a twelve-hour clock without padding. -/
theorem scan_draft_minutes :
    compile (some source) = .ok format ∧ format.Complete ∧ format.Delimited ∧
      Instant.read value.toList = .ok time ∧ time.nanos < 1000000000 ∧
      ∃ text, format.draft (.str value) = .ok text ∧
        (do let value ← format.scanner ⟨3600, time⟩
            endOfInput
            pure value : Scanner Char Json).run text = .ok (.str time.toMillis.text) ∧
        Instant.read time.toMillis.text.toList = .ok time.toMillis := by
  have hcompile : compile (some source) = .ok format := by decide
  have hcomplete : format.Complete := by unfold Complete; decide
  have hdelimited : format.Delimited := by unfold Delimited; decide
  have hread : Instant.read value.toList = .ok time := by decide
  have hleap : time.nanos < 1000000000 := by decide
  exact ⟨hcompile, hcomplete, hdelimited, hread, hleap,
    scan_draft hcompile hcomplete hdelimited hread hleap ⟨3600, time⟩⟩

end Minutes

end DateTimeFormat

end ClauseTemplates
