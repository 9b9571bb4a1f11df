import ClauseTemplates.Proofs.Format.Times

namespace ClauseTemplates

open Scan Scanner

namespace Date

end Date

namespace DateTimeFormat

section

variable {c d : LocalTime} {seconds other : Int} {token : DateToken}

end

section

variable {source : Option (List Char)} {format : DateTimeFormat} {c : LocalTime} {seconds : Int}
  {context : ScanContext}

theorem draft_str {s : String} {t : Instant} (h : Instant.read s.toList = .ok t) :
    format.draft (.str s) = .ok (format.tokens.flatMap (tokenText t.localTime t.offset)) := by
  unfold draft
  dsimp only
  rw [h]

end

namespace Appointment

def source : List Char := "D MMM YY [at] h:mm A".toList

def format : DateTimeFormat := ⟨tokensOf source⟩

def value : String := "1904-02-29T23:59:60.7+05:30"

def time : Instant := ⟨-2077680601, 1700000000, 19800⟩

def context : ScanContext := ⟨-30, time⟩

end Appointment

end DateTimeFormat

end ClauseTemplates
