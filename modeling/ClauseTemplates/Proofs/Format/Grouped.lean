import ClauseTemplates.Format.Number
import ClauseTemplates.Proofs.Number.Digits
import ClauseTemplates.Proofs.Scan.Language
import Mathlib.Data.List.TakeWhile

namespace ClauseTemplates.NumberFormat

open Scan Scanner

/-- The mark between groups of digits, if there is one. -/
def mark? (format : NumberFormat) : Option Char := format.layout.bind (·.grouping)

def IsGroup (digits : List Char) : Prop := digits.length = 3 ∧ ∀ c ∈ digits, c.isDigit = true

/-- Digits as they stand in a text: in a row, or with a mark one to three of them and then groups of
three with the mark before each. -/
inductive LaidOut : Option Char → List Char → List Char → Prop
  | plain {digits : List Char} (hne : digits ≠ []) (hdigits : ∀ c ∈ digits, c.isDigit = true) :
    LaidOut none digits digits
  | grouped {mark : Char} {head : List Char} {groups : List (List Char)} (hne : head ≠ [])
      (hlength : head.length ≤ 3) (hdigits : ∀ c ∈ head, c.isDigit = true)
      (hgroups : ∀ group ∈ groups, IsGroup group) :
    LaidOut (some mark) (head ++ groups.flatMap (mark :: ·)) (head ++ groups.flatten)

/-- What may stand behind a number: it goes on neither with a digit nor with another group. -/
structure Ended (mark : Option Char) (rest : List Char) : Prop where
  digit : ∀ c ∈ rest.head?, c.isDigit = false
  group : ∀ m ∈ mark, ∀ digits, IsGroup digits → ¬ m :: digits <+: rest

theorem ended_nil (mark : Option Char) : Ended mark [] :=
  ⟨by simp, fun m _ digits _ h => absurd (List.prefix_nil.mp h) (List.cons_ne_nil m digits)⟩

section

variable {mark : Char} {front rest digits head : List Char} {groups : List (List Char)}

theorem length_flatten_groups (hgroups : ∀ group ∈ groups, group.length = 3) :
    groups.flatten.length = 3 * groups.length := by
  induction groups with
  | nil => rfl
  | cons group groups ih =>
    rw [List.flatten_cons, List.length_append, List.length_cons,
      ih fun g hg => hgroups g (List.mem_cons_of_mem _ hg), hgroups group List.mem_cons_self]
    omega

theorem go_cons {c : Char} (h : rest ≠ []) :
    grouped.go mark (c :: rest) =
      if rest.length % 3 = 0 then c :: mark :: grouped.go mark rest
      else c :: grouped.go mark rest := by
  cases rest with
  | nil => exact absurd rfl h
  | cons d rest => rfl

/-- A mark stands where whole groups of digits follow. -/
theorem go_append (hne : front ≠ []) (hfront : front.length ≤ 3) (hrest : rest.length % 3 = 0) :
    grouped.go mark (front ++ rest) =
      front ++ if rest = [] then [] else mark :: grouped.go mark rest := by
  induction front with
  | nil => exact absurd rfl hne
  | cons c front ih =>
    cases front with
    | nil =>
      by_cases h : rest = []
      · subst h
        rfl
      · rw [List.singleton_append, go_cons h, if_pos hrest, if_neg h]
        rfl
    | cons d front =>
      have hlater := ih (List.cons_ne_nil d front) (Nat.le_of_succ_le hfront)
      have hstep := @go_cons mark (d :: front ++ rest) c (List.cons_ne_nil d (front ++ rest))
      have hmore : (d :: front ++ rest).length % 3 ≠ 0 := by
        simp only [List.length_cons, List.length_append] at hfront ⊢
        omega
      rw [List.cons_append, hstep, if_neg hmore, hlater]
      rfl

theorem go_groups (hne : head ≠ []) (hhead : head.length ≤ 3)
    (hgroups : ∀ group ∈ groups, group.length = 3) :
    grouped.go mark (head ++ groups.flatten) = head ++ groups.flatMap (mark :: ·) := by
  induction groups generalizing head with
  | nil => exact go_append hne hhead rfl
  | cons group groups ih =>
    have hgroup := hgroups group List.mem_cons_self
    have hlater := fun g hg => hgroups g (List.mem_cons_of_mem group hg)
    have hlength := length_flatten_groups hgroups
    have hnonempty : (group :: groups).flatten ≠ [] := by
      intro h
      rw [h, List.length_nil, List.length_cons] at hlength
      omega
    have hfirst : group ≠ [] := by
      rintro rfl
      cases hgroup
    rw [go_append hne hhead (by omega), if_neg hnonempty, List.flatten_cons,
      ih hfirst (Nat.le_of_eq hgroup) hlater]
    rfl

/-- Digits are cut into groups of three from the right. -/
theorem exists_groups (hne : digits ≠ []) :
    ∃ head groups, digits = head ++ List.flatten groups ∧ head ≠ [] ∧ head.length ≤ 3 ∧
      ∀ group ∈ groups, List.length group = 3 := by
  induction digits with
  | nil => exact absurd rfl hne
  | cons c digits ih =>
    by_cases hlast : digits = []
    · subst hlast
      exact ⟨[c], [], rfl, List.cons_ne_nil c [], by simp, by simp⟩
    obtain ⟨head, groups, rfl, hhead, hlength, hgroups⟩ := ih hlast
    by_cases hfull : head.length = 3
    · exact ⟨[c], head :: groups, rfl, List.cons_ne_nil c [], by simp,
        List.forall_mem_cons.mpr ⟨hfull, hgroups⟩⟩
    · refine ⟨c :: head, groups, rfl, List.cons_ne_nil c head, ?_, hgroups⟩
      rw [List.length_cons]
      omega

end

section

variable {mark : Option Char} {text digits rest : List Char}

/-- The layout of digits is the one that groups them from the right. -/
theorem laidOut_iff :
    LaidOut mark text digits ↔
      text = grouped mark digits ∧ digits ≠ [] ∧ ∀ c ∈ digits, c.isDigit = true := by
  constructor
  · intro h
    cases h with
    | plain hne hdigits => exact ⟨rfl, hne, hdigits⟩
    | grouped hne hlength hdigits hgroups =>
      refine ⟨(go_groups hne hlength fun group hgroup => (hgroups group hgroup).1).symm, ?_, ?_⟩
      · exact List.append_ne_nil_of_left_ne_nil hne _
      · intro c hc
        rcases List.mem_append.mp hc with hc | hc
        · exact hdigits c hc
        · obtain ⟨group, hgroup, hc⟩ := List.mem_flatten.mp hc
          exact (hgroups group hgroup).2 c hc
  · rintro ⟨rfl, hne, hdigits⟩
    cases mark with
    | none => exact .plain hne hdigits
    | some mark =>
      obtain ⟨head, groups, rfl, hhead, hlength, hgroups⟩ := exists_groups hne
      have hlaid : grouped (some mark) (head ++ groups.flatten) =
          head ++ groups.flatMap (mark :: ·) := go_groups hhead hlength hgroups
      rw [hlaid]
      refine .grouped hhead hlength (fun c hc => hdigits c (List.mem_append_left _ hc)) ?_
      intro group hgroup
      exact ⟨hgroups group hgroup, fun c hc =>
        hdigits c (List.mem_append_right _ (List.mem_flatten_of_mem hgroup hc))⟩

theorem LaidOut.head (h : LaidOut mark text digits) : ∃ c more, text = c :: more ∧ c.isDigit = true := by
  cases h with
  | plain hne hdigits =>
    obtain ⟨c, more, rfl⟩ := List.exists_cons_of_ne_nil hne
    exact ⟨c, more, rfl, hdigits c List.mem_cons_self⟩
  | grouped hne hlength hdigits hgroups =>
    obtain ⟨c, more, rfl⟩ := List.exists_cons_of_ne_nil hne
    exact ⟨c, _, rfl, hdigits c List.mem_cons_self⟩

theorem LaidOut.mem (h : LaidOut mark text digits) {c : Char} (hc : c ∈ digits) : c ∈ text := by
  cases h with
  | plain hne hdigits => exact hc
  | grouped hne hlength hdigits hgroups =>
    rcases List.mem_append.mp hc with hc | hc
    · exact List.mem_append_left _ hc
    · obtain ⟨group, hgroup, hc⟩ := List.mem_flatten.mp hc
      apply List.mem_append_right
      exact List.mem_flatMap.mpr ⟨group, hgroup, List.mem_cons_of_mem _ hc⟩

/-- Zeros in front of digits only put zeros and marks in front of their text. -/
theorem grouped_zeros (mark : Option Char) (hne : digits ≠ []) (count : Nat) :
    ∃ zeros, grouped mark (List.replicate count '0' ++ digits) = zeros ++ grouped mark digits ∧
      ∀ c ∈ zeros, c = '0' ∨ mark = some c := by
  cases mark with
  | none => exact ⟨List.replicate count '0', rfl, fun c hc => .inl (List.eq_of_mem_replicate hc)⟩
  | some mark =>
    induction count with
    | zero => exact ⟨[], rfl, by simp⟩
    | succ count ih =>
      obtain ⟨zeros, htext, hzeros⟩ := ih
      have hmore : List.replicate count '0' ++ digits ≠ [] :=
        List.append_ne_nil_of_right_ne_nil _ hne
      have hstep := @go_cons mark (List.replicate count '0' ++ digits) '0' hmore
      change grouped (some mark) ('0' :: (List.replicate count '0' ++ digits)) =
        if _ then '0' :: mark :: grouped (some mark) (List.replicate count '0' ++ digits)
        else '0' :: grouped (some mark) (List.replicate count '0' ++ digits) at hstep
      rw [List.replicate_succ, List.cons_append, hstep, htext]
      split
      · refine ⟨'0' :: mark :: zeros, rfl, ?_⟩
        simpa using hzeros
      · refine ⟨'0' :: zeros, rfl, ?_⟩
        simpa using hzeros

end

/-- From `least` to `most` digits are read in front of something else, the most of them in front of
anything. -/
theorem read?_between_digits {least most : Nat} {digits rest : List Char}
    (hdigits : ∀ c ∈ digits, c.isDigit = true) (hleast : least ≤ digits.length)
    (hmost : digits.length ≤ most)
    (hrest : digits.length < most → ∀ c ∈ rest.head?, c.isDigit = false) (offset : Nat) :
    read? (between digit least most) ⟨offset, digits ++ rest⟩ =
      some (digits, ⟨offset + digits.length, rest⟩) := by
  have hfound : ((digits ++ rest).take most).takeWhile Char.isDigit = digits := by
    rw [List.take_append, List.take_of_length_le hmost, List.takeWhile_append_of_pos hdigits]
    by_cases hfull : digits.length < most
    · cases rest with
      | nil => simp
      | cons c rest =>
        obtain ⟨more, hmore⟩ := Nat.exists_eq_add_of_lt hfull
        have hc := hrest hfull c rfl
        have htake : most - digits.length = more + 1 := by omega
        rw [htake, List.take_succ_cons, List.takeWhile_cons_of_neg (by simp [hc]), List.append_nil]
    · have htake : most - digits.length = 0 := by omega
      rw [htake, List.take_zero, List.takeWhile_nil, List.append_nil]
  unfold digit
  rw [read?_between, rounds?_satisfying, hfound]
  dsimp only
  rw [if_neg (by omega), List.drop_left]

theorem read?_between_digits_some {least most : Nat} {digits : List Char} {c next : Cursor Char}
    (hle : least ≤ most) (h : read? (between digit least most) c = some (digits, next)) :
    c.Passes digits next ∧ least ≤ digits.length ∧ digits.length ≤ most ∧
      ∀ d ∈ digits, d.isDigit = true := by
  obtain ⟨offset, rest⟩ := c
  unfold digit at h
  rw [read?_between, rounds?_satisfying] at h
  dsimp only at h
  split at h
  · cases h
  rename_i henough
  cases h
  have hprefix : (rest.take most).takeWhile Char.isDigit <+: rest :=
    (List.takeWhile_prefix _).trans (List.take_prefix most rest)
  have hlength := (List.takeWhile_prefix (l := rest.take most) Char.isDigit).length_le
  rw [List.length_take] at hlength
  refine ⟨⟨?_, rfl⟩, by omega, by omega, fun d hd => List.mem_takeWhile_imp hd⟩
  exact (List.prefix_iff_eq_append.mp hprefix).symm

theorem read?_digits {digits rest : List Char} (hne : digits ≠ [])
    (hdigits : ∀ c ∈ digits, c.isDigit = true) (hrest : ∀ c ∈ rest.head?, c.isDigit = false)
    (offset : Nat) :
    read? NumberFormat.digits ⟨offset, digits ++ rest⟩ =
      some (digits, ⟨offset + digits.length, rest⟩) := by
  have hspan := span_append hdigits hrest
  rw [List.span_eq_takeWhile_dropWhile] at hspan
  obtain ⟨hfound, hbehind⟩ := Prod.mk.inj hspan
  have hpos := List.length_pos_iff.mpr hne
  unfold NumberFormat.digits digit
  rw [read?_many_satisfying, hfound, hbehind, if_neg (by omega)]

theorem read?_digits_some {digits : List Char} {c next : Cursor Char}
    (h : read? NumberFormat.digits c = some (digits, next)) :
    c.Passes digits next ∧ digits ≠ [] ∧ ∀ d ∈ digits, d.isDigit = true := by
  obtain ⟨offset, rest⟩ := c
  unfold NumberFormat.digits digit at h
  rw [read?_many_satisfying] at h
  split at h
  · cases h
  rename_i henough
  cases h
  refine ⟨⟨List.takeWhile_append_dropWhile.symm, rfl⟩, ?_, fun d hd => List.mem_takeWhile_imp hd⟩
  exact List.length_pos_iff.mp (by omega)

section

variable {mark : Char} {rest : List Char}

/-- A mark and the group behind it. -/
def groupScanner (mark : Char) : Scanner Char (List Char) := do
  exactly [mark]
  between digit 3 3

def MarkedGroup (mark : Char) (text digits : List Char) : Prop :=
  text = mark :: digits ∧ IsGroup digits

theorem complete_groupScanner :
    Complete (groupScanner mark) (fun _ => True) (MarkedGroup mark) := by
  rintro _ digits rest ⟨rfl, hlength, hdigits⟩ - offset
  have hmark := read?_exactly [mark] offset (digits ++ rest)
  have hgroup : read? (between digit 3 3) ⟨offset + 1, digits ++ rest⟩ =
      some (digits, ⟨offset + 1 + digits.length, rest⟩) := by
    apply read?_between_digits hdigits
    · exact Nat.le_of_eq hlength.symm
    · exact Nat.le_of_eq hlength
    · intro hshort
      omega
  unfold groupScanner
  rw [List.singleton_append] at hmark
  rw [read?_bind, List.cons_append, hmark, Option.bind_some]
  rw [List.length_singleton, hgroup, List.length_cons, Nat.add_assoc, Nat.add_comm 1]

theorem sound_groupScanner : Sound (groupScanner mark) (MarkedGroup mark) := by
  intro c digits next h
  unfold groupScanner at h
  rw [read?_bind] at h
  obtain ⟨⟨_, between⟩, hmark, h⟩ := Option.bind_eq_some_iff.mp h
  obtain ⟨hpass, hleast, hmost, hdigits⟩ := read?_between_digits_some (Nat.le_refl 3) h
  exact ⟨mark :: digits, (read?_exactly_some hmark).trans hpass, rfl, by omega, hdigits⟩

theorem read?_groupScanner_none (hrest : Ended (some mark) rest) (offset : Nat) :
    read? (groupScanner mark) ⟨offset, rest⟩ = none := by
  cases h : read? (groupScanner mark) ⟨offset, rest⟩ with
  | none => rfl
  | some x =>
    obtain ⟨_, ⟨hpass, -⟩, rfl, hgroup⟩ := sound_groupScanner _ x.1 x.2 h
    exact absurd ⟨x.2.rest, hpass.symm⟩ (hrest.group mark rfl x.1 hgroup)

theorem read?_groupedDigits {head : List Char} {groups : List (List Char)} (hne : head ≠ [])
    (hlength : head.length ≤ 3) (hdigits : ∀ c ∈ head, c.isDigit = true)
    (hgroups : ∀ group ∈ groups, IsGroup group) (hmark : mark.isDigit = false)
    (hrest : Ended (some mark) rest) (offset : Nat) :
    read? (groupedDigits mark) ⟨offset, head ++ groups.flatMap (mark :: ·) ++ rest⟩ =
      some (head ++ groups.flatten,
        ⟨offset + (head ++ groups.flatMap (mark :: ·)).length, rest⟩) := by
  have hbehind : ∀ c ∈ (groups.flatMap (mark :: ·) ++ rest).head?, c.isDigit = false := by
    cases groups with
    | nil => exact hrest.digit
    | cons group groups =>
      rintro c ⟨⟩
      exact hmark
  have hhead := read?_between_digits hdigits (List.length_pos_iff.mpr hne) hlength
    (fun _ => hbehind) offset
  have hall : List.Forall₂ (MarkedGroup mark) (groups.map (mark :: ·)) groups := by
    rw [List.forall₂_map_left_iff, List.forall₂_same]
    exact fun group hgroup => ⟨rfl, hgroups group hgroup⟩
  have hlater := complete_groupScanner.many (by rintro _ _ ⟨rfl, -⟩; simp)
    (fun _ _ _ _ => trivial) trivial (read?_groupScanner_none hrest) hall (offset + head.length)
  rw [← List.flatMap_def] at hlater
  unfold groupedDigits
  rw [List.append_assoc, read?_bind, hhead, Option.bind_some, read?_bind, ← groupScanner]
  dsimp only
  rw [hlater, List.length_append, Nat.add_assoc]
  rfl

theorem read?_groupedDigits_some {digits : List Char} {c next : Cursor Char}
    (h : read? (groupedDigits mark) c = some (digits, next)) :
    ∃ text, c.Passes text next ∧ LaidOut (some mark) text digits := by
  unfold groupedDigits at h
  rw [read?_bind] at h
  obtain ⟨⟨head, between⟩, hhead, h⟩ := Option.bind_eq_some_iff.mp h
  rw [read?_bind] at h
  obtain ⟨⟨groups, last⟩, hgroups, h⟩ := Option.bind_eq_some_iff.mp h
  cases h
  obtain ⟨hpass, hleast, hmost, hdigits⟩ := read?_between_digits_some (by decide) hhead
  obtain ⟨texts, hlater, hall⟩ := sound_groupScanner.many 0 hgroups
  have htexts : texts = groups.map (mark :: ·) ∧ ∀ group ∈ groups, IsGroup group := by
    clear * - hall
    induction hall with
    | nil => exact ⟨rfl, by simp⟩
    | cons hmarked _ ih =>
      obtain ⟨rfl, hgroup⟩ := hmarked
      exact ⟨by rw [ih.1]; rfl, List.forall_mem_cons.mpr ⟨hgroup, ih.2⟩⟩
  obtain ⟨rfl, hgroups⟩ := htexts
  rw [← List.flatMap_def] at hlater
  exact ⟨_, hpass.trans hlater, .grouped (List.length_pos_iff.mp hleast) hmost hdigits hgroups⟩

end

section

variable {format : NumberFormat} {text digits rest : List Char} {negative : Bool}

/-- A minus where there is one. -/
def minus (negative : Bool) : List Char := if negative then ['-'] else []

theorem read?_sign (negative : Bool) {c : Char} (hc : c ≠ '-') (more : List Char) (offset : Nat) :
    read? sign ⟨offset, minus negative ++ c :: more⟩ =
      some (negative, ⟨offset + (minus negative).length, c :: more⟩) := by
  unfold sign
  rw [read?_bind, read?_optional]
  cases negative with
  | true =>
    have hmark := read?_exactly ['-'] offset (c :: more)
    unfold minus
    rw [if_pos rfl, hmark]
    rfl
  | false =>
    have hnone : ¬ ['-'] <+: c :: more := by simpa [eq_comm] using hc
    have hmark : read? (exactly ['-']) ⟨offset, c :: more⟩ = none := read?_exactly_none hnone
    unfold minus
    rw [if_neg Bool.false_ne_true, List.nil_append, hmark]
    rfl

theorem read?_sign_some {c next : Cursor Char} (h : read? sign c = some (negative, next)) :
    c.Passes (minus negative) next := by
  unfold sign at h
  rw [read?_bind, read?_optional] at h
  cases hmark : read? (exactly ['-']) c with
  | none =>
    rw [hmark] at h
    cases h
    exact Cursor.Passes.refl c
  | some x =>
    rw [hmark] at h
    cases h
    exact read?_exactly_some hmark

/-- A whole number is read with its sign in front of what cannot go on with it. -/
theorem read?_wholePart (hmark : ∀ m ∈ format.mark?, m.isDigit = false)
    (htext : LaidOut format.mark? text digits) (hrest : Ended format.mark? rest) (negative : Bool)
    (offset : Nat) :
    read? format.wholePart ⟨offset, minus negative ++ text ++ rest⟩ =
      some ((negative, digits), ⟨offset + (minus negative ++ text).length, rest⟩) := by
  obtain ⟨c, more, htextc, hc⟩ := htext.head
  have hsign : c ≠ '-' := by
    rintro rfl
    cases hc
  have hfirst := read?_sign negative hsign (more ++ rest) offset
  rw [← List.cons_append, ← htextc, ← List.append_assoc] at hfirst
  unfold wholePart
  rw [read?_bind, hfirst, Option.bind_some, List.length_append, ← Nat.add_assoc]
  dsimp only
  rw [← mark?]
  generalize format.mark? = mark at *
  cases htext with
  | plain hne hdigits =>
    dsimp only
    rw [read?_bind, read?_digits hne hdigits hrest.digit]
    rfl
  | grouped hne hlength hdigits hgroups =>
    dsimp only
    rw [read?_bind, read?_groupedDigits hne hlength hdigits hgroups (hmark _ rfl) hrest]
    rfl

theorem read?_wholePart_some {c next : Cursor Char}
    (h : read? format.wholePart c = some ((negative, digits), next)) :
    ∃ text, c.Passes (minus negative ++ text) next ∧ LaidOut format.mark? text digits := by
  unfold wholePart at h
  rw [read?_bind] at h
  obtain ⟨⟨found, between⟩, hsign, h⟩ := Option.bind_eq_some_iff.mp h
  have hpass := read?_sign_some hsign
  dsimp only at h
  rw [← mark?] at h
  split at h
  · rw [read?_bind] at h
    obtain ⟨⟨whole, last⟩, hwhole, h⟩ := Option.bind_eq_some_iff.mp h
    cases h
    obtain ⟨hdigits, hne, hall⟩ := read?_digits_some hwhole
    exact ⟨_, hpass.trans hdigits, ‹format.mark? = none› ▸ .plain hne hall⟩
  · rw [read?_bind] at h
    obtain ⟨⟨whole, last⟩, hwhole, h⟩ := Option.bind_eq_some_iff.mp h
    cases h
    obtain ⟨text, htext, hlaid⟩ := read?_groupedDigits_some hwhole
    exact ⟨text, hpass.trans htext, ‹format.mark? = some _› ▸ hlaid⟩

end

end ClauseTemplates.NumberFormat
