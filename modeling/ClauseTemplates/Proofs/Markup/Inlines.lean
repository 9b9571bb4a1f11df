import ClauseTemplates.Markup.Inline
import ClauseTemplates.Proofs.Scan.Repeated
import ClauseTemplates.Proofs.Template.Static

namespace ClauseTemplates

namespace Scanner

open Scan

theorem read?_exactly_ne {t : Char} {ts rest : List Char} (h : rest.head? ≠ some t) (offset : Nat) :
    read? (exactly (t :: ts)) ⟨offset, rest⟩ = none := by
  apply read?_exactly_none
  rintro ⟨more, hrest⟩
  dsimp only at hrest
  rw [← hrest] at h
  exact h rfl

/-- Rounds that read something go on behind it. -/
theorem rounds?_next {α : Type} {p : Scanner Char α} {a : α} {w r : List Char} {offset : Nat}
    (hw : w ≠ []) (h : read? p ⟨offset, w ++ r⟩ = some (a, ⟨offset + w.length, r⟩))
    (most count : Nat) :
    rounds? p 0 (most + 1) count ⟨offset, w ++ r⟩ =
      (rounds? p 0 most (count + 1) ⟨offset + w.length, r⟩).map fun x => (a :: x.1, x.2) := by
  have hlength : 0 < w.length := List.length_pos_iff.mpr hw
  rw [rounds?, h]
  dsimp only
  rw [if_pos (by omega)]

end Scanner

namespace Markup

open Scan Scanner

variable (inner : Scanner Char (List Node))

/-- No block and no tag begins without a brace. -/
theorem read?_inlineNode {text : List Char} (h : text.head? ≠ some '\x7b') (offset : Nat) :
    read? (inlineNode inner) ⟨offset, text⟩ =
      [linebreak, escapedChar, strong inner, emph inner, code, softbreak, plainText].findSome?
        fun p => read? p ⟨offset, text⟩ := by
  have hopen (keyword : String) : read? (openTag keyword) ⟨offset, text⟩ = none := by
    have hchars : read? (chars "\x7b\x7b#") ⟨offset, text⟩ = none := read?_exactly_ne h offset
    simp [openTag, hchars]
  have hvariable : read? inlineVariable ⟨offset, text⟩ = none := by
    have hchars : read? (chars "\x7b\x7b") ⟨offset, text⟩ = none := read?_exactly_ne h offset
    simp [inlineVariable, hchars]
  have hbrace : read? brace ⟨offset, text⟩ = none := by
    have hchars : read? (chars "\x7b") ⟨offset, text⟩ = none := read?_exactly_ne h offset
    simp [brace, hchars]
  have hformula : read? formula ⟨offset, text⟩ = none := by
    have hchars : read? (exactly Markdown.formulaOpen) ⟨offset, text⟩ = none :=
      read?_exactly_ne h offset
    simp [formula, hchars]
  have hblocks : read? (conditional inner) ⟨offset, text⟩ = none ∧
      read? (optionalBlock inner) ⟨offset, text⟩ = none ∧
      read? (withinBlock inner) ⟨offset, text⟩ = none ∧
      read? (joinBlock inner) ⟨offset, text⟩ = none := by
    simp [conditional, optionalBlock, withinBlock, joinBlock, hopen]
  obtain ⟨hconditional, hoptional, hwithin, hjoin⟩ := hblocks
  unfold inlineNode
  rw [read?_choice]
  simp only [List.findSome?_cons, hformula, hconditional, hoptional, hwithin, hjoin, hvariable, hbrace,
    List.findSome?_nil]

theorem read?_chars {text : String} (offset : Nat) (rest : List Char) :
    read? (chars text) ⟨offset, text.toList ++ rest⟩ = some ((), ⟨offset + text.toList.length, rest⟩) :=
  read?_exactly text.toList offset rest

theorem read?_chars_ne {text : String} {t : Char} {ts rest : List Char}
    (htext : text.toList = t :: ts) (h : rest.head? ≠ some t) (offset : Nat) :
    read? (chars text) ⟨offset, rest⟩ = none := by
  unfold chars
  rw [htext]
  exact read?_exactly_ne h offset

/-- Neither a break with a mark nor emphasis begins without a mark. -/
theorem read?_unmarked {text : List Char} (hbrace : text.head? ≠ some '\x7b')
    (hback : text.head? ≠ some '\\') (hstar : text.head? ≠ some '*') (offset : Nat) :
    read? (inlineNode inner) ⟨offset, text⟩ =
      [code, softbreak, plainText].findSome? fun p => read? p ⟨offset, text⟩ := by
  have hback' : read? (chars "\\") ⟨offset, text⟩ = none := read?_chars_ne (t := '\\') rfl hback offset
  have hstrong : read? (chars "**") ⟨offset, text⟩ = none := read?_chars_ne (t := '*') rfl hstar offset
  have hemph : read? (chars "*") ⟨offset, text⟩ = none := read?_chars_ne (t := '*') rfl hstar offset
  rw [read?_inlineNode inner hbrace]
  simp only [List.findSome?_cons, linebreak, escapedChar, strong, emph, read?_bind, hback', hstrong,
    hemph, Option.bind_none]

theorem read?_newline (offset : Nat) (rest : List Char) :
    read? (inlineNode inner) ⟨offset, '\n' :: rest⟩ = some (.leaf .softbreak, ⟨offset + 1, rest⟩) := by
  have hcode : read? (chars "\x60") ⟨offset, '\n' :: rest⟩ = none :=
    read?_chars_ne (t := '\x60') rfl (by simp) _
  have hsoft : read? (chars "\n") ⟨offset, '\n' :: rest⟩ = some ((), ⟨offset + 1, rest⟩) :=
    read?_chars offset rest
  rw [read?_unmarked inner (by simp) (by simp) (by simp)]
  simp [code, softbreak, hcode, hsoft]

theorem read?_escaped_newline (offset : Nat) (rest : List Char) :
    read? (inlineNode inner) ⟨offset, '\\' :: '\n' :: rest⟩ =
      some (.leaf .linebreak, ⟨offset + 2, rest⟩) := by
  have hback : read? (chars "\\") ⟨offset, '\\' :: '\n' :: rest⟩ =
      some ((), ⟨offset + 1, '\n' :: rest⟩) := read?_chars offset _
  have hsoft : read? (chars "\n") ⟨offset + 1, '\n' :: rest⟩ = some ((), ⟨offset + 2, rest⟩) :=
    read?_chars (offset + 1) rest
  rw [read?_inlineNode inner (by simp)]
  simp [linebreak, hback, hsoft]

theorem read?_escaped {c : Char} (hc : c ≠ '\n') (offset : Nat) (rest : List Char) :
    read? (inlineNode inner) ⟨offset, '\\' :: c :: rest⟩ =
      some (.text (String.ofList [c]), ⟨offset + 2, rest⟩) := by
  have hback : read? (chars "\\") ⟨offset, '\\' :: c :: rest⟩ =
      some ((), ⟨offset + 1, c :: rest⟩) := read?_chars offset _
  have hsoft : read? (chars "\n") ⟨offset + 1, c :: rest⟩ = none :=
    read?_chars_ne (t := '\n') rfl (by simpa using hc) _
  rw [read?_inlineNode inner (by simp)]
  simp [linebreak, escapedChar, Scanner.satisfying, hback, hsoft]

theorem read?_code {s : List Char} (hs : '\x60' ∉ s) (offset : Nat) (rest : List Char) :
    read? (inlineNode inner) ⟨offset, '\x60' :: s ++ '\x60' :: rest⟩ =
      some (.leaf (.code (String.ofList s)), ⟨offset + (s.length + 2), rest⟩) := by
  have hopen : read? (chars "\x60") ⟨offset, '\x60' :: (s ++ '\x60' :: rest)⟩ =
      some ((), ⟨offset + 1, s ++ '\x60' :: rest⟩) := read?_chars offset _
  have hall : ∀ c ∈ s, (c != '\x60') = true := by
    intro c hc
    simp only [bne_iff_ne, ne_eq]
    rintro rfl
    exact hs hc
  have htake : (s ++ '\x60' :: rest).takeWhile (· != '\x60') = s := by
    rw [List.takeWhile_append_of_pos hall]
    simp
  have hdrop : (s ++ '\x60' :: rest).dropWhile (· != '\x60') = '\x60' :: rest := by
    rw [List.dropWhile_append_of_pos hall]
    simp
  have hbody : read? (many (satisfying (· != '\x60')) 0) ⟨offset + 1, s ++ '\x60' :: rest⟩ =
      some (s, ⟨offset + 1 + s.length, '\x60' :: rest⟩) := by
    rw [read?_many_satisfying, htake, hdrop]
    simp
  have hclose : read? (chars "\x60") ⟨offset + 1 + s.length, '\x60' :: rest⟩ =
      some ((), ⟨offset + 1 + s.length + 1, rest⟩) := read?_chars _ _
  have hoffset : offset + 1 + s.length + 1 = offset + (s.length + 2) := by omega
  rw [List.cons_append, read?_unmarked inner (by simp) (by simp) (by simp)]
  simp [code, hopen, hbody, hclose, hoffset]

/-- What plain text is made of. -/
def isPlain (c : Char) : Bool := c != '\\' && c != '*' && c != '\x60' && c != '\x7b' && c != '\n'

/-- Text without marks is read up to the first mark. -/
theorem read?_plain {s rest : List Char} (hs : s ≠ []) (hplain : ∀ c ∈ s, isPlain c = true)
    (hrest : ∀ c ∈ rest.head?, isPlain c = false) (offset : Nat) :
    read? (inlineNode inner) ⟨offset, s ++ rest⟩ =
      some (.text (String.ofList s), ⟨offset + s.length, rest⟩) := by
  have hhead {c : Char} (hc : isPlain c = false) : (s ++ rest).head? ≠ some c := by
    obtain ⟨d, ds, rfl⟩ := List.exists_cons_of_ne_nil hs
    rintro ⟨⟩
    rw [hplain c List.mem_cons_self] at hc
    cases hc
  have hcode : read? (chars "\x60") ⟨offset, s ++ rest⟩ = none :=
    read?_chars_ne (t := '\x60') rfl (hhead rfl) offset
  have hsoft : read? (chars "\n") ⟨offset, s ++ rest⟩ = none :=
    read?_chars_ne (t := '\n') rfl (hhead rfl) offset
  have htake : (s ++ rest).takeWhile isPlain = s := by
    rw [List.takeWhile_append_of_pos hplain]
    cases rest with
    | nil => simp
    | cons d rest => simp [hrest d rfl]
  have hdrop : (s ++ rest).dropWhile isPlain = rest := by
    rw [List.dropWhile_append_of_pos hplain]
    cases rest with
    | nil => simp
    | cons d rest => simp [hrest d rfl]
  have hmany : read? (many (satisfying isPlain) 1) ⟨offset, s ++ rest⟩ =
      some (s, ⟨offset + s.length, rest⟩) := by
    rw [read?_many_satisfying, htake, hdrop, if_neg]
    have := List.length_pos_iff.mpr hs
    omega
  have htext : read? plainText ⟨offset, s ++ rest⟩ =
      some (.text (String.ofList s), ⟨offset + s.length, rest⟩) := by
    change read? (many (satisfying isPlain) 1 >>= _) _ = _
    rw [read?_bind, hmany]
    rfl
  rw [read?_unmarked inner (hhead rfl) (hhead rfl) (hhead rfl)]
  simp only [List.findSome?_cons, code, softbreak, read?_bind, hcode, hsoft, Option.bind_none, htext]

theorem read?_nothing (offset : Nat) : read? (inlineNode inner) ⟨offset, []⟩ = none := by
  have hcode : read? (chars "\x60") ⟨offset, []⟩ = none := read?_chars_ne (t := '\x60') rfl (by simp) offset
  have hsoft : read? (chars "\n") ⟨offset, []⟩ = none := read?_chars_ne (t := '\n') rfl (by simp) offset
  have htext : read? plainText ⟨offset, []⟩ = none := by
    change read? (many (satisfying isPlain) 1 >>= _) _ = _
    rw [read?_bind, read?_many_satisfying]
    rfl
  rw [read?_unmarked inner (by simp) (by simp) (by simp)]
  simp only [List.findSome?_cons, List.findSome?_nil, code, softbreak, read?_bind, hcode, hsoft,
    Option.bind_none, htext]

/-- A node in front of others, which goes into the first if both are text. -/
def joinOnto : Node → List Node → List Node
  | .leaf (.text s), .leaf (.text t) :: rest => .leaf (.text (s ++ t)) :: rest
  | n, rest => n :: rest

theorem joinText_cons (n : Node) (rest : List Node) :
    joinText (n :: rest) = joinOnto n (joinText rest) := by
  cases n with
  | leaf l =>
    cases l with
    | text s =>
      rw [joinText]
      split
      · rename_i heq
        rw [heq, joinOnto]
      · rename_i hne
        rw [joinOnto]
        rintro _ t more ⟨⟩ heq
        exact hne t more heq
    | _ => rfl
  | _ => rfl

/-- The text is read as these nodes, as long as there are rounds left. -/
def Scans (text : List Char) (nodes : List Node) : Prop :=
  ∀ offset most count, text.length < most → ∃ found,
    rounds? (inlineNode inner) 0 most count ⟨offset, text⟩ =
      some (found, ⟨offset + text.length, []⟩) ∧ joinText found = nodes

theorem scans_nil : Scans inner [] [] := by
  intro offset most count hmost
  obtain ⟨most, rfl⟩ : ∃ n, most = n + 1 := ⟨most - 1, by simp at hmost; omega⟩
  refine ⟨[], ?_, rfl⟩
  rw [rounds?, read?_nothing]
  rfl

variable {inner}

theorem Scans.next {w text : List Char} {n : Node} {nodes : List Node} (h : Scans inner text nodes)
    (hw : w ≠ []) (hn : ∀ offset, read? (inlineNode inner) ⟨offset, w ++ text⟩ =
      some (n, ⟨offset + w.length, text⟩)) :
    Scans inner (w ++ text) (joinOnto n nodes) := by
  intro offset most count hmost
  have hlength : 0 < w.length := List.length_pos_iff.mpr hw
  rw [List.length_append] at hmost
  obtain ⟨most, rfl⟩ : ∃ n, most = n + 1 := ⟨most - 1, by omega⟩
  obtain ⟨found, hfound, hjoin⟩ := h (offset + w.length) most (count + 1) (by omega)
  refine ⟨n :: found, ?_, ?_⟩
  · rw [rounds?_next hw (hn offset), hfound, List.length_append, ← Nat.add_assoc]
    rfl
  · rw [joinText_cons, hjoin]

/-- No text stands in front. -/
def StartsApart : List Node → Prop
  | .leaf (.text _) :: _ => False
  | _ => True

theorem joinOnto_apart {n : Node} {nodes : List Node} (h : StartsApart nodes) :
    joinOnto n nodes = n :: nodes := by
  rw [joinOnto]
  rintro s t rest rfl rfl
  exact h

theorem escaped_append_plain {s : List Char} (rest : List Char)
    (h : ∀ c ∈ s, Text.isMarkupChar c = false) : Text.escaped (s ++ rest) = s ++ Text.escaped rest := by
  induction s with
  | nil => rfl
  | cons c s ih =>
    rw [List.cons_append, Text.escaped, if_neg (by simp [h c List.mem_cons_self]),
      ih fun d hd => h d (List.mem_cons_of_mem c hd), List.cons_append]

theorem joinOnto_text {nodes : List Node} (h : StartsApart nodes) (s t : List Char) :
    joinOnto (.text (String.ofList s)) (if t = [] then nodes else .text (String.ofList t) :: nodes) =
      .text (String.ofList (s ++ t)) :: nodes := by
  by_cases ht : t = []
  · rw [if_pos ht, joinOnto_apart h, ht, List.append_nil]
  · rw [if_neg ht, String.ofList_append]
    rfl

theorem isPlain_of_not_markup {c : Char} (hc : c ≠ '\n') (h : Text.isMarkupChar c = false) :
    isPlain c = true := by
  simp only [Text.isMarkupChar, Bool.or_eq_false_iff, beq_eq_false_iff_ne] at h
  obtain ⟨⟨⟨⟨hback, hstar⟩, htick⟩, hopen⟩, -⟩ := h
  simp [isPlain, hc, hback, hstar, htick, hopen]

/-- Text goes on without marks up to the first. -/
theorem exists_plain (s : List Char) : ∃ plain rest, s = plain ++ rest ∧
    (∀ c ∈ plain, Text.isMarkupChar c = false) ∧ ∀ c ∈ rest.head?, Text.isMarkupChar c = true := by
  refine ⟨s.takeWhile (!Text.isMarkupChar ·), s.dropWhile (!Text.isMarkupChar ·),
    List.takeWhile_append_dropWhile.symm, ?_, ?_⟩
  · intro c hc
    have hall := List.all_eq_true.mp (List.all_takeWhile (p := (!Text.isMarkupChar ·)) (l := s)) c hc
    simpa using hall
  · intro c hc
    have hnot := List.head?_dropWhile_not (!Text.isMarkupChar ·) s
    rw [hc] at hnot
    simpa using hnot

/-- Escaped text is read as one text: in pieces, up to each mark and behind it. -/
theorem Scans.text {text : List Char} {nodes : List Node} (h : Scans inner text nodes)
    (hapart : StartsApart nodes) (hhead : ∀ c ∈ text.head?, isPlain c = false) (s : List Char)
    (hs : '\n' ∉ s) : Scans inner (Text.escaped s ++ text)
      (if s = [] then nodes else .text (String.ofList s) :: nodes) := by
  induction hlength : s.length using Nat.strongRecOn generalizing s with
  | ind length ih =>
  cases s with
  | nil => exact h
  | cons c s =>
    rw [if_neg (List.cons_ne_nil c s)]
    by_cases hmarkup : Text.isMarkupChar c = true
    · have hc : c ≠ '\n' := fun hc => hs (hc ▸ List.mem_cons_self)
      have hrest := ih s.length (by simp [← hlength]) s (fun hmem => hs (List.mem_cons_of_mem c hmem)) rfl
      have hall := hrest.next (w := ['\\', c]) (List.cons_ne_nil _ _) fun offset =>
        read?_escaped inner hc offset _
      rw [joinOnto_text hapart] at hall
      rw [Text.escaped, if_pos hmarkup]
      exact hall
    · obtain ⟨plain, rest, hsplit, hplain, hmarked⟩ := exists_plain (c :: s)
      have hne : plain ≠ [] := by
        rintro rfl
        rw [List.nil_append] at hsplit
        rw [← hsplit] at hmarked
        exact hmarkup (hmarked c rfl)
      have hread : ∀ d ∈ plain, isPlain d = true := by
        intro d hd
        refine isPlain_of_not_markup ?_ (hplain d hd)
        rintro rfl
        exact hs (hsplit ▸ List.mem_append_left rest hd)
      have hnext : ∀ d ∈ (Text.escaped rest ++ text).head?, isPlain d = false := by
        intro d hd
        cases rest with
        | nil => exact hhead d hd
        | cons e es =>
          rw [Text.escaped, if_pos (hmarked e rfl)] at hd
          cases hd
          rfl
      have hshorter : rest.length < length := by
        have := List.length_pos_iff.mpr hne
        rw [← hlength, hsplit, List.length_append]
        omega
      have hrest := ih rest.length hshorter rest
        (fun hmem => hs (hsplit ▸ List.mem_append_right plain hmem)) rfl
      have hall := hrest.next hne fun offset => read?_plain inner hne hread hnext offset
      rw [joinOnto_text hapart] at hall
      rw [hsplit, escaped_append_plain rest hplain, List.append_assoc]
      exact hall

end Markup

/-- Whether text stands in front. -/
def Doc.startsText : List Doc → Bool
  | .leaf (.text _) :: _ => true
  | _ => false

/-- Texts, none empty or next to another, spans of code, and breaks, each on its line. -/
def Doc.Runs : List Doc → Prop
  | [] => True
  | .leaf (.text s) :: rest =>
    s ≠ "" ∧ '\n' ∉ s.toList ∧ Doc.startsText rest = false ∧ Doc.Runs rest
  | .leaf (.code s) :: rest => '\x60' ∉ s.toList ∧ '\n' ∉ s.toList ∧ Doc.Runs rest
  | .leaf .softbreak :: rest => Doc.Runs rest
  | .leaf .linebreak :: rest => Doc.Runs rest
  | _ :: _ => False

namespace Markup

open Scan Scanner

theorem startsApart_ofDocs : ∀ {docs : List Doc}, Doc.startsText docs = false →
    StartsApart (Node.ofDocs docs)
  | [], _ => trivial
  | .leaf (.text _) :: _, h => by cases h
  | .leaf (.codeBlock _ _) :: _, _ => trivial
  | .leaf .thematicBreak :: _, _ => trivial
  | .leaf (.code _) :: _, _ => trivial
  | .leaf .softbreak :: _, _ => trivial
  | .leaf .linebreak :: _, _ => trivial
  | .leaf (.fragment _) :: _, _ => trivial
  | .leaf (.formula _ _) :: _, _ => trivial
  | .node _ _ :: _, _ => trivial

theorem head_inlines (bullet : Char) : ∀ {docs : List Doc}, Doc.Runs docs →
    Doc.startsText docs = false → ∀ c ∈ (Markdown.inlines bullet [] docs).head?, isPlain c = false
  | [], _, _, c, hc => by cases hc
  | .leaf (.text _) :: _, _, h, _, _ => by cases h
  | .leaf (.code _) :: _, _, _, c, hc => by cases hc; rfl
  | .leaf .softbreak :: _, _, _, c, hc => by cases hc; rfl
  | .leaf .linebreak :: _, _, _, c, hc => by cases hc; rfl

/-- Inlines are read as they were written. -/
theorem scans_inlines (inner : Scanner Char (List Node)) (bullet : Char) : ∀ docs : List Doc,
    Doc.Runs docs → Scans inner (Markdown.inlines bullet [] docs) (Node.ofDocs docs)
  | [], _ => scans_nil inner
  | .leaf (.text s) :: rest, ⟨hs, hline, hapart, hrest⟩ => by
    have htext := (scans_inlines inner bullet rest hrest).text (startsApart_ofDocs hapart)
      (head_inlines bullet hrest hapart) s.toList hline
    have hne : s.toList ≠ [] := by simpa using hs
    rw [if_neg hne, String.ofList_toList] at htext
    exact htext
  | .leaf (.code s) :: rest, ⟨htick, _, hrest⟩ => by
    have hcode := (scans_inlines inner bullet rest hrest).next
      (w := '\x60' :: s.toList ++ ['\x60']) (n := .leaf (.code s)) (by simp) fun offset => by
        have hread := read?_code inner htick offset (Markdown.inlines bullet [] rest)
        rw [String.ofList_toList] at hread
        simpa using hread
    exact hcode
  | .leaf .softbreak :: rest, hrest => by
    have hrest : Doc.Runs rest := hrest
    exact (scans_inlines inner bullet rest hrest).next (w := ['\n']) (by simp) fun offset =>
      read?_newline inner offset _
  | .leaf .linebreak :: rest, hrest => by
    have hrest : Doc.Runs rest := hrest
    exact (scans_inlines inner bullet rest hrest).next (w := ['\\', '\n']) (by simp) fun offset =>
      read?_escaped_newline inner offset _

/-- Nothing is left of a text when its rounds are over. -/
theorem Scans.readInlines {text : List Char} {nodes : List Node}
    (h : Scans (inlines text.length) text nodes) : readInlines text = .ok nodes := by
  obtain ⟨found, hfound, hjoin⟩ := h 0 (text.length + 1) 0 (Nat.lt_succ_self _)
  unfold Markup.readInlines
  rw [run_eq_ok]
  refine ⟨⟨0 + text.length, []⟩, ?_⟩
  rw [read?_bind, inlines, read?_bind, read?_many]
  change (((rounds? _ 0 (text.length + 1) 0 ⟨0, text⟩).bind _).bind _) = _
  rw [hfound]
  simp [read?_endOfInput, hjoin]

/-- The text of a paragraph is read as the inlines that it was written for. -/
theorem readInlines_inlines (bullet : Char) {docs : List Doc} (h : Doc.Runs docs) :
    readInlines (Markdown.inlines bullet [] docs) = .ok (Node.ofDocs docs) :=
  (scans_inlines _ bullet docs h).readInlines

end Markup

end ClauseTemplates
