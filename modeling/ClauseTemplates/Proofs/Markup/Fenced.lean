import ClauseTemplates.Markup.Template
import ClauseTemplates.Proofs.Document.Lines
import ClauseTemplates.Proofs.Markup.Stripped

namespace ClauseTemplates.Markup

open Markdown

/-- Lines that close just the regions of a tag that they open. -/
def Balanced (tag : RegionTag) (texts : List (List Char)) : Prop :=
  StaysOpen tag 0 texts ∧ surplus tag texts = 0

instance (tag : RegionTag) (texts : List (List Char)) : Decidable (Balanced tag texts) :=
  inferInstanceAs (Decidable (_ ∧ _))

/-- A region with lines in a fence and nothing else. -/
def fencedMarkup (header : List Char) (texts : List (List Char)) : String :=
  String.ofList (Text.joinWith ['\n'] (header :: fence :: (texts ++ [fence, clauseClose])))

variable {header : List Char} {texts : List (List Char)} {line close : Line} {body rest after : List Line}

theorem change_fence : change .clause fence = 0 := by decide

theorem change_clauseClose : change .clause clauseClose = -1 := by decide

theorem staysOpen_fence : StaysOpen .clause 0 (fence :: texts) ↔ StaysOpen .clause 0 texts :=
  staysOpen_cons (by rw [change_fence]; rfl)

theorem not_isBlank_of_regionOpening? {opening : RegionOpening}
    (h : regionOpening? line.text = some opening) : line.isBlank = false := by
  cases htext : line.text with
  | nil =>
    rw [htext] at h
    cases h
  | cons c rest =>
    have hc : c = '\x7b' := by
      by_contra hne
      rw [regionOpening?_ne] at h
      · cases h
      · rw [htext]
        simpa using hne
    simp [Line.isBlank, Text.allBlank, htext, hc, show Text.isBlank '\x7b' = false by decide]

theorem contentOf_region {opening : RegionOpening} (h : regionOpening? line.text = some opening) :
    contentOf line rest =
      match splitRegion? opening.tag 0 rest with
      | none => .error (line.error ("unclosed \x7b\x7b#" ++ opening.tag.name ++ "\x7d\x7d"))
      | some (inside, after) => .ok (.region opening inside, after) := by
  unfold contentOf
  cases hsplit : splitRegion? opening.tag 0 rest with
  | none => simp only [h, hsplit]
  | some found => simp only [h, hsplit]

theorem contentOf_fence (h : line.text = fence) :
    contentOf line rest = (do
      let (node, after) ← readFence line [] rest
      pure (.whole node, after)) := by
  have hopen : regionOpening? fence = none := by decide
  have hclose : (regionClosing? fence).isSome = false := by decide
  have hfence : Text.dropStart? fence fence = some [] := by decide
  unfold contentOf
  simp only [h, hopen, hclose, hfence, Bool.false_eq_true, if_false]

/-- A fence with the lines behind it, up to the next, is one block. -/
theorem readBlocks_fence (fuel : Nat) (hline : line.text = fence)
    (hbody : ∀ inside ∈ body, endsFence inside = false) (hclose : endsFence close = true) :
    readBlocks (fuel + 1) (line :: (body ++ [close])) =
      .ok [.leaf (.codeBlock none (String.ofList (Text.joinWith ['\n'] (body.map Line.text))))] := by
  have hfull : line.isBlank = false := by
    rw [Line.isBlank, hline]
    decide
  have hspan : (body ++ [close]).span (fun line => !endsFence line) = (body, [close]) := by
    apply span_append
    · simpa using hbody
    · simpa using hclose
  have hread : readFence line [] (body ++ [close]) =
      .ok (.leaf (.codeBlock none (String.ofList (Text.joinWith ['\n'] (body.map Line.text)))), []) := by
    rw [readFence, hspan]
    rfl
  rw [readBlocks_cons fuel _ hfull, contentOf_fence hline, hread]
  cases fuel <;> rfl

theorem readBlocks_unclosed (fuel : Nat) (hline : line.text = fence)
    (hbody : ∀ inside ∈ body, endsFence inside = false) :
    readBlocks (fuel + 1) (line :: body) = .error (line.error "unclosed code fence") := by
  have hfull : line.isBlank = false := by
    rw [Line.isBlank, hline]
    decide
  have hspan : (body ++ []).span (fun line => !endsFence line) = (body, []) := by
    apply span_append
    · simpa using hbody
    · simp
  rw [List.append_nil] at hspan
  have hread : readFence line [] body = .error (line.error "unclosed code fence") := by
    rw [readFence, hspan]
  rw [readBlocks_cons fuel _ hfull, contentOf_fence hline, hread]
  rfl

/-! ### The lines of the region -/

section

variable {last : Line} (hline : line.text = fence) (hclose : close.text = fence)
  (hlast : last.text = clauseClose)

include hline hclose hlast

theorem splitRegion?_balanced (h : Balanced .clause (body.map Line.text)) :
    splitRegion? .clause 0 (line :: (body ++ [close, last])) = some (line :: (body ++ [close]), []) := by
  have hbody : StaysOpen .clause 0 ((body ++ [close]).map Line.text) := by
    rw [List.map_append, List.map_singleton, hclose, staysOpen_concat, change_fence, h.2]
    exact ⟨h.1, by decide⟩
  refine splitRegion?_eq_some_iff.mpr ⟨last, by simp, ?_, ?_, ?_⟩
  · rw [hlast, change_clauseClose]
  · rw [List.map_cons, List.map_append, List.map_singleton, hline, hclose, surplus, surplus_append, h.2,
      surplus, surplus, change_fence]
    rfl
  · rw [List.map_cons, hline, staysOpen_fence]
    exact hbody

theorem splitRegion?_surplus (h : StaysOpen .clause 0 (body.map Line.text))
    (hmore : surplus .clause (body.map Line.text) ≠ 0) :
    splitRegion? .clause 0 (line :: (body ++ [close, last])) = none := by
  have hbody := h _ (List.prefix_refl _)
  have htexts : (line :: (body ++ [close, last])).map Line.text =
      fence :: (body.map Line.text ++ [fence] ++ [clauseClose]) := by
    simp [hline, hclose, hlast]
  rw [splitRegion?_eq_none_iff, htexts, staysOpen_fence, staysOpen_concat, staysOpen_concat,
    surplus_append, surplus, surplus, change_fence, change_clauseClose]
  exact ⟨⟨h, by omega⟩, by omega⟩

omit hclose hlast in
theorem splitRegion?_early (h : ¬ StaysOpen .clause 0 (body.map Line.text)) :
    ∃ front after, splitRegion? .clause 0 (line :: (body ++ [close, last])) = some (line :: front, after) ∧
      front <+: body := by
  cases hsplit : splitRegion? .clause 0 body with
  | none => exact absurd (splitRegion?_eq_none_iff.mp hsplit) h
  | some found =>
    obtain ⟨front, after⟩ := found
    obtain ⟨early, rfl, hearly, hzero, hopen⟩ := splitRegion?_eq_some_iff.mp hsplit
    refine ⟨front, after ++ [close, last], ?_, List.prefix_append _ _⟩
    refine splitRegion?_eq_some_iff.mpr ⟨early, by simp, hearly, ?_, ?_⟩
    · rw [List.map_cons, hline, surplus, change_fence]
      omega
    · rw [List.map_cons, hline, staysOpen_fence]
      exact hopen

end

theorem linesOf_fencedMarkup (hheader : '\n' ∉ header ∧ '\r' ∉ header)
    (htexts : ∀ text ∈ texts, '\n' ∉ text ∧ '\r' ∉ text) :
    ∃ body close last, linesOf (fencedMarkup header texts).toList =
        ⟨header, 1, 1⟩ :: ⟨fence, 2, 1⟩ :: (body ++ [close, last]) ∧
      body.map Line.text = texts ∧ close.text = fence ∧ last.text = clauseClose := by
  have hall : ∀ text ∈ header :: fence :: (texts ++ [fence, clauseClose]), '\n' ∉ text ∧ '\r' ∉ text := by
    intro text htext
    simp only [List.mem_cons, List.mem_append, List.not_mem_nil, or_false] at htext
    rcases htext with rfl | rfl | htext | rfl | rfl
    · exact hheader
    · decide
    · exact htexts text htext
    · decide
    · decide
  have hlines : Text.lines (fencedMarkup header texts).toList =
      header :: fence :: (texts ++ [fence, clauseClose]) := by
    rw [fencedMarkup, String.toList_ofList]
    apply Text.lines_joinWith
    · exact fun text htext => (hall text htext).1
    · exact fun text htext hlast => (hall text htext).2 (List.mem_of_getLast? hlast)
    · rw [← List.cons_append, ← List.cons_append, List.getLast?_append]
      simp [clauseClose]
  have hlater : (List.map (fun x : List Char × Nat => (⟨x.1, x.2 + 1, 1⟩ : Line))
      ((texts ++ [fence, clauseClose]).zipIdx 2)).map Line.text = texts ++ [fence, clauseClose] := by
    rw [List.map_map]
    exact List.zipIdx_map_fst 2 _
  obtain ⟨body, ends, hsplit, hbody, hends⟩ := List.map_eq_append_iff.mp hlater
  obtain ⟨close, ends, rfl, hclose, hends⟩ := List.map_eq_cons_iff.mp hends
  obtain ⟨last, ends, rfl, hlast, hends⟩ := List.map_eq_cons_iff.mp hends
  rw [List.map_eq_nil_iff.mp hends] at hsplit
  refine ⟨body, close, last, ?_, hbody, hclose, hlast⟩
  rw [linesOf, hlines, List.zipIdx_cons, List.zipIdx_cons, List.map_cons, List.map_cons, ← hsplit]

/-- The first line of a region whose lines are known is read on its own. -/
theorem readBlocks_region (fuel : Nat) {opening : RegionOpening} {inside : List Line}
    (hopen : regionOpening? line.text = some opening)
    (hsplit : splitRegion? opening.tag 0 rest = some (inside, after)) :
    readBlocks (fuel + 1) (line :: rest) = (do
      let node ← regionNode line opening (← readBlocks fuel inside)
      pure (node :: (← readBlocks fuel after))) := by
  have hcontent : contentOf line rest = .ok (.region opening inside, after) := by
    rw [contentOf_region hopen, hsplit]
  rw [readBlocks_cons fuel rest (not_isBlank_of_regionOpening? hopen), hcontent]
  exact bind_assoc (readBlocks fuel inside) (regionNode line opening) _

/-- A region that is read, and has nothing behind it. -/
theorem readBlocks_onlyRegion (fuel : Nat) {opening : RegionOpening} {inside : List Line}
    {children : List Node} {node : Node} (hopen : regionOpening? line.text = some opening)
    (hsplit : splitRegion? opening.tag 0 rest = some (inside, []))
    (hinside : readBlocks fuel inside = .ok children) (hnode : regionNode line opening children = .ok node) :
    readBlocks (fuel + 1) (line :: rest) = .ok [node] := by
  rw [readBlocks_region fuel hopen hsplit]
  refine bind_eq_ok.mpr ⟨children, hinside, bind_eq_ok.mpr ⟨node, hnode, ?_⟩⟩
  exact bind_eq_ok.mpr ⟨[], by cases fuel <;> rfl, rfl⟩

/-- Text in a fence that is alone in a clause region is read as it stands just when it closes the clause
regions that it opens, and no others. Otherwise the region ends inside the fence, or nowhere. -/
theorem read_fencedMarkup {opening : RegionOpening} {src condition : Option String}
    (hopen : regionOpening? header = some opening) (htag : opening.tag = .clause)
    (hattributes : clauseAttributes ⟨header, 1, 1⟩ opening = .ok (src, condition))
    (hheader : '\n' ∉ header ∧ '\r' ∉ header)
    (htexts : ∀ text ∈ texts, '\n' ∉ text ∧ '\r' ∉ text ∧ Text.trimEnd text ≠ fence) :
    (read (fencedMarkup header texts) =
        .ok [.clause opening.name none src condition
          [.leaf (.codeBlock none (String.ofList (Text.joinWith ['\n'] texts)))]] ↔
      Balanced .clause texts) ∧
    (StaysOpen .clause 0 texts → surplus .clause texts ≠ 0 →
      read (fencedMarkup header texts) = .error ⟨1, 1, [], "unclosed \x7b\x7b#clause\x7d\x7d"⟩) ∧
    (¬ StaysOpen .clause 0 texts →
      read (fencedMarkup header texts) = .error ⟨2, 1, [], "unclosed code fence"⟩) := by
  obtain ⟨body, close, last, hlines, hbody, hclose, hlast⟩ := linesOf_fencedMarkup hheader
    fun text htext => ⟨(htexts text htext).1, (htexts text htext).2.1⟩
  have hfence : (⟨fence, 2, 1⟩ : Line).text = fence := rfl
  have hinside : ∀ line ∈ body, endsFence line = false := by
    intro line hline
    have hne := (htexts line.text (hbody ▸ List.mem_map_of_mem hline)).2.2
    simpa [endsFence] using hne
  have hweight : weight (linesOf (fencedMarkup header texts).toList) ≠ 0 := by
    rw [hlines, weight_cons]
    omega
  obtain ⟨fuel, hfuel⟩ := Nat.exists_eq_add_one_of_ne_zero hweight
  have hread : read (fencedMarkup header texts) = (do
      let nodes ← readBlocks (fuel + 1 + 1) (⟨header, 1, 1⟩ :: ⟨fence, 2, 1⟩ :: (body ++ [close, last]))
      pure (namedAll ⟨0, 0⟩ nodes).1) := by
    rw [read, hfuel, hlines]
  have hbalanced : Balanced .clause texts → read (fencedMarkup header texts) =
      .ok [.clause opening.name none src condition
        [.leaf (.codeBlock none (String.ofList (Text.joinWith ['\n'] texts)))]] := by
    intro h
    have hsplit := splitRegion?_balanced hfence hclose hlast (hbody.symm ▸ h)
    have hends : endsFence close = true := by
      rw [endsFence, hclose]
      decide
    have hblock := readBlocks_fence fuel hfence hinside hends
    rw [hbody] at hblock
    have hnode : regionNode ⟨header, 1, 1⟩ opening
        [.leaf (.codeBlock none (String.ofList (Text.joinWith ['\n'] texts)))] =
        .ok (.clause opening.name none src condition
          [.leaf (.codeBlock none (String.ofList (Text.joinWith ['\n'] texts)))]) := by
      rw [regionNode, hattributes, htag]
      rfl
    rw [hread]
    exact bind_eq_ok.mpr
      ⟨_, readBlocks_onlyRegion (fuel + 1) hopen (htag.symm ▸ hsplit) hblock hnode, rfl⟩
  have hsurplus : StaysOpen .clause 0 texts → surplus .clause texts ≠ 0 →
      read (fencedMarkup header texts) = .error ⟨1, 1, [], "unclosed \x7b\x7b#clause\x7d\x7d"⟩ := by
    intro h hmore
    have hsplit := splitRegion?_surplus hfence hclose hlast (hbody.symm ▸ h)
      (hbody.symm ▸ hmore)
    rw [hread, readBlocks_cons (fuel + 1) _ (not_isBlank_of_regionOpening? hopen), contentOf_region hopen,
      htag, hsplit]
    rfl
  have hearly : ¬ StaysOpen .clause 0 texts →
      read (fencedMarkup header texts) = .error ⟨2, 1, [], "unclosed code fence"⟩ := by
    intro h
    obtain ⟨front, after, hsplit, hfront⟩ := splitRegion?_early hfence (hbody.symm ▸ h)
    rw [hread, readBlocks_region (fuel + 1) hopen (htag.symm ▸ hsplit),
      readBlocks_unclosed fuel hfence fun line hline => hinside line (hfront.subset hline)]
    rfl
  refine ⟨⟨fun hok => ?_, hbalanced⟩, hsurplus, hearly⟩
  by_contra hunbalanced
  by_cases h : StaysOpen .clause 0 texts
  · rw [hsurplus h fun hzero => hunbalanced ⟨h, hzero⟩] at hok
    cases hok
  · rw [hearly h] at hok
    cases hok

/-- A closing line in the fence ends the region, and a region of its own stays text. -/
theorem read_fencedMarkup_regions :
    read (fencedMarkup "\x7b\x7b#clause c\x7d\x7d".toList [clauseClose]) =
        .error ⟨2, 1, [], "unclosed code fence"⟩ ∧
      read (fencedMarkup "\x7b\x7b#clause c\x7d\x7d".toList
          ["\x7b\x7b#clause d\x7d\x7d".toList, [], clauseClose]) =
        .ok [.clause "c" none none none
          [.leaf (.codeBlock none "\x7b\x7b#clause d\x7d\x7d\n\n\x7b\x7b/clause\x7d\x7d")]] := by
  have hopen : regionOpening? "\x7b\x7b#clause c\x7d\x7d".toList = some ⟨.clause, "c", []⟩ := by decide
  constructor
  · exact (read_fencedMarkup hopen rfl rfl (by decide) (by decide)).2.2 (by decide)
  · exact (read_fencedMarkup hopen rfl rfl (by decide) (by decide)).1.mpr (by decide)

end ClauseTemplates.Markup
