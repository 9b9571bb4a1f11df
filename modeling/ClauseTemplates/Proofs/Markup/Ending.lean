import ClauseTemplates.Proofs.Markup.Position
import ClauseTemplates.Proofs.Markup.Stable

namespace ClauseTemplates.Markup

/-! ### How much some lines hold -/

/-- How many characters some lines hold, the ends of lines not counted. -/
def characters (lines : List Line) : Nat := (lines.map fun line => line.text.length).sum

/-- There are fewer lines, or as many with fewer characters in them. -/
structure Less (inside lines : List Line) : Prop where
  lines_le : inside.length ≤ lines.length
  characters_le : characters inside ≤ characters lines
  strict : inside.length < lines.length ∨ characters inside < characters lines

variable {line other : Line} {lines more run rest after inside : List Line} {content : Content}

theorem characters_cons (line : Line) (lines : List Line) :
    characters (line :: lines) = line.text.length + characters lines := rfl

theorem characters_append (front rest : List Line) :
    characters (front ++ rest) = characters front + characters rest := by
  unfold characters
  rw [List.map_append, List.sum_append]

theorem weight_eq (lines : List Line) : weight lines = characters lines + lines.length := by
  induction lines with
  | nil => rfl
  | cons line lines ih =>
    rw [weight_cons, characters_cons, ih, List.length_cons]
    omega

theorem Less.weight_lt (h : Less inside lines) : weight inside < weight lines := by
  have hlines := h.lines_le
  have hcharacters := h.characters_le
  rw [weight_eq, weight_eq]
  rcases h.strict with hstrict | hstrict <;> omega

theorem Less.mono (h : Less inside lines) (hmore : lines <:+: more) : Less inside more := by
  obtain ⟨front, back, rfl⟩ := hmore
  have hlines := h.lines_le
  have hcharacters := h.characters_le
  constructor
  · simp only [List.length_append]
    omega
  · simp only [characters_append]
    omega
  · simp only [List.length_append, characters_append]
    rcases h.strict with hstrict | hstrict
    · exact Or.inl (by omega)
    · exact Or.inr (by omega)

theorem Line.Strips.length_le (h : line.Strips other) : other.text.length ≤ line.text.length := by
  cases h with
  | skip _ =>
    rw [Line.skip, List.length_drop]
    omega
  | empty _ => exact Nat.zero_le _

theorem length_of_strips (h : List.Forall₂ Line.Strips run inside) :
    inside.length = run.length ∧ characters inside ≤ characters run := by
  induction h with
  | nil => exact ⟨rfl, Nat.le_refl _⟩
  | cons hstrip _ ih =>
    have hline := hstrip.length_le
    rw [characters_cons, characters_cons, List.length_cons, List.length_cons]
    omega

/-- An item loses its mark. -/
theorem splitItems_less (kind : ListKind) (count : Nat) (lines : List Line) :
    ∀ item ∈ (splitItems kind count lines).1, Less item lines := by
  induction count generalizing lines with
  | zero => simp [splitItems]
  | succ count ih =>
    cases lines with
    | nil => simp [splitItems]
    | cons line rest =>
      rw [splitItems]
      split
      · simp
      · rename_i length hmark
        obtain ⟨hpos, hle⟩ := length_of_itemMark? hmark
        obtain ⟨run, hrun, hstrips⟩ := splitItem_run (Markdown.itemIndent kind) rest
        obtain ⟨hlength, hcharacters⟩ := length_of_strips hstrips
        have hskip : (line.skip length).text.length + length = line.text.length := by
          rw [Line.skip, List.length_drop]
          omega
        have hrest := congrArg List.length hrun
        have hrest' := congrArg characters hrun
        rw [List.length_append] at hrest
        rw [characters_append] at hrest'
        refine List.forall_mem_cons.mpr ⟨?_, fun item hitem => ?_⟩
        · constructor
          · rw [List.length_cons, List.length_cons]
            omega
          · rw [characters_cons, characters_cons]
            omega
          · rw [characters_cons, characters_cons]
            exact Or.inr (by omega)
        · have hafter := (splitItem_suffix (Markdown.itemIndent kind) rest).trans (List.suffix_cons line rest)
          exact (ih _ item hitem).mono hafter.isInfix

theorem length_unquoted_lt (h : isQuoted line.text = true) :
    (unquoted line).text.length < line.text.length := by
  have hpos : 0 < line.text.length := by
    cases htext : line.text with
    | nil =>
      rw [htext] at h
      cases h
    | cons c text => exact Nat.succ_pos _
  rw [unquoted, Line.skip, List.length_drop]
  split <;> omega

/-- Each line of a quote loses its mark. -/
theorem characters_unquoted (h : ∀ line ∈ lines, isQuoted line.text = true) :
    characters (lines.map unquoted) + lines.length ≤ characters lines := by
  induction lines with
  | nil => exact Nat.le_refl _
  | cons line lines ih =>
    obtain ⟨hline, hlines⟩ := List.forall_mem_cons.mp h
    have hless := length_unquoted_lt hline
    have hmore := ih hlines
    rw [List.map_cons, characters_cons, characters_cons, List.length_cons]
    omega

/-- What is read inside a block is less than the lines from the block on. -/
theorem Divides.less (h : Divides line rest content after) (hinside : inside ∈ content.insides) :
    Less inside (line :: rest) := by
  cases h with
  | region _ hsplit =>
    obtain ⟨close, rfl, _⟩ := splitRegion?_eq_some_iff.mp hsplit
    cases List.mem_singleton.mp hinside
    constructor
    · simp only [List.length_cons, List.length_append]
      omega
    · simp only [characters_cons, characters_append]
      omega
    · simp only [List.length_cons, List.length_append]
      exact Or.inl (by omega)
  | @quote quote _ hquoted hspan =>
    obtain ⟨heq, hall, hends⟩ := of_span hspan
    cases List.mem_singleton.mp hinside
    have hpos : 0 < quote.length := by
      refine List.length_pos_iff.mpr ?_
      rintro rfl
      have hline := hends line (by rw [← List.nil_append after, ← heq]; rfl)
      rw [hquoted] at hline
      cases hline
    have hcharacters := characters_unquoted hall
    rw [heq]
    constructor
    · rw [List.length_map, List.length_append]
      omega
    · rw [characters_append]
      omega
    · rw [characters_append]
      exact Or.inr (by omega)
  | @list kind _ items _ hmark hsplit =>
    have hitems := splitItems_less kind (rest.length + 1) (line :: rest)
    rw [hsplit] at hitems
    exact hitems inside hinside
  | _ => cases hinside

/-! ### Reading without fuel -/

/-- What reading some lines comes to, where all that is read inside a block and behind it comes to
something as well. -/
inductive Reads : List Line → Reading (List Node) → Prop
  | nil : Reads [] (.ok [])
  | blank {line : Line} {rest : List Line} {result : Reading (List Node)} (hblank : line.isBlank = true)
      (hrest : Reads rest result) : Reads (line :: rest) result
  | refused {line : Line} {rest : List Line} {e : MarkupError} (hfull : line.isBlank = false)
      (hcontent : contentOf line rest = .error e) : Reads (line :: rest) (.error e)
  | block {line : Line} {rest after : List Line} {content : Content}
      (read : List Line → Reading (List Node)) (hfull : line.isBlank = false)
      (hcontent : contentOf line rest = .ok (content, after))
      (hinsides : ∀ inside ∈ content.insides, Reads inside (read inside))
      (hafter : Reads after (read after)) :
      Reads (line :: rest) (do
        let node ← content.node read line
        pure (node :: (← read after)))

theorem readItems_congr {read other : List Line → Reading (List Node)} {items : List (List Line)}
    (h : ∀ item ∈ items, read item = other item) : readItems read items = readItems other items := by
  unfold readItems
  induction items with
  | nil => rfl
  | cons item items ih =>
    obtain ⟨hitem, hitems⟩ := List.forall_mem_cons.mp h
    rw [List.mapM_cons, List.mapM_cons, hitem, ih hitems]

/-- A block asks only for what it encloses. -/
theorem Content.node_congr {read other : List Line → Reading (List Node)} (line : Line)
    (h : ∀ inside ∈ content.insides, read inside = other inside) :
    content.node read line = content.node other line := by
  cases content with
  | region opening inside => rw [node, node, h inside (List.mem_singleton_self inside)]
  | quote inside => rw [node, node, h inside (List.mem_singleton_self inside)]
  | list kind start items =>
    have hitems : readItems read items = readItems other items := readItems_congr h
    rw [node, node, hitems]
  | _ => rfl

theorem Divides.weight_after (h : Divides line rest content after) :
    weight after < weight (line :: rest) := by
  obtain ⟨front, hfront⟩ := h.suffix
  rw [← hfront, weight_cons, weight_append]
  omega

/-- More fuel than the weight of the lines is enough. -/
theorem reads_readBlocks (fuel : Nat) (h : weight lines < fuel) : Reads lines (readBlocks fuel lines) := by
  induction fuel generalizing lines with
  | zero => omega
  | succ fuel ih =>
    cases lines with
    | nil => exact .nil
    | cons line rest =>
      by_cases hblank : line.isBlank = true
      · rw [readBlocks, if_pos hblank]
        rw [weight_cons] at h
        exact .blank hblank (ih (by omega))
      have hfull : line.isBlank = false := by simpa using hblank
      rw [readBlocks_cons fuel rest hfull]
      cases hcontent : contentOf line rest with
      | error e => exact .refused hfull hcontent
      | ok found =>
        obtain ⟨content, after⟩ := found
        have hdivides := divides_of_contentOf hcontent
        have hafter := hdivides.weight_after
        refine .block _ hfull hcontent (fun inside hinside => ?_) (ih (by omega))
        have hinside := (hdivides.less hinside).weight_lt
        exact ih (by omega)

/-- Reading comes to one thing only. -/
theorem Reads.unique {result other : Reading (List Node)} (h : Reads lines result)
    (hother : Reads lines other) : result = other := by
  induction h generalizing other with
  | nil =>
    cases hother
    rfl
  | blank hblank _ ih =>
    cases hother with
    | blank _ hrest => exact ih hrest
    | refused hfull => simp [hblank] at hfull
    | block _ hfull => simp [hblank] at hfull
  | refused hfull hcontent =>
    cases hother with
    | blank hblank => simp [hfull] at hblank
    | refused _ hcontent' =>
      rw [hcontent] at hcontent'
      cases hcontent'
      rfl
    | block _ _ hcontent' =>
      rw [hcontent] at hcontent'
      cases hcontent'
  | block read hfull hcontent _ _ ihinsides ihafter =>
    cases hother with
    | blank hblank => simp [hfull] at hblank
    | refused _ hcontent' =>
      rw [hcontent] at hcontent'
      cases hcontent'
    | block read' _ hcontent' hinsides hafter =>
      rw [hcontent] at hcontent'
      cases hcontent'
      rw [ihafter hafter, Content.node_congr _ fun inside hinside => ihinsides inside hinside (hinsides inside hinside)]

theorem reads_iff {result : Reading (List Node)} :
    Reads lines result ↔ readBlocks (weight lines + 1) lines = result := by
  have hreads := reads_readBlocks (weight lines + 1) (Nat.lt_succ_self (weight lines))
  constructor
  · exact hreads.unique
  · rintro rfl
    exact hreads

/-! ### Lines by their index -/

/-- The lines from an index on are so many of the lines, without what marks them. -/
def Sliced (lines : List Line) (index : Nat) (inside : List Line) : Prop :=
  ∃ first last, index ≤ first ∧ first ≤ last ∧ last ≤ lines.length ∧
    List.Forall₂ Line.Strips (lines.extract first last) inside

/-- A block that begins at an index of the lines, and the index where reading goes on. -/
structure Step (lines : List Line) (index next : Nat) (content : Content) : Prop where
  index_lt : index < next
  next_le : next ≤ lines.length
  insides : ∀ inside ∈ content.insides, Sliced lines index inside ∧ Less inside lines
  text : ∀ paragraph, content.text? = some paragraph → paragraph ≠ [] ∧ Sliced lines index paragraph
  code : ∀ info text, content = .whole (.leaf (.codeBlock info text)) →
    ∃ body, text = String.ofList (joined body) ∧ Sliced lines index body
  /-- A list goes on as long as there are items. -/
  marks : ∀ kind start items, content = .list kind start items →
    ∀ line ∈ lines[next]?, itemMark? kind line.text = none

theorem Within.sliced {index : Nat} (h : Within (lines.drop index) inside) (hindex : index ≤ lines.length) :
    Sliced lines index inside := by
  obtain ⟨run, ⟨front, back, hrun⟩, hstrips⟩ := h
  refine ⟨index + front.length, index + front.length + run.length, by omega, by omega, ?_, ?_⟩
  · have hlength := congrArg List.length hrun
    simp only [List.length_append, List.length_drop] at hlength
    omega
  · have hextract : lines.extract (index + front.length) (index + front.length + run.length) = run := by
      rw [List.extract_eq_take_drop, ← List.drop_drop, ← hrun]
      simp
    rwa [hextract]

/-- As many items as lines are all that there can be. -/
theorem splitItems_marks (kind : ListKind) (count : Nat) (lines : List Line) (h : lines.length ≤ count) :
    ∀ line ∈ (splitItems kind count lines).2.head?, itemMark? kind line.text = none := by
  induction count generalizing lines with
  | zero =>
    rw [List.eq_nil_of_length_eq_zero (Nat.le_zero.mp h)]
    simp [splitItems]
  | succ count ih =>
    cases lines with
    | nil => simp [splitItems]
    | cons line rest =>
      rw [splitItems]
      split
      · rename_i hmark
        simpa using hmark
      · have hlength := (splitItem_suffix (Markdown.itemIndent kind) rest).length_le
        exact ih _ (by rw [List.length_cons] at h; omega)

namespace Divides

theorem within_text (h : Divides line rest content after) {paragraph : List Line}
    (htext : content.text? = some paragraph) : paragraph ≠ [] ∧ Within (line :: rest) paragraph := by
  cases h with
  | @heading level hlevel =>
    cases htext
    refine ⟨List.cons_ne_nil _ _, [line], ⟨[], rest, rfl⟩, .cons ?_ .nil⟩
    exact .skip (length_of_headingLevel? hlevel)
  | @paragraph more _ hsplit =>
    cases htext
    refine ⟨List.cons_ne_nil _ _, within_infix ⟨[], after, ?_⟩⟩
    rw [(of_span hsplit).1]
    rfl
  | _ => cases htext

theorem within_code {info : Option String} {text : String}
    (h : Divides line rest (.whole (.leaf (.codeBlock info text))) after) :
    ∃ body, text = String.ofList (joined body) ∧ Within (line :: rest) body := by
  cases h with
  | @fence _ body _ close _ hspan =>
    refine ⟨body, rfl, within_infix ⟨[line], close :: after, ?_⟩⟩
    rw [(of_span hspan).1]
    rfl

theorem marks {kind : ListKind} {start : UInt32} {items : List (List Line)}
    (h : Divides line rest (.list kind start items) after) :
    ∀ next ∈ after.head?, itemMark? kind next.text = none := by
  cases h with
  | list hmark hsplit =>
    have hmarks := splitItems_marks kind (rest.length + 1) (line :: rest) (Nat.le_refl _)
    rwa [hsplit] at hmarks

/-- The rest of the lines begins behind the block and within the lines. -/
theorem step {index : Nat} (h : Divides line rest content after) (hindex : lines.drop index = line :: rest) :
    ∃ next, Step lines index next content ∧ lines.drop next = after := by
  obtain ⟨front, hfront⟩ := h.suffix
  have hlength := congrArg List.length hindex
  rw [← hfront, List.length_drop, List.length_cons, List.length_append] at hlength
  have hdrop : lines.drop (index + 1 + front.length) = after := by
    rw [← List.drop_drop, ← List.drop_drop, hindex, ← hfront]
    simp
  refine ⟨index + 1 + front.length, ⟨by omega, by omega, ?_, ?_, ?_, ?_⟩, hdrop⟩
  · intro inside hinside
    have hwithin := h.within hinside
    have hless := h.less hinside
    rw [← hindex] at hwithin hless
    exact ⟨hwithin.sliced (by omega), hless.mono (List.drop_suffix index lines).isInfix⟩
  · intro paragraph htext
    obtain ⟨hne, hwithin⟩ := h.within_text htext
    rw [← hindex] at hwithin
    exact ⟨hne, hwithin.sliced (by omega)⟩
  · rintro info text rfl
    obtain ⟨body, htext, hwithin⟩ := h.within_code
    rw [← hindex] at hwithin
    exact ⟨body, htext, hwithin.sliced (by omega)⟩
  · rintro kind start items rfl
    rw [← List.head?_drop, hdrop]
    exact h.marks

end Divides

/-! ### The end of a region -/

/-- The lines that are searched for the end of a region: those in front of it, or all if it has none. -/
def searchedLines (tag : RegionTag) (rest : List Line) : List Line :=
  ((splitRegion? tag 0 rest).map Prod.fst).getD rest

theorem change_opening {opening : RegionOpening} (hopen : regionOpening? line.text = some opening) :
    change opening.tag line.text = 1 := by
  simp [change, hopen]

/-- With the line that opens it, a region is open at each line that is searched. -/
theorem surplus_searched {opening : RegionOpening} (hopen : regionOpening? line.text = some opening)
    {front : List Line} (hfront : front <+: searchedLines opening.tag rest) :
    0 < surplus opening.tag ((line :: front).map Line.text) := by
  have hstays : StaysOpen opening.tag 0 ((searchedLines opening.tag rest).map Line.text) := by
    unfold searchedLines
    cases hsplit : splitRegion? opening.tag 0 rest with
    | none => exact splitRegion?_eq_none_iff.mp hsplit
    | some found =>
      obtain ⟨_, _, _, _, hstays⟩ := splitRegion?_eq_some_iff.mp hsplit
      exact hstays
  have hrest := hstays _ (hfront.map Line.text)
  rw [List.map_cons, surplus, change_opening hopen]
  omega

/-- The line that closes a region closes what the first line opens. -/
theorem surplus_closed {opening : RegionOpening} (hopen : regionOpening? line.text = some opening)
    (hsplit : splitRegion? opening.tag 0 rest = some (inside, after)) :
    ∃ close, rest = inside ++ close :: after ∧
      surplus opening.tag ((line :: inside ++ [close]).map Line.text) = 0 := by
  obtain ⟨close, heq, hclose, hzero, _⟩ := splitRegion?_eq_some_iff.mp hsplit
  refine ⟨close, heq, ?_⟩
  rw [List.map_append, List.map_cons, surplus_append, surplus, List.map_singleton, surplus, surplus,
    change_opening hopen, hclose]
  omega

/-! ### The place of a character -/

/-- The line of a character is found without taking more from its offset than there is. -/
theorem placeIn_line (hne : lines ≠ []) (offset : Nat) :
    ∃ front line rest, lines = front ++ line :: rest ∧ weight front ≤ offset ∧
      (rest ≠ [] → offset - weight front ≤ line.text.length) ∧
      placeIn lines offset = (line.number, line.column + min (offset - weight front) line.text.length) := by
  induction lines generalizing offset with
  | nil => exact absurd rfl hne
  | cons line rest ih =>
    cases rest with
    | nil => exact ⟨[], line, [], rfl, Nat.zero_le _, fun h => absurd rfl h, rfl⟩
    | cons next more =>
      by_cases hle : offset ≤ line.text.length
      · refine ⟨[], line, next :: more, rfl, Nat.zero_le _, fun _ => hle, ?_⟩
        rw [placeIn, if_pos hle]
        · exact congrArg (fun count => (line.number, line.column + count)) (Nat.min_eq_left hle).symm
        · simp
      · obtain ⟨front, here, rest, heq, hfront, hhere, hplace⟩ :=
          ih (List.cons_ne_nil next more) (offset - (line.text.length + 1))
        have hsub : offset - (line.text.length + 1) - weight front = offset - weight (line :: front) := by
          rw [weight_cons]
          omega
        rw [hsub] at hhere hplace
        refine ⟨line :: front, here, rest, congrArg (line :: ·) heq, ?_, hhere, ?_⟩
        · rw [weight_cons]
          omega
        · rw [placeIn, if_neg hle, hplace]
          simp

/-- Reading ends, with nodes or with an error. From the line at an index each step goes on behind it and
within the lines; what it reads inside a block are fewer lines or fewer characters, and it takes lines
that are there. A region is open as long as its end is searched, the place of a character is in a
line, and the levels of a text are fewer than its characters. -/
theorem readBlocks_ends (lines : List Line) :
    (∀ result, Reads lines result ↔ readBlocks (weight lines + 1) lines = result) ∧
      (∀ index line rest, lines.drop index = line :: rest →
        (index + 1 ≤ lines.length ∧ lines.drop (index + 1) = rest) ∧
        (∀ content after, contentOf line rest = .ok (content, after) →
          ∃ next, Step lines index next content ∧ lines.drop next = after) ∧
        ∀ opening, regionOpening? line.text = some opening →
          (∀ front, front <+: searchedLines opening.tag rest →
            0 < surplus opening.tag ((line :: front).map Line.text)) ∧
          ∀ inside after, splitRegion? opening.tag 0 rest = some (inside, after) →
            ∃ close, rest = inside ++ close :: after ∧
              surplus opening.tag ((line :: inside ++ [close]).map Line.text) = 0) ∧
      (lines ≠ [] → ∀ offset, ∃ front line rest, lines = front ++ line :: rest ∧ weight front ≤ offset ∧
        (rest ≠ [] → offset - weight front ≤ line.text.length) ∧
        placeIn lines offset =
          (line.number, line.column + min (offset - weight front) line.text.length)) ∧
      ∀ text fuel, text.length < fuel → readLevels fuel text = readInlines text := by
  refine ⟨fun result => reads_iff, ?_, fun hne => placeIn_line hne, fun text fuel => readLevels_eq⟩
  intro index line rest hindex
  refine ⟨⟨?_, ?_⟩, ?_, ?_⟩
  · have hlength := congrArg List.length hindex
    rw [List.length_drop, List.length_cons] at hlength
    omega
  · rw [← List.drop_drop, hindex, List.drop_one, List.tail_cons]
  · exact fun content after hcontent => (divides_of_contentOf hcontent).step hindex
  · exact fun opening hopen =>
      ⟨fun front => surplus_searched hopen, fun inside after => surplus_closed hopen⟩

def clauseOpens : Line := ⟨"\x7b\x7b#clause a\x7d\x7d".toList, 1, 1⟩

def quoteInside : Line := ⟨"> b".toList, 2, 1⟩

def clauseCloses : Line := ⟨"\x7b\x7b/clause\x7d\x7d".toList, 3, 1⟩

def textBehind : Line := ⟨"c".toList, 4, 1⟩

/-- A clause around a quote, and a paragraph behind it. -/
def quoteInClause : List Line := [clauseOpens, quoteInside, clauseCloses, textBehind]

theorem readBlocks_ends_quoteInClause :
    Reads quoteInClause (readBlocks (weight quoteInClause + 1) quoteInClause) ∧
      quoteInClause.drop (0 + 1) = [quoteInside, clauseCloses, textBehind] ∧
      (∃ next, Step quoteInClause 0 next (.region ⟨.clause, "a", []⟩ [quoteInside]) ∧
        quoteInClause.drop next = [textBehind]) ∧
      0 < surplus .clause ([clauseOpens, quoteInside].map Line.text) ∧
      (∃ close, [quoteInside, clauseCloses, textBehind] = [quoteInside] ++ close :: [textBehind] ∧
        surplus .clause ([clauseOpens, quoteInside, close].map Line.text) = 0) ∧
      (∃ front line rest, quoteInClause = front ++ line :: rest ∧ weight front ≤ 20 ∧
        (rest ≠ [] → 20 - weight front ≤ line.text.length) ∧
        placeIn quoteInClause 20 =
          (line.number, line.column + min (20 - weight front) line.text.length)) ∧
      readLevels 9 ['c'] = readInlines ['c'] := by
  obtain ⟨hreads, hsteps, hplace, hlevels⟩ := readBlocks_ends quoteInClause
  have hopen : regionOpening? clauseOpens.text = some ⟨.clause, "a", []⟩ := by decide +kernel
  have hsplit : splitRegion? .clause 0 [quoteInside, clauseCloses, textBehind] =
      some ([quoteInside], [textBehind]) := rfl
  have hcontent : contentOf clauseOpens [quoteInside, clauseCloses, textBehind] =
      .ok (.region ⟨.clause, "a", []⟩ [quoteInside], [textBehind]) := by
    simp only [contentOf, hopen, hsplit]
  obtain ⟨⟨_, hnext⟩, hstep, hregion⟩ := hsteps 0 clauseOpens [quoteInside, clauseCloses, textBehind] rfl
  obtain ⟨hdepth, hclosed⟩ := hregion ⟨.clause, "a", []⟩ hopen
  refine ⟨(hreads _).mpr rfl, hnext, hstep _ _ hcontent, ?_, hclosed _ _ hsplit, ?_, ?_⟩
  · refine hdepth [quoteInside] ?_
    rw [searchedLines, hsplit]
    exact List.prefix_refl _
  · exact hplace (List.cons_ne_nil _ _) 20
  · exact hlevels ['c'] 9 (by decide)

end ClauseTemplates.Markup
