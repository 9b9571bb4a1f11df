import Mathlib
import ClauseTemplates.Proofs.Grammar.Retained
import ClauseTemplates.Proofs.Parsing.Accepted
import ClauseTemplates.Proofs.Template.Equality

namespace ClauseTemplates

open Scan Scanner

section

variable (schema : Schema)

mutual

/-- Markup that names what is allowed, with blocks whose values keep what they show: records do not
show the current value, and single values show nothing else, or have a type of records and show
fields only. -/
def Node.Keeping : Node → (String → Prop) → Prop
  | .variable v, allowed => allowed v.name
  | .enumVariable v, allowed => allowed v.name
  | .formula _, _ => True
  | .conditional name condition whenTrue whenFalse, allowed =>
    (condition = none → allowed name) ∧ Node.EachKeeping whenTrue allowed ∧
      Node.EachKeeping whenFalse allowed
  | .optional name type whenSome whenNone, allowed =>
    allowed name ∧ Node.EachKeeping whenNone allowed ∧
      (Node.EachKeeping whenSome (· = thisName) ∨
        type.any schema.isCompound = true ∧ Node.EachKeeping whenSome (· ≠ thisName))
  | .within name _ children, allowed => allowed name ∧ Node.EachKeeping children (· ≠ thisName)
  | .list name _ type children, allowed =>
    allowed name ∧ (Node.EachKeeping children (· = thisName) ∨
      type.any schema.isCompound = true ∧ Node.EachKeeping children (· ≠ thisName))
  | .join name type _ children, allowed =>
    allowed name ∧ (Node.EachKeeping children (· = thisName) ∨
      type.any schema.isCompound = true ∧ Node.EachKeeping children (· ≠ thisName))
  | .clause name _ _ _ children, allowed => allowed name ∧ Node.EachKeeping children (· ≠ thisName)
  | .contract _ children, allowed => Node.EachKeeping children allowed
  | .leaf _, _ => True
  | .markup _ children, allowed => Node.EachKeeping children allowed

def Node.EachKeeping : List Node → (String → Prop) → Prop
  | [], _ => True
  | n :: rest, allowed => n.Keeping allowed ∧ Node.EachKeeping rest allowed

end

end

namespace Grammar

variable {schema : Schema} {kind : TemplateKind} {settings : Settings}

theorem isSome_elementType {type : Option String} (h : type.any schema.isCompound = true) :
    (elementType schema (type.getD "")).isSome = true := by
  cases type with
  | none => cases h
  | some type =>
    rw [elementType, Option.getD_some, if_pos (show schema.isCompound type = true from h)]
    rfl

theorem keeps_ofValue (v : Variable) : (ofValue schema v).Keeps := by
  unfold ofValue
  dsimp only
  split
  · trivial
  · split <;> trivial

theorem keeps_assemble {allowed : String → Prop} (separator : List Char)
    (blocks : List (Grammar × Bool)) (h : ∀ block ∈ blocks, block.1.Keeps allowed) :
    (Compiling.assemble separator blocks).1.Keeps allowed ∧
      (Compiling.assemble separator blocks).2.Keeps allowed := by
  induction blocks with
  | nil => exact ⟨trivial, trivial⟩
  | cons block rest ih =>
    obtain ⟨g, elidable⟩ := block
    have hg := h _ List.mem_cons_self
    obtain ⟨hfirst, hlater⟩ := ih fun other hmem => h other (List.mem_cons_of_mem _ hmem)
    unfold Compiling.assemble
    cases elidable
    · exact ⟨⟨hg, hlater⟩, trivial, hg, hlater⟩
    · exact ⟨⟨⟨hg, hlater⟩, hfirst⟩, ⟨trivial, hg, hlater⟩, hlater⟩

theorem keeps_ofBlocks {allowed : String → Prop} (margin : List Char)
    {blocks : List (Grammar × Bool)} (h : ∀ block ∈ blocks, block.1.Keeps allowed) :
    (ofBlocks margin blocks).Keeps allowed := (keeps_assemble _ blocks h).1

theorem keeps_ofRegion {allowed : String → Prop} (margin : List Char) (name : String)
    (src : Option String) {body : Grammar} (h : body.Keeps allowed) :
    (ofRegion margin name src body).Keeps allowed :=
  ⟨trivial, trivial, ⟨h, trivial⟩, trivial, trivial⟩

mutual

theorem keeps_ofNode (margin : List Char) : ∀ (n : Node) {allowed : String → Prop},
    n.Keeping schema allowed → (ofNode schema kind settings margin n).Keeps allowed
  | .variable v, allowed, h => by
    rw [ofNode]
    exact ⟨h, keeps_ofValue v⟩
  | .enumVariable v, allowed, h => by
    rw [ofNode]
    exact ⟨h, trivial⟩
  | .formula _, allowed, _ => by
    rw [ofNode]
    trivial
  | .conditional name condition whenTrue whenFalse, allowed, ⟨hname, ht, hf⟩ => by
    rw [ofNode]
    have htrue := keeps_ofInlines margin whenTrue ht
    have hfalse := keeps_ofInlines margin whenFalse hf
    cases condition with
    | none => exact ⟨⟨htrue, hname rfl⟩, hfalse, hname rfl⟩
    | some _ => exact ⟨htrue, hfalse⟩
  | .optional name type whenSome whenNone, allowed, ⟨hname, hn, hs⟩ => by
    rw [ofNode]
    exact ⟨⟨hname, hs.imp (keeps_ofInlines margin whenSome) fun h =>
      ⟨isSome_elementType h.1, keeps_ofInlines margin whenSome h.2⟩⟩,
      keeps_ofInlines margin whenNone hn⟩
  | .within name type children, allowed, ⟨hname, hc⟩ => by
    rw [ofNode]
    exact ⟨hname, keeps_ofInlines margin children hc⟩
  | .list name listKind type children, allowed, ⟨hname, hc⟩ => by
    rw [ofNode]
    have hmark (allowed : String → Prop) :
        (Compiling.listMark settings.bullet listKind).Keeps allowed := by
      cases listKind <;> trivial
    exact ⟨hname, hc.imp (fun h => ⟨hmark _, keeps_ofBlocks _ (keeps_ofEach _ children h)⟩)
      fun h => ⟨isSome_elementType h.1, hmark _, keeps_ofBlocks _ (keeps_ofEach _ children h.2)⟩⟩
  | .join name type separator children, allowed, ⟨hname, hc⟩ => by
    rw [ofNode]
    exact ⟨hname, hc.imp (keeps_ofInlines margin children) fun h =>
      ⟨isSome_elementType h.1, keeps_ofInlines margin children h.2⟩⟩
  | .clause name type src condition children, allowed, ⟨hname, hc⟩ => by
    rw [ofNode]
    have hbody := keeps_ofBlocks margin (keeps_ofEach margin children hc)
    refine ⟨hname, ?_⟩
    rw [ValueGrammar.Keeps]
    split
    · exact keeps_ofRegion margin name src hbody
    · exact hbody
  | .contract _ children, allowed, h => by
    rw [ofNode]
    exact keeps_ofBlocks margin (keeps_ofEach margin children h)
  | .leaf l, allowed, _ => by
    rw [ofNode]
    cases l <;> trivial
  | .markup (.document _) children, allowed, h => by
    rw [ofNode]
    exact keeps_ofBlocks margin (keeps_ofEach margin children h)
  | .markup .item children, allowed, h => by
    rw [ofNode]
    exact keeps_ofBlocks margin (keeps_ofEach margin children h)
  | .markup .paragraph children, allowed, h => by
    rw [ofNode]
    exact keeps_ofInlines margin children h
  | .markup (.heading level) children, allowed, h => by
    rw [ofNode]
    exact ⟨trivial, keeps_ofInlines margin children h⟩
  | .markup .blockQuote children, allowed, h => by
    rw [ofNode]
    exact ⟨trivial, keeps_ofBlocks _ (keeps_ofEach _ children h)⟩
  | .markup (.list listKind start) children, allowed, h => by
    rw [ofNode]
    exact keeps_ofItems margin listKind [] start.toNat children h
  | .markup (.clause name src _) children, allowed, h => by
    rw [ofNode]
    exact keeps_ofRegion margin name src (keeps_ofBlocks margin (keeps_ofEach margin children h))
  | .markup .emph children, allowed, h => by
    rw [ofNode]
    exact ⟨trivial, keeps_ofInlines margin children h, trivial, trivial⟩
  | .markup .strong children, allowed, h => by
    rw [ofNode]
    exact ⟨trivial, keeps_ofInlines margin children h, trivial, trivial⟩

theorem keeps_ofEach (margin : List Char) : ∀ (ns : List Node) {allowed : String → Prop},
    Node.EachKeeping schema ns allowed →
      ∀ block ∈ ofEach schema kind settings margin ns, block.1.Keeps allowed
  | [], _, _, block, hblock => by
    rw [ofEach] at hblock
    cases hblock
  | n :: rest, allowed, ⟨hn, hrest⟩, block, hblock => by
    rw [ofEach] at hblock
    rcases List.mem_cons.mp hblock with rfl | hblock
    · exact keeps_ofNode margin n hn
    · exact keeps_ofEach margin rest hrest block hblock

theorem keeps_ofInlines (margin : List Char) : ∀ (ns : List Node) {allowed : String → Prop},
    Node.EachKeeping schema ns allowed → (ofInlines schema kind settings margin ns).Keeps allowed
  | [], _, _ => by
    rw [ofInlines]
    trivial
  | n :: rest, allowed, ⟨hn, hrest⟩ => by
    rw [ofInlines]
    exact ⟨keeps_ofNode margin n hn, keeps_ofInlines margin rest hrest⟩

theorem keeps_ofItems (margin : List Char) (listKind : ListKind) (lead : List Char)
    (number : Nat) : ∀ (ns : List Node) {allowed : String → Prop},
    Node.EachKeeping schema ns allowed →
      (ofItems schema kind settings margin listKind lead number ns).Keeps allowed
  | [], _, _ => by
    rw [ofItems]
    trivial
  | n :: rest, allowed, ⟨hn, hrest⟩ => by
    rw [ofItems]
    exact ⟨trivial, keeps_ofNode _ n hn, keeps_ofItems margin listKind _ _ rest hrest, trivial⟩

end

end Grammar

/-- All that an accepted text shows of the record of a template. -/
def TemplateParser.seen? (p : TemplateParser) (text : List Char) : Option Seen :=
  (read? (Grammar.seenValueScanner p.context
    (Grammar.compoundScanner p.context p.compounds (text.length + 1)) p.root)
      (Cursor.start text)).map Prod.fst

theorem TemplateParser.seen_of_capture {p : TemplateParser} {text : List Char} {captured : Captured}
    (h : p.capture text = .ok captured) :
    ∃ seen, p.seen? text = some seen ∧ seen.erase = captured := by
  rw [TemplateParser.capture_eq_ok, Grammar.textScanner_iff] at h
  obtain ⟨next, hread, _⟩ := h
  rw [Grammar.read?_valueScanner] at hread
  obtain ⟨⟨seen, last⟩, hseen, heq⟩ := Option.map_eq_some_iff.mp hread
  cases heq
  refine ⟨seen, ?_, rfl⟩
  rw [TemplateParser.seen?, hseen]
  rfl

/-- What is captured of an accepted text is all that is seen in it but for what blocks do not retain,
and the record has the rest. It has all that is seen where the blocks of the template keep what they
show. -/
theorem Template.parse_keeps {t : Template} {context : ScanContext} {table : Table}
    {p : TemplateParser} (hf : table.Faithful) (hp : (t.parser context table).1 = .ok p)
    {text : String} {n : Nat} {value : Json} (hv : p.parse text n = .ok value) :
    ∃ seen, p.seen? text.toList = some seen ∧ p.capture text.toList = .ok seen.erase ∧
      seen.In text.toList Seen.Retains value ∧
      (Node.EachKeeping table.schema t.body (· ≠ thisName) →
        seen.In text.toList (fun _ _ => True) value) := by
  obtain ⟨captured, m, hcapture, hfold⟩ := TemplateParser.parse_eq_ok.mp hv
  obtain ⟨seen, hseen, rfl⟩ := TemplateParser.seen_of_capture hcapture
  have hretained := Seen.in_of_fold seen hfold
  refine ⟨seen, hseen, hcapture, hretained, fun hkeeping => ?_⟩
  obtain ⟨_, hroot⟩ := Template.parser_ok hf hp
  have hkeeps : p.root.Keeps := by
    rw [hroot]
    exact Grammar.keeps_ofBlocks [] (Grammar.keeps_ofEach [] t.body hkeeping)
  obtain ⟨⟨found, last⟩, hread, heq⟩ := Option.map_eq_some_iff.mp hseen
  cases heq
  exact (Grammar.lossless_of_readValue p.root hkeeps hread).in_all hretained

namespace Sale

def schema : Schema :=
  ⟨Schema.builtin.declarations ++ [.concept "Sale" [Property.plain "price" monetaryAmount,
    { Property.plain "discount" monetaryAmount with optional := true }]]⟩

def amount : List Node :=
  [.text "is ", .variable ⟨"doubleValue", some "Double", none, none, []⟩]

def discounted : Template := ⟨.clause, "Sale",
  [.markup .paragraph [.optional "discount" (some monetaryAmount) amount [.text "none"]]]⟩

def priced : Template := ⟨.clause, "Sale",
  [.markup .paragraph [.within "price" (some monetaryAmount) amount]]⟩

def discountMarkup : String :=
  "\x7b\x7b#optional discount\x7d\x7dis \x7b\x7bdoubleValue\x7d\x7d" ++
  "\x7b\x7belse\x7d\x7dnone\x7b\x7b/optional\x7d\x7d"

def priceMarkup : String :=
  "\x7b\x7b#with price\x7d\x7dis \x7b\x7bdoubleValue\x7d\x7d\x7b\x7b/with\x7d\x7d"

def context : ScanContext := ⟨0, ⟨0, 0, 0⟩⟩

def parser (t : Template) : TemplateParser :=
  ⟨context, [], .record "Sale" (some "clauseId") (t.grammar schema .standard)⟩

def text : String := "is 0.0"

def record (name : String) (value : Json) : Json :=
  .obj [("$class", .str "Sale"), ("clauseId", .str (Identifier.numbered 0)), (name, value)]

def price : Json := .obj [("$class", .str monetaryAmount), ("doubleValue", .double .zero)]

def seen (name : String) (block : List SeenSlot → Seen) : Seen :=
  .record "Sale" (some "clauseId")
    [.mk name (block [.mk "doubleValue" (.captured (.value (.double .zero))) 3]) 0]

theorem parser_discounted :
    (discounted.parser context (Table.empty schema .standard)).1 = .ok (parser discounted) := by cbv

theorem parser_priced :
    (priced.parser context (Table.empty schema .standard)).1 = .ok (parser priced) := by cbv

set_option maxRecDepth 100000 in
theorem parse_discounted : (parser discounted).parse text 0 = .ok (record "discount" .null) := by cbv

set_option maxRecDepth 100000 in
theorem parse_priced : (parser priced).parse text 0 = .ok (record "price" price) := by cbv

set_option maxRecDepth 100000 in
theorem seen_discounted :
    (parser discounted).seen? text.toList = some (seen "discount" (.element none)) := by cbv

theorem keeping_priced : Node.EachKeeping schema priced.body (· ≠ thisName) := by
  simp [priced, amount, Node.text, Node.EachKeeping, Node.Keeping, thisName]

/-- An amount shown by its value: an optional block drops it, as amounts have a format and no
template of their own, and a block that always makes a record keeps it. -/
theorem parse_keeps_amount :
    Template.ofMarkup schema .clause "Sale" discountMarkup = .ok discounted ∧
    Template.ofMarkup schema .clause "Sale" priceMarkup = .ok priced ∧
    (parser discounted).parse text 0 = .ok (record "discount" .null) ∧
    (parser priced).parse text 0 = .ok (record "price" price) ∧
    (∃ seen, (parser discounted).seen? text.toList = some seen ∧
      seen.In text.toList Seen.Retains (record "discount" .null) ∧
      ¬ seen.In text.toList (fun _ _ => True) (record "discount" .null)) ∧
    ∃ seen, (parser priced).seen? text.toList = some seen ∧
      seen.In text.toList (fun _ _ => True) (record "price" price) := by
  have hf := Table.faithful_empty schema .standard
  refine ⟨Template.eq_ok_of_equal (by decide +kernel), Template.eq_ok_of_equal (by decide +kernel),
    parse_discounted, parse_priced, ?_, ?_⟩
  · obtain ⟨found, hfound, _, hin, _⟩ := Template.parse_keeps hf parser_discounted parse_discounted
    refine ⟨found, hfound, hin, fun hall => ?_⟩
    cases seen_discounted.symm.trans hfound
    obtain ⟨v, hv, hblock⟩ := hall.1 trivial
    cases hv
    obtain ⟨w, hw, _⟩ := hblock.1 trivial
    cases hw
  · obtain ⟨found, hfound, _, _, hall⟩ := Template.parse_keeps hf parser_priced parse_priced
    exact ⟨found, hfound, hall keeping_priced⟩

end Sale

end ClauseTemplates
