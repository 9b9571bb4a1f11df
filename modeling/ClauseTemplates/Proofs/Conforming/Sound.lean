import Mathlib
import ClauseTemplates.Proofs.Conforming.Bounded
import ClauseTemplates.Proofs.Conforming.Drafted
import ClauseTemplates.Proofs.Template.Equality

namespace ClauseTemplates

open Drafting Binding

namespace Node

variable {schema : Schema} {isSealed : String → Bool} {scope : Option Target}

theorem soundAll_iff {ns : List Node} :
    SoundAll schema isSealed scope ns ↔ ∀ n ∈ ns, n.Sound schema isSealed scope := by
  induction ns with
  | nil => simp [SoundAll]
  | cons n ns ih => simp [SoundAll, ih]

theorem stockedAll_iff {ns : List Node} {value : Json} :
    StockedAll ns value ↔ ∀ n ∈ ns, n.Stocked value := by
  induction ns with
  | nil => simp [StockedAll]
  | cons n ns ih => simp [StockedAll, ih]

theorem mem_namesAll {ns : List Node} {name : String} :
    name ∈ namesAll ns ↔ ∃ n ∈ ns, name ∈ n.names := by
  induction ns with
  | nil => simp [namesAll]
  | cons n ns ih => simp [namesAll, ih]

end Node

namespace Fragment

variable {schema : Schema} {isSealed : String → Bool} {scope : Option Target} {d : Declaration}

theorem names_this (t : Target) (h : t.optional = false) :
    Names schema isSealed (some t) thisName false t :=
  ⟨resolve_this schema t, h, .inl rfl⟩

theorem sound_valueNodes {p : Property} {name : String} {t : Target}
    (hn : Names schema isSealed scope name false t) :
    Node.SoundAll schema isSealed scope (valueNodes p name) := by
  unfold valueNodes
  split
  · exact ⟨trivial, ⟨t, hn, ⟨t.element, names_this _ rfl⟩, trivial⟩, trivial, trivial⟩
  · exact ⟨⟨t, hn⟩, trivial⟩

theorem names_ofProperty {type : String} {p : Property} (hw : schema.WellFormed)
    (hd : schema.find? type = some d) (henum : d.isEnum = false) (hp : p ∈ d.properties) :
    Names schema schema.isEnum (some (Target.ofType schema type)) p.name p.optional
      (Target.ofProperty schema p) := by
  refine ⟨resolve_ofProperty hw hd henum hp, rfl, .inr ?_⟩
  rintro _ ⟨⟩
  refine ⟨rfl, fun _ => ?_⟩
  rw [Target.ofType, Schema.isEnum, hd, Option.any_some, henum]

/-- The template of a record reads the properties of the record as they are declared. -/
theorem sound_ofDeclaration {type : String} (hw : schema.WellFormed) (hd : schema.find? type = some d)
    (henum : d.isEnum = false) :
    Node.SoundAll schema schema.isEnum (some (Target.ofType schema type)) (ofDeclaration d) := by
  refine Node.soundAll_iff.mpr (forall_ofDeclaration fun lead p hp => Node.soundAll_iff.mp ?_)
  have hn := names_ofProperty hw hd henum hp
  unfold entry
  cases hoptional : p.optional with
  | true =>
    rw [hoptional] at hn
    exact ⟨⟨⟨_, hn, trivial, sound_valueNodes (names_this _ rfl)⟩, trivial⟩, trivial⟩
  | false =>
    rw [hoptional] at hn
    exact ⟨trivial, sound_valueNodes hn⟩

/-- The template of a record joins arrays and has no lists. -/
theorem stocked_ofDeclaration (value : Json) : Node.StockedAll (ofDeclaration d) value := by
  have hvalue (p : Property) (name : String) (value : Json) :
      Node.StockedAll (valueNodes p name) value := by
    unfold valueNodes
    split
    · exact ⟨trivial, fun _ _ _ _ => ⟨trivial, trivial⟩, trivial, trivial⟩
    · exact ⟨trivial, trivial⟩
  refine Node.stockedAll_iff.mpr (forall_ofDeclaration fun lead p _ => Node.stockedAll_iff.mp ?_)
  unfold entry
  cases p.optional with
  | true => exact ⟨⟨fun value _ => ⟨trivial, hvalue p _ value⟩, trivial⟩, trivial⟩
  | false => exact ⟨trivial, hvalue p _ value⟩

theorem names_entry (lead : String) (p : Property) : Node.namesAll (entry lead p) = [p.name] := by
  have hvalue (name : String) : Node.namesAll (valueNodes p name) = [name] := by
    unfold valueNodes
    split <;> rfl
  unfold entry
  split
  · rfl
  · exact hvalue p.name

theorem names_ofDeclaration (hnamed : ∀ p ∈ d.properties, p.name ≠ thisName) :
    ∀ name ∈ Node.namesAll (ofDeclaration d), name ≠ thisName := by
  intro name hname
  obtain ⟨n, hn, hname⟩ := Node.mem_namesAll.mp hname
  revert n
  refine forall_ofDeclaration fun lead p hp n hn hname => ?_
  have hentry := Node.mem_namesAll.mpr ⟨n, hn, hname⟩
  rw [names_entry, List.mem_singleton] at hentry
  exact hentry ▸ hnamed p hp

end Fragment

namespace Drafting

variable {schema : Schema} {bullet : Char} {context : DraftContext} {requested : EntryKey → Prop}

/-- Records have texts when they are drafted with as much fuel as they are deep. -/
theorem serves_compound (hw : schema.WellFormed)
    (hcompile : ∀ key, requested key → ∃ entry, Entry.compile schema key = .ok entry)
    (hinside : ∀ outer type children, requested outer →
      Entry.compile schema outer = .ok (.compound type children) →
      ∀ key ∈ Node.keysAll children, requested key) (fuel : Nat) :
    Serves schema requested (compoundTexts? schema bullet context fuel) fuel := by
  induction fuel with
  | zero =>
    refine ⟨hw, hcompile, fun _ _ _ _ _ _ _ _ hobject hdepth => ?_⟩
    have := Json.depth_pos_of_isObject hobject
    omega
  | succ fuel ih =>
    refine ⟨hw, hcompile, fun margin key type children value hkey hentry hconf hobject hdepth => ?_⟩
    obtain ⟨d, hd, henum, -, hbind⟩ := Entry.compile_compound hentry
    unfold bindRecord at hbind
    split at hbind
    · refine texts_of_bindNodes ih (Fragment.ofDeclaration d) children _ value margin hbind
        (Fragment.sound_ofDeclaration hw hd henum) (Fragment.stocked_ofDeclaration value)
        (hinside key type children hkey hentry) ?_ fun name hname w hw' => ?_
      · rintro _ ⟨⟩
        exact ⟨hconf, fun href => by cases href⟩
      · have hthis := Fragment.names_ofDeclaration (hw.named d (Schema.of_find? hd).1 henum) name hname
        have := depth_lt_of_field? hthis hw'
        omega
    · cases hbind

end Drafting

namespace Formulas

variable {schema : Schema} {isSealed : String → Bool}

mutual

/-- Nodes without code are analyzed to themselves. -/
theorem analyze_bindNode : ∀ (n m : Node) (scope : Option Target), bindNode schema scope n = .ok m →
    n.Sound schema isSealed scope → analyze m = .ok m
  | .variable v, m, scope, hbind, _ => by
    rw [bindNode] at hbind
    obtain ⟨target, _, hbind⟩ := bind_eq_ok.mp hbind
    dsimp only at hbind
    split at hbind
    · cases hbind
    · split at hbind
      · cases hbind
        rfl
      · obtain ⟨_, _, hbind⟩ := bind_eq_ok.mp hbind
        cases hbind
        rfl
  | .enumVariable _, _, _, _, hsound => hsound.elim
  | .formula _, _, _, _, hsound => hsound.elim
  | .conditional name condition whenTrue whenFalse, m, scope, hbind, hsound => by
    obtain ⟨rfl, _, htrue, hfalse⟩ := hsound
    rw [bindNode] at hbind
    simp only [Option.isNone_none, if_true] at hbind
    obtain ⟨_, _, hbind⟩ := bind_eq_ok.mp hbind
    obtain ⟨a, ha, hbind⟩ := bind_eq_ok.mp hbind
    obtain ⟨b, hb, hbind⟩ := bind_eq_ok.mp hbind
    cases hbind
    rw [analyze, analyzeAll_bindNodes whenTrue a scope ha htrue,
      analyzeAll_bindNodes whenFalse b none hb hfalse]
    rfl
  | .optional name type whenSome whenNone, m, scope, hbind, ⟨⟨t, hn, hsome⟩, hnone⟩ => by
    rw [bindNode] at hbind
    obtain ⟨u, hu, hbind⟩ := bind_eq_ok.mp hbind
    obtain rfl := hn.unique (resolve_of_optional hu).1
    obtain ⟨a, ha, hbind⟩ := bind_eq_ok.mp hbind
    obtain ⟨b, hb, hbind⟩ := bind_eq_ok.mp hbind
    cases hbind
    rw [analyze, analyzeAll_bindNodes whenSome a _ ha hsome, analyzeAll_bindNodes whenNone b none hb hnone]
    rfl
  | .within name type children, m, scope, hbind, ⟨t, hn, _, _, hsound⟩ => by
    rw [bindNode] at hbind
    obtain ⟨u, hu, hbind⟩ := bind_eq_ok.mp hbind
    obtain rfl := hn.unique (resolve_of_single hu).1
    obtain ⟨a, ha, hbind⟩ := bind_eq_ok.mp hbind
    cases hbind
    rw [analyze, analyzeAll_bindNodes children a _ ha hsound]
    rfl
  | .list name kind type children, m, scope, hbind, ⟨t, hn, hsound⟩ => by
    rw [bindNode] at hbind
    obtain ⟨u, hu, hbind⟩ := bind_eq_ok.mp hbind
    obtain rfl := hn.unique (resolve_of_array hu).1
    obtain ⟨a, ha, hbind⟩ := bind_eq_ok.mp hbind
    cases hbind
    rw [analyze, analyzeAll_bindNodes children a _ ha hsound]
    rfl
  | .join name type separator children, m, scope, hbind, ⟨t, hn, hsound⟩ => by
    rw [bindNode] at hbind
    obtain ⟨u, hu, hbind⟩ := bind_eq_ok.mp hbind
    obtain rfl := hn.unique (resolve_of_array hu).1
    obtain ⟨a, ha, hbind⟩ := bind_eq_ok.mp hbind
    cases hbind
    rw [analyze, analyzeAll_bindNodes children a _ ha hsound]
    rfl
  | .clause name type src condition children, m, scope, hbind, hsound => by
    obtain ⟨rfl, t, hn, _, _, hsound⟩ := hsound
    rw [bindNode] at hbind
    obtain ⟨u, hu, hbind⟩ := bind_eq_ok.mp hbind
    obtain rfl := hn.unique (resolve_of_single hu).1
    obtain ⟨a, ha, hbind⟩ := bind_eq_ok.mp hbind
    cases hbind
    rw [analyze, analyzeAll_bindNodes children a _ ha hsound]
    rfl
  | .contract _ children, m, scope, hbind, hsound => by
    rw [bindNode] at hbind
    obtain ⟨a, ha, hbind⟩ := bind_eq_ok.mp hbind
    cases hbind
    rw [analyze, analyzeAll_bindNodes children a scope ha hsound]
    rfl
  | .leaf _, m, _, hbind, _ => by
    rw [bindNode] at hbind
    cases hbind
    rfl
  | .markup frame children, m, scope, hbind, hsound => by
    rw [bindNode] at hbind
    obtain ⟨a, ha, hbind⟩ := bind_eq_ok.mp hbind
    cases hbind
    rw [analyze, analyzeAll_bindNodes children a scope ha hsound]
    rfl

theorem analyzeAll_bindNodes : ∀ (ns ms : List Node) (scope : Option Target),
    bindNodes schema scope ns = .ok ms → Node.SoundAll schema isSealed scope ns →
    analyzeAll ms = .ok ms
  | [], ms, _, hbind, _ => by
    rw [bindNodes] at hbind
    cases hbind
    rfl
  | n :: rest, ms, scope, hbind, ⟨hn, hrest⟩ => by
    rw [bindNodes] at hbind
    obtain ⟨m, hm, hbind⟩ := bind_eq_ok.mp hbind
    obtain ⟨ms, hms, hbind⟩ := bind_eq_ok.mp hbind
    cases hbind
    rw [analyzeAll, analyze_bindNode n m scope hm hn, analyzeAll_bindNodes rest ms scope hms hrest]
    rfl

end

end Formulas

namespace Template

/-- Drafting gives a document for every record that conforms to the type of the template. Records and
placeholders never lie so deep in others that it would be cut off. -/
theorem draft_conforming {schema : Schema} {settings : Settings} {kind : TemplateKind}
    {type markup : String} {nodes : List Node} {t : Template} (hw : schema.WellFormed)
    (hacyclic : schema.NonRecursive) (hread : Markup.read markup = .ok nodes) (ht : Template.ofMarkup schema kind type markup = .ok t)
    (hsound : Node.SoundAll schema schema.isEnum (some (Target.ofType schema type)) nodes)
    (hcompile : ∀ key, Requested schema t.body key → ∃ entry, Entry.compile schema key = .ok entry)
    {data : Json} (hdata : Conforms schema (Requested schema t.body) (Target.ofType schema type) data)
    (hstocked : Node.StockedAll nodes data) (now : Instant) {s : DraftState}
    (hs : Ready schema settings s) :
    ∃ doc s', (t.draft data now).run s = (.ok doc, s') ∧
      ∀ beyond fuel, schema.declarations.length < fuel →
        (t.draftWith (layers ⟨data, now, t.kind⟩ beyond fuel) data now).run s = (.ok doc, s') := by
  unfold Template.ofMarkup Template.ofNodes at ht
  obtain ⟨found, hfound, ht⟩ := bind_eq_ok.mp ht
  rw [hread] at hfound
  cases hfound
  obtain ⟨bound, hbound, ht⟩ := bind_eq_ok.mp ht
  have hbound := mapError_eq_ok.mp hbound
  unfold bindRecord at hbound
  split at hbound
  · rename_i hrecord
    rw [Formulas.analyzeAll_bindNodes nodes bound _ hbound hsound] at ht
    cases ht
    have hobject : data.isObject = true := hdata.isObject rfl rfl hrecord
    have hserves := @serves_compound schema '-' ⟨data, now, kind⟩ _ hw hcompile
      (fun outer type children houter hc key => .inside houter hc) (levels schema data)
    have hlevels : data.depth ≤ levels schema data := Nat.le_add_right _ _
    have hscope : ∀ u ∈ some (Target.ofType schema type), Suits schema (Requested schema bound) u data := by
      rintro _ ⟨⟩
      exact ⟨hdata, fun href => by cases href⟩
    obtain ⟨ts, hts⟩ := Option.isSome_iff_exists.mp (@texts_of_bindNodes _ '-' ⟨data, now, kind⟩ _ _ _
      hserves nodes bound _ data [] hbound hsound hstocked (fun key hkey => .shown hkey) hscope
      (depth_within hlevels))
    have hagrees := agrees_draft ⟨kind, type, bound⟩ schema settings '-' data now
    rw [text?, if_pos hobject, hts, Option.map_some] at hagrees
    obtain ⟨doc, s', hdraft, _⟩ := hagrees.yields hs
    refine ⟨doc, s', hdraft, fun beyond fuel hfuel => ?_⟩
    rw [draftWith_layers hw hacyclic _ data now beyond hfuel ⟨hs.schema, hs.faithful⟩]
    exact hdraft
  · cases hbound

end Template

namespace Shop

def shop : Declaration :=
  .concept "Shop" [.plain "title" "String", ⟨"wares", "Ware", true, false, false, []⟩,
    ⟨"motto", "String", false, true, false, []⟩]

def ware : Declaration := .concept "Ware" [.plain "name" "String"]

def schema : Schema := ⟨[shop, ware]⟩

def markup : String :=
  "\x7b\x7btitle\x7d\x7d\x7b\x7b#optional motto\x7d\x7d: \x7b\x7bthis\x7d\x7d\x7b\x7belse\x7d\x7d!" ++
    "\x7b\x7b/optional\x7d\x7d\n\n\x7b\x7b#ulist wares\x7d\x7d\n- \x7b\x7bthis\x7d\x7d\n\x7b\x7b/ulist\x7d\x7d"

def nodes : List Node :=
  [.markup .paragraph [.variable (.unbound "title" none),
      .optional "motto" none [.text ": ", .variable (.unbound thisName none)] [.text "!"]],
    .list "wares" .bullet none [.markup .paragraph [.variable (.unbound thisName none)]]]

def template : Template :=
  ⟨.clause, "Shop", [.markup .paragraph [.variable ⟨"title", some "String", none, none, []⟩,
      .optional "motto" (some "String") [.text ": ", .variable ⟨thisName, some "String", none, none, []⟩]
        [.text "!"]],
    .list "wares" .bullet (some "Ware")
      [.markup .paragraph [.variable ⟨thisName, some "Ware", none, none, []⟩]]]⟩

def record : Json := .obj [("title", .str "T"), ("wares", .arr [.obj [("name", .str "N")]])]

theorem read_eq : Markup.read markup = .ok nodes := Node.eq_ok_of_equalAll (by decide +kernel)

theorem ofNodes_eq : Template.ofNodes schema .clause "Shop" nodes = .ok template :=
  Template.eq_ok_of_equal (by decide +kernel)

theorem ofMarkup_eq : Template.ofMarkup schema .clause "Shop" markup = .ok template := by
  unfold Template.ofMarkup
  rw [read_eq]
  exact ofNodes_eq

def children : List Node :=
  [.text "name ", .variable ⟨"name", some "String", none, none, []⟩]

theorem compile_string : Entry.compile schema ⟨"String", none⟩ = .ok (.scalar .string) := by cbv

theorem compile_ware : Entry.compile schema ⟨"Ware", none⟩ = .ok (.compound "Ware" children) := by cbv

theorem requested_key {key : EntryKey} (h : Requested schema template.body key) :
    key = ⟨"String", none⟩ ∨ key = ⟨"Ware", none⟩ := by
  induction h with
  | shown h => simpa [template, Node.keysAll, Node.keys, Node.text] using h
  | inside _ hc h ih =>
    rcases ih with rfl | rfl
    · rw [compile_string] at hc
      cases hc
    · rw [compile_ware] at hc
      cases hc
      exact .inl (by simpa [children, Node.keysAll, Node.keys, Node.text] using h)

theorem accepted {type : String} {value : Json} (h : type = "Shop" ∨ type = "Ware" ∨
    (type = "String" ∧ ∃ s, value = .str s)) :
    Accepted schema (Requested schema template.body) type value := by
  constructor
  · rintro rfl
    simp at h
  · intro format program hkey hc
    rcases requested_key hkey with hkey | hkey
    · obtain ⟨rfl, rfl⟩ := EntryKey.mk.inj hkey
      obtain ⟨s, rfl⟩ : ∃ s, value = .str s := by simpa using h
      rw [compile_string] at hc
      cases hc
      exact ⟨_, rfl⟩
    · obtain ⟨rfl, rfl⟩ := EntryKey.mk.inj hkey
      rw [compile_ware] at hc
      cases hc

theorem wellFormed : schema.WellFormed := by
  constructor <;> decide

theorem nonRecursive : schema.NonRecursive :=
  Schema.nonRecursive_of_rank (fun type => if type = "Shop" then 2 else if type = "Ware" then 1 else 0)
    (by decide)

theorem sound : Node.SoundAll schema schema.isEnum (some (Target.ofType schema "Shop")) nodes := by
  have hnames (p : Property) (hp : p ∈ shop.properties) :=
    Fragment.names_ofProperty wellFormed (show schema.find? "Shop" = some shop by rfl) rfl hp
  exact ⟨⟨⟨_, hnames _ (.head _)⟩,
      ⟨⟨_, hnames _ (.tail _ (.tail _ (.head _))), trivial, ⟨_, Fragment.names_this _ rfl⟩, trivial⟩,
        trivial, trivial⟩, trivial⟩,
    ⟨_, hnames _ (.tail _ (.head _)), ⟨⟨_, Fragment.names_this _ rfl⟩, trivial⟩, trivial⟩, trivial⟩

theorem stocked : Node.StockedAll nodes record := by
  refine ⟨⟨trivial, ⟨fun _ _ => ⟨trivial, trivial, trivial⟩, trivial, trivial⟩, trivial⟩, ?_, trivial⟩
  intro items hitems
  cases hitems
  exact ⟨by simp, fun _ _ => ⟨⟨trivial, trivial⟩, trivial⟩⟩

theorem conforms_string (t : Target) (s : String) (htype : t.type = "String") (harray : t.array = false)
    (href : t.relationship = false) :
    Conforms schema (Requested schema template.body) t (.str s) := by
  have hd : schema.find? "String" = none := by rfl
  refine .single harray href rfl (accepted (.inr (.inr ⟨htype, s, rfl⟩))) ?_ ?_ ?_ <;>
    (intro d hfound; rw [htype, hd] at hfound; cases hfound)

theorem conforms_ware (t : Target) (s : String) (htype : t.type = "Ware") (harray : t.array = false)
    (href : t.relationship = false) :
    Conforms schema (Requested schema template.body) t (.obj [("name", .str s)]) := by
  refine .ofRecord harray href (accepted (.inr (.inl htype))) (htype ▸ rfl : _ = some ware) rfl ?_
  rintro p (_ | ⟨_, ⟨⟩⟩)
  refine ⟨fun _ => rfl, fun v hv => ?_⟩
  cases hv
  exact conforms_string _ s rfl rfl rfl

theorem conforms :
    Conforms schema (Requested schema template.body) (Target.ofType schema "Shop") record := by
  refine .ofRecord rfl rfl (accepted (.inl rfl)) (rfl : _ = some shop) rfl ?_
  rintro p (_ | ⟨_, _ | ⟨_, _ | ⟨_, ⟨⟩⟩⟩⟩)
  · refine ⟨fun _ => rfl, fun v hv => ?_⟩
    cases hv
    exact conforms_string _ "T" rfl rfl rfl
  · refine ⟨fun _ => rfl, fun v hv => ?_⟩
    cases hv
    refine .array rfl fun item hitem => ?_
    cases List.mem_singleton.mp hitem
    exact conforms_ware _ "N" rfl rfl rfl
  · constructor
    · rintro ⟨⟩
    · rintro v ⟨⟩

/-- A template with a record in a list and an absent optional value. -/
theorem draft_conforming_shop :
    ∃ doc s', (template.draft record ⟨0, 0, 0⟩).run ⟨Table.empty schema .standard, 0⟩ = (.ok doc, s') ∧
      (template.draftWith (layers ⟨record, ⟨0, 0, 0⟩, .clause⟩ (fun _ _ _ => pure []) 3) record
        ⟨0, 0, 0⟩).run ⟨Table.empty schema .standard, 0⟩ = (.ok doc, s') := by
  have hcompile (key : EntryKey) (hkey : Requested schema template.body key) :
      ∃ entry, Entry.compile schema key = .ok entry := by
    rcases requested_key hkey with rfl | rfl
    · exact ⟨_, compile_string⟩
    · exact ⟨_, compile_ware⟩
  have hready : Ready schema .standard ⟨Table.empty schema .standard, 0⟩ :=
    ⟨rfl, rfl, Table.faithful_empty schema .standard⟩
  obtain ⟨doc, s', hdraft, hlayers⟩ := Template.draft_conforming wellFormed nonRecursive read_eq
    ofMarkup_eq sound hcompile conforms stocked ⟨0, 0, 0⟩ hready
  exact ⟨doc, s', hdraft, hlayers (fun _ _ _ => pure []) 3 (by decide)⟩

end Shop

namespace Tagged

def holder : Declaration := .concept "Holder" [⟨"tags", "Tag", true, false, false, []⟩]

def note : Declaration := .concept "Note" []

def tag : Declaration := ⟨"Tag", .enum, none, [.plain "note" "Note"], ["A"], []⟩

def schema : Schema := ⟨[holder, note, tag]⟩

def markup : String :=
  "\x7b\x7b#join tags\x7d\x7d\x7b\x7b#with note\x7d\x7dyes\x7b\x7b/with\x7d\x7d\x7b\x7b/join\x7d\x7d"

def nodes : List Node :=
  [.markup .paragraph [.join "tags" none Markup.defaultSeparator [.within "note" none [.text "yes"]]]]

def template : Template :=
  ⟨.clause, "Holder", [.markup .paragraph [.join "tags" (some "Tag") Markup.defaultSeparator
    [.within "note" (some "Note") [.text "yes"]]]]⟩

def record : Json := .obj [("tags", .arr [.str "A"])]

theorem read_eq : Markup.read markup = .ok nodes := Node.eq_ok_of_equalAll (by decide +kernel)

theorem ofNodes_eq : Template.ofNodes schema .clause "Holder" nodes = .ok template :=
  Template.eq_ok_of_equal (by decide +kernel)

theorem ofMarkup_eq : Template.ofMarkup schema .clause "Holder" markup = .ok template := by
  unfold Template.ofMarkup
  rw [read_eq]
  exact ofNodes_eq

theorem not_requested (key : EntryKey) : ¬ Requested schema template.body key := by
  intro h
  induction h with
  | shown h => cases h
  | inside _ _ _ ih => exact ih

theorem accepted {type : String} {value : Json} (h : type ≠ "Boolean") :
    Accepted schema (Requested schema template.body) type value :=
  ⟨fun h' => absurd h' h, fun _ _ hkey _ => (not_requested _ hkey).elim⟩

theorem conforms :
    Conforms schema (Requested schema template.body) (Target.ofType schema "Holder") record := by
  refine .ofRecord rfl rfl (accepted (by decide)) (rfl : _ = some holder) rfl ?_
  rintro p (_ | ⟨_, ⟨⟩⟩)
  refine ⟨fun _ => rfl, fun v hv => ?_⟩
  cases hv
  refine .array rfl fun item hitem => ?_
  cases List.mem_singleton.mp hitem
  refine .single rfl rfl rfl (accepted (by decide)) ?_ ?_ ?_
  · rintro d ⟨⟩ _
    exact ⟨"A", .head _, rfl⟩
  · rintro d ⟨⟩ ⟨⟩
  · rintro d ⟨⟩ ⟨⟩

theorem sound : Node.SoundAll schema (fun _ => false) (some (Target.ofType schema "Holder")) nodes := by
  refine ⟨⟨⟨.ofProperty schema ⟨"tags", "Tag", true, false, false, []⟩, ⟨rfl, rfl, .inr ?_⟩,
    ⟨.ofProperty schema (.plain "note" "Note"), ⟨rfl, rfl, .inr ?_⟩, rfl, rfl, trivial, trivial⟩,
    trivial⟩, trivial⟩, trivial⟩
  · rintro _ ⟨⟩
    exact ⟨rfl, fun _ => rfl⟩
  · rintro _ ⟨⟩
    exact ⟨rfl, fun _ => rfl⟩

theorem nonRecursive : schema.NonRecursive :=
  Schema.nonRecursive_of_rank
    (fun type => if type = "Holder" then 2 else if type = "Tag" then 1 else 0) (by decide)

theorem stocked : Node.StockedAll nodes record := by
  refine ⟨⟨fun items _ item _ => ⟨fun _ _ => ⟨trivial, trivial⟩, trivial⟩, trivial⟩, trivial⟩

set_option maxRecDepth 100000 in
theorem fails : ∃ s', (template.draft record ⟨0, 0, 0⟩).run ⟨Table.empty schema .standard, 0⟩ =
    (.error (.draft (.missingField "note")), s') := ⟨_, by cbv⟩

/-- A property of an enumeration is a name in the template, but the values of the enumeration have no
fields. -/
theorem draft_conforming_tagged : schema.WellFormed ∧ schema.NonRecursive ∧
    Markup.read markup = .ok nodes ∧
    Template.ofMarkup schema .clause "Holder" markup = .ok template ∧
    Node.SoundAll schema (fun _ => false) (some (Target.ofType schema "Holder")) nodes ∧
    (∀ key, ¬ Requested schema template.body key) ∧
    Conforms schema (Requested schema template.body) (Target.ofType schema "Holder") record ∧
    Node.StockedAll nodes record ∧
    ∃ s', (template.draft record ⟨0, 0, 0⟩).run ⟨Table.empty schema .standard, 0⟩ =
      (.error (.draft (.missingField "note")), s') :=
  ⟨by constructor <;> decide, nonRecursive, read_eq, ofMarkup_eq, sound, not_requested, conforms,
    stocked, fails⟩

end Tagged

end ClauseTemplates
