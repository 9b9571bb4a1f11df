import ClauseTemplates.Proofs.Grammar.Faultless
import ClauseTemplates.Proofs.Grammar.Leaves
import ClauseTemplates.Proofs.Sharing.Settles

namespace ClauseTemplates

namespace Compiling

open CompileState

variable {schema : Schema} {settings : Settings} {kind : TemplateKind}

/-- Every step of a compiler succeeds where the keys it requests have entries, and those of records
are among some types. -/
def succeeds (schema : Schema) (among : String → Prop) : Logic where
  types type := type.isSome = true
  keys key := ∃ e, Entry.compile schema key = .ok e ∧
    ∀ type children, e = .compound type children → among type
  entries key e := Entry.compile schema key = .ok e
  Holds _ x _ := Succeeds (Equipped schema) x
  pure := succeeds_pure
  bind := Succeeds.bind
  unbound _ _ h := by cases h
  margin s hs := ⟨_, s, rfl, hs⟩
  elementType _ s hs := ⟨_, s, rfl, hs⟩
  settings h s hs := h s.table.settings s hs
  inside := by
    intro _ _ act _ k h s hs
    obtain ⟨a, t, hy, ht⟩ := h { s with nesting := s.nesting ++ [k] } ⟨hs.schema, hs.faithful⟩
    refine ⟨a, { t with nesting := t.nesting.dropLast }, ?_, ht.schema, ht.faithful⟩
    unfold Yields at hy ⊢
    rw [run_inside, hy]
  entry := by
    rintro _ key f _ ⟨e, he, -⟩ h s hs
    obtain ⟨hfound, hfaithful⟩ := Table.entry_faithful hs.faithful key
    have hschema := (Table.entry_schema key s.table).1
    rw [hs.schema] at hfound hschema
    obtain ⟨a, t, hy, ht⟩ := h e he { s with table := (s.table.entry key).2 } ⟨hschema, hfaithful⟩
    refine ⟨a, t, yields_bind.mpr ⟨e, _, ?_, hy⟩, ht⟩
    unfold Yields
    rw [run_entry, hfound, he]

/-- Records compile if those of all types among them have entries for all their keys, whatever is
left to do beyond the levels. -/
theorem succeeds_levels {among : String → Prop}
    (hamong : ∀ type children, among type →
      Entry.compile schema ⟨type, none⟩ = .ok (.compound type children) →
      ∀ key ∈ Node.keysAll children, (succeeds schema among).keys key) (fuel : Nat) :
    ∀ key type children, among type → Entry.compile schema key = .ok (.compound type children) →
      Succeeds (Equipped schema) (levels kind (fun _ _ => pure ()) fuel type children) := by
  induction fuel with
  | zero => exact fun _ _ _ _ _ => succeeds_pure ()
  | succ fuel ih =>
    intro key type children htype hkey s hs
    unfold Yields
    rw [levels]
    cases hknown : s.known type with
    | true => exact ⟨(), s, run_recordBody_known hknown, hs⟩
    | false =>
      have hc (key : EntryKey) (type : String) (children : List Node)
          (hkeys : (succeeds schema among).keys key)
          (hentry : (succeeds schema among).entries key (.compound type children)) :
          (succeeds schema among).Holds [key] (levels kind (fun _ _ => pure ()) fuel type children)
            (levels kind (fun _ _ => pure ()) fuel type children) := by
        obtain ⟨e, he, hamong⟩ := hkeys
        obtain rfl : e = .compound type children := Except.ok.inj (he.symm.trans hentry)
        exact ih key type children (hamong type children rfl) hentry
      have hfits : Node.EveryAll (succeeds schema among).Fits children :=
        Node.EveryAll.mono (fun n hn => by cases n <;> exact hn.1) children (Entry.compile_typed hkey)
      have hentry := (Entry.key_of_compound hkey).1 ▸ hkey
      obtain ⟨body, t, hy, ht⟩ := (succeeds schema among).inlines kind hc children hfits
        (hamong type children htype hentry) (s.opened type) ⟨hs.schema, hs.faithful⟩
      refine ⟨(), (t.closed type).stored type body, ?_, ht.schema, ht.faithful⟩
      rw [run_recordBody_new hknown, show (inlines kind _ children).run _ = (.ok body, t) from hy]

theorem Orderly.of_lookup {s : CompileState} (h : Orderly schema settings kind s) {type : String}
    {g : ValueGrammar} (hg : s.compounds.lookup type = some g) :
    Canonical schema settings kind s type g := by
  obtain ⟨before, after, hcompounds, -⟩ := List.lookup_eq_some_iff.mp hg
  apply h.stored type g
  rw [hcompounds]
  exact List.mem_append_right _ List.mem_cons_self

/-- A compiler that is done with all types and stored a type. -/
theorem Orderly.lookup {s : CompileState} (h : Orderly schema settings kind s) {type : String}
    (htype : type ∈ s.compounds.map (·.1)) :
    ∃ g, s.compounds.lookup type = some g ∧ Canonical schema settings kind s type g := by
  obtain ⟨g, hg⟩ := Option.isSome_iff_exists.mp (isSome_lookup.mpr htype)
  exact ⟨g, hg, h.of_lookup hg⟩

theorem mem_of_settled {s : CompileState} (hdone : s.inProgress = []) {key : EntryKey} {type : String}
    {children : List Node} (h : Settled schema s key)
    (hentry : Entry.compile schema key = .ok (.compound type children)) :
    type ∈ s.compounds.map (·.1) := by
  obtain ⟨e, he, hknown⟩ := h
  obtain rfl : e = .compound type children := Except.ok.inj (he.symm.trans hentry)
  have htype := hknown type children rfl
  rw [known_iff, hdone] at htype
  exact htype.resolve_right List.not_mem_nil

/-- What two compilers stored for a type reads the same, whatever else they stored. -/
theorem compoundScanner_eq {s s' : CompileState} (h : Orderly schema settings kind s)
    (h' : Orderly schema settings kind s') (hdone : s.inProgress = []) (hdone' : s'.inProgress = [])
    (context : ScanContext) (fuel : Nat) :
    ∀ type, type ∈ s.compounds.map (·.1) → type ∈ s'.compounds.map (·.1) →
      Grammar.compoundScanner context s.compounds fuel type =
        Grammar.compoundScanner context s'.compounds fuel type := by
  induction fuel with
  | zero => exact fun _ _ _ => rfl
  | succ fuel ih =>
    intro type htype htype'
    obtain ⟨g, hlookup, children, hentry, rfl, hkeys⟩ := h.lookup htype
    obtain ⟨g', hlookup', children', hentry', rfl, hkeys'⟩ := h'.lookup htype'
    obtain rfl : children = children' := by
      have heq := hentry.symm.trans hentry'
      cases heq
      rfl
    rw [Grammar.compoundScanner, Grammar.compoundScanner, hlookup, hlookup']
    apply Grammar.valueScanner_congr
    intro v hv
    rw [Grammar.valueLeaves] at hv
    have htyped := Node.EveryAll.mono (fun _ h => h.1) children (Entry.compile_typed hentry)
    obtain ⟨key, hkey, e, hmembers, rfl⟩ := Grammar.serves_ofInlines [] children htyped v hv
    cases e with
    | scalar program => rfl
    | compound other members =>
      rw [Entry.leaf, Grammar.valueScanner, Grammar.valueScanner]
      exact ih other (mem_of_settled hdone (hkeys key hkey) hmembers)
        (mem_of_settled hdone' (hkeys' key hkey) hmembers)

theorem settles_compile (t : Template) :
    Settles schema settings t.kind (Node.keysAll t.body) t.compile := by
  intro s a s' hs hy
  let compound := compound t.kind (s.table.schema.declarations.length + 1)
  have hc (key : EntryKey) (type : String) (children : List Node)
      (_ : (settles schema settings t.kind).keys key)
      (hentry : (settles schema settings t.kind).entries key (.compound type children)) :
      (settles schema settings t.kind).Holds [key] (compound type children)
        (compound type children) :=
    settles_compound _ key type children hentry
  have hblocks := (settles schema settings t.kind).eachBlock t.kind hc t.body
    (Node.everyAll_of_forall settles_fits t.body) fun _ _ => trivial
  have hall := (settles schema settings t.kind).map (Logic.inBlocks hblocks) fun body =>
    ValueGrammar.record t.type (some (t.identifier s.table.settings)) body
  exact hall s a s' hs hy

end Compiling

open Compiling

/-- A compiler that made a parser is done with all types, and everything that the template requests
is settled. -/
theorem Template.parser_settles {t : Template} {context : ScanContext} {table : Table}
    {p : TemplateParser} (hf : table.Faithful) (hp : (t.parser context table).1 = .ok p) :
    ∃ s : CompileState, s.compounds = p.compounds ∧ s.inProgress = [] ∧
      Orderly table.schema table.settings t.kind s ∧
      ∀ key ∈ Node.keysAll t.body, Settled table.schema s key := by
  have hstart : Orderly table.schema table.settings t.kind (start table) :=
    orderly_new rfl rfl hf []
  have hdone : (t.compile.run (start table)).2.inProgress = [] :=
    (t.steady_compile (start table)).inProgress
  unfold Template.parser at hp
  rcases hrun : t.compile.run (start table) with ⟨e | root, s⟩
  · rw [hrun] at hp
    cases hp
  rw [hrun] at hp hdone
  cases hp
  obtain ⟨-, hs, hsettled⟩ := settles_compile t (start table) root s hstart hrun
  exact ⟨s, rfl, hdone, hs, hsettled⟩

/-- The types that a template shows records of are those that its parser keeps, and what is kept for
a type is read as what is compiled for it at the place where it is used, at any margin and with any
faithful table. -/
def Template.Memoized (t : Template) (schema : Schema) (settings : Settings) (p : TemplateParser) :
    Prop :=
  (∀ key ∈ Node.keysAll t.body, ∀ type children,
    Entry.compile schema key = .ok (.compound type children) → type ∈ p.compounds.map (·.1)) ∧
  ∀ type ∈ p.compounds.map (·.1), ∃ children,
    Entry.compile schema ⟨type, none⟩ = .ok (.compound type children) ∧
    ∀ (table : Table) (nesting : List Nesting), table.schema = schema → table.settings = settings →
      table.Faithful →
      ∃ s, (compound t.kind (schema.declarations.length + 1) type children).run
          ⟨table, nesting, [], []⟩ = (.ok (), s) ∧
        ∀ context fuel, Grammar.compoundScanner context s.compounds fuel type =
          Grammar.compoundScanner context p.compounds fuel type

theorem Template.parser_memoized (t : Template) {context : ScanContext} {table table' : Table}
    {p : TemplateParser} (hf : table.Faithful) (hp : t.parser context table = (.ok p, table')) :
    t.Memoized table.schema table.settings p := by
  obtain ⟨s, hcompounds, hdone, hs, hsettled⟩ :=
    parser_settles hf (show (t.parser context table).1 = .ok p by rw [hp])
  unfold Memoized
  rw [← hcompounds]
  refine ⟨fun key hkey type children hentry => mem_of_settled hdone (hsettled key hkey) hentry,
    fun type htype => ?_⟩
  obtain ⟨g, -, children, hentry, -, -⟩ := hs.lookup htype
  refine ⟨children, hentry, fun other nesting hschema hsettings hfaithful => ?_⟩
  let among (type : String) : Prop := type ∈ s.compounds.map (·.1)
  have hamong (type : String) (children : List Node) (htype : among type)
      (hentry : Entry.compile table.schema ⟨type, none⟩ = .ok (.compound type children)) :
      ∀ key ∈ Node.keysAll children, (succeeds table.schema among).keys key := by
    intro key hkey
    obtain ⟨g, -, children', hentry', -, hkeys⟩ := hs.lookup htype
    cases hentry.symm.trans hentry'
    obtain ⟨e, he, -⟩ := hkeys key hkey
    refine ⟨e, he, ?_⟩
    rintro other members rfl
    exact mem_of_settled hdone (hkeys key hkey) he
  let fuel := table.schema.declarations.length + 1
  let place : CompileState := ⟨other, nesting, [], []⟩
  have hsucceeds : Succeeds (Equipped table.schema)
      (levels t.kind (fun _ _ => pure ()) fuel type children) :=
    succeeds_levels hamong fuel _ type children htype hentry
  obtain ⟨_, s', hy, -⟩ := hsucceeds place ⟨hschema, hfaithful⟩
  have hplace : (compound t.kind fuel type children).run place = (.ok (), s') := by
    have hlevels : table.schema.declarations.length < fuel + ([] : List String).length := by
      simp [fuel]
    have hsame : Same (Busy table.schema [])
        (levels t.kind (fun type _ => throw (.unknownParser type)) fuel type children)
        (levels t.kind (fun _ _ => pure ()) fuel type children) :=
      same_levels fuel fuel [] List.nodup_nil (List.nil_subset _) hlevels hlevels _ type children hentry
    rw [compound_eq_levels, (hsame place ⟨hschema, hfaithful, rfl⟩).1]
    exact hy
  have hnew : Orderly table.schema table.settings t.kind place :=
    orderly_new hschema hsettings hfaithful nesting
  obtain ⟨hsteady, hs', hsettled'⟩ := settles_compound fuel _ type children hentry place () s' hnew
    hplace
  refine ⟨s', hplace, fun context fuel => ?_⟩
  have hstored := mem_of_settled hsteady.inProgress (hsettled' _ List.mem_cons_self) hentry
  exact compoundScanner_eq hs' hs hsteady.inProgress hdone context fuel type hstored htype

end ClauseTemplates
