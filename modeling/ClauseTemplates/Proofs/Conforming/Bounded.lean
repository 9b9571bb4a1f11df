import ClauseTemplates.Proofs.Conforming.Basic
import ClauseTemplates.Proofs.Drafting.Faultless
import Mathlib.Logic.Relation

namespace ClauseTemplates

namespace Schema

/-- Values of the one type, which are records, may have values of the other one in them, and not just
references. -/
def Contains (schema : Schema) (outer inner : String) : Prop :=
  ∃ d, schema.find? outer = some d ∧ d.isEnum = false ∧
    ∃ p ∈ d.properties, p.relationship = false ∧ p.type = inner

/-- No type reaches itself. -/
def NonRecursive (schema : Schema) : Prop := ∀ type, ¬ Relation.TransGen schema.Contains type type

variable {schema : Schema}

/-- It is enough that ranks fall from each record to the types of its properties. -/
theorem nonRecursive_of_rank (rank : String → Nat)
    (h : ∀ d ∈ schema.declarations, d.isEnum = false → ∀ p ∈ d.properties,
      p.relationship = false → rank p.type < rank d.name) : schema.NonRecursive := by
  have hstep {outer inner : String} (hinner : schema.Contains outer inner) :
      rank inner < rank outer := by
    obtain ⟨d, hd, henum, p, hp, href, rfl⟩ := hinner
    obtain ⟨hmem, rfl⟩ := of_find? hd
    exact h d hmem henum p hp href
  have hfalls {outer inner : String} (hinner : Relation.TransGen schema.Contains outer inner) :
      rank inner < rank outer := by
    induction hinner with
    | single hlast => exact hstep hlast
    | tail _ hlast ih => exact Nat.lt_trans (hstep hlast) ih
  exact fun type hcycle => Nat.lt_irrefl _ (hfalls hcycle)

end Schema

/-- The types whose entries a variable requests are among some types. -/
def Node.Requests (among : String → Prop) : Node → Prop
  | .variable v => ∀ key ∈ (Node.variable v).keys, among key.type
  | _ => True

namespace Binding

variable {schema : Schema} {among : String → Prop} {scope : Option Target} {t : Target}

theorem everyAll_bindsAll {P : Node → Prop} {ns ms : List Node} (h : BindsAll schema scope ns ms)
    (hP : ∀ n ∈ ns, ∀ m, Binds schema scope n m → m.Every P) : Node.EveryAll P ms := by
  induction ns generalizing ms with
  | nil =>
    cases h
    trivial
  | cons n ns ih =>
    obtain ⟨hn, hns⟩ := List.forall_mem_cons.mp hP
    cases h with
    | cons hm hrest => exact ⟨hn _ hm, ih hrest hns⟩

/-- A variable that shows a reference requests no entry. -/
theorem requests_variable {name : String} {m : Node} (hresolve : resolve schema scope name = .ok t)
    (ht : t.relationship = false → among t.type) :
    Binds schema scope (.variable (.unbound name none)) m → m.Every (Node.Requests among)
  | .enumerated _ _ _ => trivial
  | .variable (t := found) format identifiedBy hfound _ hid => by
    obtain rfl : t = found := Except.ok.inj (hresolve.symm.trans hfound)
    intro key hkey
    rw [Node.keys] at hkey
    split at hkey
    · cases hkey
    · rename_i hnone
      obtain rfl := List.mem_singleton.mp hkey
      have href : t.relationship = false := by
        rw [← hid]
        exact Bool.eq_false_iff.mpr hnone
      exact ht href

theorem requests_text {text : String} {m : Node} :
    Binds schema scope (.text text) m → m.Every (Node.Requests among)
  | .leaf _ _ => trivial

theorem resolve_this (schema : Schema) (t : Target) :
    resolve schema (some t) thisName = .ok t := by
  simp [resolve]

end Binding

namespace Fragment

open Binding

variable {schema : Schema} {among : String → Prop} {scope : Option Target} {d : Declaration}

theorem requests_valueNodes {p : Property} {name : String} {t : Target}
    (hresolve : resolve schema scope name = .ok t) (ht : t.relationship = false → among t.type) :
    ∀ n ∈ valueNodes p name, ∀ m, Binds schema scope n m → m.Every (Node.Requests among) := by
  intro n hn m hm
  unfold valueNodes at hn
  split at hn
  · rcases List.mem_cons.mp hn with rfl | hn
    · exact requests_text hm
    · rcases List.mem_cons.mp hn with rfl | hn
      · match hm with
        | .join (t := found) _ _ hfound _ (.cons hitem (.nil _)) =>
          obtain rfl : t = found := Except.ok.inj (hresolve.symm.trans hfound)
          exact ⟨trivial, requests_variable (resolve_this schema t.element) ht hitem, trivial⟩
      · obtain rfl := List.mem_singleton.mp hn
        exact requests_text hm
  · obtain rfl := List.mem_singleton.mp hn
    exact requests_variable hresolve ht hm

theorem find?_property {ps : List Property} (h : (ps.map (·.name)).Nodup) {p : Property} (hp : p ∈ ps) :
    ps.find? (·.name == p.name) = some p := by
  induction ps with
  | nil => cases hp
  | cons first rest ih =>
    obtain ⟨hfirst, hrest⟩ := List.nodup_cons.mp h
    rcases List.mem_cons.mp hp with rfl | hp
    · simp
    · have hne : (first.name == p.name) = false :=
        beq_eq_false_iff_ne.mpr fun h => hfirst (List.mem_map.mpr ⟨p, hp, h.symm⟩)
      rw [List.find?_cons, hne]
      exact ih hrest hp

theorem resolve_ofProperty {type : String} {p : Property} (hw : schema.WellFormed)
    (hd : schema.find? type = some d) (henum : d.isEnum = false) (hp : p ∈ d.properties) :
    resolve schema (some (Target.ofType schema type)) p.name = .ok (Target.ofProperty schema p) := by
  have hmem := (Schema.of_find? hd).1
  have hfind : d.property? p.name = some p := find?_property (hw.distinct d hmem henum) hp
  unfold resolve Target.ofType
  simp only [if_neg (hw.named d hmem henum p hp), hd, Option.bind_some, hfind]
  rfl

/-- The template of a record requests entries for the types of its properties. -/
theorem requests_ofDeclaration {type : String} {children : List Node} (hw : schema.WellFormed)
    (hd : schema.find? type = some d) (henum : d.isEnum = false)
    (hbinds : BindsAll schema (some (Target.ofType schema type)) (ofDeclaration d) children) :
    Node.EveryAll (Node.Requests (schema.Contains type)) children := by
  refine everyAll_bindsAll hbinds (forall_ofDeclaration fun lead p hp => ?_)
  have hresolve := resolve_ofProperty hw hd henum hp
  have hcontains (href : p.relationship = false) : schema.Contains type p.type :=
    ⟨d, hd, henum, p, hp, href, rfl⟩
  have hshown {scope : Option Target} {name : String} {t : Target}
      (hresolve : resolve schema scope name = .ok t) (htype : t.type = p.type)
      (href : t.relationship = p.relationship) :
      ∀ n ∈ Node.text (lead ++ p.name ++ " ") :: valueNodes p name, ∀ m,
        Binds schema scope n m → m.Every (Node.Requests (schema.Contains type)) := by
    refine List.forall_mem_cons.mpr ⟨fun m => requests_text, requests_valueNodes hresolve fun h => ?_⟩
    rw [htype]
    exact hcontains (href ▸ h)
  unfold entry
  dsimp only
  split
  · intro n hn m hm
    obtain rfl := List.mem_singleton.mp hn
    match hm with
    | .optional (t := found) _ hfound _ hsome (.nil _) =>
      obtain rfl : Target.ofProperty schema p = found := Except.ok.inj (hresolve.symm.trans hfound)
      exact ⟨trivial, everyAll_bindsAll hsome (hshown (resolve_this schema _) rfl rfl), trivial⟩
  · exact hshown hresolve rfl rfl

end Fragment

/-- The template of a record requests entries for the types of its properties. -/
theorem Entry.compile_requests {schema : Schema} {key : EntryKey} {type : String}
    {children : List Node} (hw : schema.WellFormed)
    (h : Entry.compile schema key = .ok (.compound type children)) :
    Node.EveryAll (Node.Requests (schema.Contains type)) children := by
  obtain ⟨rfl, -⟩ := key_of_compound h
  obtain ⟨d, hd, henum, -, hbind⟩ := compile_compound h
  exact Fragment.requests_ofDeclaration hw hd henum (Binding.binds_bindRecord hbind)

namespace Drafting

variable {schema : Schema} {among : String → Prop}

/-- Drafts records through some levels, and goes on with `beyond` where these are used up. -/
def layers (context : DraftContext) (beyond : String → List Node → Json → Drafting (List Doc)) :
    Nat → String → List Node → Json → Drafting (List Doc)
  | 0 => beyond
  | fuel + 1 => fun _ children value => nodes context (layers context beyond fuel) children value

theorem compound_eq_layers (context : DraftContext) (fuel : Nat) :
    compound context fuel =
      layers context (fun type _ _ => throw (.registry (.unknownParser type))) fuel := by
  induction fuel with
  | zero => rfl
  | succ fuel ih =>
    funext type children value
    rw [compound, layers, ih]

/-- Two drafters do the same step by step. -/
def same (schema : Schema) (among : String → Prop) : Logic where
  Fits := Node.Requests among
  entries key e := Entry.compile schema key = .ok e ∧ among key.type
  Holds x y := Same (Equipped schema) x y
  pure := same_pure
  bind := Same.bind
  fail _ := same_refl fun _ hs => hs
  unbound _ _ _ := same_refl fun _ hs => hs
  unread _ _ _ := same_refl fun _ hs => hs
  freshIdentifier := same_refl fun _ hs => ⟨hs.schema, hs.faithful⟩
  ignored h := (h.bind fun _ => same_pure ()).tryCatch fun _ => same_pure ()
  schema h s hs := h s.table.schema s hs
  settings h s hs := h s.table.settings s hs
  entry := by
    intro _ v type f g hfits hid htype h s hs
    have hamong : among type := hfits ⟨type, v.format⟩ (by simp [Node.keys, hid, htype])
    obtain ⟨hfound, hfaithful⟩ := Table.entry_faithful hs.faithful ⟨type, v.format⟩
    have hschema := (Table.entry_schema ⟨type, v.format⟩ s.table).1
    rw [hs.schema] at hfound hschema
    rw [run_bind, run_bind, run_entry, hfound]
    cases he : Entry.compile schema ⟨type, v.format⟩ with
    | error e => exact ⟨rfl, hschema, hfaithful⟩
    | ok e => exact h e ⟨he, hamong⟩ _ ⟨hschema, hfaithful⟩

variable (hw : schema.WellFormed) (hacyclic : schema.NonRecursive) (context : DraftContext)
  (beyond beyond' : String → List Node → Json → Drafting (List Doc))

include hw hacyclic

/-- The type of every level is reached from the types above it, so none comes twice, and as many
levels as there are declarations are never used up. What would be done beyond them makes no
difference. -/
theorem same_layers (fuel : Nat) : ∀ (fuel' : Nat) (above : List String), above.Nodup →
    above ⊆ schema.declared → schema.declarations.length < fuel + above.length →
    schema.declarations.length < fuel' + above.length →
    ∀ key type children value, Entry.compile schema key = .ok (.compound type children) →
      (∀ outer ∈ above, Relation.TransGen schema.Contains outer type) →
      Same (Equipped schema) (layers context beyond fuel type children value)
        (layers context beyond' fuel' type children value) := by
  induction fuel with
  | zero =>
    intro fuel' above hnodup hsub hfuel
    have := Schema.length_le_of_declared hnodup hsub
    omega
  | succ fuel ih =>
    intro fuel' above hnodup hsub hfuel hfuel' key type children value hkey habove
    have hlength := Schema.length_le_of_declared hnodup hsub
    obtain ⟨fuel', rfl⟩ : ∃ n, fuel' = n + 1 := ⟨fuel' - 1, by omega⟩
    have hnew : type ∉ above := fun h => hacyclic type (habove type h)
    have hnodup' : (type :: above).Nodup := List.nodup_cons.mpr ⟨hnew, hnodup⟩
    have hsub' : type :: above ⊆ schema.declared :=
      List.cons_subset.mpr ⟨Entry.declared_of_compound hkey, hsub⟩
    have hlevel : schema.declarations.length < fuel + (type :: above).length := by
      rw [List.length_cons]
      omega
    have hlevel' : schema.declarations.length < fuel' + (type :: above).length := by
      rw [List.length_cons]
      omega
    have hc (key : EntryKey) (other : String) (members : List Node) (value : Json)
        (hentry : (same schema (schema.Contains type)).entries key (.compound other members)) :
        (same schema (schema.Contains type)).Holds (layers context beyond fuel other members value)
          (layers context beyond' fuel' other members value) := by
      obtain ⟨hentry, hinside⟩ := hentry
      obtain ⟨rfl, -⟩ := Entry.key_of_compound hentry
      have habove' : ∀ outer ∈ type :: above, Relation.TransGen schema.Contains outer other :=
        List.forall_mem_cons.mpr ⟨.single hinside, fun outer h => (habove outer h).tail hinside⟩
      exact ih fuel' (type :: above) hnodup' hsub' hlevel hlevel' _ other members value hentry habove'
    exact (same schema (schema.Contains type)).nodes context hc children value
      (Entry.compile_requests hw hkey)

theorem same_nodes {fuel fuel' : Nat} (hfuel : schema.declarations.length < fuel)
    (hfuel' : schema.declarations.length < fuel') (ns : List Node) (scope : Json) :
    Same (Equipped schema) (nodes context (layers context beyond fuel) ns scope)
      (nodes context (layers context beyond' fuel') ns scope) := by
  have hc (key : EntryKey) (type : String) (children : List Node) (value : Json)
      (hentry : (same schema fun _ => True).entries key (.compound type children)) :
      (same schema fun _ => True).Holds (layers context beyond fuel type children value)
        (layers context beyond' fuel' type children value) :=
    same_layers hw hacyclic context beyond beyond' fuel fuel' [] List.nodup_nil (List.nil_subset _)
      hfuel hfuel' key type children value hentry.1 fun _ h => absurd h List.not_mem_nil
  have hrequests (n : Node) : n.Requests fun _ => True := by
    cases n <;> simp [Node.Requests]
  exact (same schema fun _ => True).nodes context hc ns scope (Node.everyAll_of_forall hrequests ns)

end Drafting

namespace Template

/-- The drafter of a template, with any drafter for its records. -/
def draftWith (t : Template) (compound : String → List Node → Json → Drafting (List Doc)) (data : Json)
    (now : Instant) : Drafting Doc := do
  if !data.isObject then throw (.draft (.typeMismatch t.type "an object"))
  let table := (← get).table
  let docs ← Drafting.nodes ⟨data, now, t.kind⟩ compound t.body data
  let record ← Drafting.record data (some t.type) (t.identifier table.settings)
  pure (.node (.document (some record)) docs)

/-- Where no type reaches itself, more levels than there are declarations are never used up. -/
theorem draftWith_layers {schema : Schema} (hw : schema.WellFormed) (hacyclic : schema.NonRecursive)
    (t : Template) (data : Json) (now : Instant)
    (beyond : String → List Node → Json → Drafting (List Doc)) {fuel : Nat}
    (hfuel : schema.declarations.length < fuel) {s : DraftState} (hs : Drafting.Equipped schema s) :
    (t.draftWith (Drafting.layers ⟨data, now, t.kind⟩ beyond fuel) data now).run s =
      (t.draft data now).run s := by
  have hlevels : schema.declarations.length < Drafting.levels schema data := by
    unfold Drafting.levels placeholderLevels
    omega
  obtain ⟨hnodes, -⟩ := Drafting.same_nodes hw hacyclic ⟨data, now, t.kind⟩ beyond
    (fun type _ _ => throw (.registry (.unknownParser type))) hfuel hlevels t.body data s hs
  rw [← Drafting.compound_eq_layers] at hnodes
  unfold draft draftWith
  split
  · rfl
  · rw [run_get_bind, run_get_bind, run_bind, run_bind, hnodes, hs.schema]

end Template

end ClauseTemplates
