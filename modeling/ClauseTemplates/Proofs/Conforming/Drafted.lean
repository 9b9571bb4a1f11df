import ClauseTemplates.Proofs.Conforming.Basic
import ClauseTemplates.Proofs.Entry.Record
import ClauseTemplates.Proofs.Template.Binds

namespace ClauseTemplates

open Markdown Drafting Binding

theorem Declaration.of_property? {d : Declaration} {name : String} {p : Property}
    (h : d.property? name = some p) : p ∈ d.properties ∧ p.name = name :=
  ⟨List.mem_of_find?_eq_some h, by simpa using List.find?_some h⟩

namespace Json

theorem depth_le_fields {name : String} {value : Json} {fields : Fields}
    (h : Fields.get? name fields = some value) : value.depth ≤ depthFields fields := by
  induction fields with
  | nil => cases h
  | cons field rest ih =>
    obtain ⟨other, found⟩ := field
    rw [depthFields]
    unfold Fields.get? at h ih
    rw [List.lookup_cons] at h
    split at h
    · cases h
      exact Nat.le_max_left _ _
    · exact Nat.le_trans (ih h) (Nat.le_max_right _ _)

theorem depth_lt_of_get? {name : String} {value found : Json} (h : value.get? name = some found) :
    found.depth < value.depth := by
  cases value with
  | obj fields => exact Nat.lt_succ_of_le (depth_le_fields h)
  | _ => cases h

theorem depth_le_items {item : Json} {items : List Json} (h : item ∈ items) :
    item.depth ≤ depthItems items := by
  induction items with
  | nil => cases h
  | cons first rest ih =>
    rw [depthItems]
    rcases List.mem_cons.mp h with rfl | h
    · exact Nat.le_max_left _ _
    · exact Nat.le_trans (ih h) (Nat.le_max_right _ _)

theorem depth_le_of_mem {item : Json} {items : List Json} (h : item ∈ items) :
    item.depth ≤ (Json.arr items).depth :=
  Nat.le_succ_of_le (depth_le_items h)

theorem depth_pos_of_isObject {value : Json} (h : value.isObject = true) : 0 < value.depth := by
  cases value with
  | obj fields => exact Nat.succ_pos _
  | _ => cases h

end Json

namespace Drafting

theorem field?_this {value : Json} (h : value.isNull = false) : field? value thisName = some value := by
  simp [field?, h]

theorem depth_lt_of_field? {name : String} {value v : Json} (hname : name ≠ thisName)
    (h : field? value name = some v) : v.depth < value.depth := by
  unfold field? at h
  rw [if_neg hname] at h
  exact Json.depth_lt_of_get? (Option.filter_eq_some_iff.mp h).1

theorem depth_le_of_field? {name : String} {value v : Json} (h : field? value name = some v) :
    v.depth ≤ value.depth := by
  by_cases hname : name = thisName
  · unfold field? at h
    rw [if_pos hname] at h
    cases (Option.filter_eq_some_iff.mp h).1
    exact Nat.le_refl _
  · exact Nat.le_of_lt (depth_lt_of_field? hname h)

end Drafting

/-- A value fits what a name stands for, and this is no reference to an enumeration. -/
structure Suits (schema : Schema) (requested : EntryKey → Prop) (t : Target) (value : Json) : Prop where
  conforms : Conforms schema requested t value
  referable : t.relationship = true → schema.isEnum t.type = false

namespace Suits

variable {schema : Schema} {requested : EntryKey → Prop} {t : Target} {value : Json}

theorem present (h : Suits schema requested t value) :
    Suits schema requested { t with optional := false } value :=
  ⟨h.conforms.congr rfl rfl rfl, h.referable⟩

theorem element (h : Suits schema requested t value) (harray : t.array = false) :
    Suits schema requested t.element value :=
  ⟨h.conforms.congr rfl harray.symm rfl, h.referable⟩

theorem items (h : Suits schema requested t value) (harray : t.array = true) :
    ∃ items, value = .arr items ∧ ∀ item ∈ items, Suits schema requested t.element item := by
  obtain ⟨items, rfl, hitems⟩ := h.conforms.items harray
  exact ⟨items, rfl, fun item hitem => ⟨hitems item hitem, h.referable⟩⟩

end Suits

namespace Binding

variable {schema : Schema} {scope : Option Target} {name : String} {t : Target}

namespace Names

variable {requested : EntryKey → Prop} {isSealed : String → Bool} {optional : Bool} {value v : Json}

theorem unique {u : Target} (h : Names schema isSealed scope name optional t)
    (hu : resolve schema scope name = .ok u) : u = t := by
  rw [h.resolves] at hu
  exact (Except.ok.inj hu).symm

/-- A value that is found fits what the name stands for. -/
theorem suits (h : Names schema isSealed scope name optional t) (hw : schema.WellFormed)
    (hscope : ∀ s ∈ scope, Suits schema requested s value) (hv : field? value name = some v) :
    Suits schema requested t v := by
  obtain ⟨hresolve, _, hdirect⟩ := h
  cases scope with
  | none => cases hresolve
  | some s =>
    have hs := hscope s rfl
    by_cases hname : name = thisName
    · subst hname
      rw [field?_this hs.conforms.not_null] at hv
      cases hv
      cases hresolve
      exact hs
    · obtain ⟨harray, d, p, hd, hp, rfl⟩ := resolve_property hresolve hname
      obtain ⟨hmem, rfl⟩ := Declaration.of_property? hp
      have href := ((hdirect.resolve_left hname) s rfl).1
      cases henum : d.isEnum with
      | true =>
        obtain ⟨s, _, rfl⟩ := hs.conforms.enumerated harray href hd henum
        simp [field?, hname, Json.get?] at hv
      | false =>
        exact ⟨((hs.conforms.record harray href hd henum).2 p hmem).2 v hv,
          hw.references d (Schema.of_find? hd).1 henum p hmem⟩

/-- The value of a name that stands for no optional property is there. -/
theorem found (h : Names schema schema.isEnum scope name false t) (hw : schema.WellFormed)
    (hscope : ∀ s ∈ scope, Suits schema requested s value) :
    ∃ v, field? value name = some v ∧ Suits schema requested t v := by
  suffices hv : ∃ v, field? value name = some v by
    obtain ⟨v, hv⟩ := hv
    exact ⟨v, hv, h.suits hw hscope hv⟩
  obtain ⟨hresolve, hkept, hdirect⟩ := h
  cases scope with
  | none => cases hresolve
  | some s =>
    have hs := (hscope s rfl).conforms
    by_cases hname : name = thisName
    · exact ⟨value, hname ▸ field?_this hs.not_null⟩
    · obtain ⟨harray, d, p, hd, hp, rfl⟩ := resolve_property hresolve hname
      obtain ⟨hmem, rfl⟩ := Declaration.of_property? hp
      obtain ⟨href, hopen⟩ := (hdirect.resolve_left hname) s rfl
      have henum : d.isEnum = false := by
        cases henum : d.isEnum with
        | false => rfl
        | true =>
          have hsealed := hopen rfl
          rw [Schema.isEnum, hd, Option.any_some, henum] at hsealed
          cases hsealed
      exact Option.isSome_iff_exists.mp (((hs.record harray href hd henum).2 p hmem).1 hkept)

end Names

end Binding

namespace Drafting

variable {schema : Schema} {bullet : Char} {context : DraftContext}
  {compound : List Char → List Node → Json → Option (List (List Char))}
  {requested : EntryKey → Prop} {limit : Nat}

/-- What drafting of conforming values rests on: requested entries compile, and the records of compound
types have texts up to some depth. -/
structure Serves (schema : Schema) (requested : EntryKey → Prop)
    (compound : List Char → List Node → Json → Option (List (List Char))) (limit : Nat) : Prop where
  wellFormed : schema.WellFormed
  compiles : ∀ key, requested key → ∃ entry, Entry.compile schema key = .ok entry
  covers : ∀ margin key type children value, requested key →
    Entry.compile schema key = .ok (.compound type children) →
    Conforms schema requested (Target.ofType schema key.type) value → value.isObject = true →
    value.depth ≤ limit → (compound margin children value).isSome = true

theorem texts_of_bindVariable (hserves : Serves schema requested compound limit) {v : Variable}
    {m : Node} {scope : Option Target} {value : Json} {t : Target} (margin : List Char)
    (hbind : bindVariable schema scope v = .ok m) (hn : Names schema schema.isEnum scope v.name false t)
    (hkeys : ∀ key ∈ m.keys, requested key) (hscope : ∀ s ∈ scope, Suits schema requested s value)
    (hdepth : ∀ w, field? value v.name = some w → w.depth ≤ limit) :
    (texts? schema bullet context compound margin m value).isSome = true := by
  obtain ⟨w, hw, hsuits⟩ := hn.found hserves.wellFormed hscope
  obtain ⟨target, htarget, hbind⟩ := bind_eq_ok.mp hbind
  obtain rfl := hn.unique htarget
  dsimp only at hbind
  split at hbind
  · cases hbind
  rename_i harray
  have harray := Bool.eq_false_iff.mpr harray
  split at hbind
  · rename_i d hd
    obtain ⟨hd, henum⟩ := Option.filter_eq_some_iff.mp hd
    cases hbind
    have href : target.relationship = false := by
      cases href : target.relationship with
      | false => rfl
      | true =>
        have hfree := hsuits.referable href
        rw [Schema.isEnum, hd, Option.any_some, henum] at hfree
        cases hfree
    obtain ⟨s, hs, rfl⟩ := hsuits.conforms.enumerated harray href hd henum
    rw [texts?, enumTexts?, hw]
    simp [Json.string?, hs]
  · rename_i hd
    obtain ⟨_, _, hbind⟩ := bind_eq_ok.mp hbind
    cases hbind
    rw [texts?, variableTexts?]
    simp only [Option.bind_some, hw]
    cases href : target.relationship with
    | true =>
      obtain ⟨id, hid⟩ := hsuits.conforms.identifier harray href
      simp [hid]
    | false =>
      simp only [Bool.false_eq_true, if_false, Option.isSome_none]
      have hrequested := hkeys ⟨target.type, v.format.or (Decorator.format? target.decorators)⟩
        (by simp [Node.keys, href])
      obtain ⟨entry, hentry⟩ := hserves.compiles _ hrequested
      rw [hentry]
      cases entry with
      | scalar program =>
        obtain ⟨text, htext⟩ := (hsuits.conforms.accepted harray href).written _ _ hrequested hentry
        simp [Except.toOption, entryTexts?, htext]
      | compound type children =>
        obtain ⟨d, hd, henum, _⟩ := Entry.compile_compound hentry
        have hobject := (hsuits.conforms.record harray href hd henum).1
        have hc := hserves.covers margin _ type children w hrequested hentry
          (hsuits.conforms.congr rfl harray.symm href.symm) hobject (hdepth w hw)
        simp [Except.toOption, entryTexts?, hobject, hc]

theorem isSome_mapM {α β : Type} {f : α → Option β} {items : List α}
    (h : ∀ item ∈ items, (f item).isSome = true) : (items.mapM f).isSome = true := by
  induction items with
  | nil => rfl
  | cons item rest ih =>
    obtain ⟨hitem, hrest⟩ := List.forall_mem_cons.mp h
    obtain ⟨b, hb⟩ := Option.isSome_iff_exists.mp hitem
    obtain ⟨bs, hbs⟩ := Option.isSome_iff_exists.mp (ih hrest)
    simp [List.mapM_cons, hb, hbs]

theorem depth_within {value : Json} {names : List String} (h : value.depth ≤ limit) :
    ∀ name ∈ names, ∀ w, field? value name = some w → w.depth ≤ limit :=
  fun _ _ _ hw => Nat.le_trans (depth_le_of_field? hw) h

theorem suits_none (value : Json) : ∀ s ∈ (none : Option Target), Suits schema requested s value := by
  rintro _ ⟨⟩

mutual

/-- A node that is bound in a scope has texts for the values that suit the scope. -/
theorem texts_of_bindNode (hserves : Serves schema requested compound limit) :
    ∀ (n m : Node) (scope : Option Target) (value : Json) (margin : List Char),
    bindNode schema scope n = .ok m → n.Sound schema schema.isEnum scope → n.Stocked value →
    (∀ key ∈ m.keys, requested key) → (∀ s ∈ scope, Suits schema requested s value) →
    (∀ name ∈ n.names, ∀ w, field? value name = some w → w.depth ≤ limit) →
    (texts? schema bullet context compound margin m value).isSome = true
  | .variable v, m, scope, value, margin, hbind, ⟨t, hn⟩, _, hkeys, hscope, hdepth => by
    rw [bindNode] at hbind
    exact texts_of_bindVariable hserves margin hbind hn hkeys hscope (hdepth v.name (by simp [Node.names]))
  | .enumVariable _, _, _, _, _, _, hsound, _, _, _, _ => hsound.elim
  | .formula _, _, _, _, _, _, hsound, _, _, _, _ => hsound.elim
  | .conditional name condition whenTrue whenFalse, m, scope, value, margin, hbind, hsound, hstocked,
      hkeys, hscope, hdepth => by
    obtain ⟨rfl, ⟨t, hn, href⟩, htrue, hfalse⟩ := hsound
    rw [bindNode] at hbind
    simp only [Option.isNone_none, if_true] at hbind
    obtain ⟨_, hboolean, hbind⟩ := bind_eq_ok.mp hbind
    obtain ⟨a, ha, hbind⟩ := bind_eq_ok.mp hbind
    obtain ⟨b, hb, hbind⟩ := bind_eq_ok.mp hbind
    cases hbind
    obtain ⟨u, hu, harray, htype⟩ := resolve_of_boolean hboolean
    obtain rfl := hn.unique hu
    obtain ⟨w, hw, hsuits⟩ := hn.found hserves.wellFormed hscope
    obtain ⟨live, rfl⟩ := (hsuits.conforms.accepted harray href).boolean htype
    rw [Node.keys] at hkeys
    obtain ⟨hkeysTrue, hkeysFalse⟩ := List.forall_mem_append.mp hkeys
    rw [texts?, isLive?, hw, Option.bind_some, Json.bool?, Option.bind_some]
    cases live with
    | true =>
      rw [if_pos rfl]
      exact texts_of_bindNodes hserves whenTrue a scope value margin ha htrue (hstocked.1 hw) hkeysTrue
        hscope fun other hother => hdepth other (List.mem_cons_of_mem _ hother)
    | false =>
      rw [if_neg Bool.false_ne_true]
      exact texts_of_bindNodes hserves whenFalse b none .null margin hb hfalse hstocked.2 hkeysFalse
        (suits_none _) (depth_within (Nat.zero_le _))
  | .optional name type whenSome whenNone, m, scope, value, margin, hbind, ⟨⟨t, hn, hsome⟩, hnone⟩,
      hstocked, hkeys, hscope, hdepth => by
    rw [bindNode] at hbind
    obtain ⟨u, hu, hbind⟩ := bind_eq_ok.mp hbind
    obtain rfl := hn.unique (resolve_of_optional hu).1
    obtain ⟨a, ha, hbind⟩ := bind_eq_ok.mp hbind
    obtain ⟨b, hb, hbind⟩ := bind_eq_ok.mp hbind
    cases hbind
    rw [Node.keys] at hkeys
    obtain ⟨hkeysSome, hkeysNone⟩ := List.forall_mem_append.mp hkeys
    rw [texts?]
    cases hv : field? value name with
    | some w =>
      refine texts_of_bindNodes hserves whenSome a _ w margin ha hsome (hstocked.1 w hv) hkeysSome ?_
        (depth_within (hdepth name (by simp [Node.names]) w hv))
      rintro _ ⟨⟩
      exact (hn.suits hserves.wellFormed hscope hv).present
    | none =>
      exact texts_of_bindNodes hserves whenNone b none .null margin hb hnone hstocked.2 hkeysNone
        (suits_none _) (depth_within (Nat.zero_le _))
  | .within name type children, m, scope, value, margin, hbind, ⟨t, hn, href, hrecord, hsound⟩, hstocked,
      hkeys, hscope, hdepth => by
    rw [bindNode] at hbind
    obtain ⟨u, hu, hbind⟩ := bind_eq_ok.mp hbind
    obtain ⟨hu, harray⟩ := resolve_of_single hu
    obtain rfl := hn.unique hu
    obtain ⟨a, ha, hbind⟩ := bind_eq_ok.mp hbind
    cases hbind
    obtain ⟨w, hw, hsuits⟩ := hn.found hserves.wellFormed hscope
    rw [texts?, object?, hw, Option.bind_some, if_pos (hsuits.conforms.isObject harray href hrecord),
      Option.bind_some]
    refine texts_of_bindNodes hserves children a _ w margin ha hsound (hstocked w hw) hkeys ?_
      (depth_within (hdepth name (by simp [Node.names]) w hw))
    rintro _ ⟨⟩
    exact hsuits.element harray
  | .list name kind type children, m, scope, value, margin, hbind, ⟨t, hn, hsound⟩, hstocked, hkeys,
      hscope, hdepth => by
    rw [bindNode] at hbind
    obtain ⟨u, hu, hbind⟩ := bind_eq_ok.mp hbind
    obtain ⟨hu, harray⟩ := resolve_of_array hu
    obtain rfl := hn.unique hu
    obtain ⟨a, ha, hbind⟩ := bind_eq_ok.mp hbind
    cases hbind
    obtain ⟨w, hw, hsuits⟩ := hn.found hserves.wellFormed hscope
    obtain ⟨items, rfl, hitems⟩ := hsuits.items harray
    have hshown : array? value name = some items := by rw [array?, hw, Option.bind_some, items?]
    obtain ⟨hfilled, hstocked⟩ := hstocked items hshown
    have hall : (items.mapM fun item => textsAll? schema bullet context compound (margin ++ itemIndent kind)
        a item).isSome = true := by
      refine isSome_mapM fun item hitem => ?_
      have hlimit := hdepth name (by simp [Node.names]) _ hw
      refine texts_of_bindNodes hserves children a _ item _ ha hsound (hstocked item hitem) hkeys ?_
        (depth_within (Nat.le_trans (Json.depth_le_of_mem hitem) hlimit))
      rintro _ ⟨⟩
      exact hitems item hitem
    rw [texts?, hshown, Option.bind_some, if_neg (by simpa using hfilled), Option.isSome_map]
    exact hall
  | .join name type separator children, m, scope, value, margin, hbind, ⟨t, hn, hsound⟩, hstocked, hkeys,
      hscope, hdepth => by
    rw [bindNode] at hbind
    obtain ⟨u, hu, hbind⟩ := bind_eq_ok.mp hbind
    obtain ⟨hu, harray⟩ := resolve_of_array hu
    obtain rfl := hn.unique hu
    obtain ⟨a, ha, hbind⟩ := bind_eq_ok.mp hbind
    cases hbind
    obtain ⟨w, hw, hsuits⟩ := hn.found hserves.wellFormed hscope
    obtain ⟨items, rfl, hitems⟩ := hsuits.items harray
    have hshown : array? value name = some items := by rw [array?, hw, Option.bind_some, items?]
    have hall : (items.mapM fun item => textsAll? schema bullet context compound margin a item).isSome =
        true := by
      refine isSome_mapM fun item hitem => ?_
      have hlimit := hdepth name (by simp [Node.names]) _ hw
      refine texts_of_bindNodes hserves children a _ item _ ha hsound (hstocked items hshown item hitem)
        hkeys ?_ (depth_within (Nat.le_trans (Json.depth_le_of_mem hitem) hlimit))
      rintro _ ⟨⟩
      exact hitems item hitem
    rw [texts?, hshown, Option.bind_some, Option.isSome_map]
    exact hall
  | .clause name type src condition children, m, scope, value, margin, hbind, hsound, hstocked, hkeys,
      hscope, hdepth => by
    obtain ⟨rfl, t, hn, href, hrecord, hsound⟩ := hsound
    rw [bindNode] at hbind
    obtain ⟨u, hu, hbind⟩ := bind_eq_ok.mp hbind
    obtain ⟨hu, harray⟩ := resolve_of_single hu
    obtain rfl := hn.unique hu
    obtain ⟨a, ha, hbind⟩ := bind_eq_ok.mp hbind
    cases hbind
    obtain ⟨w, hw, hsuits⟩ := hn.found hserves.wellFormed hscope
    rw [texts?, object?, hw, Option.bind_some, if_pos (hsuits.conforms.isObject harray href hrecord),
      Option.bind_some, isShown?, Option.bind_some, if_pos rfl, Option.isSome_map]
    refine texts_of_bindNodes hserves children a _ w margin ha hsound (hstocked w hw) hkeys ?_
      (depth_within (hdepth name (by simp [Node.names]) w hw))
    rintro _ ⟨⟩
    exact hsuits.element harray
  | .contract _ children, m, scope, value, margin, hbind, hsound, hstocked, hkeys, hscope, hdepth => by
    rw [bindNode] at hbind
    obtain ⟨a, ha, hbind⟩ := bind_eq_ok.mp hbind
    cases hbind
    rw [texts?]
    exact texts_of_bindNodes hserves children a scope value margin ha hsound hstocked hkeys hscope hdepth
  | .leaf _, m, _, _, _, hbind, _, _, _, _, _ => by
    rw [bindNode] at hbind
    cases hbind
    rw [texts?]
    rfl
  | .markup frame children, m, scope, value, margin, hbind, hsound, hstocked, hkeys, hscope, hdepth => by
    rw [bindNode] at hbind
    obtain ⟨a, ha, hbind⟩ := bind_eq_ok.mp hbind
    cases hbind
    rw [texts?, Option.isSome_map]
    exact texts_of_bindNodes hserves children a scope value _ ha hsound hstocked hkeys hscope hdepth

theorem texts_of_bindNodes (hserves : Serves schema requested compound limit) :
    ∀ (ns ms : List Node) (scope : Option Target) (value : Json) (margin : List Char),
    bindNodes schema scope ns = .ok ms → Node.SoundAll schema schema.isEnum scope ns →
    Node.StockedAll ns value → (∀ key ∈ Node.keysAll ms, requested key) →
    (∀ s ∈ scope, Suits schema requested s value) →
    (∀ name ∈ Node.namesAll ns, ∀ w, field? value name = some w → w.depth ≤ limit) →
    (textsAll? schema bullet context compound margin ms value).isSome = true
  | [], ms, _, _, _, hbind, _, _, _, _, _ => by
    rw [bindNodes] at hbind
    cases hbind
    rw [textsAll?]
    rfl
  | n :: rest, ms, scope, value, margin, hbind, ⟨hn, hrest⟩, ⟨hstocked, hmore⟩, hkeys, hscope, hdepth => by
    rw [bindNodes] at hbind
    obtain ⟨m, hm, hbind⟩ := bind_eq_ok.mp hbind
    obtain ⟨ms, hms, hbind⟩ := bind_eq_ok.mp hbind
    cases hbind
    rw [Node.keysAll] at hkeys
    obtain ⟨hkey, hkeys⟩ := List.forall_mem_append.mp hkeys
    rw [Node.namesAll] at hdepth
    obtain ⟨hfirst, hdepth⟩ := List.forall_mem_append.mp hdepth
    obtain ⟨ts, hts⟩ := Option.isSome_iff_exists.mp
      (texts_of_bindNode hserves n m scope value margin hm hn hstocked hkey hscope hfirst)
    rw [textsAll?, hts, Option.bind_some, Option.isSome_map]
    exact texts_of_bindNodes hserves rest ms scope value margin hms hrest hmore hkeys hscope hdepth

end

end Drafting

end ClauseTemplates
