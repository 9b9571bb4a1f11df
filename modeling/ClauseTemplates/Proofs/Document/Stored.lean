import Mathlib
import ClauseTemplates.Document.Tree
import ClauseTemplates.Proofs.Json.Fields

namespace ClauseTemplates

open Json.Fields

/-! ### Reading what was written -/

/-- Data that is null is not told from none. -/
def Frame.withoutNull : Frame → Frame
  | .document data => .document (data.filter fun value => !value.isNull)
  | .clause name src data => .clause name src (data.filter fun value => !value.isNull)
  | frame => frame

theorem Frame.withoutNull_eq_self_iff {frame : Frame} :
    frame.withoutNull = frame ↔ frame.data? ≠ some .null := by
  have hdata (data : Option Json) :
      data.filter (fun value => !value.isNull) = data ↔ data ≠ some .null := by
    rcases data with _ | value
    · simp
    · cases value <;> simp [Json.isNull]
  cases frame with
  | document data => simp [withoutNull, data?, hdata]
  | clause name src data => simp [withoutNull, data?, hdata]
  | _ => simp [withoutNull, data?]

theorem Leaf.string?_kind (l : Leaf) :
    string? "kind" (ofList (("kind", .str l.kind) :: l.fields)) = some l.kind := by
  cases l <;> simp [string?, fields, get?_ofList, get?_cons]

theorem Leaf.ofFields?_ofList (l : Leaf) :
    Leaf.ofFields? l.kind (ofList (("kind", .str l.kind) :: l.fields)) = some l := by
  cases l with
  | codeBlock info text =>
    cases info <;>
      simp [ofFields?, kind, fields, string?, optionalString?, get?_ofList, get?_cons, Json.ofString?]
  | _ => simp [ofFields?, kind, fields, string?, get?_ofList, get?_cons]

theorem Leaf.ofFields?_frame (frame : Frame) (fields : Json.Fields) :
    Leaf.ofFields? frame.kind fields = none := by
  cases frame <;> simp [ofFields?, Frame.kind]

theorem natBelow?_toNat {limit n : Nat} {fields : Json.Fields} {name : String}
    (h : fields.get? name = some (.int n)) (hlt : n < limit) : natBelow? limit fields name = some n := by
  rw [natBelow?, h]
  exact if_pos hlt

theorem recordOf?_eq (fields : Json.Fields) :
    recordOf? fields = (fields.get? "data").filter fun value => !value.isNull := by
  unfold recordOf?
  split
  · rename_i h
    rw [h]
    rfl
  · rename_i hnull
    rcases h : get? "data" fields with _ | value
    · rfl
    · cases value with
      | null => exact absurd h hnull
      | _ => rfl

/-- The fields of a frame, in the form of an element with others inside. -/
def Frame.form (frame : Frame) (children : Json) : Json.Fields :=
  ofList (("kind", .str frame.kind) :: ("children", children) :: frame.fields)

theorem Frame.string?_kind (frame : Frame) (children : Json) :
    string? "kind" (frame.form children) = some frame.kind := by
  cases frame with
  | document data => cases data <;> simp [form, string?, fields, get?_ofList, get?_cons]
  | _ => simp [form, string?, fields, get?_ofList, get?_cons]

theorem Frame.get?_children (frame : Frame) (children : Json) :
    get? "children" (frame.form children) = some children := by
  cases frame with
  | document data => cases data <;> simp [form, fields, get?_ofList, get?_cons]
  | _ => simp [form, fields, get?_ofList, get?_cons]

theorem Frame.ofFields?_form (frame : Frame) (children : Json) :
    Frame.ofFields? frame.kind (frame.form children) = some frame.withoutNull := by
  cases frame with
  | document data =>
    cases data <;>
      simp [form, ofFields?, kind, fields, recordOf?_eq, get?_ofList, get?_cons, withoutNull]
  | heading level =>
    have hlevel : natBelow? (power 2 8) (ofList [("kind", .str "heading"), ("children", children),
        ("level", .int level.toNat)]) "level" = some level.toNat :=
      natBelow?_toNat (by simp [get?_ofList, get?_cons]) level.toNat_lt
    simp [form, ofFields?, kind, fields, hlevel, withoutNull]
  | list listKind start =>
    have hstart : natBelow? (power 2 32) (ofList [("kind", .str "list"), ("children", children),
        ("list_kind", .str listKind.name), ("start", .int start.toNat)]) "start" = some start.toNat :=
      natBelow?_toNat (by simp [get?_ofList, get?_cons]) start.toNat_lt
    have hkind : ListKind.ofName? listKind.name = some listKind := by cases listKind <;> rfl
    simp [form, ofFields?, kind, fields, string?, get?_ofList, get?_cons, hkind, hstart, withoutNull]
  | clause name src data =>
    cases src <;> cases data <;>
      simp [form, ofFields?, kind, fields, recordOf?_eq, get?_ofList, get?_cons, withoutNull, string?,
        optionalString?, Json.ofString?, Json.isNull]
  | _ => rfl

namespace Doc

theorem childrenOf?_eq (fields : List (String × Json)) :
    childrenOf? fields = (get? "children" fields).bind itemsOf? := by
  induction fields with
  | nil => rfl
  | cons field rest ih =>
    obtain ⟨name, value⟩ := field
    rw [childrenOf?, get?_cons, ih]
    by_cases h : name = "children"
    · rw [if_pos h, if_pos h.symm]
      rfl
    · rw [if_neg h, if_neg (Ne.symm h)]

mutual

/-- The tree without attached data that is null. -/
def withoutNull : Doc → Doc
  | .leaf l => .leaf l
  | .node frame children => .node frame.withoutNull (withoutNullAll children)

def withoutNullAll : List Doc → List Doc
  | [] => []
  | doc :: rest => withoutNull doc :: withoutNullAll rest

end

mutual

/-- No data that is attached somewhere in the tree is null. -/
def NullFree : Doc → Prop
  | .leaf _ => True
  | .node frame children => frame.data? ≠ some .null ∧ NullFreeAll children

def NullFreeAll : List Doc → Prop
  | [] => True
  | doc :: rest => NullFree doc ∧ NullFreeAll rest

end

mutual

theorem withoutNull_eq_self_iff : ∀ doc : Doc, doc.withoutNull = doc ↔ doc.NullFree
  | .leaf l => by simp [withoutNull, NullFree]
  | .node frame children => by
    rw [withoutNull, NullFree, ← Frame.withoutNull_eq_self_iff, ← withoutNullAll_eq_self_iff children,
      Doc.node.injEq]

theorem withoutNullAll_eq_self_iff : ∀ docs : List Doc, withoutNullAll docs = docs ↔ NullFreeAll docs
  | [] => by simp [withoutNullAll, NullFreeAll]
  | doc :: rest => by
    rw [withoutNullAll, NullFreeAll, ← withoutNull_eq_self_iff doc, ← withoutNullAll_eq_self_iff rest,
      List.cons.injEq]

end

mutual

/-- A tree is read back from its form, but for data that is null. -/
theorem ofJson?_toJson : ∀ doc : Doc, ofJson? doc.toJson = some doc.withoutNull
  | .leaf l => by
    rw [toJson, Json.record, ofJson?, l.string?_kind]
    simp only [Leaf.ofFields?_ofList]
    rfl
  | .node frame children => by
    have hchildren : childrenOf? (frame.form (.arr (toJsonAll children))) =
        some (withoutNullAll children) := by
      rw [childrenOf?_eq, frame.get?_children, Option.bind_some, itemsOf?, ofJsonAll?_toJsonAll children]
    rw [toJson, Json.record, ← Frame.form, ofJson?, frame.string?_kind]
    simp only [Leaf.ofFields?_frame, Frame.ofFields?_form, hchildren]
    rfl

theorem ofJsonAll?_toJsonAll : ∀ docs : List Doc, ofJsonAll? (toJsonAll docs) = some (withoutNullAll docs)
  | [] => rfl
  | doc :: rest => by
    rw [toJsonAll, ofJsonAll?, ofJson?_toJson doc, ofJsonAll?_toJsonAll rest]
    rfl

end

end Doc

/-! ### Null and missing fields -/

/-- The fields that an element may leave out. -/
def optionalNames : List String := ["data", "info", "src"]

namespace Json

mutual

/-- The form of a tree with all optional fields in every element, as null where they are missing. -/
def completed : Json → Json
  | .obj fields =>
    .obj (optionalNames.foldr (fun name fields => insertNew name .null fields) (completedFields fields))
  | value => value

def completedFields : List (String × Json) → List (String × Json)
  | [] => []
  | (name, value) :: rest =>
    (name, if name = "children" then completedItems value else value) :: completedFields rest

def completedItems : Json → Json
  | .arr items => .arr (completedAll items)
  | value => value

def completedAll : List Json → List Json
  | [] => []
  | item :: rest => completed item :: completedAll rest

end

end Json

/-- The same is found under each name, where null and nothing are the same under those that may be
left out. Nothing is said of the elements inside. -/
structure SameFields (fields others : Json.Fields) : Prop where
  required : ∀ name, name ∉ optionalNames → name ≠ "children" → get? name fields = get? name others
  optional : ∀ name ∈ optionalNames, (get? name fields).getD .null = (get? name others).getD .null

/-- The text of a value, where null is no text. -/
def Json.textOrNull? : Json → Option (Option String)
  | .null => some none
  | .str s => some (some s)
  | _ => none

theorem optionalString?_eq (name : String) (fields : Json.Fields) :
    optionalString? name fields = ((get? name fields).getD .null).textOrNull? := by
  unfold optionalString?
  rcases get? name fields with _ | value
  · rfl
  · cases value <;> rfl

namespace SameFields

variable {fields others : Json.Fields}

theorem text_eq (h : SameFields fields others) (name : String)
    (hname : name ∉ optionalNames ∧ name ≠ "children") :
    string? name fields = string? name others := by
  rw [string?, string?, h.required name hname.1 hname.2]

theorem number_eq (h : SameFields fields others) (limit : Nat) (name : String)
    (hname : name ∉ optionalNames ∧ name ≠ "children") :
    natBelow? limit fields name = natBelow? limit others name := by
  rw [natBelow?, natBelow?, h.required name hname.1 hname.2]

theorem optionalText_eq (h : SameFields fields others) (name : String) (hname : name ∈ optionalNames) :
    optionalString? name fields = optionalString? name others := by
  rw [optionalString?_eq, optionalString?_eq, h.optional name hname]

theorem record_eq (h : SameFields fields others) : recordOf? fields = recordOf? others := by
  have heq (data : Option Json) : data.filter (fun value => !value.isNull) =
      (some (data.getD .null)).filter fun value => !value.isNull := by
    cases data <;> rfl
  rw [recordOf?_eq, recordOf?_eq, heq, h.optional "data" (by decide), ← heq]

theorem leaf_eq (h : SameFields fields others) (kind : String) :
    Leaf.ofFields? kind fields = Leaf.ofFields? kind others := by
  rw [Leaf.ofFields?, Leaf.ofFields?, h.optionalText_eq "info" (by decide), h.text_eq "text" (by decide),
    h.text_eq "name" (by decide), h.text_eq "value" (by decide)]

theorem frame_eq (h : SameFields fields others) (kind : String) :
    Frame.ofFields? kind fields = Frame.ofFields? kind others := by
  rw [Frame.ofFields?, Frame.ofFields?, h.record_eq, h.number_eq _ "level" (by decide),
    h.text_eq "list_kind" (by decide), h.number_eq _ "start" (by decide), h.text_eq "name" (by decide),
    h.optionalText_eq "src" (by decide)]

end SameFields

theorem get?_optional (name : String) (names : List String) (fields : Json.Fields) :
    get? name (names.foldr (fun name fields => insertNew name .null fields) fields) =
      if name ∈ names then some ((get? name fields).getD .null) else get? name fields := by
  induction names with
  | nil => rfl
  | cons other names ih =>
    rw [List.foldr_cons, get?_insertNew, ih]
    by_cases hname : name = other
    · subst hname
      rw [if_pos rfl, if_pos List.mem_cons_self]
      split <;> rfl
    · rw [if_neg hname]
      simp only [List.mem_cons, hname, false_or]

theorem get?_completedFields {name : String} (hname : name ≠ "children") (fields : Json.Fields) :
    get? name (Json.completedFields fields) = get? name fields := by
  induction fields with
  | nil => rfl
  | cons field rest ih =>
    obtain ⟨other, value⟩ := field
    rw [Json.completedFields, get?_cons, get?_cons, ih]
    by_cases hother : name = other
    · subst hother
      rw [if_pos rfl, if_pos rfl, if_neg hname]
    · rw [if_neg hother, if_neg hother]

theorem sameFields_completed (fields : Json.Fields) :
    SameFields (optionalNames.foldr (fun name fields => insertNew name .null fields)
      (Json.completedFields fields)) fields := by
  constructor
  · intro name hname hchildren
    rw [get?_optional, if_neg hname, get?_completedFields hchildren]
  · intro name hname
    have hchildren : name ≠ "children" := by
      rintro rfl
      exact absurd hname (by decide)
    rw [get?_optional, if_pos hname, get?_completedFields hchildren]
    rfl

namespace Doc

mutual

theorem ofJson?_completed : ∀ value : Json, ofJson? value.completed = ofJson? value
  | .obj fields => by
    have hsame := sameFields_completed fields
    have hchildren : childrenOf? (optionalNames.foldr (fun name fields => insertNew name .null fields)
        (Json.completedFields fields)) = childrenOf? fields := by
      rw [← childrenOf?_completed fields, childrenOf?_eq, get?_optional, if_neg (by decide),
        ← childrenOf?_eq]
    rw [Json.completed, ofJson?, ofJson?, hsame.text_eq "kind" (by decide), hchildren]
    simp only [hsame.leaf_eq, hsame.frame_eq]
  | .null | .bool _ | .int _ | .double _ | .str _ | .arr _ => rfl

theorem childrenOf?_completed : ∀ fields : Json.Fields,
    childrenOf? (Json.completedFields fields) = childrenOf? fields
  | [] => rfl
  | (name, value) :: rest => by
    rw [Json.completedFields, childrenOf?, childrenOf?, childrenOf?_completed rest]
    by_cases hname : name = "children"
    · rw [if_pos hname, if_pos hname, if_pos hname, itemsOf?_completed value]
    · rw [if_neg hname, if_neg hname]

theorem itemsOf?_completed : ∀ value : Json, itemsOf? (Json.completedItems value) = itemsOf? value
  | .arr items => by rw [Json.completedItems, itemsOf?, itemsOf?, ofJsonAll?_completed items]
  | .null | .bool _ | .int _ | .double _ | .str _ | .obj _ => rfl

theorem ofJsonAll?_completed : ∀ items : List Json, ofJsonAll? (Json.completedAll items) = ofJsonAll? items
  | [] => rfl
  | item :: rest => by
    rw [Json.completedAll, ofJsonAll?, ofJsonAll?, ofJson?_completed item, ofJsonAll?_completed rest]

end

/-- Reading the form of a tree gives the tree, unless data that is null is attached to it somewhere.
Forms that differ in optional fields only, null in one and missing in the other, are read as the same
tree. -/
theorem ofJson?_exact :
    (∀ doc : Doc, ofJson? doc.toJson = some doc ↔ doc.NullFree) ∧
    ∀ form other : Json, form.completed = other.completed → ofJson? form = ofJson? other := by
  refine ⟨fun doc => ?_, fun form other h => ?_⟩
  · rw [ofJson?_toJson, Option.some.injEq, withoutNull_eq_self_iff]
  · rw [← ofJson?_completed form, h, ofJson?_completed]

end Doc

namespace Schedule

/-- A clause around a code block, without the fields that may be missing. -/
def bare : Json := .obj
  [("children", .arr [.obj [("kind", .str "code_block"), ("text", .str "rows")]]),
   ("kind", .str "clause"), ("name", .str "schedule")]

/-- The same with some of these fields, as null. -/
def padded : Json := .obj
  [("children", .arr [.obj [("info", .null), ("kind", .str "code_block"), ("text", .str "rows")]]),
   ("data", .null), ("kind", .str "clause"), ("name", .str "schedule")]

theorem ofJson?_exact_schedule :
    bare.completed = padded.completed ∧ Doc.ofJson? bare = Doc.ofJson? padded ∧
      Doc.ofJson? bare = some (.node (.clause "schedule" none none) [.leaf (.codeBlock none "rows")]) := by
  have h : bare.completed = padded.completed := by cbv
  exact ⟨h, Doc.ofJson?_exact.2 bare padded h, by cbv⟩

end Schedule

end ClauseTemplates
