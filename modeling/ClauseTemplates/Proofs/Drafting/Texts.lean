import ClauseTemplates.Proofs.Document.Texts
import ClauseTemplates.Proofs.Effects
import ClauseTemplates.Proofs.Grammar.Compiled
import ClauseTemplates.Template

namespace ClauseTemplates

open Markdown

namespace Drafting

/-- The texts of the items of a join with the separator between them. -/
def joinedTexts (separator : String) : List (List (List Char)) → List (List Char)
  | [] => []
  | [texts] => texts
  | texts :: rest =>
    if separator = "" then texts ++ joinedTexts separator rest
    else texts ++ Text.escaped separator.toList :: joinedTexts separator rest

theorem joinedTexts_flatten (separator : String) (first : List (List Char))
    (rest : List (List (List Char))) :
    (joinedTexts separator (first :: rest)).flatten = first.flatten ++
      rest.flatMap fun texts => Text.escaped separator.toList ++ texts.flatten := by
  induction rest generalizing first with
  | nil => simp [joinedTexts]
  | cons more rest ih =>
    rw [joinedTexts]
    · split
      · rename_i h
        rw [List.flatten_append, ih, h]
        simp [Text.escaped]
      · rw [List.flatten_append, List.flatten_cons, ih]
        simp
    · simp

def evaluated? (code : String) (data : Json) (now : Instant) : Option Json :=
  match Expression.read code with
  | .error _ => none
  | .ok e => (e.evaluate (Scope.ofData data now)).toOption

def items? : Json → Option (List Json)
  | .arr items => some items
  | _ => none

def array? (scope : Json) (name : String) : Option (List Json) := (field? scope name).bind items?

def object? (scope : Json) (name : String) : Option Json :=
  (field? scope name).bind fun value => if value.isObject then some value else none

def isLive? (now : Instant) (name : String) (condition : Option String) (scope : Json) :
    Option Bool :=
  match condition with
  | some code => (evaluated? code scope now).map Json.truthy
  | none => (field? scope name).bind Json.bool?

def isShown? (now : Instant) (condition : Option String) (value : Json) : Option Bool :=
  match condition with
  | some code => (evaluated? code value now).map Json.truthy
  | none => some true

section

variable (schema : Schema) (bullet : Char) (context : DraftContext)
  (compound : List Char → List Node → Json → Option (List (List Char)))

def entryTexts? (margin : List Char) (value : Json) : Entry → Option (List (List Char))
  | .scalar program => (program.draft value).toOption.map fun text => [text]
  | .compound _ children => if value.isObject then compound margin children value else none

def variableTexts? (margin : List Char) (v : Variable) (scope : Json) :
    Option (List (List Char)) :=
  v.type.bind fun type => (field? scope v.name).bind fun value =>
    if v.identifiedBy.isSome then
      (value.string?.bind resourceId?).map fun id => [Text.quoted id.toList]
    else (Entry.compile schema ⟨type, v.format⟩).toOption.bind (entryTexts? compound margin value)

def enumTexts? (v : EnumVariable) (scope : Json) : Option (List (List Char)) :=
  (field? scope v.name).bind fun value => value.string?.bind fun s =>
    if v.values.contains s then some [s.toList] else none

mutual

/-- The texts of the documents that show a value through a node, without the state of a drafter;
there are none where drafting fails. -/
def texts? (margin : List Char) : Node → Json → Option (List (List Char))
  | .variable v, scope => variableTexts? schema compound margin v scope
  | .enumVariable v, scope => enumTexts? v scope
  | .formula f, _ => (evaluated? f.code context.data context.now).map fun value =>
    [leafText margin (.formula f.name value.display)]
  | .conditional name condition whenTrue whenFalse, scope =>
    (isLive? context.now name condition scope).bind fun live =>
      if live then textsAll? margin whenTrue scope else textsAll? margin whenFalse .null
  | .optional name _ whenSome whenNone, scope =>
    match field? scope name with
    | some value => textsAll? margin whenSome value
    | none => textsAll? margin whenNone .null
  | .within name _ children, scope =>
    (object? scope name).bind fun value => textsAll? margin children value
  | .list name kind _ children, scope =>
    (array? scope name).bind fun items =>
      if items.isEmpty then none
      else
        (items.mapM fun item => textsAll? (margin ++ itemIndent kind) children item).map
          fun items => [itemText bullet margin kind [] 1
            (items.map (blockText (margin ++ itemIndent kind)))]
  | .join name _ separator children, scope =>
    (array? scope name).bind fun items =>
      (items.mapM fun item => textsAll? margin children item).map (joinedTexts separator)
  | .clause name _ src condition children, scope =>
    (object? scope name).bind fun value =>
      (isShown? context.now condition value).bind fun shown =>
      if shown then
        (textsAll? margin children value).map fun texts =>
          match context.kind with
          | .clause => texts
          | .contract => [regionText margin name src texts]
      else some []
  | .contract _ children, scope => textsAll? margin children scope
  | .leaf l, _ => some [leafText margin l]
  | .markup frame children, scope =>
    (textsAll? (innerMargin margin frame) children scope).map fun inner =>
      [frameText bullet margin frame inner]

def textsAll? (margin : List Char) : List Node → Json → Option (List (List Char))
  | [], _ => some []
  | n :: rest, scope => (texts? margin n scope).bind fun texts =>
    (textsAll? margin rest scope).map (texts ++ ·)

end

end

/-- What a drafter of templates over a schema keeps. -/
structure Ready (schema : Schema) (settings : Settings) (s : DraftState) : Prop where
  schema : s.table.schema = schema
  settings : s.table.settings = settings
  faithful : s.table.Faithful

section

variable {schema : Schema} {settings : Settings}

theorem agrees_required (scope : Json) (name : String) :
    Agrees (Ready schema settings) (required scope name) id (field? scope name) := by
  unfold required
  cases field? scope name with
  | none => exact agrees_throw _ _
  | some value => exact agrees_pure value id

theorem agrees_array (scope : Json) (name : String) :
    Agrees (Ready schema settings) (array scope name) id (array? scope name) := by
  refine (agrees_required scope name).bind fun value => ?_
  cases value with
  | arr items => exact agrees_pure items id
  | _ => exact agrees_throw _ _

theorem agrees_object (scope : Json) (name : String) :
    Agrees (Ready schema settings) (object scope name) id (object? scope name) := by
  refine (agrees_required scope name).bind fun value => ?_
  dsimp only [id_eq]
  split
  · exact agrees_pure value id
  · exact agrees_throw _ _

theorem agrees_evaluate (name code : String) (data : Json) (now : Instant) :
    Agrees (Ready schema settings) (evaluate name code data now) id (evaluated? code data now) := by
  unfold evaluate evaluated?
  cases Expression.read code with
  | error _ => exact agrees_throw _ _
  | ok e =>
    dsimp only
    cases e.evaluate (Scope.ofData data now) with
    | ok value => exact agrees_pure value id
    | error _ => exact agrees_throw _ _

theorem agrees_isLive (context : DraftContext) (name : String) (condition : Option String)
    (scope : Json) : Agrees (Ready schema settings) (isLive context name condition scope) id
      (isLive? context.now name condition scope) := by
  unfold isLive isLive?
  cases condition with
  | some code => exact (agrees_evaluate name code scope context.now).map fun _ => rfl
  | none =>
    refine (agrees_required scope name).bind fun value => ?_
    cases value with
    | bool b => exact agrees_pure b id
    | _ => exact agrees_throw _ _

theorem run_entry (key : EntryKey) (s : DraftState) :
    (entry key).run s = ((s.table.entry key).1.mapError Error.registry,
      { s with table := (s.table.entry key).2 }) := by
  have hget : (get : Drafting DraftState).run s = (.ok s, s) := rfl
  have hset (t : DraftState) : (set t : Drafting PUnit).run s = (.ok (), t) := rfl
  unfold entry
  rw [run_bind, hget]
  dsimp only
  rw [run_bind, hset]
  dsimp only
  cases (s.table.entry key).1 <;> rfl

theorem agrees_entry (key : EntryKey) : Agrees (Ready schema settings) (entry key) id
    (Entry.compile schema key).toOption := by
  intro s hs
  obtain ⟨h1, h2⟩ := Table.entry_faithful hs.faithful key
  obtain ⟨h3, h4⟩ := Table.entry_schema key s.table
  have ht : Ready schema settings { s with table := (s.table.entry key).2 } :=
    ⟨h3.trans hs.schema, h4.trans hs.settings, h2⟩
  rw [run_entry, h1, hs.schema]
  refine ⟨ht, ?_⟩
  cases Entry.compile schema key <;> rfl

theorem agrees_freshIdentifier : Agrees (Ready schema settings) freshIdentifier (fun _ => ()) (some ()) :=
  fun _ hs => ⟨⟨hs.schema, hs.settings, hs.faithful⟩, rfl⟩

theorem agrees_record (value : Json) (type : Option String) (identifier : String) :
    Agrees (Ready schema settings) (record value type identifier) (fun _ => ()) (some ()) := by
  unfold record
  cases value with
  | obj fields => exact agrees_freshIdentifier.bind fun _ => agrees_pure _ _
  | _ => exact agrees_pure _ _

theorem agrees_ignored {branch : Drafting (List Doc)} {view : List Doc → β} {result : Option β}
    (h : Agrees (Ready schema settings) branch view result) :
    Agrees (Ready schema settings) (ignored branch) (fun _ => ()) (some ()) :=
  h.tryCatch (fun _ => agrees_pure _ _) fun _ => agrees_pure _ _

theorem agrees_forItems {each : Json → Drafting α} {view : α → β} {result : Json → Option β}
    (h : ∀ item, Agrees (Ready schema settings) (each item) view (result item)) :
    ∀ items : List Json, Agrees (Ready schema settings) (forItems each items) (List.map view)
      (items.mapM result) := by
  intro items
  induction items with
  | nil => exact agrees_pure [] _
  | cons item rest hrest =>
    rw [List.mapM_cons]
    exact (h item).bind fun a => hrest.bind fun as => agrees_pure (a :: as) _

/-- The texts of records of compound types, for a drafter of such records. -/
def Renders (schema : Schema) (settings : Settings) (bullet : Char)
    (compound : String → List Node → Json → Drafting (List Doc))
    (compoundTexts : List Char → List Node → Json → Option (List (List Char))) : Prop :=
  ∀ margin type children value, Agrees (Ready schema settings) (compound type children value)
    (texts bullet margin) (compoundTexts margin children value)

variable {bullet : Char} {compound : String → List Node → Json → Drafting (List Doc)}
  {compoundTexts : List Char → List Node → Json → Option (List (List Char))}

theorem texts_fragment (margin text : List Char) : texts bullet margin [fragment text] = [text] := by
  simp [texts, fragment, rendered, leafText]

theorem agrees_fragment (margin text : List Char) :
    Agrees (Ready schema settings) (pure [fragment text] : Drafting (List Doc))
      (texts bullet margin) (some [text]) := by
  rw [← @texts_fragment bullet margin text]
  exact agrees_pure _ _

theorem agrees_variableDocs (hc : Renders schema settings bullet compound compoundTexts)
    (margin : List Char) (v : Variable) (scope : Json) :
    Agrees (Ready schema settings) (variableDocs compound v scope) (texts bullet margin)
      (variableTexts? schema compoundTexts margin v scope) := by
  unfold variableDocs variableTexts?
  cases v.type with
  | none => exact agrees_throw _ _
  | some type =>
    refine (agrees_required scope v.name).bind fun value => ?_
    dsimp only [id_eq]
    split
    · cases value.string?.bind resourceId? with
      | none => exact agrees_throw _ _
      | some id => exact agrees_fragment margin (Text.quoted id.toList)
    · refine (agrees_entry _).bind fun e => ?_
      cases e with
      | scalar program =>
        dsimp only [id_eq, entryTexts?]
        cases program.draft value with
        | error _ => exact agrees_throw _ _
        | ok text => exact agrees_fragment margin text
      | compound found children =>
        dsimp only [id_eq, entryTexts?]
        split
        · exact hc margin found children value
        · exact agrees_throw _ _

theorem agrees_enumVariable (margin : List Char) (v : EnumVariable) (scope : Json) :
    Agrees (Ready schema settings) (enumVariable v scope) (texts bullet margin)
      (enumTexts? v scope) := by
  refine (agrees_required scope v.name).bind fun value => ?_
  cases value with
  | str s =>
    dsimp only [id_eq, Json.string?, Option.bind_some]
    split
    · exact agrees_fragment margin s.toList
    · exact agrees_throw _ _
  | _ => exact agrees_throw _ _

theorem texts_joined (margin : List Char) (separator : String) (items : List (List Doc)) :
    texts bullet margin (joined separator items) =
      joinedTexts separator (items.map (texts bullet margin)) := by
  induction items with
  | nil => rfl
  | cons docs rest ih =>
    cases rest with
    | nil => rfl
    | cons more rest =>
      have hdocs : joined separator (docs :: more :: rest) =
          if separator = "" then docs ++ joined separator (more :: rest)
          else docs ++ .leaf (.text separator) :: joined separator (more :: rest) := by
        rw [joined]
        simp
      have htexts : joinedTexts separator ((docs :: more :: rest).map (texts bullet margin)) =
          if separator = "" then
            texts bullet margin docs ++ joinedTexts separator ((more :: rest).map (texts bullet margin))
          else
            texts bullet margin docs ++ Text.escaped separator.toList ::
              joinedTexts separator ((more :: rest).map (texts bullet margin)) := by
        rw [List.map_cons, List.map_cons, joinedTexts]
        simp
      rw [hdocs, htexts, ← ih]
      split <;> simp [texts, rendered, leafText]

mutual

/-- Drafting a node gives documents with the texts of the node, and fails where there are none. -/
theorem agrees_node (hc : Renders schema settings bullet compound compoundTexts)
    (context : DraftContext) : ∀ (n : Node) (margin : List Char) (scope : Json),
    Agrees (Ready schema settings) (node context compound n scope) (texts bullet margin)
      (texts? schema bullet context compoundTexts margin n scope)
  | .variable v, margin, scope => by
    rw [node, texts?]
    exact agrees_variableDocs hc margin v scope
  | .enumVariable v, margin, scope => by
    rw [node, texts?]
    exact agrees_enumVariable margin v scope
  | .formula f, margin, scope => by
    rw [node, texts?]
    exact (agrees_evaluate f.name f.code context.data context.now).map fun _ => rfl
  | .conditional name condition whenTrue whenFalse, margin, scope => by
    rw [node, texts?]
    refine (agrees_isLive context name condition scope).bind fun live => ?_
    dsimp only [id_eq]
    split
    · exact (agrees_ignored (agrees_nodes hc context whenFalse margin .null)).before
        (agrees_nodes hc context whenTrue margin scope)
    · exact (agrees_ignored (agrees_nodes hc context whenTrue margin scope)).before
        (agrees_nodes hc context whenFalse margin .null)
  | .optional name type whenSome whenNone, margin, scope => by
    rw [node, texts?]
    cases field? scope name with
    | some value => exact agrees_nodes hc context whenSome margin value
    | none =>
      have hnone := agrees_nodes hc context whenNone margin .null
      cases type with
      | none => exact hnone
      | some type =>
        refine Agrees.get_bind fun s _ => ?_
        exact (agrees_ignored (agrees_nodes hc context whenSome margin
          (placeholder s.table.schema type))).before hnone
  | .within name _ children, margin, scope => by
    rw [node, texts?]
    exact (agrees_object scope name).bind fun value => agrees_nodes hc context children margin value
  | .list name kind _ children, margin, scope => by
    rw [node, texts?]
    refine (agrees_array scope name).bind fun items => ?_
    dsimp only [id_eq]
    split
    · exact agrees_throw _ _
    · refine (agrees_forItems (fun item => agrees_nodes hc context children (margin ++ itemIndent kind) item)
        items).map fun docs => ?_
      rw [texts, List.map_singleton, rendered, items_eq]
      simp [texts, rendered, blocks_eq, Function.comp_def]
  | .join name _ separator children, margin, scope => by
    rw [node, texts?]
    refine (agrees_array scope name).bind fun items => ?_
    refine (agrees_forItems (fun item => agrees_nodes hc context children margin item) items).map
      fun docs => texts_joined margin separator docs
  | .clause name type src condition children, margin, scope => by
    rw [node, texts?]
    refine (agrees_object scope name).bind fun value => ?_
    have hrest (shown : Bool) : Agrees (Ready schema settings)
        (if !shown then pure []
          else do
            let docs ← nodes context compound children value
            match context.kind with
            | .clause => pure docs
            | .contract => do
              let identifier := (← get).table.settings.clauseIdentifier
              pure [.node (.clause name src (some (← record value type identifier))) docs])
        (texts bullet margin)
        (if shown then
          (textsAll? schema bullet context compoundTexts margin children value).map fun texts =>
            match context.kind with
            | .clause => texts
            | .contract => [regionText margin name src texts]
          else some []) := by
      cases shown with
      | false => exact agrees_pure _ _
      | true =>
        rw [if_pos rfl, Option.map_eq_bind]
        refine (agrees_nodes hc context children margin value).bind fun docs => ?_
        cases context.kind with
        | clause => exact agrees_pure docs _
        | contract =>
          refine Agrees.get_bind fun s _ => ?_
          refine (agrees_record value type s.table.settings.clauseIdentifier).bind
            (g := fun _ => some [regionText margin name src (texts bullet margin docs)])
            fun data => ?_
          rw [← rendered_clause bullet margin name src (some data) docs]
          exact agrees_pure _ _
    cases condition with
    | none => exact (agrees_pure true id).bind hrest
    | some code =>
      dsimp only
      rw [isShown?, Option.bind_map]
      exact (agrees_evaluate name code value context.now).bind fun v => hrest v.truthy
  | .contract _ children, margin, scope => by
    rw [node, texts?]
    exact agrees_nodes hc context children margin scope
  | .leaf l, margin, scope => by
    rw [node, texts?]
    exact agrees_pure _ _
  | .markup frame children, margin, scope => by
    rw [node, texts?]
    refine (agrees_nodes hc context children (innerMargin margin frame) scope).map fun docs => ?_
    simp [texts, rendered_node]

theorem agrees_nodes (hc : Renders schema settings bullet compound compoundTexts)
    (context : DraftContext) : ∀ (ns : List Node) (margin : List Char) (scope : Json),
    Agrees (Ready schema settings) (nodes context compound ns scope) (texts bullet margin)
      (textsAll? schema bullet context compoundTexts margin ns scope)
  | [], margin, scope => by
    rw [nodes, textsAll?]
    exact agrees_pure _ _
  | n :: rest, margin, scope => by
    rw [nodes, textsAll?]
    exact (agrees_node hc context n margin scope).bind fun docs =>
      (agrees_nodes hc context rest margin scope).map fun more => texts_append bullet margin docs more

end

end

section

variable (schema : Schema) (bullet : Char) (context : DraftContext)

/-- The texts of records of compound types with fewer than `fuel` records inside one another. -/
def compoundTexts? : Nat → List Char → List Node → Json → Option (List (List Char))
  | 0, _, _, _ => none
  | fuel + 1, margin, children, value =>
    textsAll? schema bullet context (compoundTexts? fuel) margin children value

theorem renders_compound (settings : Settings) : ∀ fuel : Nat,
    Renders schema settings bullet (compound context fuel) (compoundTexts? schema bullet context fuel)
  | 0 => fun _ _ _ _ => agrees_throw _ _
  | fuel + 1 => fun margin _ children value =>
    agrees_nodes (renders_compound settings fuel) context children margin value

end

end Drafting

namespace Template

open Drafting

/-- The text of a template for some data; there is none where drafting fails. -/
def text? (t : Template) (schema : Schema) (bullet : Char) (data : Json) (now : Instant) :
    Option (List Char) :=
  if data.isObject then
    (textsAll? schema bullet ⟨data, now, t.kind⟩
      (compoundTexts? schema bullet ⟨data, now, t.kind⟩ (levels schema data)) [] t.body data).map
        (blockText [])
  else none

theorem agrees_draft (t : Template) (schema : Schema) (settings : Settings) (bullet : Char)
    (data : Json) (now : Instant) :
    Agrees (Ready schema settings) (t.draft data now) (rendered bullet [])
      (t.text? schema bullet data now) := by
  unfold draft text?
  cases hdata : data.isObject with
  | false => exact agrees_throw _ _
  | true =>
    refine Agrees.get_bind fun s hs => ?_
    dsimp only
    rw [if_pos rfl, hs.schema, Option.map_eq_bind]
    refine (agrees_nodes (renders_compound schema bullet ⟨data, now, t.kind⟩ settings _) _ t.body []
      data).bind fun docs => ?_
    refine (agrees_record data (some t.type) _).bind
      (g := fun _ => some (blockText [] (texts bullet [] docs))) fun data => ?_
    rw [← blocks_eq]
    exact agrees_pure _ _

/-- The rendered document is made of the texts of the body. -/
theorem texts_of_draft {t : Template} {schema : Schema} {settings : Settings} (bullet : Char)
    {data : Json} {now : Instant} {s s' : DraftState} {doc : Doc} (hs : Ready schema settings s)
    (h : (t.draft data now).run s = (.ok doc, s')) :
    ∃ ts, textsAll? schema bullet ⟨data, now, t.kind⟩
        (compoundTexts? schema bullet ⟨data, now, t.kind⟩ (levels schema data)) [] t.body data = some ts ∧
      rendered bullet [] doc = blockText [] ts := by
  obtain ⟨htext, _⟩ := (agrees_draft t schema settings bullet data now).of_yields hs h
  unfold text? at htext
  split at htext
  · obtain ⟨ts, hts, hw⟩ := Option.map_eq_some_iff.mp htext
    exact ⟨ts, hts, hw.symm⟩
  · cases htext

end Template

end ClauseTemplates
