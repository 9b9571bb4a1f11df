import ClauseTemplates.Proofs.Grammar.Terminates
import ClauseTemplates.Proofs.Template.Flat
import ClauseTemplates.Proofs.Template.Keys

namespace ClauseTemplates

namespace CompileState

variable {s t : CompileState} {type other : String}

theorem known_opened (h : s.known other = true) : (s.opened type).known other = true := by
  rw [known_iff] at h ⊢
  exact h.imp_right (List.mem_cons_of_mem type)

theorem known_stored (body : Grammar) (h : t.known other = true) :
    ((t.closed type).stored type body).known other = true := by
  rw [known_iff] at h ⊢
  by_cases heq : other = type
  · subst heq
    exact .inl List.mem_cons_self
  · rcases h with h | h
    · exact .inl (List.mem_cons_of_mem _ h)
    · exact .inr ((List.mem_erase_of_ne heq).mpr h)

end CompileState

namespace Compiling

open CompileState

variable {schema : Schema} {settings : Settings} {kind : TemplateKind}

/-- The entry of the key is there, and if it is a template of records, its type is known. -/
def Settled (schema : Schema) (s : CompileState) (key : EntryKey) : Prop :=
  ∃ e, Entry.compile schema key = .ok e ∧
    ∀ type children, e = .compound type children → s.known type = true

theorem Settled.mono {s t : CompileState} {key : EntryKey}
    (h : ∀ type, s.known type = true → t.known type = true) (hs : Settled schema s key) :
    Settled schema t key := by
  obtain ⟨e, he, hknown⟩ := hs
  exact ⟨e, he, fun type children htype => h type (hknown type children htype)⟩

/-- What a compiled type is stored with: its grammar depends on nothing but the schema, the kind of
the template and the settings, and what it needs is settled. -/
def Canonical (schema : Schema) (settings : Settings) (kind : TemplateKind) (s : CompileState)
    (type : String) (g : ValueGrammar) : Prop :=
  ∃ children, Entry.compile schema ⟨type, none⟩ = .ok (.compound type children) ∧
    g = .record type none (Grammar.ofInlines schema kind settings [] children) ∧
    ∀ key ∈ Node.keysAll children, Settled schema s key

theorem Canonical.mono {s t : CompileState} {type : String} {g : ValueGrammar}
    (h : ∀ type, s.known type = true → t.known type = true)
    (hs : Canonical schema settings kind s type g) : Canonical schema settings kind t type g := by
  obtain ⟨children, hentry, hg, hkeys⟩ := hs
  exact ⟨children, hentry, hg, fun key hkey => (hkeys key hkey).mono h⟩

/-- A compiler that stores nothing but what it should. -/
structure Orderly (schema : Schema) (settings : Settings) (kind : TemplateKind) (s : CompileState) :
    Prop where
  stored : ∀ type g, (type, g) ∈ s.compounds → Canonical schema settings kind s type g
  schema : s.table.schema = schema
  settings : s.table.settings = settings
  faithful : s.table.Faithful

theorem Orderly.nesting {s : CompileState} (h : Orderly schema settings kind s)
    (nesting : List Nesting) : Orderly schema settings kind { s with nesting } :=
  ⟨h.stored, h.schema, h.settings, h.faithful⟩

theorem orderly_new {table : Table} (hschema : table.schema = schema)
    (hsettings : table.settings = settings) (hf : table.Faithful) (nesting : List Nesting) :
    Orderly schema settings kind ⟨table, nesting, [], []⟩ := by
  refine ⟨?_, hschema, hsettings, hf⟩
  rintro _ _ ⟨⟩

/-- What comes of success: the compiler is orderly as before, and these keys are settled. -/
structure Settling (schema : Schema) (settings : Settings) (kind : TemplateKind)
    (requested : List EntryKey) (s s' : CompileState) : Prop where
  steady : Steady s s'
  orderly : Orderly schema settings kind s'
  settled : ∀ key ∈ requested, Settled schema s' key

/-- An action of a compiler after which these keys are settled, if it succeeds. -/
def Settles (schema : Schema) (settings : Settings) (kind : TemplateKind)
    (requested : List EntryKey) (act : Compiling α) : Prop :=
  ∀ s a s', Orderly schema settings kind s → Yields act s a s' →
    Settling schema settings kind requested s s'

theorem settles_silent {act : Compiling α} (h : ∀ s, (act.run s).2 = s) :
    Settles schema settings kind [] act := by
  intro s a s' hs hy
  have hstate := h s
  rw [show act.run s = (.ok a, s') from hy] at hstate
  obtain rfl : s' = s := hstate
  exact ⟨Steady.refl s', hs, fun key hkey => by cases hkey⟩

theorem Settles.bind {requested later : List EntryKey} {act : Compiling α} {f : α → Compiling β}
    (ha : Settles schema settings kind requested act)
    (hf : ∀ a, Settles schema settings kind later (f a)) :
    Settles schema settings kind (requested ++ later) (act >>= f) := by
  intro s b u hs hy
  obtain ⟨a, t, hat, hbu⟩ := yields_bind.mp hy
  obtain ⟨hst, ht, hrequested⟩ := ha s a t hs hat
  obtain ⟨htu, hu, hlater⟩ := hf a t b u ht hbu
  refine ⟨hst.trans htu, hu, fun key hkey => ?_⟩
  rcases List.mem_append.mp hkey with hkey | hkey
  · exact (hrequested key hkey).mono fun _ => htu.known
  · exact hlater key hkey

theorem settles_inside {requested : List EntryKey} {act : Compiling α} (k : Nesting)
    (h : Settles schema settings kind requested act) :
    Settles schema settings kind requested (inside k act) := by
  intro s a s' hs hy
  unfold Yields at hy
  rw [run_inside] at hy
  rcases hact : act.run { s with nesting := s.nesting ++ [k] } with ⟨r, t⟩
  rw [hact] at hy
  cases hy
  obtain ⟨⟨hnesting, hprogress, hcompounds⟩, ht, hsettled⟩ := h _ a t (hs.nesting _) hact
  exact ⟨⟨by simp [hnesting], hprogress, hcompounds⟩, ht.nesting _, hsettled⟩

theorem settles_entry {key : EntryKey} {f : Entry → Compiling α}
    (h : ∀ e, Entry.compile schema key = .ok e → Settles schema settings kind (used key e) (f e)) :
    Settles schema settings kind [key] (entry key >>= f) := by
  intro s a s' hs hy
  obtain ⟨e, t, hentry, hy⟩ := yields_bind.mp hy
  obtain ⟨hfound, hfaithful⟩ := Table.entry_faithful hs.faithful key
  obtain ⟨hschema, hsettings⟩ := Table.entry_schema key s.table
  unfold Yields at hentry
  rw [run_entry, hfound, hs.schema] at hentry
  obtain ⟨hcompile, rfl⟩ := Prod.mk.inj hentry
  have ht : Orderly schema settings kind { s with table := (s.table.entry key).2 } :=
    ⟨hs.stored, hschema.trans hs.schema, hsettings.trans hs.settings, hfaithful⟩
  obtain ⟨hsteady, hs', hsettled⟩ := h e hcompile _ a s' ht hy
  have hstart : Steady s { s with table := (s.table.entry key).2 } :=
    ⟨rfl, rfl, [], rfl, List.nodup_nil, fun _ h => by cases h⟩
  refine ⟨hstart.trans hsteady, hs', fun other hother => ?_⟩
  obtain rfl := List.mem_singleton.mp hother
  cases e with
  | scalar program => exact ⟨_, hcompile, fun _ _ h => by cases h⟩
  | compound type children => exact hsettled other List.mem_cons_self

/-- Every step of a compiler settles the keys that it requests. -/
def settles (schema : Schema) (settings : Settings) (kind : TemplateKind) : Logic where
  types _ := True
  keys _ := True
  entries key e := Entry.compile schema key = .ok e
  Holds requested x _ := Settles schema settings kind requested x
  pure _ := settles_silent fun _ => rfl
  bind := Settles.bind
  unbound _ _ _ := fun _ _ _ _ hy => absurd hy not_yields_throw
  margin := settles_silent fun _ => rfl
  elementType _ := settles_silent fun _ => rfl
  settings h := fun s a s' hs hy => h s.table.settings s a s' hs hy
  inside := settles_inside
  entry _ h := settles_entry h

theorem settles_fits (n : Node) : (settles schema settings kind).Fits n := by
  cases n <;> exact trivial

theorem Orderly.opened {s : CompileState} (h : Orderly schema settings kind s) (type : String) :
    Orderly schema settings kind (s.opened type) :=
  ⟨fun other g hg => (h.stored other g hg).mono fun _ => known_opened, h.schema, h.settings,
    h.faithful⟩

theorem Orderly.of_stored {t : CompileState} {type : String} {children : List Node}
    (h : Orderly schema settings kind t)
    (hentry : Entry.compile schema ⟨type, none⟩ = .ok (.compound type children))
    (hkeys : ∀ key ∈ Node.keysAll children, Settled schema t key) :
    Orderly schema settings kind
      ((t.closed type).stored type (Grammar.ofInlines schema kind settings [] children)) := by
  let body := Grammar.ofInlines schema kind settings [] children
  have hknown (other : String) (hother : t.known other = true) :
      ((t.closed type).stored type body).known other = true := known_stored body hother
  refine ⟨fun other g hg => ?_, h.schema, h.settings, h.faithful⟩
  rcases List.mem_cons.mp hg with hg | hg
  · cases hg
    exact ⟨children, hentry, rfl, fun key hkey => (hkeys key hkey).mono hknown⟩
  · exact (h.stored other g hg).mono hknown

/-- Records that compile are compiled to what they should be. -/
theorem settles_compound (fuel : Nat) :
    ∀ key type children, Entry.compile schema key = .ok (.compound type children) →
      Settles schema settings kind [key] (compound kind fuel type children) := by
  induction fuel with
  | zero => exact fun _ _ _ _ _ _ _ _ hy => absurd hy not_yields_throw
  | succ fuel ih =>
    intro key type children hkey s a s' hs hy
    have hsettled {s' : CompileState} (hknown : s'.known type = true) :
        ∀ other ∈ [key], Settled schema s' other := by
      intro other hother
      obtain rfl := List.mem_singleton.mp hother
      refine ⟨_, hkey, ?_⟩
      rintro _ _ ⟨⟩
      exact hknown
    have hrun : (recordBody kind (compound kind fuel) type children).run s = (.ok a, s') := hy
    cases hknown : s.known type with
    | true =>
      rw [run_recordBody_known hknown] at hrun
      cases hrun
      exact ⟨Steady.refl s, hs, hsettled hknown⟩
    | false =>
      have hc (key : EntryKey) (type : String) (children : List Node)
          (_ : (settles schema settings kind).keys key)
          (hentry : (settles schema settings kind).entries key (.compound type children)) :
          (settles schema settings kind).Holds [key] (compound kind fuel type children)
            (compound kind fuel type children) :=
        ih key type children hentry
      have hbody := (settles schema settings kind).inlines kind hc children
        (Node.everyAll_of_forall settles_fits children) fun _ _ => trivial
      rw [run_recordBody_new hknown] at hrun
      rcases hinner : (inlines kind (compound kind fuel) children).run (s.opened type) with
        ⟨e | body, t⟩
      · rw [hinner] at hrun
        cases hrun
      · rw [hinner] at hrun
        obtain rfl : (t.closed type).stored type body = s' := (Prod.mk.inj hrun).2
        obtain ⟨hsteady, ht, hkeys⟩ := hbody (s.opened type) body t (hs.opened type) hinner
        have hstands : Stands schema settings s.nesting (s.opened type) :=
          ⟨hs.schema, hs.settings, hs.faithful, rfl⟩
        obtain ⟨hgrammar, -⟩ := makes_inlines kind (makes_compound kind fuel) children s.nesting
          _ body t hstands hinner
        have hflat := Node.EveryAll.mono (fun _ hn => hn.1) children (Entry.compile_flat hkey)
        rw [Grammar.ofInlines_flat schema kind settings _ [] children hflat] at hgrammar
        subst hgrammar
        have hentry := (Entry.key_of_compound hkey).1 ▸ hkey
        refine ⟨hsteady.stored hknown _, ht.of_stored hentry hkeys, hsettled ?_⟩
        rw [known_iff]
        exact .inl List.mem_cons_self

end Compiling

end ClauseTemplates
