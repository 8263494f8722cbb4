import ServiceDocs.Generation
import ServiceDocs.Proofs.Catalog.Insertion
import ServiceDocs.Proofs.Catalog.Names
import ServiceDocs.Proofs.Document
import ServiceDocs.Proofs.Publication.Distinct
import ServiceDocs.Proofs.Steps

/-!
# Plans

A plan is made from settings, a catalog and the entries of the methods that are documented. Its
documents have names of their own, made from words of the sources, so they are different entries
of the output directory.
-/

namespace ServiceDocs

open Java

/-! ### Names of documents -/

lemma notMem_of_isWord {text : List Char} (h : isWord text) : '/' ∉ text := by
  rw [isWord] at h
  rw [Bool.or_eq_true, Bool.or_eq_true, decide_eq_true_eq, decide_eq_true_eq] at h
  rcases h with (h | rfl) | rfl
  · intro hmem
    have hpart := List.all_eq_true.mp h '/' hmem
    revert hpart
    decide
  · decide
  · decide

/-- A text with an extension behind it is the name of an entry. -/
lemma isEntryName_append {stem extension : String} (hstem : '/' ∉ stem.toList)
    (hextension : '/' ∉ extension.toList) (hlength : 2 < extension.length) :
    Path.IsEntryName (stem ++ extension) where
  noSlash := by
    rw [String.toList_append, List.mem_append]
    exact not_or.mpr ⟨hstem, hextension⟩
  ne_empty := fun h => by
    have hlen := congrArg String.length h
    rw [String.length_append, String.length_empty] at hlen
    omega
  ne_dot := fun h => by
    have hlen := congrArg String.length h
    rw [String.length_append, show ".".length = 1 from rfl] at hlen
    omega
  ne_dots := fun h => by
    have hlen := congrArg String.length h
    rw [String.length_append, show "..".length = 2 from rfl] at hlen
    omega

lemma notMem_of_stemOf {name stem : String} (h : Stem.Of name stem) (hname : '/' ∉ name.toList) :
    '/' ∉ stem.toList := by
  rcases h with rfl | ⟨k, _, rfl⟩
  · exact hname
  · intro hmem
    rcases Stem.mem_numbered hmem with h | h | h
    · exact hname h
    · revert h
      decide
    · revert h
      decide

namespace Document

/-- The documents for methods that are named by words are different entries. -/
lemma distinctEntries_ofEntries {entries : List MethodEntry} (format : OutputFormat)
    (coordinates : Coordinates) {modelStem : String}
    (hentries : ∀ e ∈ entries, '/' ∉ e.name.toList) (hstem : '/' ∉ modelStem.toList) :
    DistinctEntries (ofEntries entries format coordinates modelStem) where
  nodup := nodup_fileName_ofEntries entries format coordinates modelStem
  isEntryName := by
    rw [ofEntries, List.forall_mem_append]
    constructor
    · split
      · intro doc hdoc
        obtain ⟨e, he, stem, hof, hname⟩ := exists_of_mem_pages hdoc
        rw [hname]
        exact isEntryName_append (notMem_of_stemOf hof (hentries e he)) (by decide) (by decide)
      · exact List.forall_mem_nil _
    · split
      · rw [List.forall_mem_singleton]
        exact isEntryName_append hstem (by decide) (by decide)
      · exact List.forall_mem_nil _

/-- Every method gives rise to a document, whatever the format is. -/
lemma ofEntries_ne_nil {entries : List MethodEntry} (hne : entries ≠ []) (format : OutputFormat)
    (coordinates : Coordinates) (modelStem : String) :
    ofEntries entries format coordinates modelStem ≠ [] := by
  have hpages : pages entries coordinates ≠ [] := by
    rw [← List.length_pos_iff] at hne ⊢
    simpa [pages, Stem.length_ofNames] using hne
  rw [ofEntries]
  cases format <;> simp [OutputFormat.includesPages, OutputFormat.includesModel, hpages]

end Document

/-! ### Entries -/

section Entries

variable {c : Catalog}

lemma exists_declaration_of_methodsOf {type : String} {methods : List Method}
    (h : c.source.methodsOf type = .ok methods) :
    ∃ d, c.get? type = some d ∧ methods = d.methods := by
  rw [TypeSource.methodsOf, Catalog.source] at h
  cases hd : c.get? type with
  | none => simp [hd] at h
  | some d =>
    simp only [hd, Option.map_some, Except.ok.injEq] at h
    exact ⟨d, rfl, h.symm⟩

/-- The entries that are documented have the names of methods that the type declares, and the
model is named after one of them or after the type. -/
lemma exists_declaration_of_entriesFor {depth : Nat} {type : String} {method : Option String}
    {entries : List MethodEntry}
    (h : Generation.entriesFor c.source depth type method = .ok entries) :
    ∃ d, c.get? type = some d ∧ (∀ e ∈ entries, ∃ m ∈ d.methods, e.name = m.name) ∧
      (method.getD type = d.name ∨ ∃ m ∈ d.methods, method.getD type = m.name) := by
  cases method with
  | none =>
    obtain ⟨methods, hmethods, h⟩ := bind_eq_ok_iff.mp h
    obtain ⟨d, hd, rfl⟩ := exists_declaration_of_methodsOf hmethods
    cases h
    refine ⟨d, hd, ?_, .inl (Catalog.name_of_get? hd).symm⟩
    rw [List.forall_mem_map]
    exact fun m hm => ⟨m, hm, rfl⟩
  | some method =>
    obtain ⟨methods, hmethods, h⟩ := bind_eq_ok_iff.mp h
    obtain ⟨d, hd, rfl⟩ := exists_declaration_of_methodsOf hmethods
    have hnamed : ∀ m ∈ d.methods.filter (·.name = method), m ∈ d.methods ∧ m.name = method := by
      intro m hm
      rwa [List.mem_filter, decide_eq_true_eq] at hm
    generalize d.methods.filter (·.name = method) = ms at h hnamed
    cases ms with
    | nil => cases h
    | cons m ms =>
      cases h
      obtain ⟨hm, hname⟩ := hnamed m List.mem_cons_self
      refine ⟨d, hd, ?_, .inr ⟨m, hm, hname.symm⟩⟩
      rw [List.forall_mem_map]
      exact fun m hm => ⟨m, (hnamed m hm).1, rfl⟩

lemma isWord_of_entriesFor (hc : c.NamedByWords) {depth : Nat} {type : String}
    {method : Option String} {entries : List MethodEntry}
    (h : Generation.entriesFor c.source depth type method = .ok entries) :
    (∀ e ∈ entries, isWord e.name.toList) ∧ isWord (method.getD type).toList := by
  obtain ⟨d, hd, hentries, hstem⟩ := exists_declaration_of_entriesFor h
  have hwords := hc d (List.mem_of_find?_eq_some hd)
  constructor
  · intro e he
    obtain ⟨m, hm, hname⟩ := hentries e he
    rw [hname]
    exact hwords.methods m hm
  · rcases hstem with htype | ⟨m, hm, hname⟩
    · rw [htype]
      exact hwords.name
    · rw [hname]
      exact hwords.methods m hm

/-- Nothing is documented only for a type without methods. -/
lemma eq_nil_of_entriesFor {src : TypeSource} {depth : Nat} {type : String}
    {method : Option String} (h : Generation.entriesFor src depth type method = .ok []) :
    method = none ∧ src.methodsOf type = .ok [] := by
  cases method with
  | none =>
    obtain ⟨methods, hmethods, h⟩ := bind_eq_ok_iff.mp h
    cases methods with
    | nil => exact ⟨rfl, hmethods⟩
    | cons m ms => cases h
  | some method =>
    obtain ⟨methods, _, h⟩ := bind_eq_ok_iff.mp h
    generalize methods.filter (·.name = method) = ms at h
    cases ms with
    | nil => cases h
    | cons m ms => cases h

end Entries

/-! ### Plans -/

namespace Generation

variable {fs : FileTree} {env : Environment} {settingsFile : Option String} {overrides : Overrides}
  {type : String} {method : Option String}

/-- What a plan is made from. -/
lemma plan_eq_ok {g : Generation}
    (h : plan fs env settingsFile overrides type method = .ok g) :
    ∃ settings catalog entries,
      Settings.load fs env settingsFile overrides = .ok settings ∧
      Catalog.ofSources fs settings.sources = .ok catalog ∧
      entriesFor catalog.source settings.maxDepth.toNat type method = .ok entries ∧
      g.outDirectory = settings.outDirectory ∧
      g.documents = if entries.isEmpty then [] else
        Document.ofEntries entries settings.format settings.coordinates (method.getD type) := by
  rw [plan] at h
  obtain ⟨settings, hload, h⟩ := bind_eq_ok_iff.mp h
  obtain ⟨_, _, h⟩ := bind_eq_ok_iff.mp h
  obtain ⟨catalog, hcatalog, h⟩ := bind_eq_ok_iff.mp h
  obtain ⟨entries, hentries, h⟩ := bind_eq_ok_iff.mp h
  rw [mapError_eq_ok_iff] at hload hentries
  cases h
  exact ⟨settings, catalog, entries, hload, hcatalog, hentries, rfl, rfl⟩

lemma catalog_ofSources {sources : List String} {c : Catalog}
    (h : Catalog.ofSources fs sources = .ok c) : c.NamedByWords := by
  rw [Catalog.ofSources] at h
  split at h
  · cases h
  · exact Catalog.namedByWords_ofPaths (mapError_eq_ok_iff.mp h)

lemma ofSources_ne_writeFailed (sources : List String) (failed total : Nat) :
    Catalog.ofSources fs sources ≠ .error (.writeFailed failed total) := by
  intro h
  rw [Catalog.ofSources] at h
  split at h
  · cases h
  · obtain ⟨_, _, h⟩ := mapError_eq_error_iff.mp h
    cases h

/-- Making a plan fails before anything is written, so no error tells of documents that could not
be written. -/
lemma plan_ne_writeFailed (failed total : Nat) :
    plan fs env settingsFile overrides type method ≠ .error (.writeFailed failed total) := by
  intro h
  rw [plan] at h
  rcases bind_eq_error_iff.mp h with h | ⟨settings, _, h⟩
  · obtain ⟨_, _, h⟩ := mapError_eq_error_iff.mp h
    cases h
  rcases bind_eq_error_iff.mp h with h | ⟨_, _, h⟩
  · obtain ⟨_, _, h⟩ := mapError_eq_error_iff.mp h
    cases h
  rcases bind_eq_error_iff.mp h with h | ⟨catalog, _, h⟩
  · exact ofSources_ne_writeFailed settings.sources failed total h
  rcases bind_eq_error_iff.mp h with h | ⟨entries, _, h⟩
  · obtain ⟨_, _, h⟩ := mapError_eq_error_iff.mp h
    cases h
  · cases h

/-- The documents of a plan are different entries of the output directory. -/
theorem distinctEntries_documents {g : Generation}
    (h : plan fs env settingsFile overrides type method = .ok g) :
    DistinctEntries g.documents := by
  obtain ⟨settings, catalog, entries, _, hcatalog, hentries, _, hdocuments⟩ := plan_eq_ok h
  rw [hdocuments]
  split_ifs
  · exact ⟨List.nodup_nil, by simp⟩
  · obtain ⟨hnames, hstem⟩ := isWord_of_entriesFor (catalog_ofSources hcatalog) hentries
    exact Document.distinctEntries_ofEntries _ _
      (fun e he => notMem_of_isWord (hnames e he)) (notMem_of_isWord hstem)

/-- A plan has no documents only if the type declares no methods. -/
theorem declares_no_methods {g : Generation}
    (h : plan fs env settingsFile overrides type method = .ok g) (hnone : g.documents = []) :
    method = none ∧ ∃ settings catalog,
      Settings.load fs env settingsFile overrides = .ok settings ∧
      Catalog.ofSources fs settings.sources = .ok catalog ∧
      catalog.source.methodsOf type = .ok [] := by
  obtain ⟨settings, catalog, entries, hload, hcatalog, hentries, _, hdocuments⟩ := plan_eq_ok h
  have hempty : entries = [] := by
    by_contra hne
    rw [hdocuments, if_neg (by simpa using hne)] at hnone
    exact Document.ofEntries_ne_nil hne _ _ _ hnone
  subst hempty
  obtain ⟨hmethod, hmethods⟩ := eq_nil_of_entriesFor hentries
  exact ⟨hmethod, settings, catalog, hload, hcatalog, hmethods⟩

end Generation

end ServiceDocs
