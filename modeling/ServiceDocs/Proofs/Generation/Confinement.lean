import ServiceDocs.Proofs.Generation.Outcome

/-!
# Confinement to the output directory

A generation changes nothing outside of its output directory. What it can change are the directory
itself, where it and those above it may be made, and entries directly below it. These are called
after methods of the documented type, or after the name that was asked for, so none of them leads
to another directory.
-/

namespace ServiceDocs

/-! ### Changes of a batch -/

/-- Nothing stands at the place, and the path of the directory leads through it. -/
def FileTree.IsMissingFor (fs : FileTree) (dir : String) (q : Place) : Prop :=
  fs.get? q = none ∧ ∃ path ∈ Path.ancestors dir, fs.locate path = q

lemma mem_of_lastAt {fs : FileTree} {dir : String} {docs : List Document} {q : Place}
    {doc : Document} (h : fs.lastAt dir docs q = some doc) :
    doc ∈ docs ∧ fs.placeOf dir doc = q := by
  rw [FileTree.lastAt] at h
  refine ⟨List.mem_reverse.mp (List.mem_of_find?_eq_some h), ?_⟩
  simpa using List.find?_some h

lemma mem_of_mem_writtenDocuments {as : List Attempt} {doc : Document}
    (h : doc ∈ writtenDocuments as) : doc ∈ as.map Attempt.document := by
  rw [writtenDocuments] at h
  exact (List.filter_sublist.map _).subset h

/-- A batch makes directories on the way to its directory and puts documents at their places, and
nothing else. -/
lemma get?_publishAll (devices : ℕ → Device) (fs : FileTree) (dir : String) (docs : List Document)
    (q : Place) :
    let tree := (publishAll devices fs dir docs).1
    tree.get? q = fs.get? q ∨
      (fs.IsMissingFor dir q ∧ tree.get? q = some (.directory (fs.newMode 0o777))) ∨
      ∃ doc ∈ docs, q = fs.placeOf dir doc := by
  have hgrows : FileTree.GrowsBy (Path.ancestors dir) fs
      (ensureDirectory fs dir (devices 0).makeDirectory).1 := by
    rw [fst_ensureDirectory]
    exact FileTree.growsBy_makeDirectories fs dir _
  have hmade : (ensureDirectory fs dir (devices 0).makeDirectory).1.get? q = fs.get? q ∨
      (fs.IsMissingFor dir q ∧ (ensureDirectory fs dir (devices 0).makeDirectory).1.get? q =
        some (.directory (fs.newMode 0o777))) := by
    rcases hgrows.get? q with hkept | ⟨hnone, hpath, hadded⟩
    · exact .inl hkept
    · exact .inr ⟨⟨hnone, hpath⟩, hadded⟩
  rw [publishAll]
  generalize ensureDirectory fs dir (devices 0).makeDirectory = made at hgrows hmade ⊢
  obtain ⟨fs', e | _⟩ := made
  · exact hmade.imp_right .inl
  · dsimp only at hmade ⊢
    rw [publishEach_eq]
    dsimp only
    rw [fs'.get?_putAll dir (placeOf_ne_nil_of_mem_writtenDocuments devices fs' dir docs)]
    cases hlast : fs'.lastAt dir (writtenDocuments (attempts devices fs' dir docs)) q with
    | none => exact hmade.imp_right .inl
    | some doc =>
      obtain ⟨hmem, hplace⟩ := mem_of_lastAt hlast
      have hdoc := mem_of_mem_writtenDocuments hmem
      rw [map_document_attempts] at hdoc
      refine .inr (.inr ⟨doc, hdoc, ?_⟩)
      rw [← hplace]
      exact hgrows.locate_eq _

/-! ### Names of entries -/

namespace Generation

/-- The name of an entry that a generation may write: that of a page of a method that the type
declares, or that of the model. -/
inductive MayName (d : Declaration) (modelStem : String) : String → Prop where
  | page {m : Method} {stem : String} (hm : m ∈ d.methods) (hstem : Stem.Of m.name stem) :
      MayName d modelStem (stem ++ ".md")
  | model : MayName d modelStem (modelStem ++ ".json")

lemma mayName_of_mem_ofEntries {d : Declaration} {entries : List MethodEntry}
    {format : OutputFormat} {coordinates : Coordinates} {modelStem : String}
    (hentries : ∀ e ∈ entries, ∃ m ∈ d.methods, e.name = m.name) :
    ∀ doc ∈ Document.ofEntries entries format coordinates modelStem,
      MayName d modelStem doc.fileName := by
  rw [Document.ofEntries, List.forall_mem_append]
  constructor
  · split
    · intro doc hdoc
      obtain ⟨e, he, stem, hof, hname⟩ := Document.exists_of_mem_pages hdoc
      obtain ⟨m, hm, hnamed⟩ := hentries e he
      rw [hname]
      exact .page hm (hnamed ▸ hof)
    · exact List.forall_mem_nil _
  · split
    · rw [List.forall_mem_singleton]
      exact .model
    · exact List.forall_mem_nil _

/-- The documents of a plan are named after what the type declares. -/
lemma exists_declaration_of_plan {fs : FileTree} {env : Environment} {settingsFile : Option String}
    {overrides : Overrides} {type : String} {method : Option String} {g : Generation}
    (h : plan fs env settingsFile overrides type method = .ok g) :
    ∃ settings catalog d, Settings.load fs env settingsFile overrides = .ok settings ∧
      Catalog.ofSources fs settings.sources = .ok catalog ∧ catalog.get? type = some d ∧
      g.outDirectory = settings.outDirectory ∧ Java.isWord (method.getD type).toList ∧
      ∀ doc ∈ g.documents, MayName d (method.getD type) doc.fileName := by
  obtain ⟨settings, catalog, entries, hload, hcatalog, hentries, hdirectory, hdocuments⟩ :=
    plan_eq_ok h
  obtain ⟨d, hd, hmethods, _⟩ := exists_declaration_of_entriesFor hentries
  have hstem := (isWord_of_entriesFor (catalog_ofSources hcatalog) hentries).2
  refine ⟨settings, catalog, d, hload, hcatalog, hd, hdirectory, hstem, ?_⟩
  rw [hdocuments]
  split_ifs
  · exact List.forall_mem_nil _
  · exact mayName_of_mem_ofEntries hmethods

end Generation

namespace Command

/-! ### What a generation leaves -/

/-- A generation leaves the tree as it was, or as the batch of its documents leaves it. -/
lemma tree_runGenerate (devices : ℕ → Device) (fs : FileTree) (env : Environment) (type : String)
    (method : Option String) (overrides : Overrides) (settingsFile : Option String) :
    let outcome := runGenerate devices fs env type method overrides settingsFile
    outcome.tree = fs ∨
      ∃ g, Generation.plan fs env settingsFile overrides type method = .ok g ∧
        outcome.tree = (g.publish devices fs).1 := by
  intro outcome
  cases hplan : Generation.plan fs env settingsFile overrides type method with
  | error e =>
    have houtcome : outcome = .failed fs e := runGenerate_of_plan_error devices hplan
    rw [houtcome]
    exact .inl rfl
  | ok g =>
    by_cases hnone : g.documents = []
    · exact .inl (runGenerate_of_no_documents devices hplan hnone).2
    exact .inr ⟨g, rfl, (runGenerate_of_documents devices hplan hnone).1⟩

/-- A generation changes nothing but entries of its output directory, and that directory with those
above it where they are missing: they may be made. An entry that it changes stands directly in the
output directory and is named after a method that the type declares, with the extension of pages,
or after what the command names, with the extension of models. -/
theorem run_generate_confined (devices : ℕ → Device) (fs : FileTree) (env : Environment)
    (type : Identifier.SimpleName) (method : Option Identifier.SimpleName) (overrides : Overrides)
    (settingsFile : Option String) (q : Place) :
    let tree := (run devices fs env (.generate type method overrides settingsFile)).tree
    tree.get? q = fs.get? q ∨
      ∃ settings catalog d, Settings.load fs env settingsFile overrides = .ok settings ∧
        Catalog.ofSources fs settings.sources = .ok catalog ∧ catalog.get? type.text = some d ∧
        ((fs.IsMissingFor settings.outDirectory q ∧
            tree.get? q = some (.directory (fs.newMode 0o777))) ∨
          ∃ name, q = fs.locate settings.outDirectory ++ [name] ∧ Path.IsEntryName name ∧
            Generation.MayName d (method.getD type).text name) := by
  intro tree
  have hstem : (method.map (·.text)).getD type.text = (method.getD type).text := by
    cases method <;> rfl
  rcases tree_runGenerate devices fs env type.text (method.map (·.text)) overrides settingsFile with
    hkept | ⟨g, hplan, htree⟩
  · exact .inl (congrArg (FileTree.get? · q) hkept)
  obtain ⟨settings, catalog, d, hload, hcatalog, hd, hdirectory, _, hnames⟩ :=
    Generation.exists_declaration_of_plan hplan
  have htree : tree = (publishAll devices fs settings.outDirectory g.documents).1 := by
    rw [← hdirectory]
    exact htree
  rw [htree]
  rcases get?_publishAll devices fs settings.outDirectory g.documents q with
    hkept | hmade | ⟨doc, hdoc, hplace⟩
  · exact .inl hkept
  · exact .inr ⟨settings, catalog, d, hload, hcatalog, hd, .inl hmade⟩
  · have hname := (Generation.distinctEntries_documents hplan).isEntryName doc hdoc
    have hmay : Generation.MayName d (method.getD type).text doc.fileName := by
      rw [← hstem]
      exact hnames doc hdoc
    refine .inr ⟨settings, catalog, d, hload, hcatalog, hd, .inr ⟨doc.fileName, ?_, hname, hmay⟩⟩
    rw [hplace]
    exact FileTree.locate_join hname

end Command

end ServiceDocs
