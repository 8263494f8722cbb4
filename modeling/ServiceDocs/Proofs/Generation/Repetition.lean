import ServiceDocs.Proofs.Catalog.Files
import ServiceDocs.Proofs.Generation.Confinement
import ServiceDocs.Proofs.Publication.Repetition

/-!
# Running a generation once more

A generation changes the very tree that the next one reads. But what it writes is neither a source
nor a settings file, and the directories that it makes lead nowhere else. So the next generation
has the same plan, writes what is already there, and fails where the first one has failed.
-/

namespace ServiceDocs

/-! ### Settings -/

namespace Settings

lemma isFile_of_file? {fs : FileTree} {path : Option String} {name : String}
    (h : file? fs path = .ok (some name)) : fs.isFile name := by
  cases path with
  | some path =>
    rw [file?] at h
    split_ifs at h with hfile
    cases h
    exact hfile
  | none =>
    rw [file?] at h
    split_ifs at h with hfile
    · cases h
      exact hfile
    · cases h

section Changes

variable {written : Place → Prop} {fs fs' : FileTree} (h : FileTree.Changes written fs fs')

include h

/-- No settings file appears under the usual name. -/
lemma isFile_fileName (hfs : fs.WellFormed) (hlinks : fs.HasNoLinks)
    (hwritten : ∀ p, ¬ written (p ++ [fileName])) (hfile : fs'.isFile fileName) :
    fs.isFile fileName := by
  have hname : Path.IsEntryName fileName := by decide
  obtain ⟨q, c, m, hfind⟩ := FileTree.isFile_iff.mp hfile
  obtain ⟨hplace, hget, hslash⟩ := (h.hasNoLinks hlinks).find?_eq_ok_iff.mp hfind
  have hlocate : fs'.locate "" = fs.locate "" := by
    rw [FileTree.locate, FileTree.origin, h.workingDirectory_eq]
    rfl
  have hjoin (fs : FileTree) (q : Place) : fs.place? (Path.join "" fileName) = .ok q ↔ _ :=
    FileTree.place?_join_iff hname q
  obtain ⟨_, _, rfl⟩ := (hjoin fs' q).mp hplace
  rw [hlocate] at hget
  have hold := h.get?_of_file (hwritten _) hget
  obtain ⟨_, hdir⟩ := hfs.exists_parent hold
  exact FileTree.isFile_iff.mpr ⟨_, c, m, hlinks.find?_eq_ok_iff.mpr
    ⟨(hjoin fs _).mpr ⟨hdir, rfl, rfl⟩, hold, hslash⟩⟩

/-- The settings file that is read stays the same. -/
lemma file?_eq_ok (hfs : fs.WellFormed) (hlinks : fs.HasNoLinks) {path file : Option String}
    (hfile : file? fs path = .ok file) (hwritten : ∀ p, ¬ written (p ++ [fileName]))
    (hkept : ∀ name, file = some name → ∀ q c m, fs.find? name = .ok (q, .file c m) → ¬ written q) :
    file? fs' path = .ok file := by
  have hstays {name : String} (hname : file = some name) (h₀ : fs.isFile name) :
      fs'.isFile name := h.isFile hlinks h₀ (hkept name hname)
  cases path with
  | some name =>
    rw [file?] at hfile ⊢
    split_ifs at hfile with h₀
    cases hfile
    rw [if_pos (hstays rfl h₀)]
  | none =>
    rw [file?] at hfile ⊢
    split_ifs at hfile with h₀
    · cases hfile
      rw [if_pos (hstays rfl h₀)]
    · cases hfile
      rw [if_neg (mt (isFile_fileName h hfs hlinks hwritten) h₀)]

lemma load_eq_ok (hfs : fs.WellFormed) (hlinks : fs.HasNoLinks) {env : Environment}
    {path : Option String} {o : Overrides} {settings : Settings}
    (hload : load fs env path o = .ok settings)
    (hwritten : ∀ p, ¬ written (p ++ [fileName]))
    (hkept : ∀ name, file? fs path = .ok (some name) →
      ∀ q c m, fs.find? name = .ok (q, .file c m) → ¬ written q) :
    load fs' env path o = .ok settings := by
  rw [load] at hload ⊢
  obtain ⟨file, hfile, hrest⟩ := bind_eq_ok_iff.mp hload
  have hfile' := file?_eq_ok h hfs hlinks hfile hwritten
    fun name hname => hkept name (hname ▸ hfile)
  refine bind_eq_ok_iff.mpr ⟨file, hfile', ?_⟩
  cases file with
  | none => exact hrest
  | some name =>
    have hlayer : fileLayer? fs' name = fileLayer? fs name := by
      obtain ⟨q, c, m, hfind⟩ := FileTree.isFile_iff.mp (isFile_of_file? hfile)
      have hfind' := h.find?_eq_ok hlinks hfind fun _ _ _ => hkept name hfile q c m hfind
      rw [fileLayer?, fileLayer?, FileTree.readText_congr (hfind'.trans hfind.symm)]
    dsimp only at hrest ⊢
    rw [hlayer]
    exact hrest

end Changes

end Settings

/-! ### Plans -/

namespace Generation

variable {fs fs' : FileTree} {env : Environment} {settingsFile : Option String}
  {overrides : Overrides} {type : String} {method : Option String} {g : Generation}

/-- The path is given as that of a source or of the settings file. -/
def IsInput (fs : FileTree) (env : Environment) (settingsFile : Option String)
    (overrides : Overrides) (path : String) : Prop :=
  Settings.file? fs settingsFile = .ok (some path) ∨
    ∃ settings, Settings.load fs env settingsFile overrides = .ok settings ∧
      path ∈ settings.sources

/-- No document takes the place of a file that is given as an input. -/
def SparesInputs (g : Generation) (fs : FileTree) (env : Environment)
    (settingsFile : Option String) (overrides : Overrides) : Prop :=
  ∀ path, IsInput fs env settingsFile overrides path →
    ∀ q c m, fs.find? path = .ok (q, .file c m) →
      ∀ doc ∈ g.documents, fs.placeOf g.outDirectory doc ≠ q

/-- The place is that of a document of the plan. -/
def IsTarget (g : Generation) (fs : FileTree) (q : Place) : Prop :=
  ∃ doc ∈ g.documents, fs.placeOf g.outDirectory doc = q

lemma MayName.hasExtension {d : Declaration} {modelStem name : String}
    (h : MayName d modelStem name) :
    Path.hasExtension Catalog.sourceExtension name = false := by
  have hlast {extension : String} (hne : extension.toList.getLast? ≠ some 'a')
      (hempty : extension.toList ≠ []) (stem : String) :
      Path.hasExtension Catalog.sourceExtension (stem ++ extension) = false := by
    rw [Path.hasExtension, Bool.and_eq_false_iff]
    left
    rw [← Bool.not_eq_true, List.isSuffixOf_iff_suffix]
    rintro ⟨front, hfront⟩
    have hend := congrArg List.getLast? hfront
    rw [String.toList_append, List.getLast?_append_of_ne_nil _ hempty] at hend
    rw [← hend] at hne
    simp [Catalog.sourceExtension] at hne
  cases h with
  | page _ _ => exact hlast (by decide) (by decide) _
  | model => exact hlast (by decide) (by decide) _

lemma MayName.ne_fileName {d : Declaration} {modelStem name : String}
    (h : MayName d modelStem name) (hstem : Java.isWord modelStem.toList) :
    name ≠ Settings.fileName := by
  have hfile : Settings.fileName = "apigen.config" ++ ".json" := by decide
  rw [hfile]
  cases h with
  | page _ _ => exact Document.md_ne_json _ _
  | model =>
    intro heq
    rw [(String.append_left_inj ".json").mp heq] at hstem
    revert hstem
    decide

/-- A document is neither a source nor the usual settings file. -/
lemma isSourcePlace_of_isTarget
    (h : plan fs env settingsFile overrides type method = .ok g) {q : Place}
    (hq : g.IsTarget fs q) :
    Catalog.isSourcePlace q = false ∧ ∀ p, q ≠ p ++ [Settings.fileName] := by
  obtain ⟨doc, hdoc, rfl⟩ := hq
  obtain ⟨_, _, d, _, _, _, _, hstem, hnames⟩ := exists_declaration_of_plan h
  have hplace : fs.placeOf g.outDirectory doc = fs.locate g.outDirectory ++ [doc.fileName] :=
    FileTree.locate_join ((distinctEntries_documents h).isEntryName doc hdoc)
  rw [hplace, Catalog.isSourcePlace, List.getLastD_concat]
  refine ⟨(hnames doc hdoc).hasExtension, fun p hp => ?_⟩
  obtain ⟨_, hlast⟩ := List.append_inj' hp rfl
  exact (hnames doc hdoc).ne_fileName hstem (List.singleton_inj.mp hlast)

/-- In a tree in which only documents of a plan were written the plan is the same. -/
lemma plan_eq_ok_of_changes (hfs : fs.WellFormed) (hlinks : fs.HasNoLinks)
    (h : plan fs env settingsFile overrides type method = .ok g)
    (hspares : g.SparesInputs fs env settingsFile overrides)
    (hchanges : FileTree.Changes (g.IsTarget fs) fs fs') :
    plan fs' env settingsFile overrides type method = .ok g := by
  have hspared {path : String} (hpath : IsInput fs env settingsFile overrides path) :
      ∀ q c m, fs.find? path = .ok (q, .file c m) → ¬ g.IsTarget fs q := by
    rintro q c m hfind ⟨doc, hdoc, hplace⟩
    exact hspares path hpath q c m hfind doc hdoc hplace
  have htargets := fun q (hq : g.IsTarget fs q) => isSourcePlace_of_isTarget h hq
  rw [plan] at h ⊢
  obtain ⟨settings, hload, h⟩ := bind_eq_ok_iff.mp h
  obtain ⟨valid, hvalid, h⟩ := bind_eq_ok_iff.mp h
  obtain ⟨catalog, hcatalog, h⟩ := bind_eq_ok_iff.mp h
  rw [mapError_eq_ok_iff] at hload
  have hload' := Settings.load_eq_ok hchanges hfs hlinks hload
    (fun p hp => (htargets _ hp).2 p rfl) fun name hname => hspared (.inl hname)
  have hcatalog' := Catalog.ofSources_eq_ok hchanges (fun q hq => (htargets q hq).1) hfs hlinks
    hcatalog fun path hpath => hspared (.inr ⟨settings, hload, hpath⟩)
  exact bind_eq_ok_iff.mpr ⟨settings, mapError_eq_ok_iff.mpr hload',
    bind_eq_ok_iff.mpr ⟨valid, hvalid, bind_eq_ok_iff.mpr ⟨catalog, hcatalog', h⟩⟩⟩

end Generation

/-! ### Generations -/

namespace Command

/-- A generation that is run once more on a device that refuses the same steps, and that lets files
have any mode. -/
lemma runGenerate_again_of_alike {devices devices' : ℕ → Device}
    (halike : ∀ n, (devices n).Alike (devices' n)) (hmodes : ∀ n, (devices n).setMode = none)
    {fs : FileTree} (hfs : fs.WellFormed) (hlinks : fs.HasNoLinks) (env : Environment)
    (type : String) (method : Option String) (overrides : Overrides)
    (settingsFile : Option String)
    (h : ∀ g, Generation.plan fs env settingsFile overrides type method = .ok g →
      g.SparesInputs fs env settingsFile overrides) :
    let first := runGenerate devices fs env type method overrides settingsFile
    let second := runGenerate devices' first.tree env type method overrides settingsFile
    second.result = first.result ∧ second.tree = first.tree := by
  intro first second
  cases hplan : Generation.plan fs env settingsFile overrides type method with
  | error e =>
    have hfirst : first = .failed fs e := runGenerate_of_plan_error devices hplan
    have hsecond : second = .failed fs e := by
      simp only [second, hfirst]
      exact runGenerate_of_plan_error devices' hplan
    rw [hfirst, hsecond]
    exact ⟨rfl, rfl⟩
  | ok g =>
    by_cases hnone : g.documents = []
    · obtain ⟨hresult, htree⟩ := runGenerate_of_no_documents devices hplan hnone
      have hsecond : second = runGenerate devices' fs env type method overrides settingsFile :=
        congrArg (fun tree => runGenerate devices' tree env type method overrides settingsFile)
          htree
      obtain ⟨hresult', htree'⟩ := runGenerate_of_no_documents devices' hplan hnone
      rw [hsecond]
      exact ⟨hresult'.trans hresult.symm, htree'.trans htree.symm⟩
    · obtain ⟨htree, hresult⟩ := runGenerate_of_documents devices hplan hnone
      have hchanges : FileTree.Changes (g.IsTarget fs) fs first.tree := by
        rw [htree]
        exact changes_publishAll devices fs g.outDirectory fun doc hdoc => ⟨doc, hdoc, rfl⟩
      have hplan' := Generation.plan_eq_ok_of_changes hfs hlinks hplan (h g hplan) hchanges
      obtain ⟨htree', hresult'⟩ := runGenerate_of_documents devices' hplan' hnone
      obtain ⟨hsame, hfailures⟩ := publishAll_again halike hmodes fs g.outDirectory
        (Generation.distinctEntries_documents hplan)
      have hlength := congrArg List.length hfailures
      rw [List.length_map, List.length_map] at hlength
      have hagain : (g.publish devices' first.tree).1 = (g.publish devices fs).1 ∧
          (g.publish devices' first.tree).2.failures.length =
            (g.publish devices fs).2.failures.length := by
        rw [show first.tree = (g.publish devices fs).1 from htree]
        exact ⟨hsame, hlength⟩
      refine ⟨?_, htree'.trans (hagain.1.trans htree.symm)⟩
      rw [show second.result = _ from hresult', show first.result = _ from hresult]
      simp only [BatchReport.isSuccess, List.isEmpty_iff_length_eq_zero, hagain.2]

end Command

end ServiceDocs
