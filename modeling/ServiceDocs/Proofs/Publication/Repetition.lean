import ServiceDocs.Proofs.FileTree.Ancestors
import ServiceDocs.Proofs.FileTree.Changes
import ServiceDocs.Proofs.Publication.Distinct

/-!
# Publishing once more

Whether a document can be written depends on the directories of the tree and on the device, and
writing documents changes no directories. So a batch that is published once more, in the tree that
it has left, fails for the same documents as before, and the others are put where they already are.
-/

namespace ServiceDocs

namespace FileTree

/-! ### Documents that are there -/

lemma setEntry_eq_self {p : Place} {e : Entry} {es : List (Place × Entry)}
    (h : es.lookup p = some e) : setEntry p e es = es := by
  induction es with
  | nil => cases h
  | cons x es ih =>
    obtain ⟨q, d⟩ := x
    by_cases hq : q = p
    · subst hq
      simp only [List.lookup_cons_self, Option.some.injEq] at h
      rw [setEntry, if_pos rfl, h]
    · rw [List.lookup_cons, beq_false_of_ne (Ne.symm hq)] at h
      rw [setEntry, if_neg hq, ih h]

lemma set_eq_self {fs : FileTree} {p : Place} {e : Entry} (hp : p ≠ [])
    (h : fs.get? p = some e) : fs.set p e = fs := by
  rw [get?_of_ne_nil fs hp] at h
  rw [set, setEntry_eq_self h]

lemma put_eq_self {fs : FileTree} {p : Place} {text : String} {m : ℕ}
    (h : fs.get? p = some (.file (.text text) m)) : fs.put p text = fs := by
  have hp : p ≠ [] := by
    rintro rfl
    cases h
  have hmode : fs.documentMode p = m := by
    rw [documentMode, linkEnd_of_file h, h]
  rw [put, hmode]
  exact set_eq_self hp h

/-! ### Trees with the same directories -/

/-- The trees have the same directories. -/
structure SameDirectories (fs fs' : FileTree) : Prop where
  workingDirectory : fs'.workingDirectory = fs.workingDirectory
  get?_iff : ∀ q m, fs'.get? q = some (.directory m) ↔ fs.get? q = some (.directory m)

namespace SameDirectories

variable {fs fs' fs'' : FileTree}

lemma refl (fs : FileTree) : SameDirectories fs fs :=
  ⟨rfl, fun _ _ => Iff.rfl⟩

lemma symm (h : SameDirectories fs fs') : SameDirectories fs' fs :=
  ⟨h.workingDirectory.symm, fun q m => (h.get?_iff q m).symm⟩

lemma trans (h : SameDirectories fs fs') (h' : SameDirectories fs' fs'') :
    SameDirectories fs fs'' :=
  ⟨h'.workingDirectory.trans h.workingDirectory,
    fun q m => (h'.get?_iff q m).trans (h.get?_iff q m)⟩

lemma put {p : Place} (hp : ∀ m, fs.get? p ≠ some (.directory m)) (text : String) :
    SameDirectories fs (fs.put p text) where
  workingDirectory := rfl
  get?_iff := by
    intro q m
    by_cases hq : q = p
    · subst hq
      simp [get?_put_self hp, hp]
    · rw [get?_put_of_ne fs hq]

variable (h : SameDirectories fs fs')

include h

lemma walk_eq_ok {p q : Place} {parts : List String} (hwalk : fs.walk p parts = .ok q) :
    fs'.walk p parts = .ok q := by
  induction parts generalizing p with
  | nil => exact hwalk
  | cons part parts ih =>
    obtain ⟨⟨m, hdir⟩, hrest⟩ := walk_cons_eq_ok_iff.mp hwalk
    exact walk_cons_eq_ok_iff.mpr ⟨⟨m, (h.get?_iff p m).mpr hdir⟩, ih hrest⟩

lemma place?_eq_ok {path : String} {q : Place} (hq : fs.place? path = .ok q) :
    fs'.place? path = .ok q := by
  rw [place?] at hq ⊢
  split_ifs at hq with hempty
  rw [if_neg hempty, origin, h.workingDirectory]
  exact h.walk_eq_ok hq

lemma isDirectory {path : String} (hpath : fs.isDirectory path) : fs'.isDirectory path := by
  obtain ⟨p, m, hp, hdir⟩ := isDirectory_iff.mp hpath
  exact isDirectory_iff.mpr ⟨p, m, h.place?_eq_ok hp, (h.get?_iff p m).mpr hdir⟩

end SameDirectories

end FileTree

/-! ### One document -/

namespace Publication

variable {fs fs' : FileTree} {dir target : String}

lemma directoryPlace_eq_ok_iff {d : Place} :
    directoryPlace fs dir = .ok d ↔
      ∃ m, fs.place? (if dir = "" then "." else dir) = .ok d ∧ fs.get? d = some (.directory m) := by
  rw [directoryPlace]
  constructor
  · intro h
    obtain ⟨⟨p, e⟩, hfind, h⟩ := bind_eq_ok_iff.mp h
    cases e with
    | directory m =>
      cases h
      exact ⟨m, FileTree.find?_eq_directory_iff.mp hfind⟩
    | _ => cases h
  · rintro ⟨m, hdir⟩
    rw [FileTree.find?_eq_directory_iff.mpr hdir]
    rfl

lemma directoryPlace_of_sameDirectories (h : fs.SameDirectories fs') {d : Place}
    (hd : directoryPlace fs dir = .ok d) : directoryPlace fs' dir = .ok d := by
  obtain ⟨m, hplace, hget⟩ := directoryPlace_eq_ok_iff.mp hd
  exact directoryPlace_eq_ok_iff.mpr ⟨m, h.place?_eq_ok hplace, (h.get?_iff d m).mpr hget⟩

lemma renameTarget_of_sameDirectories (h : fs.SameDirectories fs') {p : Place}
    (hp : renameTarget fs target = .ok p) : renameTarget fs' target = .ok p := by
  obtain ⟨hplace, _, hdir⟩ := renameTarget_eq_ok hp
  have hdir' : ∀ m, fs'.get? p ≠ some (.directory m) :=
    fun m hm => hdir m ((h.get?_iff p m).mp hm)
  rw [renameTarget, hplace] at hp
  rw [renameTarget, h.place?_eq_ok hplace]
  -- no directory stands at the place, so both matches go on to the last case
  simp only [bind, Except.bind] at hp ⊢
  split_ifs at hp ⊢
  exact hp

lemma unlessRefused_eq_ok_iff {refused : Option IoError} {step : Except IoError Place} {d : Place} :
    unlessRefused refused step = .ok d ↔ refused = none ∧ step = .ok d := by
  cases refused <;> simp [unlessRefused]

end Publication

/-- The devices refuse the same steps. They may name temporary files in different ways. -/
structure Device.Alike (device device' : Device) : Prop where
  create : device'.create = device.create
  write : device'.write = device.write
  setMode : device'.setMode = device.setMode
  rename : device'.rename = device.rename
  makeDirectory : device'.makeDirectory = device.makeDirectory

lemma Device.Alike.symm {device device' : Device} (h : device.Alike device') :
    device'.Alike device :=
  ⟨h.create.symm, h.write.symm, h.setMode.symm, h.rename.symm, h.makeDirectory.symm⟩

namespace Publication

variable {device device' : Device} {fs fs' : FileTree} {dir target : String}

/-- Where the device lets files have any mode, only directories and the device stand in the way of a
publication. -/
lemma Unhindered.congr (h : Unhindered device fs dir target) (halike : device.Alike device')
    (hmode : device.setMode = none) (hdirs : fs.SameDirectories fs') :
    Unhindered device' fs' dir target where
  directory := by
    obtain ⟨d, hd⟩ := h.directory
    obtain ⟨hcreate, hd⟩ := unlessRefused_eq_ok_iff.mp hd
    exact ⟨d, unlessRefused_eq_ok_iff.mpr
      ⟨halike.create.trans hcreate, directoryPlace_of_sameDirectories hdirs hd⟩⟩
  write := halike.write.trans h.write
  setMode _ := halike.setMode.trans hmode
  rename := by
    obtain ⟨p, hp⟩ := h.rename
    obtain ⟨hrename, hp⟩ := unlessRefused_eq_ok_iff.mp hp
    exact ⟨p, unlessRefused_eq_ok_iff.mpr
      ⟨halike.rename.trans hrename, renameTarget_of_sameDirectories hdirs hp⟩⟩

/-- A document whose publication is settled in a tree with the same directories is published there
to the same end, and nothing changes. -/
lemma publish_again {doc : Document} (halike : device.Alike device')
    (hmode : device.setMode = none) (hdirs : fs.SameDirectories fs')
    (hsettled : Attempt.SettledIn ⟨fs, doc, (publish device fs dir doc).result⟩ dir fs') :
    (publish device' fs' dir doc).final fs' = fs' ∧
      (publish device' fs' dir doc).result.isOk = (publish device fs dir doc).result.isOk := by
  rcases publish_cases device fs dir doc with ⟨e, hfails⟩ | ⟨place, hsucceeds⟩
  · rcases publish_cases device' fs' dir doc with ⟨e', hfails'⟩ | ⟨place', hsucceeds'⟩
    · refine ⟨hfails'.final, ?_⟩
      rw [hfails.result, hfails'.result]
      rfl
    · exact absurd (hsucceeds'.unhindered.congr halike.symm (halike.setMode.trans hmode) hdirs.symm)
        hfails.hindered
  · rcases publish_cases device' fs' dir doc with ⟨e', hfails'⟩ | ⟨place', hsucceeds'⟩
    · exact absurd (hsucceeds.unhindered.congr halike hmode hdirs) hfails'.hindered
    · rw [hsucceeds.result] at hsettled ⊢
      obtain ⟨p, m, hentry⟩ := hsettled
      obtain ⟨hplace, hget, _⟩ := FileTree.entryAt?_eq_ok_iff.mp hentry
      have hp : place' = p := Except.ok.inj (hsucceeds'.located.symm.trans hplace)
      refine ⟨?_, by rw [hsucceeds'.result]⟩
      rw [hsucceeds'.final, hp]
      exact FileTree.put_eq_self hget

end Publication

/-! ### Batches -/

section Run

variable {devices devices' : ℕ → Device} {fs tree : FileTree} {dir : String}

lemma sameDirectories_final (device : Device) (fs : FileTree) (dir : String) (doc : Document) :
    fs.SameDirectories ((publish device fs dir doc).final fs) := by
  rcases Publication.publish_cases device fs dir doc with ⟨e, hfails⟩ | ⟨place, hsucceeds⟩
  · rw [hfails.final]
    exact .refl fs
  · rw [hsucceeds.final]
    exact .put hsucceeds.noDirectory _

lemma sameDirectories_publishEach (devices : ℕ → Device) (fs : FileTree) (dir : String)
    (docs : List Document) : fs.SameDirectories (publishEach devices fs dir docs).1 := by
  induction docs generalizing devices fs with
  | nil => exact .refl fs
  | cons doc docs ih =>
    rw [fst_publishEach_cons]
    exact (sameDirectories_final (devices 0) fs dir doc).trans (ih _ _)

/-- Documents that are settled are published once more to the same ends, and nothing changes. -/
lemma publishEach_again {docs : List Document} (halike : ∀ n, (devices n).Alike (devices' n))
    (hmodes : ∀ n, (devices n).setMode = none) (hdirs : fs.SameDirectories tree)
    (hsettled : ∀ a ∈ attempts devices fs dir docs, a.SettledIn dir tree) :
    (publishEach devices' tree dir docs).1 = tree ∧
      (publishEach devices' tree dir docs).2.failures.map Prod.fst =
        (publishEach devices fs dir docs).2.failures.map Prod.fst := by
  induction docs generalizing devices devices' fs with
  | nil => exact ⟨rfl, rfl⟩
  | cons doc docs ih =>
    rw [attempts, List.forall_mem_cons] at hsettled
    obtain ⟨hfinal, hresult⟩ := Publication.publish_again (halike 0) (hmodes 0) hdirs hsettled.1
    obtain ⟨htree, hfailures⟩ := ih (fun n => halike (n + 1)) (fun n => hmodes (n + 1))
      ((sameDirectories_final (devices 0) fs dir doc).symm.trans hdirs) hsettled.2
    rw [publishEach, publishEach, hfinal]
    cases hfirst : (publish (devices 0) fs dir doc).result with
    | error e =>
      rw [hfirst] at hresult
      cases hagain : (publish (devices' 0) tree dir doc).result with
      | error e' => exact ⟨htree, congrArg (doc.fileName :: ·) hfailures⟩
      | ok path' =>
        rw [hagain] at hresult
        cases hresult
    | ok path =>
      rw [hfirst] at hresult
      cases hagain : (publish (devices' 0) tree dir doc).result with
      | error e' =>
        rw [hagain] at hresult
        cases hresult
      | ok path' => exact ⟨htree, hfailures⟩

end Run

/-! ### Batches with their directory -/

lemma changes_publishEach {written : Place → Prop} (devices : ℕ → Device) (fs : FileTree)
    (dir : String) {docs : List Document} (h : ∀ doc ∈ docs, written (fs.placeOf dir doc)) :
    FileTree.Changes written fs (publishEach devices fs dir docs).1 := by
  induction docs generalizing devices fs with
  | nil => exact .refl fs
  | cons doc docs ih =>
    obtain ⟨hdoc, hdocs⟩ := List.forall_mem_cons.mp h
    rw [fst_publishEach_cons]
    rcases Publication.publish_cases (devices 0) fs dir doc with
      ⟨e, hfails⟩ | ⟨place, hsucceeds⟩
    · rw [hfails.final]
      exact ih _ fs hdocs
    · have hplace : place = fs.placeOf dir doc := FileTree.eq_locate_of_place? hsucceeds.located
      rw [hsucceeds.final]
      exact .trans (.single (.file (hplace ▸ hdoc) hsucceeds.noDirectory)) (ih _ _ hdocs)

/-- A batch makes directories and writes files at the places of its documents. -/
lemma changes_publishAll {written : Place → Prop} (devices : ℕ → Device) (fs : FileTree)
    (dir : String) {docs : List Document} (h : ∀ doc ∈ docs, written (fs.placeOf dir doc)) :
    FileTree.Changes written fs (publishAll devices fs dir docs).1 := by
  have hmade : FileTree.Changes written fs
      (ensureDirectory fs dir (devices 0).makeDirectory).1 := by
    rw [fst_ensureDirectory]
    exact FileTree.changes_makeDirectories written fs dir _
  rw [publishAll]
  generalize ensureDirectory fs dir (devices 0).makeDirectory = made at hmade ⊢
  obtain ⟨fs', e | _⟩ := made
  · exact hmade
  · have hplace (doc : Document) : fs'.placeOf dir doc = fs.placeOf dir doc := by
      rw [FileTree.placeOf, FileTree.locate, FileTree.origin, hmade.workingDirectory_eq]
      rfl
    refine hmade.trans (changes_publishEach devices fs' dir fun doc hdoc => ?_)
    rw [hplace]
    exact h doc hdoc

lemma ensureDirectory_again (fs : FileTree) (dir : String) (refused : String → Option IoError) :
    let made := ensureDirectory fs dir refused
    ∃ r, ensureDirectory made.1 dir refused = (made.1, r) ∧ (r = .ok () ↔ made.2 = .ok ()) := by
  obtain ⟨r, hagain, hr⟩ := FileTree.makeDirectories_again fs dir refused
  rw [ensureDirectory]
  generalize fs.makeDirectories dir refused = made at hagain hr ⊢
  obtain ⟨fs', r'⟩ := made
  dsimp only at hagain hr
  cases r' with
  | error e =>
    dsimp only
    rw [ensureDirectory, hagain]
    cases r with
    | error e' => exact ⟨_, rfl, by simp⟩
    | ok _ => simp at hr
  | ok _ =>
    dsimp only
    rw [ensureDirectory, hagain, hr.mpr rfl]
    exact ⟨_, rfl, Iff.rfl⟩

/-- The directory of a batch is still there when the documents have been written. -/
lemma ensureDirectory_of_sameDirectories {fs made tree : FileTree} {dir : String}
    {refused : String → Option IoError} (hmade : ensureDirectory fs dir refused = (made, .ok ()))
    (h : made.SameDirectories tree) : ensureDirectory tree dir refused = (tree, .ok ()) := by
  by_cases hdir : Path.ancestors dir = []
  · rw [ensureDirectory, FileTree.makeDirectories, hdir]
    rfl
  · exact ensureDirectory_of_isDirectory (h.isDirectory (isDirectory_ensureDirectory hdir hmade)) _

/-- A batch that is published once more changes nothing and fails for the same documents. -/
theorem publishAll_again {devices devices' : ℕ → Device}
    (halike : ∀ n, (devices n).Alike (devices' n)) (hmodes : ∀ n, (devices n).setMode = none)
    (fs : FileTree) (dir : String) {docs : List Document} (hdistinct : DistinctEntries docs) :
    let first := publishAll devices fs dir docs
    let second := publishAll devices' first.1 dir docs
    second.1 = first.1 ∧ second.2.failures.map Prod.fst = first.2.failures.map Prod.fst := by
  intro first second
  have hrefused := (halike 0).makeDirectory
  obtain ⟨r, hagain, hr⟩ := ensureDirectory_again fs dir (devices 0).makeDirectory
  cases hmade : ensureDirectory fs dir (devices 0).makeDirectory with
  | mk made r' =>
    rw [hmade, ← hrefused] at hagain
    rw [hmade] at hr
    cases r' with
    | error e =>
      obtain ⟨e', rfl⟩ : ∃ e', r = .error e' := by
        cases r with
        | error e' => exact ⟨e', rfl⟩
        | ok _ => simp at hr
      have hfirst : first = _ := publishAll_of_error hmade docs
      have hsecond : second = publishAll devices' made dir docs :=
        congrArg (fun first => publishAll devices' first.1 dir docs) hfirst
      rw [hsecond, publishAll_of_error hagain, hfirst]
      refine ⟨rfl, ?_⟩
      rw [List.map_map, List.map_map]
      rfl
    | ok _ =>
      have hdirs := sameDirectories_publishEach devices made dir docs
      have hthere := ensureDirectory_of_sameDirectories hmade hdirs
      rw [← hrefused] at hthere
      have hfirst : first = publishEach devices made dir docs := publishAll_of_ok hmade docs
      have hsecond : second = publishAll devices' (publishEach devices made dir docs).1 dir docs :=
        congrArg (fun first => publishAll devices' first.1 dir docs) hfirst
      rw [hsecond, publishAll_of_ok hthere, hfirst]
      exact publishEach_again halike hmodes hdirs (settledIn_publishEach devices made dir hdistinct)

end ServiceDocs
