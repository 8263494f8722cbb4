import ServiceDocs.Proofs.FileTree.Directories

/-!
# Changes of file trees

When directories are made and files are written, a tree changes step by step. No step takes an
entry away or turns a file into a directory or back. So in a tree without links what is found at a
path is still found there, unless it is one of the files that are written.
-/

namespace ServiceDocs.FileTree

/-! ### The places of files -/

/-- The places of all files. -/
def filePlaces (fs : FileTree) : List Place :=
  fs.entries.filterMap fun (q, e) =>
    match e with
    | .file _ _ => some q
    | _         => none

lemma filesBelow_eq (fs : FileTree) (p : Place) :
    fs.filesBelow p = (fs.filePlaces.filter (p.isPrefixOf ·)).mergeSort
      (Path.lexicographic Path.nameLe) := by
  rw [filesBelow, filePlaces, List.filter_filterMap]
  congr 2
  funext ⟨q, e⟩
  cases e with
  | file c m => simp [Option.filter_some]
  | directory m => rfl
  | link t => rfl

/-- A directory that is made is not one of the files. -/
lemma filePlaces_set_directory {fs : FileTree} {p : Place} (hp : p ≠ []) (hnone : fs.get? p = none)
    (m : ℕ) : (fs.set p (.directory m)).filePlaces = fs.filePlaces := by
  rw [get?_of_ne_nil fs hp, List.lookup_eq_none_iff] at hnone
  have hfree : ∀ x ∈ fs.entries, x.1 ≠ p := by
    intro x hx h
    simpa [h] using hnone x hx
  simp only [filePlaces, set]
  rw [setEntry_eq_append hfree, List.filterMap_append]
  exact List.append_nil _

/-- The file that is written counts only where its place does. -/
lemma filter_filePlaces_set_file (fs : FileTree) {p : Place} {keep : Place → Bool}
    (hp : keep p = false) (c : Contents) (m : ℕ) :
    (fs.set p (.file c m)).filePlaces.filter keep = fs.filePlaces.filter keep := by
  simp only [filePlaces, set]
  induction fs.entries with
  | nil => simp [setEntry, hp]
  | cons x es ih =>
    obtain ⟨q, e⟩ := x
    rw [setEntry]
    split_ifs with hq
    · subst hq
      cases e <;> simp [hp]
    · cases e with
      | file => simp only [List.filterMap_cons, List.filter_cons, ih]
      | directory => simpa only [List.filterMap_cons] using ih
      | link => simpa only [List.filterMap_cons] using ih

/-! ### One change -/

/-- A change of a tree: a directory is made where nothing stands, or a file is written at one of the
given places, where no directory stands. -/
inductive Change (written : Place → Prop) (fs : FileTree) : FileTree → Prop where
  | directory {p : Place} {m : ℕ} (hp : p ≠ []) (hnone : fs.get? p = none) :
    Change written fs (fs.set p (.directory m))
  | file {p : Place} {c : Contents} {m : ℕ} (hp : written p)
    (hfile : ∀ m, fs.get? p ≠ some (.directory m)) : Change written fs (fs.set p (.file c m))

namespace Change

variable {written : Place → Prop} {fs fs' : FileTree} (h : Change written fs fs')

include h

lemma workingDirectory_eq : fs'.workingDirectory = fs.workingDirectory := by
  cases h with
  | directory hp hnone => rfl
  | file hp hfile => rfl

lemma get?_eq_some {q : Place} {e : Entry} (he : fs.get? q = some e)
    (hkept : (∀ m, e ≠ .directory m) → ¬ written q) : fs'.get? q = some e := by
  cases h with
  | directory hp hnone =>
    rw [get?_set_of_ne, he]
    rintro rfl
    rw [he] at hnone
    cases hnone
  | file hp hfile =>
    rw [get?_set_of_ne, he]
    rintro rfl
    refine hkept (fun m hm => ?_) hp
    exact hfile m (hm ▸ he)

lemma get?_of_file {q : Place} {c : Contents} {m : ℕ} (hq : ¬ written q)
    (he : fs'.get? q = some (.file c m)) : fs.get? q = some (.file c m) := by
  cases h with
  | @directory p _ hp hnone =>
    by_cases hqp : q = p
    · subst hqp
      rw [get?_set_self fs hp] at he
      cases he
    · rwa [get?_set_of_ne fs hqp] at he
  | file hp hfile =>
    rwa [get?_set_of_ne] at he
    rintro rfl
    exact hq hp

lemma hasNoLinks (hlinks : fs.HasNoLinks) : fs'.HasNoLinks := by
  intro q t ht
  cases h with
  | @directory p m hp hnone =>
    by_cases hq : q = p
    · subst hq
      rw [get?_set_self fs hp] at ht
      cases ht
    · exact hlinks q t (by rwa [get?_set_of_ne fs hq] at ht)
  | @file p c m hp hfile =>
    by_cases hq : q = p
    · subst hq
      have hne : q ≠ [] := by
        rintro rfl
        exact hfile _ fs.get?_nil
      rw [get?_set_self fs hne] at ht
      cases ht
    · exact hlinks q t (by rwa [get?_set_of_ne fs hq] at ht)

lemma place?_eq_ok {path : String} {q : Place} (hq : fs.place? path = .ok q) :
    fs'.place? path = .ok q := by
  cases h with
  | directory hp hnone => exact place?_set (by simp [hnone]) _ hq
  | file hp hfile => exact place?_set hfile _ hq

lemma filter_filePlaces {keep : Place → Bool} (hkeep : ∀ q, written q → keep q = false) :
    fs'.filePlaces.filter keep = fs.filePlaces.filter keep := by
  cases h with
  | directory hp hnone => rw [filePlaces_set_directory hp hnone]
  | file hp hfile => exact filter_filePlaces_set_file fs (hkeep _ hp) _ _

end Change

/-! ### Any number of changes -/

/-- The second tree comes from the first one by changes. -/
def Changes (written : Place → Prop) : FileTree → FileTree → Prop :=
  Relation.ReflTransGen (Change written)

namespace Changes

variable {written : Place → Prop} {fs fs' fs'' : FileTree}

lemma refl (fs : FileTree) : Changes written fs fs :=
  Relation.ReflTransGen.refl

lemma single (h : Change written fs fs') : Changes written fs fs' :=
  Relation.ReflTransGen.single h

lemma trans (h : Changes written fs fs') (h' : Changes written fs' fs'') :
    Changes written fs fs'' :=
  Relation.ReflTransGen.trans h h'

variable (h : Changes written fs fs')

include h

lemma workingDirectory_eq : fs'.workingDirectory = fs.workingDirectory := by
  induction h with
  | refl => rfl
  | tail _ hstep ih => exact hstep.workingDirectory_eq.trans ih

lemma hasNoLinks (hlinks : fs.HasNoLinks) : fs'.HasNoLinks := by
  induction h with
  | refl => exact hlinks
  | tail _ hstep ih => exact hstep.hasNoLinks ih

lemma get?_eq_some {q : Place} {e : Entry} (he : fs.get? q = some e)
    (hkept : (∀ m, e ≠ .directory m) → ¬ written q) : fs'.get? q = some e := by
  induction h with
  | refl => exact he
  | tail _ hstep ih => exact hstep.get?_eq_some ih hkept

/-- A file at a place that is not written to was there before. -/
lemma get?_of_file {q : Place} {c : Contents} {m : ℕ} (hq : ¬ written q)
    (he : fs'.get? q = some (.file c m)) : fs.get? q = some (.file c m) := by
  induction h with
  | refl => exact he
  | tail _ hstep ih => exact ih (hstep.get?_of_file hq he)

lemma place?_eq_ok {path : String} {q : Place} (hq : fs.place? path = .ok q) :
    fs'.place? path = .ok q := by
  induction h with
  | refl => exact hq
  | tail _ hstep ih => exact hstep.place?_eq_ok ih

lemma filter_filePlaces {keep : Place → Bool} (hkeep : ∀ q, written q → keep q = false) :
    fs'.filePlaces.filter keep = fs.filePlaces.filter keep := by
  induction h with
  | refl => rfl
  | tail _ hstep ih => exact (hstep.filter_filePlaces hkeep).trans ih

/-- What is found at a path is still found there, unless it is a file that is written. -/
theorem find?_eq_ok (hlinks : fs.HasNoLinks) {path : String} {q : Place} {e : Entry}
    (hfind : fs.find? path = .ok (q, e)) (hkept : ∀ c m, e = .file c m → ¬ written q) :
    fs'.find? path = .ok (q, e) := by
  obtain ⟨hplace, he, hslash⟩ := hlinks.find?_eq_ok_iff.mp hfind
  refine (h.hasNoLinks hlinks).find?_eq_ok_iff.mpr ⟨h.place?_eq_ok hplace, ?_, hslash⟩
  refine h.get?_eq_some he fun hdirectory => ?_
  cases e with
  | file c m => exact hkept c m rfl
  | directory m => exact absurd rfl (hdirectory m)
  | link t => exact absurd he (hlinks q t)

lemma isFile (hlinks : fs.HasNoLinks) {path : String} (hfile : fs.isFile path)
    (hkept : ∀ q c m, fs.find? path = .ok (q, .file c m) → ¬ written q) : fs'.isFile path := by
  obtain ⟨q, c, m, hfind⟩ := isFile_iff.mp hfile
  exact isFile_iff.mpr ⟨q, c, m, h.find?_eq_ok hlinks hfind fun _ _ _ => hkept q c m hfind⟩

end Changes

/-! ### Directories -/

lemma change_makeDirectory {written : Place → Prop} {fs fs' : FileTree} {path : String}
    {refused : String → Option IoError} (h : fs.makeDirectory path refused = .ok fs') :
    Change written fs fs' := by
  obtain ⟨p, _, hne, hnone, rfl⟩ := makeDirectory_eq_ok h
  exact .directory hne hnone

/-- Making directories changes a tree, whether it fails half-way or not. -/
lemma changes_makeDirectories (written : Place → Prop) (fs : FileTree) (path : String)
    (refused : String → Option IoError) : Changes written fs (fs.makeDirectories path refused).1 :=
  Relation.ReflTransGen.mono (fun _ _ ⟨_, _, hmake⟩ => change_makeDirectory hmake) _ _
    (reflTransGen_makeAll fs refused (Path.ancestors path))

end ServiceDocs.FileTree
