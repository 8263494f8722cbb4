import Mathlib.Logic.Relation
import ServiceDocs.Proofs.FileTree.Places
import ServiceDocs.Proofs.Steps

/-!
# Making directories

Making a directory together with those above it only adds directories, at places that the path
leads through and where nothing stood before, also when it fails half-way.
-/

namespace ServiceDocs.FileTree

/-- The second tree is the first one with new directories at the places of some of the paths. -/
structure GrowsBy (paths : List String) (fs fs' : FileTree) : Prop where
  workingDirectory : fs'.workingDirectory = fs.workingDirectory
  umask : fs'.umask = fs.umask
  get? : ∀ q, fs'.get? q = fs.get? q ∨
    (fs.get? q = none ∧ (∃ path ∈ paths, fs.locate path = q) ∧
      fs'.get? q = some (.directory (fs.newMode 0o777)))

namespace GrowsBy

variable {paths : List String} {fs fs' fs'' : FileTree}

lemma refl (paths : List String) (fs : FileTree) : GrowsBy paths fs fs :=
  ⟨rfl, rfl, fun _ => .inl rfl⟩

lemma locate_eq (h : GrowsBy paths fs fs') (path : String) : fs'.locate path = fs.locate path := by
  unfold locate origin
  rw [h.workingDirectory]

lemma trans (h : GrowsBy paths fs fs') (h' : GrowsBy paths fs' fs'') : GrowsBy paths fs fs'' where
  workingDirectory := h'.workingDirectory.trans h.workingDirectory
  umask := h'.umask.trans h.umask
  get? := by
    intro q
    have hmode : fs'.newMode 0o777 = fs.newMode 0o777 := by
      unfold newMode
      rw [h.umask]
    rcases h'.get? q with hkept' | ⟨hnone', ⟨path, hpath, rfl⟩, hadded'⟩
    · rw [hkept']
      exact h.get? q
    · rw [h.locate_eq] at hnone' hadded' ⊢
      rcases h.get? (fs.locate path) with hkept | ⟨_, _, hadded⟩
      · exact .inr ⟨hkept ▸ hnone', ⟨path, hpath, rfl⟩, hmode ▸ hadded'⟩
      · rw [hadded] at hnone'
        cases hnone'

lemma mono {paths' : List String} (h : GrowsBy paths fs fs') (hsub : paths ⊆ paths') :
    GrowsBy paths' fs fs' where
  workingDirectory := h.workingDirectory
  umask := h.umask
  get? := by
    intro q
    rcases h.get? q with hkept | ⟨hnone, ⟨path, hpath, hq⟩, hadded⟩
    · exact .inl hkept
    · exact .inr ⟨hnone, ⟨path, hsub hpath, hq⟩, hadded⟩

/-- What was there is still there. -/
lemma get?_eq_some (h : GrowsBy paths fs fs') {q : Place} {e : Entry} (he : fs.get? q = some e) :
    fs'.get? q = some e := by
  rcases h.get? q with hkept | ⟨hnone, _⟩
  · rw [hkept, he]
  · rw [he] at hnone
    cases hnone

end GrowsBy

/-- A directory is made where nothing stands. -/
lemma makeDirectory_eq_ok {fs fs' : FileTree} {path : String} {refused : String → Option IoError}
    (h : fs.makeDirectory path refused = .ok fs') :
    ∃ p, fs.place? path = .ok p ∧ p ≠ [] ∧ fs.get? p = none ∧
      fs' = fs.set p (.directory (fs.newMode 0o777)) := by
  rw [makeDirectory] at h
  obtain ⟨p, hp, h⟩ := bind_eq_ok_iff.mp h
  split at h
  · cases h
  · cases h
  · rename_i hnone _
    cases h
    refine ⟨p, hp, ?_, hnone, rfl⟩
    rintro rfl
    cases hnone

lemma growsBy_makeDirectory {fs fs' : FileTree} {path : String} {refused : String → Option IoError}
    (h : fs.makeDirectory path refused = .ok fs') : GrowsBy [path] fs fs' := by
  obtain ⟨p, hp, hne, hnone, rfl⟩ := makeDirectory_eq_ok h
  refine ⟨rfl, rfl, fun q => ?_⟩
  by_cases hq : q = p
  · subst hq
    exact .inr ⟨hnone, ⟨path, List.mem_singleton_self path, (eq_locate_of_place? hp).symm⟩,
      get?_set_self fs hne _⟩
  · exact .inl (get?_set_of_ne fs hq _)

/-- The second tree is the first one with a directory that was made at one of the paths. -/
def Makes (refused : String → Option IoError) (paths : List String) (fs fs' : FileTree) : Prop :=
  ∃ path ∈ paths, fs.makeDirectory path refused = .ok fs'

/-- Whatever comes of it, the directories are made one after the other. -/
lemma reflTransGen_makeAll (fs : FileTree) (refused : String → Option IoError)
    (paths : List String) :
    Relation.ReflTransGen (Makes refused paths) fs (fs.makeAll refused paths).1 := by
  induction paths with
  | nil => exact .refl
  | cons path above ih =>
    have hhead {fs fs' : FileTree} (h : fs.makeDirectory path refused = .ok fs') :
        Makes refused (path :: above) fs fs' := ⟨path, List.mem_cons_self, h⟩
    rw [makeAll]
    cases hmake : fs.makeDirectory path refused with
    | ok fs' => exact .single (hhead hmake)
    | error e =>
      simp only
      split_ifs
      · have habove : Relation.ReflTransGen (Makes refused (path :: above)) fs
            (fs.makeAll refused above).1 :=
          Relation.ReflTransGen.mono
            (fun _ _ ⟨other, hother, h⟩ => ⟨other, List.mem_cons_of_mem path hother, h⟩) _ _ ih
        generalize fs.makeAll refused above = made at habove ⊢
        obtain ⟨fs', _ | _⟩ := made
        · exact habove
        · simp only
          cases hmake' : fs'.makeDirectory path refused with
          | ok fs'' => exact habove.tail (hhead hmake')
          | error e => exact habove
      · exact .refl

lemma growsBy_makeAll (fs : FileTree) (refused : String → Option IoError) (paths : List String) :
    GrowsBy paths fs (fs.makeAll refused paths).1 := by
  have hsteps := reflTransGen_makeAll fs refused paths
  generalize (fs.makeAll refused paths).1 = fs' at hsteps
  induction hsteps with
  | refl => exact .refl paths fs
  | tail _ hstep ih =>
    obtain ⟨path, hpath, hmake⟩ := hstep
    have hmem : [path] ⊆ paths := by simpa using hpath
    exact ih.trans ((growsBy_makeDirectory hmake).mono hmem)

/-- Making the directory of a path adds directories on the way to it and changes nothing else. -/
theorem growsBy_makeDirectories (fs : FileTree) (path : String)
    (refused : String → Option IoError) :
    GrowsBy (Path.ancestors path) fs (fs.makeDirectories path refused).1 :=
  growsBy_makeAll fs refused (Path.ancestors path)

/-! ### The directory itself -/

lemma ancestors_eq (path : String) :
    Path.ancestors path = [] ∨ ∃ above, Path.ancestors path = path :: above := by
  rw [Path.ancestors]
  split
  · exact .inl rfl
  · exact .inr ⟨_, rfl⟩

lemma isDirectory_of_unlessDirectory {fs fs' : FileTree} {path : String} {e : IoError}
    (h : fs.unlessDirectory path e = (fs', .ok ())) : fs'.isDirectory path := by
  rw [unlessDirectory, Prod.mk.injEq] at h
  obtain ⟨rfl, h⟩ := h
  split_ifs at h with hdir
  exact hdir

lemma isDirectory_of_makeDirectory {fs fs' : FileTree} {path : String}
    {refused : String → Option IoError} (h : fs.makeDirectory path refused = .ok fs') :
    fs'.isDirectory path := by
  obtain ⟨p, hp, hne, hnone, rfl⟩ := makeDirectory_eq_ok h
  exact isDirectory_iff.mpr ⟨p, _, place?_set (by simp [hnone]) _ hp, get?_set_self fs hne _⟩

lemma makeAll_of_isDirectory {fs : FileTree} {path : String} (h : fs.isDirectory path)
    (refused : String → Option IoError) (above : List String) :
    fs.makeAll refused (path :: above) = (fs, .ok ()) := by
  obtain ⟨p, m, hp, hdir⟩ := isDirectory_iff.mp h
  have hmake : fs.makeDirectory path refused = .error .alreadyExists := by
    simp [makeDirectory, hp, hdir, bind, Except.bind, throw, throwThe, MonadExceptOf.throw]
  rw [makeAll, hmake]
  simp [IoError.alreadyExists, unlessDirectory, h]

lemma isDirectory_of_makeAll {fs fs' : FileTree} {path : String} {above : List String}
    {refused : String → Option IoError} (h : fs.makeAll refused (path :: above) = (fs', .ok ())) :
    fs'.isDirectory path := by
  rw [makeAll] at h
  split at h
  · rename_i hmake
    cases h
    exact isDirectory_of_makeDirectory hmake
  · split_ifs at h
    · split at h
      · cases h
      · split at h
        · rename_i hmake
          cases h
          exact isDirectory_of_makeDirectory hmake
        · exact isDirectory_of_unlessDirectory h
    · exact isDirectory_of_unlessDirectory h

/-- A directory that is there need not be made. -/
theorem makeDirectories_of_isDirectory {fs : FileTree} {path : String} (h : fs.isDirectory path)
    (refused : String → Option IoError) : fs.makeDirectories path refused = (fs, .ok ()) := by
  rw [makeDirectories]
  rcases ancestors_eq path with hnone | ⟨above, hsome⟩
  · rw [hnone]
    rfl
  · rw [hsome]
    exact makeAll_of_isDirectory h refused above

/-- A directory that could be made is there. -/
theorem isDirectory_makeDirectories {fs fs' : FileTree} {path : String}
    (hpath : Path.ancestors path ≠ []) {refused : String → Option IoError}
    (h : fs.makeDirectories path refused = (fs', .ok ())) : fs'.isDirectory path := by
  obtain ⟨above, hsome⟩ := (ancestors_eq path).resolve_left hpath
  rw [makeDirectories, hsome] at h
  exact isDirectory_of_makeAll h

end ServiceDocs.FileTree
