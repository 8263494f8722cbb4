import ServiceDocs.Publication
import ServiceDocs.Proofs.FileTree.Places
import ServiceDocs.Proofs.Steps

/-!
# Publications are all-or-nothing

A publication works on a temporary file until the document takes the place of its target in one
step. The name of the temporary file is new, so nobody who follows the path of the target, or a link
there, meets it, and taking it away again restores the tree.
-/

namespace ServiceDocs

/-- The mode of a document at a place: that of the file which is found there, also behind a link,
and else the usual one. -/
def FileTree.documentMode (fs : FileTree) (p : Place) : Nat :=
  match fs.get? (fs.linkEnd p) with
  | some (.file _ m) => m
  | _                => fs.newMode 0o644

/-- The tree with a document at a place. -/
def FileTree.put (fs : FileTree) (p : Place) (text : String) : FileTree :=
  fs.set p (.file (.text text) (fs.documentMode p))

namespace FileTree

lemma ne_nil_of_noDirectory {fs : FileTree} {p : Place}
    (h : ∀ m, fs.get? p ≠ some (.directory m)) : p ≠ [] := by
  rintro rfl
  exact h _ (get?_nil fs)

lemma get?_put_self {fs : FileTree} {p : Place} (h : ∀ m, fs.get? p ≠ some (.directory m))
    (text : String) : (fs.put p text).get? p = some (.file (.text text) (fs.documentMode p)) :=
  get?_set_self fs (ne_nil_of_noDirectory h) _

lemma get?_put_of_ne (fs : FileTree) {p q : Place} (h : q ≠ p) (text : String) :
    (fs.put p text).get? q = fs.get? q :=
  get?_set_of_ne fs h _

/-- A document that has been put at the place of a path stands there. -/
lemma entryAt?_put {fs : FileTree} {path : String} {p : Place} (hp : fs.place? path = .ok p)
    (hslash : Path.endsWithSlash path = false) (h : ∀ m, fs.get? p ≠ some (.directory m))
    (text : String) :
    (fs.put p text).entryAt? path = .ok (p, .file (.text text) (fs.documentMode p)) :=
  entryAt?_of_file (place?_set h _ hp) hslash (get?_put_self h text)

end FileTree

namespace Publication

/-! ### The temporary file -/

section Temporary

variable (naming : Naming) (fs : FileTree) (d : Place) (target : String)

lemma temporaryName_notMem : temporaryName naming fs d target ∉ takenNames fs d target :=
  naming.name_notMem _

/-- The temporary file takes a place that is free. -/
lemma ne_temporaryPlace_of_mem_entries :
    ∀ x ∈ fs.entries, x.1 ≠ temporaryPlace naming fs d target := by
  rintro ⟨p, e⟩ hx rfl
  apply temporaryName_notMem naming fs d target
  rw [takenNames, List.mem_append, List.mem_append, List.mem_append]
  refine .inl (.inl (.inl (List.mem_filterMap.mpr ⟨_, hx, ?_⟩)))
  simp [temporaryPlace]

lemma avoids_temporaryName : fs.Avoids (temporaryName naming fs d target) target := by
  have hfresh := temporaryName_notMem naming fs d target
  rw [takenNames, List.mem_append, List.mem_append, List.mem_append] at hfresh
  push Not at hfresh
  exact ⟨hfresh.1.1.2, hfresh.1.2⟩

/-- No link leads to the temporary file. -/
lemma temporaryName_notMem_link {q t : Place} (ht : fs.get? q = some (.link t)) :
    temporaryName naming fs d target ∉ t := by
  intro hmem
  apply temporaryName_notMem naming fs d target
  rw [takenNames, List.mem_append]
  exact .inr (List.mem_flatMap.mpr ⟨(q, .link t), FileTree.mem_of_get?_link ht, hmem⟩)

lemma agreeApartFrom_temporary (e : Entry) :
    FileTree.AgreeApartFrom (temporaryName naming fs d target) fs
      (fs.set (temporaryPlace naming fs d target) e) :=
  FileTree.AgreeApartFrom.set fs (by simp [temporaryPlace]) e fun _ _ _ ht =>
    temporaryName_notMem_link naming fs d target ht

/-- Who follows the path of the target does not see the temporary file. -/
lemma entryAt?_set_temporary (e : Entry) :
    (fs.set (temporaryPlace naming fs d target) e).entryAt? target = fs.entryAt? target :=
  (agreeApartFrom_temporary naming fs d target e).entryAt?_eq
    (avoids_temporaryName naming fs d target)

lemma erase_set_temporary (e : Entry) :
    (fs.set (temporaryPlace naming fs d target) e).erase (temporaryPlace naming fs d target) = fs :=
  FileTree.erase_set (ne_temporaryPlace_of_mem_entries naming fs d target) e

lemma get?_temporaryPlace : fs.get? (temporaryPlace naming fs d target) = none := by
  rw [FileTree.get?_of_ne_nil fs (by simp [temporaryPlace])]
  apply List.lookup_eq_none_iff.mpr
  intro x hx
  simpa using (ne_temporaryPlace_of_mem_entries naming fs d target x hx).symm

end Temporary

/-! ### The target -/

lemma renameTarget_eq_ok {fs : FileTree} {path : String} {p : Place}
    (h : renameTarget fs path = .ok p) :
    fs.place? path = .ok p ∧ Path.endsWithSlash path = false ∧
      ∀ m, fs.get? p ≠ some (.directory m) := by
  rw [renameTarget] at h
  obtain ⟨q, hp, h⟩ := bind_eq_ok_iff.mp h
  dsimp only at h
  split at h
  · cases h
  · split at h
    · cases h
    · rename_i hslash
      split at h
      · cases h
      · rename_i hdir
        cases h
        exact ⟨hp, by simpa using hslash, hdir⟩

lemma renameTarget_set_temporary (naming : Naming) (fs : FileTree) (d : Place) (target : String)
    (e : Entry) :
    renameTarget (fs.set (temporaryPlace naming fs d target) e) target =
      renameTarget fs target := by
  have hagree := agreeApartFrom_temporary naming fs d target e
  have havoids := avoids_temporaryName naming fs d target
  unfold renameTarget
  rw [hagree.place?_eq havoids]
  cases hp : fs.place? target with
  | error e => rfl
  | ok p =>
    have hx : temporaryName naming fs d target ∉ p :=
      FileTree.eq_locate_of_place? hp ▸ FileTree.notMem_locate havoids
    simp only [bind, Except.bind, hagree.get?_eq p hx]

/-- A file that is found at the target passes its mode on, and else the document gets the usual
mode. -/
lemma replacedMode?_getD {fs : FileTree} {target : String} {p : Place}
    (hp : fs.place? target = .ok p) (hslash : Path.endsWithSlash target = false) :
    (replacedMode? fs target).getD (fs.newMode 0o644) = fs.documentMode p := by
  rw [replacedMode?, FileTree.documentMode]
  cases he : fs.get? p with
  | none =>
    have hfind : fs.find? target = .error .notFound := by
      simp [FileTree.find?, FileTree.entryAt?, hp, he, bind, Except.bind, throw, throwThe,
        MonadExceptOf.throw]
    rw [hfind, FileTree.linkEnd_of_noLink (by simp [he]), he]
    rfl
  | some e =>
    have hentry : fs.entryAt? target = .ok (p, e) :=
      FileTree.entryAt?_eq_ok_iff.mpr ⟨hp, he, fun h => absurd h (by simp [hslash])⟩
    rw [FileTree.find?_of_entryAt? hentry]
    cases e with
    | link t =>
      rw [FileTree.behind]
      cases fs.get? (fs.linkEnd p) with
      | none => rfl
      | some found => cases found <;> rfl
    | file c m => rw [FileTree.linkEnd_of_file he, he]; rfl
    | directory m => rw [FileTree.linkEnd_of_noLink (by simp [he]), he]; rfl

lemma documentMode_of_find? {fs : FileTree} {target : String} {p : Place}
    (hp : fs.place? target = .ok p) (hslash : Path.endsWithSlash target = false) :
    (∀ q c m, fs.find? target = .ok (q, .file c m) → fs.documentMode p = m) ∧
      ((∀ q c m, fs.find? target ≠ .ok (q, .file c m)) →
        fs.documentMode p = fs.newMode 0o644) := by
  rw [← replacedMode?_getD hp hslash, replacedMode?]
  constructor
  · intro q c m hfind
    rw [hfind]
    rfl
  · intro hnone
    split
    · rename_i q c m hfind
      exact absurd hfind (hnone q c m)
    · rfl

/-! ### What can happen -/

/-- Neither the tree nor the device stands in the way of a publication. -/
structure Unhindered (device : Device) (fs : FileTree) (dir target : String) : Prop where
  directory : ∃ d, unlessRefused device.create (directoryPlace fs dir) = .ok d
  write : device.write = none
  setMode : (replacedMode? fs target).isSome → device.setMode = none
  rename : ∃ p, unlessRefused device.rename (renameTarget fs target) = .ok p

/-- A tree during a publication: the tree of the beginning, or that tree with a temporary file. -/
def Hidden (naming : Naming) (fs : FileTree) (dir target : String) (s : FileTree) : Prop :=
  ∃ d, directoryPlace fs dir = .ok d ∧
    (s = fs ∨ ∃ c m, s = fs.set (temporaryPlace naming fs d target) (.file c m))

/-- The publication has failed, and the tree is the one of the beginning. -/
structure Fails (p : Publication) (device : Device) (fs : FileTree) (dir target : String)
    (e : DocError) : Prop where
  hindered : ¬ Unhindered device fs dir target
  result : p.result = .error e
  final : p.final fs = fs
  states : ∀ s ∈ p.states, Hidden device.naming fs dir target s

/-- The publication has put the document at the place of its target. -/
structure Succeeds (p : Publication) (device : Device) (fs : FileTree) (dir target text : String)
    (place : Place) : Prop where
  unhindered : Unhindered device fs dir target
  result : p.result = .ok target
  located : fs.place? target = .ok place
  noSlash : Path.endsWithSlash target = false
  noDirectory : ∀ m, fs.get? place ≠ some (.directory m)
  final : p.final fs = fs.put place text
  states : ∀ s ∈ p.states, Hidden device.naming fs dir target s ∨ s = fs.put place text

lemma eq_ok_of_unlessRefused {refused : Option IoError} {step : Except IoError Place} {d : Place}
    (h : unlessRefused refused step = .ok d) : step = .ok d := by
  cases refused with
  | none => exact h
  | some e => cases h

/-- A publication succeeds or fails as a whole. -/
theorem publish_cases (device : Device) (fs : FileTree) (dir : String) (doc : Document) :
    (∃ e, (publish device fs dir doc).Fails device fs dir (Path.join dir doc.fileName) e) ∨
      ∃ place, (publish device fs dir doc).Succeeds device fs dir
        (Path.join dir doc.fileName) doc.contents place := by
  generalize htarget : Path.join dir doc.fileName = target
  rw [publish]
  simp only [htarget]
  cases hd : unlessRefused device.create (directoryPlace fs dir) with
  | error e =>
    have hhindered : ¬ Unhindered device fs dir target := by
      rintro ⟨⟨d, hd'⟩, _, _, _⟩
      rw [hd] at hd'
      cases hd'
    exact .inl ⟨.temporary dir e, hhindered, rfl, rfl, by simp⟩
  | ok d =>
    have hdir := eq_ok_of_unlessRefused hd
    have hunchanged : Hidden device.naming fs dir target fs := ⟨d, hdir, .inl rfl⟩
    have hhidden (c : Contents) (m : Nat) : Hidden device.naming fs dir target
        (fs.set (temporaryPlace device.naming fs d target) (.file c m)) :=
      ⟨d, hdir, .inr ⟨c, m, rfl⟩⟩
    simp only [erase_set_temporary]
    cases hwrite : device.write with
    | some e =>
      refine .inl ⟨.temporary dir e, fun h => ?_, rfl, by simp [final, List.getLast?_cons], ?_⟩
      · rw [h.write] at hwrite
        cases hwrite
      · simp [or_imp, forall_and, hhidden, hunchanged]
    | none =>
      cases hmode : if (replacedMode? fs target).isSome then device.setMode else none with
      | some e =>
        refine .inl ⟨.temporary dir e, fun h => ?_, rfl, by simp [final, List.getLast?_cons], ?_⟩
        · split_ifs at hmode with hreplaced
          rw [h.setMode hreplaced] at hmode
          cases hmode
        · simp [or_imp, forall_and, hhidden, hunchanged]
      | none =>
        simp only [renameTarget_set_temporary]
        cases hp : unlessRefused device.rename (renameTarget fs target) with
        | error e =>
          refine .inl ⟨.io target e, fun h => ?_, rfl, by simp [final, List.getLast?_cons], ?_⟩
          · obtain ⟨p, hp'⟩ := h.rename
            rw [hp] at hp'
            cases hp'
          · simp [or_imp, forall_and, hhidden, hunchanged]
        | ok p =>
          obtain ⟨hplace, hslash, hdirectory⟩ := renameTarget_eq_ok (eq_ok_of_unlessRefused hp)
          have hput : fs.set p (.file (.text doc.contents)
              ((replacedMode? fs target).getD (fs.newMode 0o644))) = fs.put p doc.contents := by
            rw [replacedMode?_getD hplace hslash]
            rfl
          have hunhindered : Unhindered device fs dir target := by
            refine ⟨⟨d, hd⟩, hwrite, fun hreplaced => ?_, ⟨p, hp⟩⟩
            rw [if_pos hreplaced] at hmode
            exact hmode
          refine .inr ⟨p, hunhindered, rfl, hplace, hslash, hdirectory, ?_, ?_⟩
          · simp [final, List.getLast?_cons, hput]
          · simp [or_imp, forall_and, hhidden, hput]

lemma Hidden.entryAt?_eq {naming : Naming} {fs s : FileTree} {dir target : String}
    (h : Hidden naming fs dir target s) : s.entryAt? target = fs.entryAt? target := by
  obtain ⟨d, _, rfl | ⟨c, m, rfl⟩⟩ := h
  · rfl
  · exact entryAt?_set_temporary naming fs d target _

example :
    let fs : FileTree := { entries := [
      (["notes"], .file (.text "kept") 0o600),
      (["page.md"], .link ["notes"])] }
    (publish {} fs "." ⟨"page.md", "# Page"⟩).final fs = { entries := [
      (["notes"], .file (.text "kept") 0o600),
      (["page.md"], .file (.text "# Page") 0o600)] } := by
  decide +kernel

end Publication

end ServiceDocs
