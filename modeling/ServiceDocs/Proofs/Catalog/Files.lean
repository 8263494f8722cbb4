import ServiceDocs.Generation
import ServiceDocs.Proofs.FileTree.Below
import ServiceDocs.Proofs.Steps

/-!
# Sources in a tree that changes

A catalog depends on the files that are named as sources and on the files below the directories that
are named, as far as they have the extension of sources. Files that are written elsewhere do not
matter, even if they stand in the same directories.
-/

namespace ServiceDocs

lemma foldlM_congr {ε α β : Type} {f f' : β → α → Except ε β} {as : List α}
    (h : ∀ a ∈ as, ∀ b, f' b a = f b a) (b : β) : as.foldlM f' b = as.foldlM f b := by
  induction as generalizing b with
  | nil => rfl
  | cons a as ih =>
    obtain ⟨ha, has⟩ := List.forall_mem_cons.mp h
    rw [List.foldlM_cons, List.foldlM_cons, ha b]
    exact congrArg _ (funext (ih has))

namespace Catalog

lemma addFile_congr {fs fs' : FileTree} {path : String} (h : fs'.readText path = fs.readText path)
    (c : Catalog) : c.addFile fs' path = c.addFile fs path := by
  rw [addFile, addFile, h]

lemma addReadable_congr {fs fs' : FileTree} {paths : List String}
    (h : ∀ path ∈ paths, fs'.readText path = fs.readText path) (c : Catalog) :
    c.addReadable fs' paths = c.addReadable fs paths := by
  induction paths generalizing c with
  | nil => rfl
  | cons path paths ih =>
    obtain ⟨hpath, hpaths⟩ := List.forall_mem_cons.mp h
    rw [addReadable, addReadable, addFile_congr hpath]
    cases c.addFile fs path with
    | error e => exact ih hpaths c
    | ok added => simp only [ih hpaths]

lemma ofSources_eq_ok_iff {fs : FileTree} {sources : List String} {c : Catalog} :
    ofSources fs sources = .ok c ↔
      (∀ path ∈ sources, fs.pathExists path) ∧ ofPaths fs sources = .ok c := by
  rw [ofSources]
  cases hmissing : sources.find? fun path => !fs.pathExists path with
  | some path =>
    have hpath := List.find?_some hmissing
    rw [Bool.not_eq_true'] at hpath
    refine ⟨fun h => (by cases h), fun h => ?_⟩
    rw [h.1 path (List.mem_of_find?_eq_some hmissing)] at hpath
    cases hpath
  | none =>
    have hthere : ∀ path ∈ sources, fs.pathExists path := by
      simpa using List.find?_eq_none.mp hmissing
    rw [mapError_eq_ok_iff]
    exact (and_iff_right hthere).symm

/-- The place has the name of a source. -/
def isSourcePlace (q : Place) : Bool :=
  Path.hasExtension sourceExtension (q.getLastD "")

section Changes

variable {written : Place → Prop} {fs fs' : FileTree} (h : FileTree.Changes written fs fs')
  (hwritten : ∀ q, written q → isSourcePlace q = false)

include h hwritten

lemma sourcesBelow_eq (root : String) (p : Place) :
    sourcesBelow fs' root p = sourcesBelow fs root p := by
  have hsources := h.filter_filesBelow hwritten p
  unfold isSourcePlace at hsources
  rw [sourcesBelow, sourcesBelow, hsources]

variable (hfs : fs.WellFormed) (hlinks : fs.HasNoLinks)

include hfs hlinks

/-- A source below a directory is not one of the files that are written. -/
lemma readText_eq_of_mem_sourcesBelow {root path : String} {p : Place} {m : ℕ}
    (hroot : fs.find? root = .ok (p, .directory m)) (hpath : path ∈ sourcesBelow fs root p) :
    fs'.readText path = fs.readText path := by
  rw [sourcesBelow] at hpath
  obtain ⟨q, hq, rfl⟩ := List.mem_map.mp hpath
  obtain ⟨hbelow, hsource⟩ := List.mem_filter.mp hq
  obtain ⟨⟨rel, rfl⟩, c, m', hfile⟩ := hfs.exists_file_of_mem hbelow
  obtain ⟨hplace, hdir⟩ := FileTree.find?_eq_directory_iff.mp hroot
  have hrel : rel ≠ [] := by
    rintro rfl
    rw [List.append_nil, hdir] at hfile
    cases hfile
  have hfind := hfs.find?_below hplace hrel hfile
  rw [List.drop_left]
  apply FileTree.readText_congr
  rw [hfind]
  apply h.find?_eq_ok hlinks hfind
  intro _ _ _ hw
  have hno := hwritten _ hw
  rw [isSourcePlace, hsource] at hno
  cases hno

lemma addPath_eq {path : String} {p : Place} {e : Entry} (hfind : fs.find? path = .ok (p, e))
    (hkept : ∀ c m, e = .file c m → ¬ written p) (c : Catalog) :
    c.addPath fs' path = c.addPath fs path := by
  have hfind' := h.find?_eq_ok hlinks hfind hkept
  rw [addPath, addPath, hfind, hfind']
  cases e with
  | directory m =>
    dsimp only
    rw [sourcesBelow_eq h hwritten, addReadable_congr]
    exact fun path hpath => readText_eq_of_mem_sourcesBelow h hwritten hfs hlinks hfind hpath
  | _ => exact addFile_congr (FileTree.readText_congr (hfind'.trans hfind.symm)) c

/-- A catalog stays the same when no file is written over a source. -/
lemma ofSources_eq_ok {sources : List String} {c : Catalog} (hc : ofSources fs sources = .ok c)
    (hnamed : ∀ path ∈ sources, ∀ q contents m,
      fs.find? path = .ok (q, .file contents m) → ¬ written q) :
    ofSources fs' sources = .ok c := by
  obtain ⟨hthere, hc⟩ := ofSources_eq_ok_iff.mp hc
  have hfound : ∀ path ∈ sources, ∃ q e, fs.find? path = .ok (q, e) ∧
      ∀ contents m, e = .file contents m → ¬ written q := by
    intro path hpath
    obtain ⟨q, e, hfind⟩ := FileTree.pathExists_iff.mp (hthere path hpath)
    refine ⟨q, e, hfind, ?_⟩
    rintro contents m rfl
    exact hnamed path hpath q contents m hfind
  refine ofSources_eq_ok_iff.mpr ⟨fun path hpath => ?_, ?_⟩
  · obtain ⟨q, e, hfind, hkept⟩ := hfound path hpath
    exact FileTree.pathExists_iff.mpr ⟨q, e, h.find?_eq_ok hlinks hfind hkept⟩
  · rw [← hc]
    apply foldlM_congr
    intro path hpath c
    obtain ⟨q, e, hfind, hkept⟩ := hfound path hpath
    rw [addPath_eq h hwritten hfs hlinks hfind hkept]

end Changes

end Catalog

end ServiceDocs
