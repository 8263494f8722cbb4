import Mathlib.Tactic.Common
import ServiceDocs.Proofs.FileTree.Links

/-!
# Places of paths

Following a path either fails or leads to the place that the path names; what the tree holds only
decides which of the two happens. The places that are met on the way are made up of the names in
the path and in the place at which it starts, so entries with other names do not matter.
-/

namespace ServiceDocs.FileTree

/-! ### The place that a path names -/

/-- The place that a path names, whatever the tree holds. -/
def locate (fs : FileTree) (path : String) : Place :=
  (Path.parts path).foldl step (fs.origin path)

/-- Each part of a path starts at a directory. -/
lemma walk_cons_eq_ok_iff {fs : FileTree} {p q : Place} {part : String} {parts : List String} :
    fs.walk p (part :: parts) = .ok q ↔
      (∃ m, fs.get? p = some (.directory m)) ∧ fs.walk (step p part) parts = .ok q := by
  rw [walk]
  constructor
  · intro h
    split at h
    · rename_i m hdir
      exact ⟨⟨m, hdir⟩, h⟩
    · exact absurd h (noDirectory_ne_ok q)
    · cases h
  · rintro ⟨⟨m, hdir⟩, h⟩
    rw [hdir]
    exact h

lemma eq_foldl_of_walk {fs : FileTree} {p q : Place} {parts : List String}
    (h : fs.walk p parts = .ok q) : q = parts.foldl step p := by
  induction parts generalizing p with
  | nil =>
    simp only [walk, Except.ok.injEq] at h
    exact h.symm
  | cons part parts ih => exact ih (walk_cons_eq_ok_iff.mp h).2

lemma eq_locate_of_place? {fs : FileTree} {path : String} {p : Place}
    (h : fs.place? path = .ok p) : p = fs.locate path := by
  rw [place?] at h
  split_ifs at h
  exact eq_foldl_of_walk h

/-! ### Entries of paths -/

lemma entryAt?_eq_ok_iff {fs : FileTree} {path : String} {q : Place} {e : Entry} :
    fs.entryAt? path = .ok (q, e) ↔
      fs.place? path = .ok q ∧ fs.get? q = some e ∧
        (Path.endsWithSlash path → ∃ m, e = .directory m) := by
  rw [entryAt?, bind_eq_ok_iff]
  constructor
  · rintro ⟨p, hp, h⟩
    split at h
    · cases h
    · rename_i m he
      cases h
      exact ⟨hp, he, fun _ => ⟨m, rfl⟩⟩
    · rename_i found _ he
      split_ifs at h with hslash
      · exact absurd h (noDirectory_ne_ok _)
      · cases h
        exact ⟨hp, he, fun h => absurd h hslash⟩
  · rintro ⟨hq, he, hslash⟩
    refine ⟨q, hq, ?_⟩
    rw [he]
    by_cases hpath : Path.endsWithSlash path
    · obtain ⟨m, rfl⟩ := hslash hpath
      rfl
    · cases e <;> simp only [if_neg hpath] <;> rfl

lemma find?_of_entryAt? {fs : FileTree} {path : String} {found : Place × Entry}
    (h : fs.entryAt? path = .ok found) : fs.find? path = fs.behind found := by
  rw [find?, h]
  rfl

/-- An entry that is no link is found as it is. -/
lemma find?_of_noLink {fs : FileTree} {path : String} {q : Place} {e : Entry}
    (h : fs.entryAt? path = .ok (q, e)) (he : ∀ t, e ≠ .link t) : fs.find? path = .ok (q, e) :=
  (find?_of_entryAt? h).trans (behind_of_noLink he)

lemma entryAt?_of_file {fs : FileTree} {path : String} {p : Place} {c : Contents} {m : ℕ}
    (hp : fs.place? path = .ok p) (hslash : Path.endsWithSlash path = false)
    (he : fs.get? p = some (.file c m)) : fs.entryAt? path = .ok (p, .file c m) :=
  entryAt?_eq_ok_iff.mpr ⟨hp, he, fun h => absurd h (by simp [hslash])⟩

/-- A file that stands at the place of a path is found, unless the path asks for a directory. -/
lemma find?_of_file {fs : FileTree} {path : String} {p : Place} {c : Contents} {m : ℕ}
    (hp : fs.place? path = .ok p) (hslash : Path.endsWithSlash path = false)
    (he : fs.get? p = some (.file c m)) : fs.find? path = .ok (p, .file c m) :=
  find?_of_noLink (entryAt?_of_file hp hslash he) (by simp)

/-- No link leads to a directory that is found. -/
lemma find?_eq_directory_iff {fs : FileTree} {path : String} {q : Place} {m : ℕ} :
    fs.find? path = .ok (q, .directory m) ↔
      fs.place? path = .ok q ∧ fs.get? q = some (.directory m) := by
  constructor
  · intro h
    obtain ⟨⟨p, e⟩, hentry, hbehind⟩ := bind_eq_ok_iff.mp h
    cases e with
    | link t =>
      obtain ⟨_, _, c, m, hfile⟩ := behind_link_eq_ok_iff.mp hbehind
      cases hfile
    | file c m => cases hbehind
    | directory m =>
      cases hbehind
      obtain ⟨hplace, he, _⟩ := entryAt?_eq_ok_iff.mp hentry
      exact ⟨hplace, he⟩
  · rintro ⟨hplace, he⟩
    exact find?_of_noLink (entryAt?_eq_ok_iff.mpr ⟨hplace, he, fun _ => ⟨m, rfl⟩⟩) (by simp)

/-- Where there are no links, each entry is found as it is. -/
lemma HasNoLinks.find?_eq_ok_iff {fs : FileTree} (h : fs.HasNoLinks) {path : String} {q : Place}
    {e : Entry} :
    fs.find? path = .ok (q, e) ↔
      fs.place? path = .ok q ∧ fs.get? q = some e ∧
        (Path.endsWithSlash path → ∃ m, e = .directory m) := by
  rw [← entryAt?_eq_ok_iff]
  have hno {p : Place} {e : Entry} (hentry : fs.entryAt? path = .ok (p, e)) (t : Place) :
      e ≠ .link t := by
    rintro rfl
    exact h p t (entryAt?_eq_ok_iff.mp hentry).2.1
  constructor
  · intro hfind
    obtain ⟨⟨p, e'⟩, hentry, hbehind⟩ := bind_eq_ok_iff.mp hfind
    rw [behind_of_noLink (hno hentry)] at hbehind
    cases hbehind
    exact hentry
  · intro hentry
    exact find?_of_noLink hentry (hno hentry)

lemma pathExists_iff {fs : FileTree} {path : String} :
    fs.pathExists path ↔ ∃ p e, fs.find? path = .ok (p, e) := by
  rw [pathExists]
  obtain e | ⟨p, e⟩ := fs.find? path <;> simp [Except.toOption]

lemma isFile_iff {fs : FileTree} {path : String} :
    fs.isFile path ↔ ∃ p c m, fs.find? path = .ok (p, .file c m) := by
  rw [isFile]
  obtain e | ⟨p, e⟩ := fs.find? path
  · simp
  · cases e <;> simp

lemma isDirectory_iff {fs : FileTree} {path : String} :
    fs.isDirectory path ↔ ∃ p m, fs.place? path = .ok p ∧ fs.get? p = some (.directory m) := by
  have hfound : fs.isDirectory path ↔ ∃ p m, fs.find? path = .ok (p, .directory m) := by
    rw [isDirectory]
    obtain e | ⟨p, e⟩ := fs.find? path
    · simp
    · cases e <;> simp
  rw [hfound]
  simp only [find?_eq_directory_iff]

lemma readText_congr {fs fs' : FileTree} {path : String}
    (h : fs'.find? path = fs.find? path) : fs'.readText path = fs.readText path := by
  rw [readText, h]
  rfl

lemma readText_eq_ok_iff {fs : FileTree} {path text : String} :
    fs.readText path = .ok text ↔ ∃ p m, fs.find? path = .ok (p, .file (.text text) m) := by
  rw [readText]
  constructor
  · intro h
    obtain ⟨⟨p, e⟩, hfind, h⟩ := bind_eq_ok_iff.mp h
    cases e with
    | directory m => cases h
    | link t => cases h
    | file c m =>
      cases c with
      | bytes bs => cases h
      | text s =>
        cases h
        exact ⟨p, m, hfind⟩
  · rintro ⟨p, m, hfind⟩
    rw [hfind]
    rfl

/-! ### Directories on the way -/

/-- A path that can be followed can still be followed when something changes at a place where there
is no directory. -/
lemma walk_set {fs : FileTree} {r : Place} (hr : ∀ m, fs.get? r ≠ some (.directory m)) (e : Entry)
    {p q : Place} {parts : List String} (h : fs.walk p parts = .ok q) :
    (fs.set r e).walk p parts = .ok q := by
  induction parts generalizing p with
  | nil => exact h
  | cons part parts ih =>
    obtain ⟨⟨m, hdir⟩, hrest⟩ := walk_cons_eq_ok_iff.mp h
    have hne : p ≠ r := by
      rintro rfl
      exact hr m hdir
    exact walk_cons_eq_ok_iff.mpr ⟨⟨m, (get?_set_of_ne fs hne e).trans hdir⟩, ih hrest⟩

lemma place?_set {fs : FileTree} {r : Place} (hr : ∀ m, fs.get? r ≠ some (.directory m)) (e : Entry)
    {path : String} {q : Place} (h : fs.place? path = .ok q) :
    (fs.set r e).place? path = .ok q := by
  rw [place?] at h ⊢
  split_ifs at h with hempty
  rw [if_neg hempty]
  exact walk_set hr e h

/-! ### Writing -/

/-- A text is written where the links at the place of its path end, and no directory stands
there. -/
lemma writeText_eq_ok {fs fs' : FileTree} {path text : String}
    (h : fs.writeText path text = .ok fs') :
    ∃ p m, fs.place? path = .ok p ∧ (∀ mode, fs.get? (fs.linkEnd p) ≠ some (.directory mode)) ∧
      (∀ t, fs.get? (fs.linkEnd p) ≠ some (.link t)) ∧ Path.endsWithSlash path = false ∧
      fs' = fs.set (fs.linkEnd p) (.file (.text text) m) := by
  obtain ⟨p, hp, h⟩ := bind_eq_ok_iff.mp h
  dsimp only at h
  split at h
  · cases h
  · cases h
  · rename_i c m he
    split_ifs at h with hslash
    cases h
    exact ⟨p, m, hp, by simp [he], by simp [he], by simpa using hslash, rfl⟩
  · rename_i he
    split_ifs at h with hslash
    split at h
    · cases h
      exact ⟨p, _, hp, by simp [he], by simp [he], by simpa using hslash, rfl⟩
    · cases h

/-- A text that has been written to a file is read from it. -/
lemma readText_writeText {fs fs' : FileTree} {path text : String}
    (h : fs.writeText path text = .ok fs') : fs'.readText path = .ok text := by
  obtain ⟨p, m, hp, hdirectory, hlink, hslash, rfl⟩ := writeText_eq_ok h
  have hne : fs.linkEnd p ≠ [] := by
    intro hroot
    rw [hroot] at hdirectory
    exact hdirectory _ fs.get?_nil
  have hplace := place?_set hdirectory (.file (.text text) m) hp
  have hwritten := get?_set_self fs hne (.file (.text text) m)
  refine readText_eq_ok_iff.mpr ⟨fs.linkEnd p, m, ?_⟩
  by_cases hstart : ∃ t, fs.get? p = some (.link t)
  · obtain ⟨t, ht⟩ := hstart
    obtain ⟨ps, htrail⟩ := (exists_trail_or_link fs p).resolve_right (not_exists.mpr hlink)
    have hend := (htrail.set hne (e := .file (.text text) m) (by simp)).linkEnd_eq
    have hstays : (fs.set (fs.linkEnd p) (.file (.text text) m)).get? p = some (.link t) := by
      rw [get?_set_of_ne, ht]
      intro heq
      exact hlink t (heq ▸ ht)
    have hentry := entryAt?_eq_ok_iff.mpr ⟨hplace, hstays, fun h => absurd h (by simp [hslash])⟩
    refine bind_eq_ok_iff.mpr
      ⟨_, hentry, behind_link_eq_ok_iff.mpr ⟨hend.symm, hwritten, _, _, rfl⟩⟩
  · have hsame := linkEnd_of_noLink (not_exists.mp hstart)
    rw [hsame] at hplace hwritten ⊢
    exact find?_of_file hplace hslash hwritten

/-! ### Names that are not on the way -/

lemma notMem_step {x part : String} {p : Place} (hp : x ∉ p) (hpart : x ≠ part) :
    x ∉ step p part := by
  rw [step]
  split_ifs
  · exact hp
  · exact fun h => hp (List.dropLast_subset p h)
  · rw [List.mem_append, List.mem_singleton]
    rintro (h | h)
    · exact hp h
    · exact hpart h

lemma notMem_foldl_step {x : String} {p : Place} {parts : List String} (hp : x ∉ p)
    (hparts : x ∉ parts) : x ∉ parts.foldl step p := by
  induction parts generalizing p with
  | nil => exact hp
  | cons part parts ih =>
    rw [List.mem_cons, not_or] at hparts
    exact ih (notMem_step hp hparts.1) hparts.2

/-- The name does not stand on the way of a path. -/
def Avoids (fs : FileTree) (x path : String) : Prop :=
  x ∉ fs.origin path ∧ x ∉ Path.parts path

lemma notMem_locate {fs : FileTree} {x path : String} (h : fs.Avoids x path) :
    x ∉ fs.locate path :=
  notMem_foldl_step h.1 h.2

section Congruence

variable {fs fs' : FileTree} {x : String}

/-- The trees differ at most at places with the given name, and no other link leads to one of
these. -/
structure AgreeApartFrom (x : String) (fs fs' : FileTree) : Prop where
  workingDirectory : fs'.workingDirectory = fs.workingDirectory
  get?_eq : ∀ q, x ∉ q → fs'.get? q = fs.get? q
  notMem_link : ∀ q t, x ∉ q → fs.get? q = some (.link t) → x ∉ t

namespace AgreeApartFrom

lemma set (fs : FileTree) {p : Place} (hx : x ∈ p) (e : Entry)
    (hlinks : ∀ q t, x ∉ q → fs.get? q = some (.link t) → x ∉ t) :
    AgreeApartFrom x fs (fs.set p e) where
  workingDirectory := rfl
  get?_eq := by
    intro q hq
    refine get?_set_of_ne fs ?_ e
    rintro rfl
    exact hq hx
  notMem_link := hlinks

variable (h : AgreeApartFrom x fs fs')

include h

lemma symm : AgreeApartFrom x fs' fs where
  workingDirectory := h.workingDirectory.symm
  get?_eq q hq := (h.get?_eq q hq).symm
  notMem_link q t hq ht := h.notMem_link q t hq ((h.get?_eq q hq).symm.trans ht)

/-- A way along links that starts apart from the name stays so. -/
lemma trail {ps : List Place} {p q : Place} (hp : x ∉ p) (htrail : LinkTrail fs ps p q) :
    LinkTrail fs' ps p q ∧ x ∉ q := by
  induction htrail with
  | here hno =>
    refine ⟨.here ?_, hp⟩
    rwa [h.get?_eq _ hp]
  | link hlink _ ih =>
    obtain ⟨htrail, hq⟩ := ih (h.notMem_link _ _ hp hlink)
    refine ⟨.link ?_ htrail, hq⟩
    rwa [h.get?_eq _ hp]

lemma behind_eq {p : Place} (hp : x ∉ p) (e : Entry) : fs'.behind (p, e) = fs.behind (p, e) := by
  cases e with
  | file c m => rfl
  | directory m => rfl
  | link t =>
    rw [behind, behind]
    rcases exists_trail_or_link fs p with ⟨ps, htrail⟩ | ⟨t, ht⟩
    · obtain ⟨htrail', hq⟩ := h.trail hp htrail
      rw [htrail'.linkEnd_eq, h.get?_eq _ hq]
    · -- the links lead round in a circle, which is there in the other tree as well
      rcases exists_trail_or_link fs' p with ⟨ps, htrail'⟩ | ⟨t', ht'⟩
      · obtain ⟨htrail, _⟩ := h.symm.trail hp htrail'
        rw [htrail.linkEnd_eq] at ht
        exact absurd ht (htrail.noLink t)
      · rw [ht, ht']

lemma noDirectory_eq {α : Type} {p : Place} (hp : x ∉ p) (e : Entry) :
    fs'.noDirectory (α := α) p e = fs.noDirectory p e := by
  rw [noDirectory, noDirectory, h.behind_eq hp]

lemma walk_eq {p : Place} {parts : List String} (hp : x ∉ p) (hparts : x ∉ parts) :
    fs'.walk p parts = fs.walk p parts := by
  induction parts generalizing p with
  | nil => rfl
  | cons part parts ih =>
    rw [List.mem_cons, not_or] at hparts
    have hrest := ih (notMem_step hp hparts.1) hparts.2
    rw [walk, walk, h.get?_eq p hp, hrest]
    simp only [h.noDirectory_eq hp]

lemma origin_eq (path : String) : fs'.origin path = fs.origin path := by
  unfold origin
  rw [h.workingDirectory]

lemma place?_eq {path : String} (hpath : fs.Avoids x path) : fs'.place? path = fs.place? path := by
  unfold place?
  rw [h.origin_eq path, h.walk_eq hpath.1 hpath.2]

lemma entryAt?_eq {path : String} (hpath : fs.Avoids x path) :
    fs'.entryAt? path = fs.entryAt? path := by
  unfold entryAt?
  rw [h.place?_eq hpath]
  cases hp : fs.place? path with
  | error e => rfl
  | ok p =>
    have hx : x ∉ p := eq_locate_of_place? hp ▸ notMem_locate hpath
    simp only [bind, Except.bind, h.get?_eq p hx, h.noDirectory_eq hx]

end AgreeApartFrom

end Congruence

end ServiceDocs.FileTree
