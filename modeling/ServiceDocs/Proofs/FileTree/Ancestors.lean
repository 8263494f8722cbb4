import Mathlib.Data.List.Chain
import ServiceDocs.Proofs.FileTree.Directories
import ServiceDocs.Proofs.FileTree.Join

/-!
# Directories above a path

A path leads through each of its ancestors. So where an ancestor is no directory, nothing can be
made further down, and making the directories of a path once more comes to the same end as the
first time and leaves the tree as it is.
-/

namespace ServiceDocs

/-! ### Components -/

namespace Path

/-- The text can be a part of a path. -/
def IsPart (x : String) : Prop :=
  '/' ∉ x.toList ∧ x ≠ ""

lemma isPart_of_mem_parts {path x : String} (h : x ∈ parts path) : IsPart x := by
  rw [parts, List.mem_map] at h
  obtain ⟨cs, hcs, rfl⟩ := h
  rw [List.mem_filter] at hcs
  have hpiece := Text.not_of_mem_pieces path.toList cs hcs.1
  refine ⟨fun hmem => ?_, fun h => ?_⟩
  · rw [String.toList_ofList] at hmem
    simpa using hpiece '/' hmem
  · rw [String.ofList_eq_empty_iff] at h
    simp [h] at hcs

lemma isPart_of_mem_components {path x : String} (h : x ∈ components path) : IsPart x := by
  refine isPart_of_mem_parts (?_ : x ∈ parts path)
  rw [components] at h
  split at h
  · cases h
  · rename_i p ps hparts
    rw [hparts]
    rw [List.mem_append] at h
    rcases h with h | h
    · split_ifs at h
      · cases h
      · exact List.mem_cons.mpr (.inl (List.mem_singleton.mp h))
    · exact List.mem_cons_of_mem p (List.mem_of_mem_filter h)

lemma toList_ofComponents_cons (c d : String) (cs : List String) :
    (ofComponents (c :: d :: cs)).toList = c.toList ++ '/' :: (ofComponents (d :: cs)).toList := by
  rw [ofComponents, ofComponents, String.toList_intercalate, String.toList_intercalate]
  rw [List.map_cons, List.map_cons, List.intercalate_cons_cons]
  simp

/-- Components that are put together are the parts of the path. -/
lemma parts_ofComponents {cs : List String} (h : ∀ c ∈ cs, IsPart c) :
    parts (ofComponents cs) = cs := by
  induction cs with
  | nil => rfl
  | cons c cs ih =>
    obtain ⟨⟨hslash, hne⟩, hcs⟩ := List.forall_mem_cons.mp h
    cases cs with
    | nil => exact parts_of_noSlash hslash hne
    | cons d cs =>
      have hrest := ih hcs
      rw [parts] at hrest ⊢
      rw [toList_ofComponents_cons, Text.pieces_append_cons (by decide), List.filter_append,
        List.map_append, hrest, Text.pieces_of_notMem hslash]
      simp [hne]

lemma isAbsolute_ofComponents {cs : List String} (h : ∀ c ∈ cs, IsPart c) :
    isAbsolute (ofComponents cs) = false := by
  cases cs with
  | nil => rfl
  | cons c cs =>
    obtain ⟨hslash, hne⟩ := h c List.mem_cons_self
    obtain ⟨x, xs, hx⟩ := List.exists_cons_of_ne_nil (by simpa using hne : c.toList ≠ [])
    have hhead : (ofComponents (c :: cs)).toList.head? = some x := by
      cases cs with
      | nil =>
        show c.toList.head? = some x
        rw [hx]
        rfl
      | cons d cs =>
        rw [toList_ofComponents_cons, hx]
        rfl
    rw [isAbsolute, hhead, decide_eq_false_iff_not, Option.some.injEq]
    rintro rfl
    exact hslash (hx ▸ List.mem_cons_self)

lemma ofComponents_ne_empty {cs : List String} (h : ∀ c ∈ cs, IsPart c) (hne : cs ≠ []) :
    ofComponents cs ≠ "" := by
  intro hempty
  apply hne
  rw [← parts_ofComponents h, hempty]
  rfl

lemma endsWithSlash_ofComponents {cs : List String} (h : ∀ c ∈ cs, IsPart c) :
    endsWithSlash (ofComponents cs) = false := by
  induction cs with
  | nil => rfl
  | cons c cs ih =>
    obtain ⟨⟨hslash, _⟩, hcs⟩ := List.forall_mem_cons.mp h
    cases cs with
    | nil =>
      rw [endsWithSlash, decide_eq_false_iff_not]
      exact fun hlast => hslash (List.mem_of_getLast? hlast)
    | cons d cs =>
      have hrest := ih hcs
      rw [endsWithSlash] at hrest ⊢
      obtain ⟨x, xs, hx⟩ := List.exists_cons_of_ne_nil
        (by simpa using ofComponents_ne_empty hcs (by simp) : (ofComponents (d :: cs)).toList ≠ [])
      rw [toList_ofComponents_cons, hx, List.getLast?_append_cons, List.getLast?_cons_cons, ← hx]
      exact hrest

/-- What the paths of components start with. -/
def start (absolute : Bool) : String :=
  if absolute then "/" else ""

lemma start_append_eq (absolute : Bool) {cs : List String} (h : ∀ c ∈ cs, IsPart c)
    (hne : cs ≠ []) :
    parts (start absolute ++ ofComponents cs) = cs ∧
      isAbsolute (start absolute ++ ofComponents cs) = absolute ∧
      start absolute ++ ofComponents cs ≠ "" := by
  have hjoin : start absolute ++ ofComponents cs = join (start absolute) (ofComponents cs) := by
    rw [join_of_relative _ (isAbsolute_ofComponents h)]
    cases absolute
    · exact String.empty_append
    · rfl
  rw [hjoin]
  refine ⟨?_, ?_, join_ne_empty_of_relative _ (isAbsolute_ofComponents h)
    (ofComponents_ne_empty h hne)⟩
  · rw [parts_join_of_relative _ (isAbsolute_ofComponents h), parts_ofComponents h]
    cases absolute <;> rfl
  · rw [isAbsolute_join_of_relative _ (isAbsolute_ofComponents h)]
    cases absolute <;> rfl

end Path

namespace FileTree

/-! ### The way to a path -/

/-- A part that stays in the same directory may be left out. -/
lemma walk_filter {fs : FileTree} {p q : Place} {parts : List String}
    (h : fs.walk p parts = .ok q) : fs.walk p (parts.filter (· ≠ ".")) = .ok q := by
  induction parts generalizing p with
  | nil => exact h
  | cons part parts ih =>
    obtain ⟨hdir, hrest⟩ := walk_cons_eq_ok_iff.mp h
    by_cases hpart : part = "."
    · subst hpart
      rw [step, if_pos rfl] at hrest
      exact ih hrest
    · rw [List.filter_cons_of_pos (by simpa using hpart)]
      exact walk_cons_eq_ok_iff.mpr ⟨hdir, ih hrest⟩

lemma walk_components {fs : FileTree} {path : String} {q : Place} (h : fs.place? path = .ok q) :
    fs.walk (fs.origin path) (Path.components path) = .ok q := by
  rw [place?] at h
  split_ifs at h
  rw [Path.components]
  cases hparts : Path.parts path with
  | nil => rwa [hparts] at h
  | cons p ps =>
    rw [hparts] at h
    dsimp only
    split_ifs with hdot
    · rw [Bool.and_eq_true, decide_eq_true_eq] at hdot
      rw [hdot.2] at h
      have hfilter := walk_filter h
      rwa [List.filter_cons_of_neg (by simp)] at hfilter
    · obtain ⟨hdir, hrest⟩ := walk_cons_eq_ok_iff.mp h
      exact walk_cons_eq_ok_iff.mpr ⟨hdir, walk_filter hrest⟩

/-- Who can follow the path finds a directory at the other one. -/
def LeadsThrough (path above : String) : Prop :=
  ∀ fs q, FileTree.place? fs path = .ok q → fs.isDirectory above

lemma place?_start (fs : FileTree) (absolute : Bool) {cs : List String}
    (h : ∀ c ∈ cs, Path.IsPart c) (hne : cs ≠ []) :
    fs.place? (Path.start absolute ++ Path.ofComponents cs) =
      fs.walk (if absolute then [] else fs.workingDirectory) cs := by
  obtain ⟨hparts, habsolute, hempty⟩ := Path.start_append_eq absolute h hne
  rw [place?, if_neg hempty, origin, hparts, habsolute]

/-- Who can follow the path can follow the components. -/
def LeadsAlong (absolute : Bool) (path : String) (cs : List String) : Prop :=
  ∀ fs q, FileTree.place? fs path = .ok q →
    fs.walk (if absolute then [] else fs.workingDirectory) cs = .ok q

/-- A path with one component more leads through the path without it. -/
lemma LeadsAlong.leadsThrough {absolute : Bool} {path c : String} {cs : List String}
    (hleads : LeadsAlong absolute path (cs ++ [c])) (h : ∀ c ∈ cs, Path.IsPart c) (hne : cs ≠ []) :
    LeadsThrough path (Path.start absolute ++ Path.ofComponents cs) := by
  intro fs q hq
  have hpath := hleads fs q hq
  rw [walk_append] at hpath
  obtain ⟨p, hp, hlast⟩ := bind_eq_ok_iff.mp hpath
  obtain ⟨⟨m, hdir⟩, _⟩ := walk_cons_eq_ok_iff.mp hlast
  exact isDirectory_iff.mpr ⟨p, m, (place?_start fs absolute h hne).trans hp, hdir⟩

lemma LeadsAlong.isChain_steps {absolute : Bool} {path c : String} {cs : List String}
    (hleads : LeadsAlong absolute path (c :: cs).reverse) (h : ∀ c ∈ cs, Path.IsPart c) :
    List.IsChain LeadsThrough (path :: Path.steps (Path.start absolute) cs) := by
  induction cs generalizing path c with
  | nil => exact .singleton path
  | cons d ds ih =>
    have hparts : ∀ x ∈ (d :: ds).reverse, Path.IsPart x :=
      fun x hx => h x (List.mem_reverse.mp hx)
    have hne : (d :: ds).reverse ≠ [] := by simp
    rw [List.reverse_cons] at hleads
    have habove : LeadsAlong absolute
        (Path.start absolute ++ Path.ofComponents (d :: ds).reverse) (d :: ds).reverse := by
      intro fs q hq
      rwa [place?_start fs absolute hparts hne] at hq
    rw [Path.steps]
    exact .cons_cons (hleads.leadsThrough hparts hne)
      (ih habove fun x hx => h x (List.mem_cons_of_mem d hx))

/-- A path leads through its ancestors, the nearest one first. -/
theorem isChain_ancestors (path : String) : List.IsChain LeadsThrough (Path.ancestors path) := by
  rw [Path.ancestors]
  cases hcs : (Path.components path).reverse with
  | nil => exact .nil
  | cons c cs =>
    have hcomponents : (c :: cs).reverse = Path.components path := by
      rw [← hcs, List.reverse_reverse]
    have hleads : LeadsAlong (Path.isAbsolute path) path (c :: cs).reverse := by
      intro fs q hq
      rw [hcomponents]
      exact walk_components hq
    apply hleads.isChain_steps
    intro x hx
    have hmem : x ∈ Path.components path := by
      rw [← hcomponents, List.mem_reverse]
      exact List.mem_cons_of_mem c hx
    exact Path.isPart_of_mem_components hmem

/-! ### Making directories once more -/

section Again

variable {refused : String → Option IoError}

lemma makeDirectory_eq_error {fs : FileTree} {path above : String} (h : LeadsThrough path above)
    (habove : ¬ fs.isDirectory above) : ∃ e, fs.makeDirectory path refused = .error e := by
  rw [makeDirectory]
  cases hp : fs.place? path with
  | error e => exact ⟨e, rfl⟩
  | ok p => exact absurd (h fs p hp) habove

lemma LeadsThrough.isDirectory {fs : FileTree} {path above : String} (h : LeadsThrough path above)
    (hpath : fs.isDirectory path) : fs.isDirectory above := by
  obtain ⟨p, _, hp, _⟩ := isDirectory_iff.mp hpath
  exact h fs p hp

lemma not_isDirectory_of_unlessDirectory {fs fs' : FileTree} {path : String} {e e' : IoError}
    (h : fs.unlessDirectory path e = (fs', .error e')) : fs' = fs ∧ ¬ fs'.isDirectory path := by
  rw [unlessDirectory, Prod.mk.injEq] at h
  obtain ⟨rfl, h⟩ := h
  split_ifs at h with hdir
  exact ⟨rfl, hdir⟩

/-- A directory that could not be made is not there. -/
lemma not_isDirectory_of_makeAll {fs fs' : FileTree} {path : String} {above : List String}
    (hchain : List.IsChain LeadsThrough (path :: above)) {e : IoError}
    (h : fs.makeAll refused (path :: above) = (fs', .error e)) : ¬ fs'.isDirectory path := by
  induction above generalizing path fs' e with
  | nil =>
    rw [makeAll] at h
    split at h
    · cases h
    · rw [makeAll] at h
      split_ifs at h
      · dsimp only at h
        split at h
        · cases h
        · exact (not_isDirectory_of_unlessDirectory h).2
      · exact (not_isDirectory_of_unlessDirectory h).2
  | cons next above ih =>
    obtain ⟨hleads, hchain⟩ := List.isChain_cons_cons.mp hchain
    rw [makeAll] at h
    split at h
    · cases h
    · split_ifs at h
      · split at h
        · rename_i habove
          cases h
          exact mt hleads.isDirectory (ih hchain habove)
        · split at h
          · cases h
          · exact (not_isDirectory_of_unlessDirectory h).2
      · exact (not_isDirectory_of_unlessDirectory h).2

lemma makeAll_eq_error {fs : FileTree} {path : String} {above : List String} {e : IoError}
    {r : Except IoError Unit} (hmake : fs.makeDirectory path refused = .error e)
    (habove : fs.makeAll refused above = (fs, r)) (hdir : ¬ fs.isDirectory path) :
    ∃ e', fs.makeAll refused (path :: above) = (fs, .error e') := by
  have hunless (e : IoError) : fs.unlessDirectory path e = (fs, .error e) := by
    rw [unlessDirectory, if_neg hdir]
  rw [makeAll, hmake]
  dsimp only
  split_ifs
  · rw [habove]
    cases r with
    | error e' => exact ⟨e', rfl⟩
    | ok _ =>
      dsimp only
      rw [hmake]
      exact ⟨e, hunless e⟩
  · exact ⟨e, hunless e⟩

/-- Once more, the directories can be made or not as the first time, and nothing changes. -/
lemma makeAll_again {fs fs' : FileTree} {paths : List String}
    (hchain : List.IsChain LeadsThrough paths) {r : Except IoError Unit}
    (h : fs.makeAll refused paths = (fs', r)) :
    ∃ r', fs'.makeAll refused paths = (fs', r') ∧ (r' = .ok () ↔ r = .ok ()) := by
  induction paths generalizing fs' r with
  | nil =>
    cases h
    exact ⟨_, rfl, Iff.rfl⟩
  | cons path above ih =>
    cases r with
    | ok _ => exact ⟨_, makeAll_of_isDirectory (isDirectory_of_makeAll h) refused above, Iff.rfl⟩
    | error e =>
      suffices hagain : ∃ e', fs'.makeAll refused (path :: above) = (fs', .error e') by
        obtain ⟨e', he'⟩ := hagain
        exact ⟨_, he', by simp⟩
      have hdir := not_isDirectory_of_makeAll hchain h
      have hfirst := h
      rw [makeAll] at h
      split at h
      · cases h
      · split_ifs at h
        · split at h
          · -- a directory further up could not be made
            rename_i habove
            cases h
            obtain ⟨r', habove', _⟩ := ih hchain.tail habove
            cases above with
            | nil => cases habove
            | cons next above =>
              obtain ⟨hleads, hchain⟩ := List.isChain_cons_cons.mp hchain
              have hnext := not_isDirectory_of_makeAll hchain habove
              obtain ⟨e', hmake⟩ := makeDirectory_eq_error hleads hnext
              exact makeAll_eq_error hmake habove' hdir
          · -- those further up could be made, but not the one at the path
            rename_i habove
            obtain ⟨r', habove', _⟩ := ih hchain.tail habove
            split at h
            · cases h
            · rename_i hmake
              obtain ⟨rfl, _⟩ := not_isDirectory_of_unlessDirectory h
              exact makeAll_eq_error hmake habove' hdir
        · -- nothing was made
          obtain ⟨rfl, _⟩ := not_isDirectory_of_unlessDirectory h
          exact ⟨e, hfirst⟩

/-- Making the directory of a path and those above it once more comes to the same end and changes
nothing. -/
theorem makeDirectories_again (fs : FileTree) (path : String)
    (refused : String → Option IoError) :
    let made := fs.makeDirectories path refused
    ∃ r, made.1.makeDirectories path refused = (made.1, r) ∧ (r = .ok () ↔ made.2 = .ok ()) :=
  makeAll_again (isChain_ancestors path) rfl

end Again

end FileTree

end ServiceDocs
