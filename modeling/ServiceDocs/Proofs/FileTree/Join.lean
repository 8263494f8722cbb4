import Mathlib.Data.List.Basic
import ServiceDocs.Proofs.FileTree.Places
import ServiceDocs.Proofs.Text.Pieces

/-!
# Paths of entries

The path of an entry of a directory leads to the directory and from there one step further, to a
place that is named by the entry. So what happens to one entry of a directory does not matter for
another one.
-/

namespace ServiceDocs

/-! ### Paths -/

namespace Path

/-- The text is the name of an entry: it is one part of a path and stands for no other
directory. -/
structure IsEntryName (name : String) : Prop where
  noSlash : '/' ∉ name.toList
  ne_empty : name ≠ ""
  ne_dot : name ≠ "."
  ne_dots : name ≠ ".."

instance (name : String) : Decidable (IsEntryName name) :=
  decidable_of_iff ('/' ∉ name.toList ∧ name ≠ "" ∧ name ≠ "." ∧ name ≠ "..")
    ⟨fun ⟨hslash, hempty, hdot, hdots⟩ => ⟨hslash, hempty, hdot, hdots⟩,
      fun h => ⟨h.noSlash, h.ne_empty, h.ne_dot, h.ne_dots⟩⟩

lemma isAbsolute_of_noSlash {name : String} (h : '/' ∉ name.toList) : isAbsolute name = false := by
  rw [isAbsolute]
  rw [decide_eq_false_iff_not]
  intro hhead
  exact h (List.mem_of_head? hhead)

lemma parts_of_noSlash {name : String} (h : '/' ∉ name.toList) (hne : name ≠ "") :
    parts name = [name] := by
  rw [parts]
  rw [Text.pieces_of_notMem h]
  simp [hne]

section Join

variable {name : String} (dir : String)

lemma join_of_relative (h : isAbsolute name = false) :
    join dir name =
      if dir = "" then name else if endsWithSlash dir then dir ++ name else dir ++ "/" ++ name := by
  rw [join]
  rw [h, Bool.false_or]
  simp only [decide_eq_true_eq]

/-- The parts of a relative path follow those of the directory. -/
lemma parts_join_of_relative (h : isAbsolute name = false) :
    parts (join dir name) = parts dir ++ parts name := by
  rw [join_of_relative dir h]
  split_ifs with hempty hslash
  · subst hempty
    rfl
  · -- the slash at the end of the directory cuts off an empty piece
    obtain ⟨cs, hcs⟩ : ∃ cs, dir.toList = cs ++ ['/'] :=
      List.getLast?_eq_some_iff.mp (by simpa [endsWithSlash] using hslash)
    have hdir : (dir ++ name).toList = cs ++ '/' :: name.toList := by simp [hcs]
    unfold parts
    rw [hdir, hcs, Text.pieces_append_cons (by decide), Text.pieces_append_cons (by decide)]
    simp only [List.filter_append, List.map_append]
    simp
  · have hdir : (dir ++ "/" ++ name).toList = dir.toList ++ '/' :: name.toList := by simp
    unfold parts
    rw [hdir, Text.pieces_append_cons (by decide), List.filter_append, List.map_append]

lemma isAbsolute_join_of_relative (h : isAbsolute name = false) :
    isAbsolute (join dir name) = isAbsolute dir := by
  rw [join_of_relative dir h]
  split_ifs with hempty hslash
  · subst hempty
    exact h
  all_goals
    obtain ⟨c, cs, hcs⟩ := List.exists_cons_of_ne_nil (by simpa using hempty : dir.toList ≠ [])
    unfold isAbsolute
    simp only [String.toList_append, hcs, List.cons_append, List.head?_cons]

lemma join_ne_empty_of_relative (h : isAbsolute name = false) (hne : name ≠ "") :
    join dir name ≠ "" := by
  rw [join_of_relative dir h]
  split_ifs
  · exact hne
  all_goals simp [hne]

lemma endsWithSlash_join_of_relative (h : isAbsolute name = false) (hne : name ≠ "") :
    endsWithSlash (join dir name) = endsWithSlash name := by
  obtain ⟨c, cs, hcs⟩ := List.exists_cons_of_ne_nil (by simpa using hne : name.toList ≠ [])
  rw [join_of_relative dir h]
  split_ifs
  · rfl
  all_goals
    unfold endsWithSlash
    simp only [String.toList_append, hcs, List.getLast?_append_cons]

lemma parts_join (h : IsEntryName name) : parts (join dir name) = parts dir ++ [name] := by
  rw [parts_join_of_relative dir (isAbsolute_of_noSlash h.noSlash),
    parts_of_noSlash h.noSlash h.ne_empty]

lemma isAbsolute_join (h : '/' ∉ name.toList) : isAbsolute (join dir name) = isAbsolute dir :=
  isAbsolute_join_of_relative dir (isAbsolute_of_noSlash h)

lemma endsWithSlash_join (h : IsEntryName name) : endsWithSlash (join dir name) = false := by
  rw [endsWithSlash_join_of_relative dir (isAbsolute_of_noSlash h.noSlash) h.ne_empty,
    endsWithSlash, decide_eq_false_iff_not]
  exact fun hlast => h.noSlash (List.mem_of_getLast? hlast)

lemma join_ne_empty (h : IsEntryName name) : join dir name ≠ "" :=
  join_ne_empty_of_relative dir (isAbsolute_of_noSlash h.noSlash) h.ne_empty

end Join

end Path

namespace FileTree

/-! ### Places of entries -/

variable {fs : FileTree} {dir name : String}

lemma step_of_isEntryName (h : Path.IsEntryName name) (p : Place) : step p name = p ++ [name] := by
  rw [step]
  rw [if_neg h.ne_dot, if_neg h.ne_dots]

lemma origin_join (h : Path.IsEntryName name) : fs.origin (Path.join dir name) = fs.origin dir := by
  unfold origin
  rw [Path.isAbsolute_join dir h.noSlash]

/-- An entry stands directly below its directory. -/
lemma locate_join (h : Path.IsEntryName name) :
    fs.locate (Path.join dir name) = fs.locate dir ++ [name] := by
  unfold locate
  rw [origin_join h, Path.parts_join dir h, List.foldl_append, List.foldl_cons, List.foldl_nil,
    step_of_isEntryName h]

lemma walk_append (fs : FileTree) (p : Place) (xs ys : List String) :
    fs.walk p (xs ++ ys) = (fs.walk p xs).bind fun q => fs.walk q ys := by
  induction xs generalizing p with
  | nil => rfl
  | cons x xs ih =>
    rw [List.cons_append, walk, walk]
    cases fs.get? p with
    | none => rfl
    | some e =>
      obtain ⟨error, herror⟩ := fs.exists_noDirectory_eq p e
      cases e with
      | directory m => exact ih _
      | _ =>
        simp only [herror]
        rfl

/-- A directory with one entry that can be reached can be reached itself. -/
lemma place?_join_iff (h : Path.IsEntryName name) (p : Place) :
    fs.place? (Path.join dir name) = .ok p ↔
      (∃ m, fs.get? (fs.locate dir) = some (.directory m)) ∧
        fs.walk (fs.origin dir) (Path.parts dir) = .ok (fs.locate dir) ∧
        p = fs.locate dir ++ [name] := by
  rw [place?]
  rw [if_neg (Path.join_ne_empty dir h), origin_join h, Path.parts_join dir h, walk_append]
  cases hd : fs.walk (fs.origin dir) (Path.parts dir) with
  | error e => simp [Except.bind]
  | ok d =>
    obtain rfl : d = fs.locate dir := eq_foldl_of_walk hd
    simp only [Except.bind, walk, step_of_isEntryName h]
    cases fs.get? (fs.locate dir) with
    | none => simp
    | some e =>
      obtain ⟨error, herror⟩ := fs.exists_noDirectory_eq (fs.locate dir) e
      cases e <;> simp [herror, eq_comm]

/-- Who reaches one entry of a directory reaches them all. -/
lemma place?_join_of_ok {other : String} {p : Place} (h : Path.IsEntryName name)
    (hp : fs.place? (Path.join dir name) = .ok p) (hother : Path.IsEntryName other) :
    fs.place? (Path.join dir other) = .ok (fs.locate dir ++ [other]) := by
  obtain ⟨hdir, hwalk, _⟩ := (place?_join_iff h p).mp hp
  exact (place?_join_iff hother _).mpr ⟨hdir, hwalk, rfl⟩

/-- Something that changes at one entry of a directory cannot be seen at another one. -/
lemma entryAt?_join_set {other : String} {p : Place} (h : Path.IsEntryName name)
    (hp : fs.place? (Path.join dir name) = .ok p) (hdir : ∀ m, fs.get? p ≠ some (.directory m))
    (hother : Path.IsEntryName other) (hne : other ≠ name) (e : Entry) :
    (fs.set p e).entryAt? (Path.join dir other) = fs.entryAt? (Path.join dir other) := by
  have hplace := place?_join_of_ok h hp hother
  obtain ⟨_, _, rfl⟩ := (place?_join_iff h p).mp hp
  have hq : fs.locate dir ++ [other] ≠ fs.locate dir ++ [name] := by
    simpa using hne
  unfold entryAt?
  rw [place?_set hdir e hplace, hplace]
  simp only [bind, Except.bind, get?_set_of_ne fs hq, Path.endsWithSlash_join dir hother]
  rfl

end FileTree

end ServiceDocs
