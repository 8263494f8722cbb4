import ServiceDocs.Proofs.FileTree.Ancestors
import ServiceDocs.Proofs.FileTree.Changes

/-!
# Files below a directory

In a tree in which every entry stands in a directory, the files below a directory are found at the
paths that lead to them. A walk meets them in a fixed order, so changes at other places do not
matter.
-/

namespace ServiceDocs

/-! ### The order of a walk -/

namespace Path

/-- The comparison is a linear order. -/
structure IsLinear {α : Type} (le : α → α → Bool) : Prop where
  total : ∀ a b, le a b || le b a
  trans : ∀ a b c, le a b → le b c → le a c
  antisymm : ∀ a b, le a b → le b a → a = b

namespace IsLinear

variable {α β : Type} {le : α → α → Bool} (h : IsLinear le)

include h

lemma lexicographic [DecidableEq α] : IsLinear (lexicographic le) where
  total := by
    intro as bs
    induction as generalizing bs with
    | nil => simp [Path.lexicographic]
    | cons a as ih =>
      cases bs with
      | nil => simp [Path.lexicographic]
      | cons b bs =>
        by_cases hab : a = b
        · simpa [Path.lexicographic, hab] using ih bs
        · simpa [Path.lexicographic, hab, Ne.symm hab] using h.total a b
  trans := by
    intro as bs cs hab hbc
    induction as generalizing bs cs with
    | nil => rfl
    | cons a as ih =>
      cases bs with
      | nil => cases hab
      | cons b bs =>
        cases cs with
        | nil => cases hbc
        | cons c cs =>
          rw [Path.lexicographic] at hab hbc ⊢
          split_ifs at hab with h₁
          · subst h₁
            split_ifs at hbc ⊢
            · exact ih bs cs hab hbc
            · exact hbc
          · split_ifs at hbc with h₂
            · subst h₂
              rw [if_neg h₁]
              exact hab
            · split_ifs with h₃
              · subst h₃
                exact absurd (h.antisymm a b hab hbc) h₁
              · exact h.trans a b c hab hbc
  antisymm := by
    intro as bs hab hba
    induction as generalizing bs with
    | nil =>
      cases bs with
      | nil => rfl
      | cons b bs => cases hba
    | cons a as ih =>
      cases bs with
      | nil => cases hab
      | cons b bs =>
        rw [Path.lexicographic] at hab hba
        by_cases heq : a = b
        · subst heq
          rw [if_pos rfl] at hab hba
          rw [ih bs hab hba]
        · rw [if_neg heq] at hab
          rw [if_neg (Ne.symm heq)] at hba
          exact absurd (h.antisymm a b hab hba) heq

lemma comap {f : β → α} (hf : Function.Injective f) : IsLinear fun a b => le (f a) (f b) where
  total a b := h.total (f a) (f b)
  trans a b c := h.trans (f a) (f b) (f c)
  antisymm a b hab hba := hf (h.antisymm (f a) (f b) hab hba)

/-- What is left out of a sorted list does not matter for the order of the rest. -/
lemma filter_mergeSort (keep : α → Bool) (as : List α) :
    (as.mergeSort le).filter keep = (as.filter keep).mergeSort le := by
  have hsorted : ((as.mergeSort le).filter keep).Pairwise (fun a b => le a b = true) :=
    (List.pairwise_mergeSort h.trans h.total as).filter keep
  have hsorted' := List.pairwise_mergeSort h.trans h.total (as.filter keep)
  have hperm : ((as.mergeSort le).filter keep).Perm ((as.filter keep).mergeSort le) :=
    ((List.mergeSort_perm as le).filter keep).trans (List.mergeSort_perm _ le).symm
  exact hperm.eq_of_pairwise (fun a b _ _ => h.antisymm a b) hsorted hsorted'

end IsLinear

lemma isLinear_nameLe : IsLinear nameLe := by
  have hchar : IsLinear fun c d : Char => decide (c.toNat ≤ d.toNat) :=
    { total := fun c d => by simpa using Nat.le_total c.toNat d.toNat
      trans := fun b c d hbc hcd => by
        rw [decide_eq_true_eq] at hbc hcd ⊢
        exact hbc.trans hcd
      antisymm := fun c d hcd hdc => by
        rw [decide_eq_true_eq] at hcd hdc
        exact Char.toNat_inj.mp (hcd.antisymm hdc) }
  exact hchar.lexicographic.comap fun _ _ => String.toList_injective

end Path

namespace FileTree

lemma Changes.filter_filesBelow {written : Place → Prop} {fs fs' : FileTree}
    (h : Changes written fs fs') {keep : Place → Bool} (hkeep : ∀ q, written q → keep q = false)
    (p : Place) : (fs'.filesBelow p).filter keep = (fs.filesBelow p).filter keep := by
  rw [filesBelow_eq, filesBelow_eq]
  rw [Path.isLinear_nameLe.lexicographic.filter_mergeSort,
    Path.isLinear_nameLe.lexicographic.filter_mergeSort]
  rw [List.filter_comm, h.filter_filePlaces hkeep, List.filter_comm]

/-! ### Well-formed trees -/

/-- Every entry of the tree stands in a directory, and no other one there has its name. -/
structure WellFormed (fs : FileTree) : Prop where
  nodup : (fs.entries.map Prod.fst).Nodup
  exists_directory : ∀ q ∈ fs.entries.map Prod.fst, ∃ p name, q = p ++ [name] ∧
    Path.IsEntryName name ∧ ∃ m, fs.get? p = some (.directory m)

namespace WellFormed

variable {fs : FileTree} (h : fs.WellFormed)

include h

lemma get?_of_mem {q : Place} {e : Entry} (he : (q, e) ∈ fs.entries) : fs.get? q = some e := by
  have hne : q ≠ [] := by
    obtain ⟨p, name, rfl, _⟩ := h.exists_directory q (List.mem_map_of_mem he)
    simp
  rw [get?_of_ne_nil fs hne, List.lookup_eq_some_iff]
  obtain ⟨before, after, hentries⟩ := List.append_of_mem he
  refine ⟨before, after, hentries, ?_⟩
  have hnodup := h.nodup
  rw [hentries, List.map_append, List.map_cons, List.nodup_append] at hnodup
  intro x hx
  rw [bne_iff_ne]
  exact (hnodup.2.2 x.1 (List.mem_map_of_mem hx) q List.mem_cons_self).symm

lemma exists_file_of_mem {p q : Place} (hq : q ∈ fs.filesBelow p) :
    p <+: q ∧ ∃ c m, fs.get? q = some (.file c m) := by
  rw [filesBelow_eq, List.mem_mergeSort, List.mem_filter, List.isPrefixOf_iff_prefix] at hq
  refine ⟨hq.2, ?_⟩
  obtain ⟨⟨r, e⟩, he, hfile⟩ := List.mem_filterMap.mp hq.1
  cases e with
  | directory m => cases hfile
  | link t => cases hfile
  | file c m =>
    cases hfile
    exact ⟨c, m, h.get?_of_mem he⟩

lemma exists_parent {p : Place} {name : String} {e : Entry}
    (he : fs.get? (p ++ [name]) = some e) :
    Path.IsEntryName name ∧ ∃ m, fs.get? p = some (.directory m) := by
  obtain ⟨d, name', hplace, hname, hdir⟩ := h.exists_directory _
    (List.mem_map_of_mem (mem_of_get? (by simp) he))
  obtain ⟨rfl, hsingle⟩ := List.append_inj' hplace rfl
  obtain rfl : name = name' := List.singleton_inj.mp hsingle
  exact ⟨hname, hdir⟩

/-- Every entry below a directory can be reached from there. -/
lemma walk_below {p rel : Place} {e : Entry} (he : fs.get? (p ++ rel) = some e) :
    fs.walk p rel = .ok (p ++ rel) ∧ ∀ name ∈ rel, Path.IsEntryName name := by
  induction rel using List.reverseRecOn generalizing e with
  | nil => exact ⟨by rw [List.append_nil]; rfl, by simp⟩
  | append_singleton rel name ih =>
    rw [← List.append_assoc] at he ⊢
    obtain ⟨hname, m, hdir⟩ := h.exists_parent he
    obtain ⟨hwalk, hnames⟩ := ih hdir
    constructor
    · rw [walk_append, hwalk]
      simp only [Except.bind, walk, hdir, step_of_isEntryName hname]
    · rw [List.forall_mem_append, List.forall_mem_singleton]
      exact ⟨hnames, hname⟩

/-- A file below the directory at a path is found at the path that goes on to it. -/
lemma find?_below {root : String} {p rel : Place} {c : Contents} {m : ℕ}
    (hroot : fs.place? root = .ok p) (hrel : rel ≠ [])
    (he : fs.get? (p ++ rel) = some (.file c m)) :
    fs.find? (Path.join root (Path.ofComponents rel)) = .ok (p ++ rel, .file c m) := by
  obtain ⟨hwalk, hnames⟩ := h.walk_below he
  have hparts : ∀ name ∈ rel, Path.IsPart name :=
    fun name hname => ⟨(hnames name hname).noSlash, (hnames name hname).ne_empty⟩
  have hrelative := Path.isAbsolute_ofComponents hparts
  have hne := Path.ofComponents_ne_empty hparts hrel
  rw [place?] at hroot
  split_ifs at hroot
  refine find?_of_file ?_ ?_ he
  · rw [place?, if_neg (Path.join_ne_empty_of_relative root hrelative hne), origin,
      Path.isAbsolute_join_of_relative root hrelative,
      Path.parts_join_of_relative root hrelative, Path.parts_ofComponents hparts, walk_append]
    rw [← origin, hroot]
    exact hwalk
  · rw [Path.endsWithSlash_join_of_relative root hrelative hne,
      Path.endsWithSlash_ofComponents hparts]

end WellFormed

end FileTree

end ServiceDocs
