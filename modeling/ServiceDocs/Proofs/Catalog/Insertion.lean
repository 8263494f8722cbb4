import Mathlib.Data.List.Nodup
import Mathlib.Tactic.Common
import ServiceDocs.Catalog.Basic

/-!
# Insertion into catalogs

Inserted declarations come behind those that are there, and a name is never repeated. So a name is
found at one place, and what is found there stays when more declarations are inserted.
-/

namespace ServiceDocs

lemma getElem?_of_isPrefix {α : Type} {xs ys : List α} (h : xs <+: ys) {i : ℕ} {a : α}
    (ha : xs[i]? = some a) : ys[i]? = some a := by
  obtain ⟨rest, rfl⟩ := h
  obtain ⟨hi, _⟩ := List.getElem?_eq_some_iff.mp ha
  rw [List.getElem?_append_left hi, ha]

namespace Catalog

variable {c : Catalog} {d : Declaration} {ds : List Declaration}

/-! ### Look-up by name -/

lemma name_of_get? {name : String} (h : c.get? name = some d) : d.name = name := by
  simpa using List.find?_some h

lemma mem_names_of_get? {name : String} (h : c.get? name = some d) : name ∈ c.names := by
  rw [← name_of_get? h]
  exact List.mem_map_of_mem (List.mem_of_find?_eq_some h)

lemma get?_isSome_iff {name : String} : (c.get? name).isSome ↔ name ∈ c.names := by
  rw [get?, List.find?_isSome]
  simp [names]

lemma getElem?_declarations (hc : c.names.Nodup) {name : String} {i : ℕ}
    (hget : c.get? name = some d) (hi : c.names[i]? = some name) :
    c.declarations[i]? = some d := by
  rw [names, List.getElem?_map, Option.map_eq_some_iff] at hi
  obtain ⟨e, he, hname⟩ := hi
  rw [he, List.inj_on_of_nodup_map hc (List.mem_of_getElem? he) (List.mem_of_find?_eq_some hget)]
  rw [hname, name_of_get? hget]

/-- Looking up each name in turn gives the declarations back. -/
lemma filterMap_get?_names (hc : c.names.Nodup) : c.names.filterMap c.get? = c.declarations := by
  have hget : ∀ d ∈ c.declarations, c.get? d.name = some d := by
    intro d hd
    obtain ⟨e, he⟩ := Option.isSome_iff_exists.mp (get?_isSome_iff.mpr (List.mem_map_of_mem hd))
    rw [he, List.inj_on_of_nodup_map hc (List.mem_of_find?_eq_some he) hd (name_of_get? he)]
  rw [names, List.filterMap_map]
  calc c.declarations.filterMap (c.get? ∘ (·.name))
      = c.declarations.filterMap some := List.filterMap_congr hget
    _ = c.declarations := List.filterMap_some

/-! ### Insertion -/

lemma insert_of_mem (h : d.name ∈ c.names) : c.insert d = c := by
  rw [insert, if_pos (List.contains_iff_mem.mpr h)]

lemma insert_of_notMem (h : d.name ∉ c.names) : c.insert d = ⟨c.declarations ++ [d]⟩ := by
  rw [insert, if_neg (mt List.contains_iff_mem.mp h)]

lemma names_insert_of_notMem (h : d.name ∉ c.names) :
    (c.insert d).names = c.names ++ [d.name] := by
  rw [insert_of_notMem h]
  exact List.map_append

lemma nodup_names_insert (hc : c.names.Nodup) : (c.insert d).names.Nodup := by
  by_cases h : d.name ∈ c.names
  · rwa [insert_of_mem h]
  · rw [names_insert_of_notMem h, ← List.concat_eq_append]
    exact hc.concat h

lemma nodup_names_insertAll (hc : c.names.Nodup) : (c.insertAll ds).names.Nodup := by
  induction ds generalizing c with
  | nil => exact hc
  | cons d ds ih => exact ih (nodup_names_insert hc)

lemma prefix_insert (c : Catalog) (d : Declaration) :
    c.declarations <+: (c.insert d).declarations := by
  by_cases h : d.name ∈ c.names
  · exact ⟨[], by rw [insert_of_mem h, List.append_nil]⟩
  · exact ⟨[d], by rw [insert_of_notMem h]⟩

lemma prefix_insertAll (c : Catalog) (ds : List Declaration) :
    c.declarations <+: (c.insertAll ds).declarations := by
  induction ds generalizing c with
  | nil => exact List.prefix_rfl
  | cons d ds ih => exact (prefix_insert c d).trans (ih (c.insert d))

lemma get?_of_isPrefix {c' : Catalog} (h : c.declarations <+: c'.declarations) {name : String}
    (hget : c.get? name = some d) : c'.get? name = some d := by
  obtain ⟨rest, hrest⟩ := h
  rw [get?] at hget
  rw [get?, ← hrest, List.find?_append, hget]
  rfl

lemma insertAll_append (c : Catalog) (ds es : List Declaration) :
    c.insertAll (ds ++ es) = (c.insertAll ds).insertAll es :=
  List.foldl_append

lemma insertAll_cons (c : Catalog) (d : Declaration) (ds : List Declaration) :
    c.insertAll (d :: ds) = (c.insert d).insertAll ds := rfl

lemma get?_insert (c : Catalog) (d : Declaration) (name : String) :
    (c.insert d).get? name = (c.get? name).or (if d.name = name then some d else none) := by
  by_cases h : d.name ∈ c.names
  · rw [insert_of_mem h]
    split_ifs with hname
    · subst hname
      obtain ⟨e, he⟩ := Option.isSome_iff_exists.mp (get?_isSome_iff.mpr h)
      rw [he, Option.or_some, Option.getD_some]
    · rw [Option.or_none]
  · rw [insert_of_notMem h, get?, List.find?_append, List.find?_singleton]
    simp only [decide_eq_true_eq, get?]

/-- A name stands for the declaration that is there, and else for the first one that is
inserted. -/
lemma get?_insertAll (c : Catalog) (ds : List Declaration) (name : String) :
    (c.insertAll ds).get? name = (c.get? name).or (ds.find? (·.name = name)) := by
  induction ds generalizing c with
  | nil => rw [List.find?_nil, Option.or_none]; rfl
  | cons d ds ih =>
    rw [insertAll_cons, ih, get?_insert, Option.or_assoc, List.find?_cons]
    by_cases hname : d.name = name <;> simp [hname]

end Catalog

end ServiceDocs
