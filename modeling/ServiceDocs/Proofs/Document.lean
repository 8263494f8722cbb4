import ServiceDocs.Document
import ServiceDocs.Proofs.Stem

/-!
# Names of documents

A page is named after the stem of its method and the model after a stem of its own. The stems of a
batch are pairwise distinct, and pages and models have different extensions, so no two documents of
a batch have one name.
-/

namespace ServiceDocs.Document

section Pages

variable (entries : List MethodEntry) (coordinates : Coordinates)

lemma map_fileName_pages :
    (pages entries coordinates).map fileName =
      (Stem.ofNames (entries.map (·.name))).map (· ++ ".md") := by
  apply List.ext_getElem
  · simp [pages, Stem.length_ofNames]
  · intro i hi hi'
    simp [pages]

lemma nodup_fileName_pages : ((pages entries coordinates).map fileName).Nodup := by
  rw [map_fileName_pages]
  apply (Stem.nodup_ofNames _).map
  intro s t h
  exact (String.append_left_inj ".md").mp h

/-- A page is named after a stem of one of the methods. -/
lemma exists_of_mem_pages {entries : List MethodEntry} {coordinates : Coordinates} {doc : Document}
    (h : doc ∈ pages entries coordinates) :
    ∃ e ∈ entries, ∃ stem, Stem.Of e.name stem ∧ doc.fileName = stem ++ ".md" := by
  have hmem := List.mem_map_of_mem (f := fileName) h
  rw [map_fileName_pages, List.mem_map] at hmem
  obtain ⟨stem, hstem, hname⟩ := hmem
  obtain ⟨name, hmem, hof⟩ := Stem.exists_of_mem_ofNames hstem
  obtain ⟨e, he, rfl⟩ := List.mem_map.mp hmem
  exact ⟨e, he, stem, hof, hname.symm⟩

end Pages

lemma md_ne_json (s t : String) : s ++ ".md" ≠ t ++ ".json" := by
  intro h
  have hlast := congrArg (fun text => text.toList.getLast?) h
  simp at hlast

section Batch

variable (entries : List MethodEntry) (format : OutputFormat) (coordinates : Coordinates)
  (modelStem : String)

lemma map_fileName_ofEntries :
    (ofEntries entries format coordinates modelStem).map fileName =
      (if format.includesPages then
          (Stem.ofNames (entries.map (·.name))).map (· ++ ".md") else [])
        ++ (if format.includesModel then [modelStem ++ ".json"] else []) := by
  rw [ofEntries, List.map_append]
  congr 1
  · split
    · exact map_fileName_pages entries coordinates
    · rfl
  · split <;> rfl

lemma nodup_fileName_ofEntries :
    ((ofEntries entries format coordinates modelStem).map fileName).Nodup := by
  have hpages := nodup_fileName_pages entries coordinates
  rw [map_fileName_pages] at hpages
  rw [map_fileName_ofEntries]
  apply List.Nodup.append
  · split
    · exact hpages
    · exact List.nodup_nil
  · split
    · exact List.nodup_singleton _
    · exact List.nodup_nil
  · intro name hpage hmodel
    split at hpage
    · split at hmodel
      · obtain ⟨stem, _, rfl⟩ := List.mem_map.mp hpage
        exact md_ne_json stem modelStem (List.mem_singleton.mp hmodel)
      · cases hmodel
    · cases hpage

/-- No two documents of a batch have one name, whatever the methods are called. The stems of the
pages are the result of the run that looks for a free number without a bound. There is one for each
method, with its name and possibly a number from two on, and no two of them are equal. The pages
are named after them in the order of the methods, and the model has none of their names. -/
theorem fileNames_distinct :
    let names := entries.map (·.name)
    let stems := Stem.ofNames names
    (∀ given, Stem.Gives {} names given ↔ given = stems) ∧
      stems.length = entries.length ∧ stems.Nodup ∧
      List.Forall₂ (fun e stem => stem = e.name ∨ ∃ k, 2 ≤ k ∧ stem = Stem.numbered e.name k)
        entries stems ∧
      (ofEntries entries format coordinates modelStem).map fileName =
        (if format.includesPages then stems.map (· ++ ".md") else [])
          ++ (if format.includesModel then [modelStem ++ ".json"] else []) ∧
      (∀ stem ∈ stems, modelStem ++ ".json" ≠ stem ++ ".md") ∧
      ((ofEntries entries format coordinates modelStem).map fileName).Nodup := by
  intro names stems
  refine ⟨fun _ => Stem.gives_iff, ?_, Stem.nodup_ofNames names, ?_,
    map_fileName_ofEntries entries format coordinates modelStem, ?_,
    nodup_fileName_ofEntries entries format coordinates modelStem⟩
  · rw [Stem.length_ofNames, List.length_map]
  · exact List.forall₂_map_left_iff.mp (Stem.forall₂_ofNames names)
  · intro stem _ h
    exact md_ne_json stem modelStem h.symm

end Batch

end ServiceDocs.Document
