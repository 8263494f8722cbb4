import ServiceDocs.Proofs.FileTree.Places
import ServiceDocs.Proofs.Settings.Layers

/-!
# Saved settings

Settings that have been saved to a file are loaded from it again. Their JSON form has every part of
the settings, but for coordinates of which none is given, and so it hides all the default values
below it; coordinates that are left out stay out, as there are no default ones.
-/

namespace ServiceDocs.Settings

open Json

/-! ### The JSON form -/

/-- The parts of settings in their JSON form. -/
def parts (s : Settings) : Parts :=
  [("sources", sourcesJson s.sources), ("outDir", .str s.outDirectory),
    ("format", .str s.format.word), ("maxDepth", depthJson s.maxDepth)]
      ++ coordinatesMember s.coordinates

lemma coordinatesMember_eq (c : Coordinates) :
    coordinatesMember c =
      someMember "artifact" (if c.isEmpty then none else some (coordinatesJson c)) := by
  rw [coordinatesMember]
  split <;> rfl

section Parts

variable (s : Settings)

lemma toJson_eq : s.toJson = .obj s.parts := rfl

lemma sublist_parts : (s.parts.map Prod.fst).Sublist partNames := by
  rw [parts, coordinatesMember_eq, List.map_append]
  exact (List.Sublist.refl _).append (sublist_someMember _ _)

lemma nodup_parts : (s.parts.map Prod.fst).Nodup :=
  s.sublist_parts.nodup (by decide)

lemma within_parts : s.parts.within partNames = true := by
  rw [Parts.within, List.all_eq_true]
  intro p hp
  exact List.contains_iff_mem.mpr (s.sublist_parts.subset (List.mem_map_of_mem hp))

lemma lookup_coordinates :
    s.parts.lookup "artifact" =
      if s.coordinates.isEmpty then none else some (coordinatesJson s.coordinates) := by
  simp [parts, coordinatesMember_eq, List.lookup_cons, lookup_someMember]

lemma optional_coordinates :
    s.parts.optional "artifact" {} coordinates? = some s.coordinates := by
  rw [Parts.optional_of_lookup s.lookup_coordinates]
  split_ifs with hempty
  · rw [Coordinates.eq_of_isEmpty hempty]
    rfl
  · exact coordinates?_coordinatesJson s.coordinates

/-- Settings are read from their JSON form. -/
theorem ofJson?_toJson : ofJson? s.toJson = some s := by
  have hsources : s.parts.optional "sources" [] (asList? asString?) = some s.sources :=
    asList?_sourcesJson s.sources
  have houtDirectory : s.parts.optional "outDir" "api_docs" asString? = some s.outDirectory := rfl
  have hformat : s.parts.optional "format" .markdown (asWord? OutputFormat.ofWord?) =
      some s.format :=
    OutputFormat.ofWord?_word s.format
  have hmaxDepth : s.parts.optional "maxDepth" (UInt64.ofNat defaultDepth) depth? =
      some s.maxDepth :=
    depth?_depthJson s.maxDepth
  rw [toJson_eq, ofJson?]
  simp only [parts?, Option.bind_eq_bind, Option.bind_some, s.within_parts, hsources, houtDirectory,
    hformat, hmaxDepth, s.optional_coordinates]
  rfl

end Parts

/-! ### The text -/

/-- All coordinates are written as texts. -/
lemma exists_of_mem_coordinates {c : Coordinates} {m : String × Json} (h : m ∈ c.parts) :
    ∃ text, m.2 = .str text := by
  rw [Coordinates.parts, List.mem_append, List.mem_append] at h
  rcases h with (h | h) | h <;> exact exists_of_mem_someMember h

lemma proper_coordinatesJson (c : Coordinates) : (coordinatesJson c).Proper := by
  rw [Coordinates.toJson_eq]
  refine ⟨c.nodup_parts, properMembers_iff.mpr ?_⟩
  intro m hm
  obtain ⟨text, htext⟩ := exists_of_mem_coordinates hm
  rw [htext]
  trivial

lemma nesting_coordinatesJson_le (c : Coordinates) : (coordinatesJson c).nesting ≤ 1 := by
  rw [Coordinates.toJson_eq, nesting]
  apply Nat.succ_le_succ
  apply nestingMembers_le
  intro m hm
  obtain ⟨text, htext⟩ := exists_of_mem_coordinates hm
  rw [htext, nesting]

section Text

variable (s : Settings)

lemma forall_mem_parts {P : Json → Prop} (hsources : P (sourcesJson s.sources))
    (htext : ∀ text, P (.str text)) (hdepth : P (depthJson s.maxDepth))
    (hcoordinates : P (coordinatesJson s.coordinates)) : ∀ m ∈ s.parts, P m.2 := by
  have hmember : ∀ m ∈ coordinatesMember s.coordinates, P m.2 := by
    rw [coordinatesMember]
    split
    · exact List.forall_mem_nil _
    · exact List.forall_mem_singleton.mpr hcoordinates
  simp only [parts, List.forall_mem_append, List.forall_mem_cons]
  exact ⟨⟨hsources, htext _, htext _, hdepth, List.forall_mem_nil _⟩, hmember⟩

lemma proper_toJson : s.toJson.Proper := by
  refine ⟨s.nodup_parts, properMembers_iff.mpr (s.forall_mem_parts ?_ ?_ ?_ ?_)⟩
  · exact properItems_map_str s.sources
  · exact fun _ => trivial
  · have hbound : s.maxDepth.toNat < Text.wordBound := s.maxDepth.toNat_lt
    constructor <;> omega
  · exact proper_coordinatesJson s.coordinates

lemma nesting_toJson_le : s.toJson.nesting ≤ 2 := by
  rw [toJson_eq, nesting]
  apply Nat.succ_le_succ
  apply nestingMembers_le
  apply s.forall_mem_parts (P := fun v => v.nesting ≤ 1)
  · rw [sourcesJson, nesting, nestingItems_map_str]
  · exact fun _ => Nat.zero_le 1
  · exact Nat.zero_le 1
  · exact nesting_coordinatesJson_le s.coordinates

/-- Both the compact and the pretty text of settings are read as their JSON form. -/
lemma ofText?_of_mem {text : String} (htext : text ∈ [s.toJson.compact, s.toJson.pretty]) :
    ofText? text = some s.toJson := by
  have hlimit : s.toJson.nesting ≤ maxNesting := s.nesting_toJson_le.trans (by decide)
  rw [← ofTextWithin?_maxNesting]
  simp only [List.mem_cons, List.not_mem_nil, or_false] at htext
  rcases htext with rfl | rfl
  · exact ofTextWithin?_compact s.proper_toJson hlimit
  · exact ofTextWithin?_pretty s.proper_toJson hlimit

end Text

/-! ### Loading -/

section Merged

variable (s : Settings) {env : Environment} (henv : ∀ part, env.given? part = none)

include henv

/-- Below the parts of settings no default value is seen, and nothing lies above them. -/
lemma lookup_merged_parts (key : String) :
    (merged s.parts env {}).lookup key = s.parts.lookup key := by
  have hdefault : defaultParts.map Prod.fst ⊆ s.parts.map Prod.fst :=
    (List.sublist_append_left (defaultParts.map Prod.fst) _).subset
  have hargument : ({} : Overrides).parts.lookup key = none := rfl
  rw [lookup_merged s.nodup_parts, lookup_or_of_subset hdefault, henv, hargument, overlay?_none,
    overlay?_none]

lemma ofParts_parts : ofParts s.parts env {} = .ok s := by
  rw [ofParts, ofJson?_congr_of_lookup (s.lookup_merged_parts henv), ← toJson_eq, ofJson?_toJson]

end Merged

/-- The settings file, whether it is named or not, gives the members of the object in it. -/
lemma fileParts_of_readText {fs : FileTree} {path : Option String} {text : String} {ps : Parts}
    (hread : fs.readText (path.getD fileName) = .ok text) (htext : ofText? text = some (.obj ps)) :
    fileParts fs path = .ok ps := by
  have hisFile : fs.isFile (path.getD fileName) = true := by
    obtain ⟨p, m, hfind⟩ := FileTree.readText_eq_ok_iff.mp hread
    exact FileTree.isFile_iff.mpr ⟨p, _, m, hfind⟩
  have hfile : file? fs path = .ok (some (path.getD fileName)) := by
    cases path with
    | none => exact congrArg Except.ok (if_pos hisFile)
    | some path => exact if_pos hisFile
  have hlayer : fileLayer? fs (path.getD fileName) = some (.obj ps) := by
    simp only [fileLayer?, hread, htext, Option.bind_eq_bind, Option.bind_some]
    rfl
  rw [fileParts, hfile]
  simp only [bind, Except.bind, hlayer]
  rfl

lemma load_of_readText (s : Settings) {text : String} (hjson : ofText? text = some s.toJson)
    {env : Environment} (henv : ∀ part, env.given? part = none) {path : Option String}
    {fs : FileTree} (hread : fs.readText (path.getD fileName) = .ok text) :
    load fs env path {} = .ok s := by
  rw [load_eq, fileParts_of_readText hread hjson]
  exact s.ofParts_parts henv

/-- Settings are read from their saved text. They are loaded from a file with this text, or to which
it is written, if neither a variable nor the command line gives a part of settings. -/
theorem load_saved (s : Settings) {text : String}
    (htext : text ∈ [s.toJson.compact, s.toJson.pretty]) :
    (ofText? text).bind ofJson? = some s ∧
      ∀ env : Environment, (∀ v ∈ env,
          v.1.map Char.toLower ∉ ["apigen_out_dir", "apigen_format", "apigen_max_depth"]) →
        ∀ path : Option String,
          (∀ fs : FileTree, fs.readText (path.getD fileName) = .ok text →
            load fs env path {} = .ok s) ∧
          ∀ fs fs' : FileTree, fs.writeText (path.getD fileName) text = .ok fs' →
            load fs' env path {} = .ok s := by
  have hjson := s.ofText?_of_mem htext
  constructor
  · rw [hjson]
    exact s.ofJson?_toJson
  · intro env henv path
    have hgiven := Environment.given?_eq_none_of_forall fun v hv =>
      Environment.setting?_eq_none (henv v hv)
    constructor
    · intro fs hread
      exact s.load_of_readText hjson hgiven hread
    · intro fs fs' hwrite
      exact s.load_of_readText hjson hgiven (FileTree.readText_writeText hwrite)

/-- Only one of the coordinates is given, and the depth is the greatest one. -/
theorem load_saved_unicode :
    let s : Settings := {
      sources := ["Größe/源", "a\nb"], outDirectory := "", format := .both
      maxDepth := 0xFFFFFFFFFFFFFFFF, coordinates := { artifactId := some "\"x\"" } }
    let text := "\x7b\"sources\":[\"Größe/源\",\"a\\nb\"],\"outDir\":\"\",\"format\":\"both\"," ++
      "\"maxDepth\":18446744073709551615,\"artifact\":\x7b\"artifactId\":\"\\\"x\\\"\"\x7d\x7d"
    let env : Environment := [("APIGEN_SOURCES", "[a]"), ("HOME", "/root")]
    let fs : FileTree := { entries := [(["saved"], .file (.text text) 0o644)] }
    let fs' : FileTree := { entries := [([fileName], .file (.text text) 0o644)] }
    s.toJson.compact = text ∧ (ofText? text).bind ofJson? = some s ∧
      load fs env (some "saved") {} = .ok s ∧
      ({} : FileTree).writeText fileName text = .ok fs' ∧ load fs' env none {} = .ok s := by
  intro s text env fs fs'
  have hcompact : s.toJson.compact = text := by decide +kernel +zetaReduce
  have htext : text ∈ [s.toJson.compact, s.toJson.pretty] := by
    rw [hcompact]
    exact List.mem_cons_self
  have henv : ∀ v ∈ env,
      v.1.map Char.toLower ∉ ["apigen_out_dir", "apigen_format", "apigen_max_depth"] := by
    decide +kernel +zetaReduce
  have hread : fs.readText "saved" = .ok text := rfl
  have hwrite : ({} : FileTree).writeText fileName text = .ok fs' := by decide +kernel +zetaReduce
  obtain ⟨hdecode, hload⟩ := load_saved s htext
  exact ⟨hcompact, hdecode, (hload env henv (some "saved")).1 fs hread, hwrite,
    (hload env henv none).2 {} fs' hwrite⟩

end ServiceDocs.Settings
