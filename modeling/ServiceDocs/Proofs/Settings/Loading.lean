import ServiceDocs.Proofs.Settings.Layers

/-!
# Loading settings

Loaded settings follow the layers, and what a layer gives for a part that a higher layer gives as
well does not matter, nor does a variable that gives no part at all.
-/

namespace ServiceDocs.Settings

open Json

/-! ### Masked values -/

/-- The command line gives the part. -/
inductive Gives (o : Overrides) : String → Prop where
  | sources (h : o.sources ≠ []) : Gives o "sources"
  | outDirectory {d : String} (h : o.outDirectory = some d) : Gives o "outDir"
  | format {f : OutputFormat} (h : o.format = some f) : Gives o "format"
  | maxDepth {n : UInt64} (h : o.maxDepth = some n) : Gives o "maxDepth"

/-- The command line gives the coordinate. -/
inductive GivesCoordinate (c : Coordinates) : String → Prop where
  | groupId {text : String} (h : c.groupId = some text) : GivesCoordinate c "groupId"
  | artifactId {text : String} (h : c.artifactId = some text) : GivesCoordinate c "artifactId"
  | version {text : String} (h : c.version = some text) : GivesCoordinate c "version"

/-- In the variables or in the settings file, a value is changed that a higher layer gives as
well. -/
inductive MaskedChange (o : Overrides) (env : Environment) (file : Parts) :
    Environment → Parts → Prop where
  /-- A value of the file that is given on the command line. -/
  | fileBelowArgument {part : String} {file' : Parts} (h : Gives o part)
    (hfile : AgreeBut part file file') : MaskedChange o env file env file'
  /-- A value of the file that is given by a variable. -/
  | fileBelowVariable {part : String} {v : Json} {file' : Parts} (h : env.given? part = some v)
    (hv : v ≠ .obj []) (hfile : AgreeBut part file file') : MaskedChange o env file env file'
  /-- A coordinate that is named in the file and given on the command line. -/
  | coordinateBelowArgument {part : String} {named named' file' : Parts}
    (h : GivesCoordinate o.coordinates part)
    (hnamed : file.lookup "artifact" = some (.obj named))
    (hnamed' : file'.lookup "artifact" = some (.obj named'))
    (hagree : AgreeBut part named named') (hfile : AgreeBut "artifact" file file') :
    MaskedChange o env file env file'
  /-- A value of a variable that is given on the command line. -/
  | variableBelowArgument {part : String} {env' : Environment} (h : Gives o part)
    (henv : ∀ other ≠ part, env.given? other = env'.given? other) :
    MaskedChange o env file env' file

lemma Gives.lookup {o : Overrides} {part : String} (h : Gives o part) :
    ∃ v, o.parts.lookup part = some v ∧ ∀ ms, v ≠ .obj ms := by
  cases h with
  | sources h =>
    have hsources : o.sources? = some o.sources := if_neg (by simpa using h)
    exact ⟨_, by rw [o.lookup_sources, hsources]; rfl, fun _ => Json.noConfusion⟩
  | outDirectory h => exact ⟨_, by rw [o.lookup_outDirectory, h]; rfl, fun _ => Json.noConfusion⟩
  | format h => exact ⟨_, by rw [o.lookup_format, h]; rfl, fun _ => Json.noConfusion⟩
  | maxDepth h => exact ⟨_, by rw [o.lookup_maxDepth, h]; rfl, fun _ => Json.noConfusion⟩

lemma gives_of_lookup {o : Overrides} {part : String} {v : Json}
    (hpart : part ∈ ["outDir", "format", "maxDepth"]) (h : o.parts.lookup part = some v) :
    Gives o part := by
  simp only [List.mem_cons, List.not_mem_nil, or_false] at hpart
  rcases hpart with rfl | rfl | rfl
  · rw [o.lookup_outDirectory] at h
    obtain ⟨d, hd, _⟩ := Option.map_eq_some_iff.mp h
    exact .outDirectory hd
  · rw [o.lookup_format] at h
    obtain ⟨f, hf, _⟩ := Option.map_eq_some_iff.mp h
    exact .format hf
  · rw [o.lookup_maxDepth] at h
    obtain ⟨n, hn, _⟩ := Option.map_eq_some_iff.mp h
    exact .maxDepth hn

lemma GivesCoordinate.lookup {c : Coordinates} {part : String} (h : GivesCoordinate c part) :
    ∃ text, c.parts.lookup part = some (.str text) := by
  cases h with
  | @groupId text h => exact ⟨text, by rw [c.lookup_groupId, h]; rfl⟩
  | @artifactId text h => exact ⟨text, by rw [c.lookup_artifactId, h]; rfl⟩
  | @version text h => exact ⟨text, by rw [c.lookup_version, h]; rfl⟩

lemma GivesCoordinate.coordinates? {o : Overrides} {part : String}
    (h : GivesCoordinate o.coordinates part) : o.coordinates? = some o.coordinates := by
  rw [Overrides.coordinates?, if_neg]
  intro hempty
  obtain ⟨text, htext⟩ := h.lookup
  rw [Coordinates.parts_of_isEmpty hempty] at htext
  cases htext

lemma ofParts_congr {file file' : Parts} {env env' : Environment} {o o' : Overrides}
    (h : ∀ key, (merged file env o).lookup key = (merged file' env' o').lookup key) :
    ofParts file env o = ofParts file' env' o' := by
  rw [ofParts, ofParts, ofJson?_congr_of_lookup h]

section Masked

variable {file file' : Parts} (hfile : (file.map Prod.fst).Nodup)
  (hfile' : (file'.map Prod.fst).Nodup) {env env' : Environment} {o : Overrides}

include hfile hfile'

lemma ofParts_of_gives {part : String} (h : Gives o part) (hagree : AgreeBut part file file')
    (henv : ∀ other ≠ part, env.given? other = env'.given? other) :
    ofParts file env o = ofParts file' env' o := by
  obtain ⟨v, hv, hne⟩ := h.lookup
  apply ofParts_congr
  intro key
  rw [lookup_merged hfile, lookup_merged hfile']
  by_cases hkey : key = part
  · rw [hkey, hv]
    exact overlay?_congr_of_ne_obj hne _ _
  · rw [hagree key hkey, henv key hkey]

lemma ofParts_of_given {part : String} {v : Json} (h : env.given? part = some v)
    (hne : ∀ ms, v ≠ .obj ms) (hagree : AgreeBut part file file') :
    ofParts file env o = ofParts file' env o := by
  apply ofParts_congr
  intro key
  rw [lookup_merged hfile, lookup_merged hfile']
  by_cases hkey : key = part
  · rw [hkey, h, overlay?_congr_of_ne_obj hne]
  · rw [hagree key hkey]

lemma ofParts_of_givesCoordinate {part : String} {named named' : Parts}
    (h : GivesCoordinate o.coordinates part) (hnamed : file.lookup "artifact" = some (.obj named))
    (hnamed' : file'.lookup "artifact" = some (.obj named')) (hagree : AgreeBut part named named')
    (hothers : AgreeBut "artifact" file file') : ofParts file env o = ofParts file' env o := by
  obtain ⟨text, htext⟩ := h.lookup
  have hcoordinates : ∀ key, (overlayMembers named o.coordinates.parts).lookup key =
      (overlayMembers named' o.coordinates.parts).lookup key := by
    intro key
    rw [lookup_overlayMembers o.coordinates.nodup_parts,
      lookup_overlayMembers o.coordinates.nodup_parts]
    by_cases hkey : key = part
    · rw [hkey, htext]
      exact overlay?_congr_of_ne_obj (fun _ => Json.noConfusion) _ _
    · rw [hagree key hkey]
  have hmerged : ∀ {fs : Parts} {ns : Parts}, (fs.map Prod.fst).Nodup →
      fs.lookup "artifact" = some (.obj ns) → (merged fs env o).lookup "artifact" =
        some (.obj (overlayMembers ns o.coordinates.parts)) := by
    intro fs ns hfs hns
    rw [lookup_merged_artifact hfs, hns, h.coordinates?]
    rfl
  have hfound := hmerged hfile hnamed
  have hfound' := hmerged hfile' hnamed'
  have hagreeMerged : AgreeBut "artifact" (merged file env o) (merged file' env o) := by
    intro key hkey
    rw [lookup_merged hfile, lookup_merged hfile', hothers key hkey]
  rw [ofParts, ofParts, ofJson?_congr hagreeMerged]
  · rw [hfound, hfound']
    rfl
  · rw [Parts.optional_of_lookup hfound, Parts.optional_of_lookup hfound']
    exact coordinates?_congr hcoordinates

end Masked

/-! ### Records in variables -/

section Record

variable {file : Parts} (hfile : (file.map Prod.fst).Nodup) {env : Environment} {o : Overrides}

include hfile

lemma optional_of_record {α : Type} {read : Json → Option α} (hread : ReadsWords read)
    {part : String} {m : String × Json} {ms : List (String × Json)} {default : Json} {d : α}
    (h : env.given? part = some (.obj (m :: ms))) (hnone : o.parts.lookup part = none)
    (hdefault : defaultParts.lookup part = some default) :
    (merged file env o).optional part d read = none := by
  obtain ⟨below, hbelow⟩ : ∃ below, (file.lookup part).or (some default) = some below := by
    cases file.lookup part <;> exact ⟨_, rfl⟩
  rw [Parts.optional_of_lookup rfl, lookup_merged hfile, hnone, overlay?_none, hdefault, hbelow, h]
  exact read_overlay_cons hread (Environment.typed_of_given? h) below

/-- No settings are read if a variable gives a record with members. -/
lemma ofParts_of_record {part : String} {m : String × Json} {ms : List (String × Json)}
    (h : env.given? part = some (.obj (m :: ms))) (hnone : o.parts.lookup part = none) :
    ofParts file env o = .error unreadable := by
  rw [ofParts]
  cases hread : ofJson? (.obj (merged file env o)) with
  | none => rfl
  | some s =>
    have hfrom := readFrom_of_ofJson? hread
    have hpart : part ∈ ["outDir", "format", "maxDepth"] := by
      by_contra hpart
      rw [Environment.given?_eq_none hpart] at h
      cases h
    simp only [List.mem_cons, List.not_mem_nil, or_false] at hpart
    rcases hpart with rfl | rfl | rfl
    · have hsome := hfrom.outDirectory
      rw [optional_of_record hfile readsWords_asString? h hnone rfl] at hsome
      cases hsome
    · have hsome := hfrom.format
      rw [optional_of_record hfile readsWords_format h hnone rfl] at hsome
      cases hsome
    · have hsome := hfrom.maxDepth
      rw [optional_of_record hfile readsWords_depth? h hnone rfl] at hsome
      cases hsome

end Record

/-- A masked change does not change the settings that are loaded. -/
lemma MaskedChange.ofParts_eq {o : Overrides} {env env' : Environment} {file file' : Parts}
    (h : MaskedChange o env file env' file') (hfile : (file.map Prod.fst).Nodup)
    (hfile' : (file'.map Prod.fst).Nodup) : ofParts file env o = ofParts file' env' o := by
  cases h with
  | fileBelowArgument h hagree => exact ofParts_of_gives hfile hfile' h hagree fun _ _ => rfl
  | variableBelowArgument h henv => exact ofParts_of_gives hfile hfile' h (fun _ _ => rfl) henv
  | coordinateBelowArgument h hnamed hnamed' hagree hothers =>
    exact ofParts_of_givesCoordinate hfile hfile' h hnamed hnamed' hagree hothers
  | @fileBelowVariable part v _ h hv hagree =>
    by_cases hobj : ∃ ms, v = .obj ms
    · obtain ⟨ms, rfl⟩ := hobj
      have hpart : part ∈ ["outDir", "format", "maxDepth"] := by
        by_contra hpart
        rw [Environment.given?_eq_none hpart] at h
        cases h
      cases ms with
      | nil => exact absurd rfl hv
      | cons m ms =>
        cases hargument : o.parts.lookup part with
        | some w =>
          have hgives := gives_of_lookup hpart hargument
          exact ofParts_of_gives hfile hfile' hgives hagree fun _ _ => rfl
        | none => rw [ofParts_of_record hfile h hargument, ofParts_of_record hfile' h hargument]
    · exact ofParts_of_given hfile hfile' h (fun ms hms => hobj ⟨ms, hms⟩) hagree

/-! ### Loading -/

/-- A tree with nothing but a settings file. -/
def fileTree (text : String) : FileTree where
  entries := [([fileName], .file (.text text) 0o644)]

/-- Each part of loaded settings is that of the highest layer that gives it. A value that is masked
by a higher layer can be changed, and any variable but three be set, without any effect. -/
theorem load_follows_layers (path : Option String) (o : Overrides) :
    (∀ fs env s, load fs env path o = .ok s →
      ∃ file, fileParts fs path = .ok file ∧ FollowsLayers file env o s) ∧
    (∀ fs fs' env env' file file', fileParts fs path = .ok file → fileParts fs' path = .ok file' →
      MaskedChange o env file env' file' → load fs env path o = load fs' env' path o) ∧
    ∀ fs before name text after,
      name.map Char.toLower ∉ ["apigen_out_dir", "apigen_format", "apigen_max_depth"] →
      load fs (before ++ (name, text) :: after) path o = load fs (before ++ after) path o := by
  refine ⟨?_, ?_, ?_⟩
  · intro fs env s h
    rw [load_eq] at h
    obtain ⟨file, hfile, hread⟩ := bind_eq_ok_iff.mp h
    refine ⟨file, hfile, ?_⟩
    rw [ofParts] at hread
    split at hread
    · next hsome =>
      cases hread
      exact followsLayers_of_readFrom (nodup_of_fileParts hfile) (readFrom_of_ofJson? hsome)
    · cases hread
  · intro fs fs' env env' file file' hfile hfile' hmasked
    rw [load_eq, load_eq, hfile, hfile']
    exact hmasked.ofParts_eq (nodup_of_fileParts hfile) (nodup_of_fileParts hfile')
  · intro fs before name text after hname
    rw [load, load, Environment.settings_append_cons (Environment.setting?_eq_none hname)]

/-- The output directory is given by a variable, so that of the file does not matter, and neither do
sources in a variable. -/
theorem load_follows_layers_outDirectory :
    let o : Overrides := { sources := ["src"], coordinates := { groupId := some "cli.g" } }
    let env : Environment := [("APIGEN_OUT_DIR", "out")]
    let fs := fileTree "\x7b\"outDir\": \"docs\", \"artifact\": \x7b\"version\": \"1\"\x7d\x7d"
    let fs' := fileTree "\x7b\"outDir\": 5, \"artifact\": \x7b\"version\": \"1\"\x7d\x7d"
    let s : Settings := {
      sources := ["src"], outDirectory := "out"
      coordinates := { groupId := some "cli.g", version := some "1" } }
    load fs env none o = .ok s ∧
      (∃ file, fileParts fs none = .ok file ∧ FollowsLayers file env o s) ∧
      load fs env none o = load fs' env none o ∧
      load fs ([] ++ ("APIGEN_SOURCES", "[a]") :: env) none o = load fs ([] ++ env) none o := by
  intro o env fs fs' s
  have hload : load fs env none o = .ok s := by decide +kernel +zetaReduce
  refine ⟨hload, (load_follows_layers none o).1 fs env s hload, ?_, ?_⟩
  · have hmasked : MaskedChange o env
        [("outDir", .str "docs"), ("artifact", .obj [("version", .str "1")])] env
        [("outDir", .num 5), ("artifact", .obj [("version", .str "1")])] := by
      have hgiven : env.given? "outDir" = some (.str "out") := by decide +kernel +zetaReduce
      refine .fileBelowVariable hgiven Json.noConfusion ?_
      intro key hkey
      simp only [List.lookup_cons, beq_eq_false_iff_ne.mpr hkey]
    have hfile : fileParts fs none =
        .ok [("outDir", .str "docs"), ("artifact", .obj [("version", .str "1")])] := by
      decide +kernel +zetaReduce
    have hfile' : fileParts fs' none =
        .ok [("outDir", .num 5), ("artifact", .obj [("version", .str "1")])] := by
      decide +kernel +zetaReduce
    exact (load_follows_layers none o).2.1 fs fs' env env _ _ hfile hfile' hmasked
  · exact (load_follows_layers none o).2.2 fs [] "APIGEN_SOURCES" "[a]" env (by decide +kernel)

/-- An empty record in a variable does not replace the record of the file below it, as the variable
`APIGEN_FORMAT` does with any other value. So the format is that of the file, and another one in the
file gives another format. -/
theorem load_format_below_empty_record :
    let env : Environment := [("APIGEN_FORMAT", "\x7b\x7d")]
    let fs := fileTree "\x7b\"format\": \x7b\"json\": null\x7d\x7d"
    let fs' := fileTree "\x7b\"format\": \x7b\"both\": null\x7d\x7d"
    env.given? "format" = some (.obj []) ∧
      load fs env none {} = .ok { format := .json } ∧
      load fs' env none {} = .ok { format := .both } := by
  decide +kernel

end ServiceDocs.Settings
