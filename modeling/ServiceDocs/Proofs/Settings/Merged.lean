import ServiceDocs.Proofs.Json.Parts
import ServiceDocs.Proofs.Settings.Environment
import ServiceDocs.Proofs.Steps

/-!
# Merged parts of settings

Settings are loaded from the parts that the settings file, the variables and the command line give,
laid over each other and over the default ones.
-/

namespace ServiceDocs

open Json

/-! ### Coordinates -/

namespace Coordinates

/-- The coordinates that are given, by name. -/
def parts (c : Coordinates) : Parts :=
  someMember "groupId" (c.groupId.map Json.str)
    ++ someMember "artifactId" (c.artifactId.map Json.str)
    ++ someMember "version" (c.version.map Json.str)

variable (c : Coordinates)

lemma toJson_eq : Settings.coordinatesJson c = .obj c.parts := rfl

lemma eq_of_isEmpty {c : Coordinates} (h : c.isEmpty = true) : c = {} := by
  obtain ⟨groupId, artifactId, version⟩ := c
  cases groupId <;> cases artifactId <;> cases version <;> first | rfl | cases h

lemma parts_of_isEmpty {c : Coordinates} (h : c.isEmpty = true) : c.parts = [] := by
  rw [eq_of_isEmpty h]
  rfl

lemma nodup_parts : (c.parts.map Prod.fst).Nodup := by
  have hsublist : (c.parts.map Prod.fst).Sublist Settings.coordinateNames := by
    simp only [parts, List.map_append]
    exact ((sublist_someMember _ _).append (sublist_someMember _ _)).append (sublist_someMember _ _)
  exact hsublist.nodup (by decide)

lemma lookup_groupId : c.parts.lookup "groupId" = c.groupId.map Json.str := by
  simp [parts, List.lookup_append, lookup_someMember]

lemma lookup_artifactId : c.parts.lookup "artifactId" = c.artifactId.map Json.str := by
  simp [parts, List.lookup_append, lookup_someMember]

lemma lookup_version : c.parts.lookup "version" = c.version.map Json.str := by
  simp [parts, List.lookup_append, lookup_someMember]

end Coordinates

/-! ### Parts of the command line -/

namespace Overrides

/-- The sources, if there are any. -/
def sources? (o : Overrides) : Option (List String) :=
  if o.sources.isEmpty then none else some o.sources

/-- The coordinates, if any of them is given. -/
def coordinates? (o : Overrides) : Option Coordinates :=
  if o.coordinates.isEmpty then none else some o.coordinates

/-- The parts that are given on the command line. -/
def parts (o : Overrides) : Parts :=
  someMember "sources" (o.sources?.map Settings.sourcesJson)
    ++ someMember "outDir" (o.outDirectory.map Json.str)
    ++ someMember "format" (o.format.map fun f => .str f.word)
    ++ someMember "maxDepth" (o.maxDepth.map Settings.depthJson)
    ++ someMember "artifact" (o.coordinates?.map Settings.coordinatesJson)

lemma toJson_eq (o : Overrides) : o.toJson = .obj o.parts := by
  rw [toJson, parts, sources?, coordinates?, Settings.coordinatesMember]
  split <;> split <;> rfl

lemma nodup_parts (o : Overrides) : (o.parts.map Prod.fst).Nodup := by
  have hsublist : (o.parts.map Prod.fst).Sublist Settings.partNames := by
    simp only [parts, List.map_append]
    exact ((((sublist_someMember _ _).append (sublist_someMember _ _)).append
      (sublist_someMember _ _)).append (sublist_someMember _ _)).append (sublist_someMember _ _)
  exact hsublist.nodup (by decide)

section Lookup

variable (o : Overrides)

lemma lookup_sources : o.parts.lookup "sources" = o.sources?.map Settings.sourcesJson := by
  simp [parts, List.lookup_append, lookup_someMember]

lemma lookup_outDirectory : o.parts.lookup "outDir" = o.outDirectory.map Json.str := by
  simp [parts, List.lookup_append, lookup_someMember]

lemma lookup_format : o.parts.lookup "format" = o.format.map fun f => .str f.word := by
  simp [parts, List.lookup_append, lookup_someMember]

lemma lookup_maxDepth : o.parts.lookup "maxDepth" = o.maxDepth.map Settings.depthJson := by
  simp [parts, List.lookup_append, lookup_someMember]

lemma lookup_coordinates :
    o.parts.lookup "artifact" = o.coordinates?.map Settings.coordinatesJson := by
  simp [parts, List.lookup_append, lookup_someMember]

end Lookup

end Overrides

namespace Settings

/-! ### Merged parts -/

/-- The parts of the default settings. -/
def defaultParts : Parts :=
  [("sources", .arr []), ("outDir", .str "api_docs"), ("format", .str "md"),
    ("maxDepth", .num 16)]

/-- The parts that the settings file gives. There are none without a file. -/
def fileParts (fs : FileTree) (path : Option String) : Except SettingsError Parts := do
  match ← file? fs path with
  | none      => return []
  | some path =>
    match fileLayer? fs path with
    | some (.obj ms) => return ms
    | _              => throw unreadable

/-- The parts that the settings file, the variables and the command line give, laid over each other
and over the default ones. -/
def merged (file : Parts) (env : Environment) (o : Overrides) : Parts :=
  overlayMembers (overlayMembers (overlayMembers defaultParts file) env.parts) o.parts

/-- The settings for the parts of a settings file. -/
def ofParts (file : Parts) (env : Environment) (o : Overrides) : Except SettingsError Settings :=
  match ofJson? (.obj (merged file env o)) with
  | some s => .ok s
  | none   => .error unreadable

lemma exists_of_fileLayer? {fs : FileTree} {path : String} {j : Json}
    (h : fileLayer? fs path = some j) : ∃ ms, j = .obj ms ∧ (ms.map Prod.fst).Nodup := by
  rw [fileLayer?] at h
  split at h
  · obtain ⟨value, hread, hvalue⟩ := Option.bind_eq_some_iff.mp h
    split at hvalue
    · cases hvalue
      exact ⟨_, rfl, nodup_of_ofText? hread⟩
    · cases hvalue
  · cases h

section Load

variable (env : Environment) (o : Overrides)

lemma ofLayers?_of_file (file : Parts) :
    ofLayers? [.obj file, env.settings, o.toJson] = ofJson? (.obj (merged file env o)) := by
  rw [o.toJson_eq]
  rfl

lemma ofLayers?_of_noFile :
    ofLayers? [env.settings, o.toJson] = ofJson? (.obj (merged [] env o)) := by
  rw [o.toJson_eq]
  rfl

/-- Settings are loaded from the parts that the settings file gives. -/
lemma load_eq (fs : FileTree) (path : Option String) :
    load fs env path o = fileParts fs path >>= fun file => ofParts file env o := by
  rw [load, fileParts]
  cases hfile : file? fs path with
  | error e => rfl
  | ok path? =>
    cases path? with
    | none =>
      show (match ofLayers? [env.settings, o.toJson] with
        | some s => .ok s
        | none => .error unreadable) = ofParts [] env o
      rw [ofLayers?_of_noFile]
      rfl
    | some path =>
      simp only [bind, Except.bind]
      cases hlayer : fileLayer? fs path with
      | none => rfl
      | some j =>
        obtain ⟨ms, rfl, _⟩ := exists_of_fileLayer? hlayer
        show (match ofLayers? [.obj ms, env.settings, o.toJson] with
          | some s => .ok s
          | none => .error unreadable) = ofParts ms env o
        rw [ofLayers?_of_file]
        rfl

end Load

lemma nodup_of_fileParts {fs : FileTree} {path : Option String} {file : Parts}
    (h : fileParts fs path = .ok file) : (file.map Prod.fst).Nodup := by
  obtain ⟨path?, _, h⟩ := bind_eq_ok_iff.mp h
  cases path? with
  | none =>
    cases h
    exact List.nodup_nil
  | some path =>
    dsimp only at h
    split at h
    · next hlayer =>
      obtain ⟨_, heq, hnodup⟩ := exists_of_fileLayer? hlayer
      cases heq
      cases h
      exact hnodup
    · cases h

/-! ### What is found -/

lemma defaultParts_ne_obj {key : String} {d : Json} (h : defaultParts.lookup key = some d)
    (ms : List (String × Json)) : d ≠ .obj ms := by
  have hmem := mem_of_lookup h
  rintro rfl
  simp [defaultParts] at hmem

section Merged

variable {file : Parts} (hfile : (file.map Prod.fst).Nodup) (env : Environment) (o : Overrides)

include hfile

lemma lookup_merged (key : String) :
    (merged file env o).lookup key =
      overlay? (overlay? ((file.lookup key).or (defaultParts.lookup key)) (env.given? key))
        (o.parts.lookup key) := by
  rw [merged, lookup_overlayMembers o.nodup_parts, lookup_overlayMembers env.nodup_parts,
    lookup_overlayMembers hfile, env.lookup_parts,
    overlay?_of_below_ne_obj fun b hb => defaultParts_ne_obj hb]

lemma lookup_merged_artifact :
    (merged file env o).lookup "artifact" =
      overlay? (file.lookup "artifact") (o.coordinates?.map coordinatesJson) := by
  have hdefault : defaultParts.lookup "artifact" = none := rfl
  rw [lookup_merged hfile, hdefault, Option.or_none, Environment.given?_eq_none (by decide),
    overlay?_none, o.lookup_coordinates]

end Merged

/-! ### Coordinates -/

lemma coordinates?_congr {ps qs : Parts} (h : ∀ key, ps.lookup key = qs.lookup key) :
    coordinates? (.obj ps) = coordinates? (.obj qs) := by
  have hwithin := Parts.within_congr (fun key => congrArg Option.isSome (h key)) coordinateNames
  simp only [coordinates?, parts?, Option.bind_eq_bind, Option.bind_some, hwithin,
    Parts.nullable_congr (h "groupId"), Parts.nullable_congr (h "artifactId"),
    Parts.nullable_congr (h "version")]

lemma coordinates?_coordinatesJson (c : Coordinates) : coordinates? (coordinatesJson c) = some c := by
  obtain ⟨groupId, artifactId, version⟩ := c
  cases groupId <;> cases artifactId <;> cases version <;> rfl

/-! ### What settings are read from -/

structure ReadFrom (ps : Parts) (s : Settings) : Prop where
  sources : ps.optional "sources" [] (asList? asString?) = some s.sources
  outDirectory : ps.optional "outDir" "api_docs" asString? = some s.outDirectory
  format : ps.optional "format" .markdown (asWord? OutputFormat.ofWord?) = some s.format
  maxDepth : ps.optional "maxDepth" 16 depth? = some s.maxDepth
  coordinates : ps.optional "artifact" {} coordinates? = some s.coordinates

lemma readFrom_of_ofJson? {ps : Parts} {s : Settings} (h : ofJson? (.obj ps) = some s) :
    ReadFrom ps s := by
  simp only [ofJson?, parts?, Option.bind_eq_bind, Option.bind_eq_some_iff] at h
  obtain ⟨_, hps, _, _, sources, hsources, outDirectory, houtDirectory, format, hformat, maxDepth,
    hmaxDepth, coordinates, hcoordinates, heq⟩ := h
  obtain rfl := Option.some.inj hps
  obtain rfl := Option.some.inj heq
  exact ⟨hsources, houtDirectory, hformat, hmaxDepth, hcoordinates⟩

/-- The parts differ at most in the value of one of them. -/
def AgreeBut (part : String) (ps qs : Parts) : Prop :=
  ∀ key ≠ part, ps.lookup key = qs.lookup key

lemma ofJson?_congr {ps qs : Parts} (h : AgreeBut "artifact" ps qs)
    (hsome : (ps.lookup "artifact").isSome = (qs.lookup "artifact").isSome)
    (hread : ps.optional "artifact" {} coordinates? = qs.optional "artifact" {} coordinates?) :
    ofJson? (.obj ps) = ofJson? (.obj qs) := by
  have hwithin : ps.within partNames = qs.within partNames := by
    apply Parts.within_congr
    intro key
    by_cases hkey : key = "artifact"
    · rw [hkey, hsome]
    · rw [h key hkey]
  simp only [ofJson?, parts?, Option.bind_eq_bind, Option.bind_some, hwithin,
    Parts.optional_congr (h "sources" (by decide)), Parts.optional_congr (h "outDir" (by decide)),
    Parts.optional_congr (h "format" (by decide)), Parts.optional_congr (h "maxDepth" (by decide)),
    hread]

lemma ofJson?_congr_of_lookup {ps qs : Parts} (h : ∀ key, ps.lookup key = qs.lookup key) :
    ofJson? (.obj ps) = ofJson? (.obj qs) :=
  ofJson?_congr (fun key _ => h key) (congrArg Option.isSome (h _)) (Parts.optional_congr (h _))

end Settings

end ServiceDocs
