import ServiceDocs.Proofs.Settings.Merged

/-!
# Layers of settings

Each part of loaded settings is that of the highest layer that gives it. Coordinates are decided one
by one where the settings file gives them by name. In another form, such as an array, they are those
of the settings if none of them is given on the command line.
-/

namespace ServiceDocs.Settings

open Json

/-! ### Parts with a single value -/

/-- The value of the highest layer that gives one. A record without members gives nothing. -/
def highest? (given : List (Option Json)) : Option Json :=
  given.reduceOption.find? (· ≠ .obj [])

/-- The value of a part that can be given by an argument and by layers below it, from the highest to
the lowest. -/
def decided {α : Type} (argument : Option α) (given : List (Option Json)) (default : Json)
    (read : Json → Option α) : Option α :=
  match argument with
  | some a => some a
  | none   => read ((highest? given).getD default)

/-- No object is read, but for one that says a single word. -/
def ReadsWords {α : Type} (read : Json → Option α) : Prop :=
  ∀ ms a, read (.obj ms) = some a → ∃ word, ms = [(word, .null)]

section Words

variable {α : Type} {read : Json → Option α} (hread : ReadsWords read)

include hread

lemma read_empty : read (.obj []) = none := by
  cases h : read (.obj []) with
  | none => rfl
  | some a =>
    obtain ⟨word, hword⟩ := hread [] a h
    cases hword

/-- A record that a variable gives is not read as a word, whatever is below it. -/
lemma read_overlay_cons {m : String × Json} {ms : List (String × Json)}
    (hv : Environment.Typed (.obj (m :: ms))) (below : Json) :
    read (below.overlay (.obj (m :: ms))) = none := by
  have hm : m.2 ≠ .null := hv.members _ rfl m List.mem_cons_self
  have hfound : ∃ ns w, below.overlay (.obj (m :: ms)) = .obj ns ∧ ns.lookup m.1 = some w ∧
      w ≠ .null := by
    cases below with
    | obj bs =>
      refine ⟨overlayMembers bs (m :: ms), ?_⟩
      rw [lookup_overlayMembers (hv.nodup _ rfl), List.lookup_cons_self]
      cases bs.lookup m.1 with
      | none => exact ⟨m.2, rfl, rfl, hm⟩
      | some b => exact ⟨b.overlay m.2, rfl, rfl, overlay_ne_null hm b⟩
    | _ => exact ⟨m :: ms, m.2, rfl, List.lookup_cons_self, hm⟩
  obtain ⟨ns, w, hns, hw, hnull⟩ := hfound
  rw [hns]
  cases h : read (.obj ns) with
  | none => rfl
  | some a =>
    obtain ⟨word, rfl⟩ := hread ns a h
    cases List.mem_singleton.mp (mem_of_lookup hw)
    exact absurd rfl hnull

/-- Below a variable stands the value of the file or the default one. -/
lemma decided_of_layers {given file : Option Json} {default : Json} {a : α}
    (hgiven : ∀ v, given = some v → Environment.Typed v)
    (h : (overlay? (some (file.getD default)) given).bind read = some a) :
    read ((highest? [given, file]).getD default) = some a := by
  have hbelow : read (file.getD default) = some a →
      read ((highest? [none, file]).getD default) = some a := by
    cases file with
    | none => exact id
    | some f =>
      intro hf
      have hne : f ≠ .obj [] := by
        rintro rfl
        rw [Option.getD_some, read_empty hread] at hf
        cases hf
      have hhighest : highest? [none, some f] = some f :=
        List.find?_cons_of_pos (by simpa using hne)
      rw [hhighest]
      exact hf
  cases given with
  | none => exact hbelow h
  | some v =>
    by_cases hobj : ∃ ms, v = .obj ms
    · obtain ⟨ms, rfl⟩ := hobj
      cases ms with
      | nil =>
        -- an empty record leaves an object below it as it is, and nothing else can be read
        apply hbelow
        cases hfile : file.getD default with
        | obj bs =>
          rw [hfile] at h
          exact h
        | _ =>
          rw [hfile] at h
          have hempty := (read_empty hread).symm.trans h
          cases hempty
      | cons m ms =>
        have hnone := (read_overlay_cons hread (hgiven _ rfl) (file.getD default)).symm.trans h
        cases hnone
    · have hne : ∀ ms, v ≠ .obj ms := fun ms hms => hobj ⟨ms, hms⟩
      have hhighest : highest? [some v, file] = some v :=
        List.find?_cons_of_pos (by simpa using hne [])
      have hv : read ((file.getD default).overlay v) = some a := h
      rw [overlay_of_ne_obj hne] at hv
      rw [hhighest]
      exact hv

end Words

section Decided

variable {α : Type} {read : Json → Option α} (hread : ReadsWords read) {file : Parts}
  (hfile : (file.map Prod.fst).Nodup) (env : Environment) (o : Overrides)

include hread hfile

/-- A part of merged settings is that of the highest layer that gives it. -/
lemma decided_of_merged {write : α → Json} {key : String} {argument : Option α} {default : Json}
    {d a : α} (hargument : o.parts.lookup key = argument.map write)
    (hwrite : ∀ x, read (write x) = some x) (hne : ∀ x ms, write x ≠ .obj ms)
    (hdefault : defaultParts.lookup key = some default)
    (h : (merged file env o).optional key d read = some a) :
    decided argument [env.given? key, file.lookup key] default read = some a := by
  have hbase : (file.lookup key).or (some default) = some ((file.lookup key).getD default) := by
    cases file.lookup key <;> rfl
  rw [Parts.optional_of_lookup rfl, lookup_merged hfile, hargument, hdefault, hbase] at h
  cases argument with
  | some x =>
    rw [overlay?_some, overlay?_some] at h
    have hx : read (Json.overlay _ (write x)) = some a := h
    rw [overlay_of_ne_obj (hne x), hwrite] at hx
    exact hx
  | none =>
    rw [Option.map_none, overlay?_none] at h
    apply decided_of_layers hread fun v hv => Environment.typed_of_given? hv
    rw [overlay?_some] at h ⊢
    exact h

end Decided

/-! ### Readers -/

lemma readsWords_asString? : ReadsWords asString? := by
  intro ms a h
  cases h

lemma readsWords_depth? : ReadsWords depth? := by
  intro ms a h
  cases h

lemma readsWords_sources : ReadsWords (asList? asString?) := by
  intro ms a h
  cases h

lemma readsWords_format : ReadsWords (asWord? OutputFormat.ofWord?) := by
  intro ms a h
  cases ms with
  | nil => cases h
  | cons m ms =>
    obtain ⟨word, v⟩ := m
    cases v with
    | null =>
      cases ms with
      | nil => exact ⟨word, rfl⟩
      | cons => cases h
    | _ => cases h

lemma depth?_depthJson (depth : UInt64) : depth? (depthJson depth) = some depth := by
  have hbound : (depth.toNat : ℤ) < Text.wordBound := by
    exact_mod_cast depth.toNat_lt
  rw [depth?, depthJson, asCount?, if_pos ⟨Int.natCast_nonneg _, hbound⟩, Int.toNat_natCast,
    Option.map_some, UInt64.ofNat_toNat]

lemma asList?_sourcesJson (sources : List String) :
    asList? asString? (sourcesJson sources) = some sources := by
  rw [sourcesJson, asList?, List.mapM_map]
  induction sources with
  | nil => rfl
  | cons s ss ih =>
    rw [List.mapM_cons, ih]
    rfl

/-! ### Coordinates -/

/-- A coordinate that is given by an argument, or else by name in the settings file. -/
def coordinateOf? (argument : Option String) (named : Parts) (key : String) :
    Option (Option String) :=
  match argument with
  | some text => some (some text)
  | none      => named.nullable key asString?

lemma nullable_of_overlay? {ps named : Parts} {key : String} {argument : Option String}
    (h : ps.lookup key = overlay? (named.lookup key) (argument.map Json.str)) :
    ps.nullable key asString? = coordinateOf? argument named key := by
  cases argument with
  | none =>
    rw [Option.map_none, overlay?_none] at h
    exact Parts.nullable_congr h
  | some text =>
    have htext : ps.lookup key = some (.str text) := by
      rw [h]
      cases named.lookup key <;> rfl
    rw [Parts.nullable, htext]
    rfl

/-- Each coordinate is that of the command line or else the one that is named in the file. -/
structure CoordinatesOf (c : Coordinates) (named : Parts) (result : Coordinates) : Prop where
  groupId : coordinateOf? c.groupId named "groupId" = some result.groupId
  artifactId : coordinateOf? c.artifactId named "artifactId" = some result.artifactId
  version : coordinateOf? c.version named "version" = some result.version

lemma coordinatesOf_of_lookup {c result : Coordinates} {named ps : Parts}
    (h : ∀ key, ps.lookup key = overlay? (named.lookup key) (c.parts.lookup key))
    (hread : coordinates? (.obj ps) = some result) : CoordinatesOf c named result := by
  simp only [coordinates?, parts?, Option.bind_eq_bind, Option.bind_eq_some_iff] at hread
  obtain ⟨_, hps, _, _, groupId, hgroup, artifactId, hartifact, version, hversion, heq⟩ := hread
  obtain rfl := Option.some.inj hps
  obtain rfl := Option.some.inj heq
  constructor
  · rw [← hgroup]
    symm
    apply nullable_of_overlay?
    rw [h, c.lookup_groupId]
  · rw [← hartifact]
    symm
    apply nullable_of_overlay?
    rw [h, c.lookup_artifactId]
  · rw [← hversion]
    symm
    apply nullable_of_overlay?
    rw [h, c.lookup_version]

/-! ### Loaded settings -/

/-- The settings are those of the highest layers. -/
structure FollowsLayers (file : Parts) (env : Environment) (o : Overrides) (s : Settings) :
    Prop where
  outDirectory : decided o.outDirectory [env.given? "outDir", file.lookup "outDir"]
    (.str ({} : Settings).outDirectory) asString? = some s.outDirectory
  format : decided o.format [env.given? "format", file.lookup "format"]
    (.str ({} : Settings).format.word) (asWord? OutputFormat.ofWord?) = some s.format
  maxDepth : decided o.maxDepth [env.given? "maxDepth", file.lookup "maxDepth"]
    (depthJson ({} : Settings).maxDepth) depth? = some s.maxDepth
  sources : decided o.sources? [file.lookup "sources"] (sourcesJson []) (asList? asString?) =
    some s.sources
  coordinates : ∀ named, (file.lookup "artifact" = some (.obj named) ∨
    file.lookup "artifact" = none ∧ named = []) → CoordinatesOf o.coordinates named s.coordinates
  otherCoordinates : ∀ j, file.lookup "artifact" = some j → o.coordinates.isEmpty →
    coordinates? j = some s.coordinates

section Loaded

variable {file : Parts} (hfile : (file.map Prod.fst).Nodup) {env : Environment} {o : Overrides}

include hfile

/-- What the coordinates are read from if the file names them or gives none. -/
lemma exists_parts_of_optional {named : Parts} {d c : Coordinates} (hd : d = {})
    (hnamed : file.lookup "artifact" = some (.obj named) ∨
      file.lookup "artifact" = none ∧ named = [])
    (h : (merged file env o).optional "artifact" d coordinates? = some c) :
    ∃ ps, coordinates? (.obj ps) = some c ∧
      ∀ key, ps.lookup key = overlay? (named.lookup key) (o.coordinates.parts.lookup key) := by
  rw [Parts.optional_of_lookup (lookup_merged_artifact hfile env o), Overrides.coordinates?] at h
  by_cases hempty : o.coordinates.isEmpty = true
  · rw [if_pos hempty, Option.map_none, overlay?_none] at h
    rw [Coordinates.parts_of_isEmpty hempty]
    refine ⟨named, ?_, fun key => (overlay?_none _).symm⟩
    rcases hnamed with hsome | ⟨hnone, rfl⟩
    · rw [hsome] at h
      exact h
    · rw [hnone, hd] at h
      exact h
  · rw [if_neg hempty, Option.map_some, Coordinates.toJson_eq] at h
    rcases hnamed with hsome | ⟨hnone, rfl⟩
    · rw [hsome] at h
      exact ⟨_, h, lookup_overlayMembers (Coordinates.nodup_parts _) named⟩
    · rw [hnone] at h
      exact ⟨_, h, fun key => (none_overlay? _).symm⟩

lemma followsLayers_of_readFrom {s : Settings} (h : ReadFrom (merged file env o) s) :
    FollowsLayers file env o s where
  outDirectory := decided_of_merged readsWords_asString? hfile env o o.lookup_outDirectory
    (fun _ => rfl) (fun _ _ => Json.noConfusion) rfl h.outDirectory
  format := decided_of_merged readsWords_format hfile env o o.lookup_format
    OutputFormat.ofWord?_word (fun _ _ => Json.noConfusion) rfl h.format
  maxDepth := decided_of_merged readsWords_depth? hfile env o o.lookup_maxDepth
    depth?_depthJson (fun _ _ => Json.noConfusion) rfl h.maxDepth
  sources := by
    have hgiven : env.given? "sources" = none := Environment.given?_eq_none (by decide) env
    have hdecided := decided_of_merged readsWords_sources hfile env o o.lookup_sources
      asList?_sourcesJson (fun _ _ => Json.noConfusion) rfl h.sources
    rw [hgiven] at hdecided
    exact hdecided
  coordinates := by
    intro named hnamed
    obtain ⟨ps, hread, hps⟩ := exists_parts_of_optional hfile rfl hnamed h.coordinates
    exact coordinatesOf_of_lookup hps hread
  otherCoordinates := by
    intro j hj hempty
    have hread := h.coordinates
    rw [Parts.optional_of_lookup (lookup_merged_artifact hfile env o), hj,
      Overrides.coordinates?, if_pos hempty] at hread
    exact hread

end Loaded

end ServiceDocs.Settings
