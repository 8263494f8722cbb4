import ServiceDocs.Proofs.Settings.Loading
import ServiceDocs.Proofs.Settings.PlainText

/-!
# The output directory

The output directory can be given by a variable or on the command line. On the command line every
text is a directory. The value of a variable has a type: if it is a text, it means the same as this
text on the command line, and anything else is refused. So a plain text means the same in both
places, while a directory with the name of a number, say, can be given on the command line only.
-/

namespace ServiceDocs

open Json

/-! ### The variable -/

namespace Environment

lemma setting?_eq_outDir_iff {name : String} :
    setting? name = some "outDir" ↔ name.map Char.toLower = "apigen_out_dir" := by
  constructor
  · intro h
    obtain ⟨s, hs, hpart⟩ := Option.map_eq_some_iff.mp h
    have hname : namePrefix ++ s.1 = name.map Char.toLower := by simpa using List.find?_some hs
    have hall : ∀ s ∈ settingNames, s.2 = "outDir" → namePrefix ++ s.1 = "apigen_out_dir" := by
      decide
    rw [← hname, hall s (List.mem_of_find?_eq_some hs) hpart]
  · intro h
    rw [setting?, h]
    decide

lemma given?_append (env env' : Environment) (part : String) :
    given? (env ++ env') part = (given? env' part).or (given? env part) := by
  rw [given?, List.reverse_append, List.find?_append, Option.map_or]
  rfl

lemma given?_eq_none_of_names {env : Environment}
    (h : ∀ v ∈ env, v.1.map Char.toLower ≠ "apigen_out_dir") : given? env "outDir" = none := by
  rw [given?, Option.map_eq_none_iff, List.find?_eq_none]
  intro v hv hsetting
  rw [decide_eq_true_iff, setting?_eq_outDir_iff] at hsetting
  exact h v (List.mem_reverse.mp hv) hsetting

section Variable

variable {name : String} (hname : name.map Char.toLower = "apigen_out_dir") (text : String)

include hname

lemma given?_variable (part : String) :
    given? [(name, text)] part = if part = "outDir" then some (value text) else none := by
  have hsetting : setting? name = some "outDir" := setting?_eq_outDir_iff.mpr hname
  rw [given?, List.reverse_singleton]
  split_ifs with hpart
  · rw [List.find?_cons_of_pos (by simp [hsetting, hpart])]
    rfl
  · rw [List.find?_cons_of_neg (by simpa [hsetting] using Ne.symm hpart)]
    rfl

variable {before after : Environment}

/-- The only variable for the directory gives it. -/
lemma given?_directory
    (hothers : ∀ v ∈ before ++ after, v.1.map Char.toLower ≠ "apigen_out_dir") :
    given? (before ++ (name, text) :: after) "outDir" = some (value text) := by
  have hafter : given? after "outDir" = none :=
    given?_eq_none_of_names fun v hv => hothers v (List.mem_append_right before hv)
  rw [← List.singleton_append, given?_append, given?_append, hafter, given?_variable hname,
    if_pos rfl]
  rfl

/-- It does not matter to the other parts. -/
lemma given?_of_ne_directory {part : String} (hpart : part ≠ "outDir") :
    given? (before ++ (name, text) :: after) part = given? (before ++ after) part := by
  rw [← List.singleton_append, given?_append, given?_append, given?_append,
    given?_variable hname, if_neg hpart, Option.or_none]

end Variable

end Environment

/-! ### Loading -/

/-- On the command line the directory does not matter to the other parts. -/
lemma Overrides.lookup_parts_of_ne (o : Overrides) (d d' : Option String) {key : String}
    (h : key ≠ "outDir") :
    { o with outDirectory := d }.parts.lookup key =
      { o with outDirectory := d' }.parts.lookup key := by
  simp only [parts, List.lookup_append, lookup_someMember, if_neg h]
  rfl

namespace Settings

open Environment

section Directory

variable {file : Parts} (hfile : (file.map Prod.fst).Nodup) {env env' : Environment}
  (o : Overrides)

include hfile

/-- A directory that a variable gives as a text means the same on the command line. -/
lemma ofParts_of_given_text {d : String} (hgiven : env.given? "outDir" = some (.str d))
    (hnone : env'.given? "outDir" = none)
    (hothers : ∀ part ≠ "outDir", env.given? part = env'.given? part) :
    ofParts file env { o with outDirectory := none } =
      ofParts file env' { o with outDirectory := some d } := by
  apply ofParts_congr
  intro key
  rw [lookup_merged hfile, lookup_merged hfile]
  by_cases hkey : key = "outDir"
  · subst hkey
    rw [hgiven, hnone, Overrides.lookup_outDirectory, Overrides.lookup_outDirectory, overlay?_none,
      Option.map_none, overlay?_none]
    exact overlay?_congr_of_ne_obj (fun _ => Json.noConfusion) _ _
  · rw [hothers key hkey, o.lookup_parts_of_ne none (some d) hkey]

/-- Only a text can be the directory that a variable gives. -/
lemma ofParts_of_given_other {v : Json} (hgiven : env.given? "outDir" = some v)
    (hv : ∀ d, v ≠ .str d) :
    ofParts file env { o with outDirectory := none } = .error unreadable := by
  have hrefused : ∀ below : Json, asString? (below.overlay v) = none := by
    intro below
    cases v with
    | str d => exact absurd rfl (hv d)
    | obj ms => cases below <;> rfl
    | _ => rfl
  rw [ofParts]
  cases hread : ofJson? (.obj (merged file env { o with outDirectory := none })) with
  | none => rfl
  | some s =>
    obtain ⟨below, hbelow⟩ : ∃ below,
        (file.lookup "outDir").or (defaultParts.lookup "outDir") = some below := by
      cases file.lookup "outDir" <;> exact ⟨_, rfl⟩
    have hdirectory := (readFrom_of_ofJson? hread).outDirectory
    rw [Parts.optional_of_lookup rfl, lookup_merged hfile, hbelow, hgiven,
      Overrides.lookup_outDirectory, Option.map_none, overlay?_none] at hdirectory
    cases (hrefused below).symm.trans hdirectory

lemma outDirectory_of_argument {d : String} {s : Settings}
    (h : ofParts file env { o with outDirectory := some d } = .ok s) : s.outDirectory = d := by
  rw [ofParts] at h
  split at h
  · next hread =>
    cases h
    have hdirectory := (readFrom_of_ofJson? hread).outDirectory
    rw [Parts.optional_of_lookup rfl, lookup_merged hfile, Overrides.lookup_outDirectory,
      Option.map_some, overlay?_congr_of_ne_obj (fun _ => Json.noConfusion) _ none,
      none_overlay?] at hdirectory
    exact (Option.some.inj hdirectory).symm
  · cases h

end Directory

/-- A text in the variable for the output directory means the same as on the command line, if it is
plain. Of any other text only what it is read as counts, and this has to be a text, too. -/
theorem load_directory_variable {name : String} (hname : name.map Char.toLower = "apigen_out_dir")
    (text : String) {before after : Environment}
    (hothers : ∀ v ∈ before ++ after, v.1.map Char.toLower ≠ "apigen_out_dir")
    (fs : FileTree) (path : Option String) (o : Overrides) :
    let given := load fs (before ++ (name, text) :: after) path { o with outDirectory := none }
    let argued (d : String) := load fs (before ++ after) path { o with outDirectory := some d }
    (∀ d, value text = .str d → given = argued d) ∧
      ((∀ d, value text ≠ .str d) → ∃ e, given = .error e) ∧
      ∀ s, argued text = .ok s → s.outDirectory = text ∧
        (given = argued text ↔ Text.trim text.toList = text.toList ∧ IsPlain text.toList) := by
  intro given argued
  have hgiven := given?_directory hname text hothers
  have hnone := given?_eq_none_of_names hothers
  have hvariable : ∀ part ≠ "outDir", given? (before ++ (name, text) :: after) part =
      given? (before ++ after) part :=
    fun part hpart => given?_of_ne_directory hname text hpart
  have htext : ∀ d, value text = .str d → given = argued d := by
    intro d hd
    rw [hd] at hgiven
    simp only [given, argued, load_eq]
    cases hfile : fileParts fs path with
    | error e => rfl
    | ok file => exact ofParts_of_given_text (nodup_of_fileParts hfile) o hgiven hnone hvariable
  have hother : (∀ d, value text ≠ .str d) → ∃ e, given = .error e := by
    intro hv
    simp only [given, load_eq]
    cases hfile : fileParts fs path with
    | error e => exact ⟨e, rfl⟩
    | ok file => exact ⟨unreadable, ofParts_of_given_other (nodup_of_fileParts hfile) o hgiven hv⟩
  have hdirectory : ∀ d s, argued d = .ok s → s.outDirectory = d := by
    intro d s hs
    simp only [argued, load_eq] at hs
    obtain ⟨file, hfile, hs⟩ := bind_eq_ok_iff.mp hs
    exact outDirectory_of_argument (nodup_of_fileParts hfile) o hs
  refine ⟨htext, hother, fun s hs => ⟨hdirectory text s hs, ?_⟩⟩
  rw [← value_eq_self_iff]
  constructor
  · intro heq
    by_cases hv : ∃ d, value text = .str d
    · obtain ⟨d, hd⟩ := hv
      have hsame : argued d = .ok s := (htext d hd).symm.trans (heq.trans hs)
      rw [hd, ← hdirectory d s hsame, hdirectory text s hs]
    · obtain ⟨e, he⟩ := hother (by simpa using hv)
      cases he.symm.trans (heq.trans hs)
  · exact htext text

/-- A directory with blanks inside, in a variable that is not written as usual. -/
theorem load_directory_variable_blanks :
    let fs := fileTree "\x7b\"outDir\": \"docs\", \"maxDepth\": 4\x7d"
    let s : Settings := { outDirectory := "API docs, 2024", format := .json, maxDepth := 4 }
    let before : Environment := [("APIGEN_FORMAT", "json")]
    "Apigen_Out_Dir".map Char.toLower = "apigen_out_dir" ∧
      (∀ v ∈ before ++ [], v.1.map Char.toLower ≠ "apigen_out_dir") ∧
      load fs (before ++ ("Apigen_Out_Dir", "API docs, 2024") :: []) none {} = .ok s ∧
      load fs (before ++ []) none { outDirectory := some "API docs, 2024" } = .ok s := by
  intro fs s before
  have hname : "Apigen_Out_Dir".map Char.toLower = "apigen_out_dir" := by decide +kernel
  have hothers : ∀ v ∈ before ++ [], v.1.map Char.toLower ≠ "apigen_out_dir" := by
    decide +kernel +zetaReduce
  have hargued : load fs (before ++ []) none { outDirectory := some "API docs, 2024" } = .ok s := by
    decide +kernel +zetaReduce
  have hvalue : value "API docs, 2024" = .str "API docs, 2024" := by decide +kernel
  have hgiven := (load_directory_variable hname "API docs, 2024" hothers fs none {}).1 _ hvalue
  exact ⟨hname, hothers, hgiven.trans hargued, hargued⟩

/-- A directory with the name of a number is refused in a variable, and blanks around a name or
quotes are lost. -/
theorem variable_changes_directory :
    load {} [("APIGEN_OUT_DIR", "2024")] none {} = .error unreadable ∧
      load {} [] none { outDirectory := some "2024" } = .ok { outDirectory := "2024" } ∧
      load {} [("APIGEN_OUT_DIR", "\"docs\"")] none {} = .ok { outDirectory := "docs" } ∧
      load {} [] none { outDirectory := some "\"docs\"" } = .ok { outDirectory := "\"docs\"" } := by
  decide +kernel

end Settings

end ServiceDocs
