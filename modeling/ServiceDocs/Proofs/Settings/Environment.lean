import ServiceDocs.Proofs.Json.Members
import ServiceDocs.Settings.Environment

/-!
# What variables give

For each part of the settings the last variable of its name counts, and no other variable matters.
The value of a variable is never `null`, and neither is a member of a record.
-/

namespace ServiceDocs.Environment

open Json

/-! ### Values -/

/-- The value is not `null`, and if it is a record, its keys differ and none of its members is
`null`. -/
structure Typed (v : Json) : Prop where
  ne_null : v ≠ .null
  nodup : ∀ ms, v = .obj ms → (ms.map Prod.fst).Nodup
  members : ∀ ms, v = .obj ms → ∀ m ∈ ms, m.2 ≠ .null

lemma typed_of_ne {v : Json} (hnull : v ≠ .null) (hobj : ∀ ms, v ≠ .obj ms) : Typed v where
  ne_null := hnull
  nodup ms h := absurd h (hobj ms)
  members ms h := absurd h (hobj ms)

lemma typed_ofMembers {ms : List (String × Json)} (h : ∀ m ∈ ms, m.2 ≠ .null) :
    Typed (.ofMembers ms) where
  ne_null := Json.noConfusion
  nodup := by
    rintro _ ⟨⟩
    exact nodup_inserted ms
  members := by
    rintro _ ⟨⟩
    exact forall_mem_inserted (P := (· ≠ .null)) h

lemma typed_plainValue (cs : List Char) : Typed (plainValue cs) := by
  rw [plainValue]
  split
  · exact typed_of_ne Json.noConfusion fun _ => Json.noConfusion
  · split
    · exact typed_of_ne Json.noConfusion fun _ => Json.noConfusion
    · split
      · exact typed_of_ne Json.noConfusion fun _ => Json.noConfusion
      · exact typed_of_ne Json.noConfusion fun _ => Json.noConfusion

/-- With this much fuel, all that is read is typed. -/
structure ReadsTyped (fuel : ℕ) : Prop where
  value : ∀ {cs v r}, readValue fuel cs = some (v, r) → Typed v
  members : ∀ {cs ms r}, readMembers fuel cs = some (ms, r) → ∀ m ∈ ms, m.2 ≠ .null

lemma readsTyped (fuel : ℕ) : ReadsTyped fuel := by
  induction fuel with
  | zero =>
    constructor
    · intro cs v r h
      cases h
    · intro cs ms r h
      cases h
  | succ fuel ih =>
    constructor
    · intro cs v r h
      rw [readValue] at h
      split at h
      · cases h
        exact typed_of_ne Json.noConfusion fun _ => Json.noConfusion
      · cases h
        exact typed_of_ne Json.noConfusion fun _ => Json.noConfusion
      · obtain ⟨p, _, hp⟩ := Option.map_eq_some_iff.mp h
        cases hp
        exact typed_of_ne Json.noConfusion fun _ => Json.noConfusion
      · obtain ⟨p, _, hp⟩ := Option.map_eq_some_iff.mp h
        cases hp
        exact typed_of_ne Json.noConfusion fun _ => Json.noConfusion
      · obtain ⟨p, hread, hp⟩ := Option.map_eq_some_iff.mp h
        cases hp
        exact typed_ofMembers (ih.members hread)
      · cases h
        exact typed_plainValue _
    · intro cs ms r h
      rw [readMembers.eq_def] at h
      split at h
      · next heq => cases heq
      · cases h
        exact List.forall_mem_nil _
      · next heq _ =>
        obtain rfl := Nat.succ.inj heq
        split at h
        · cases h
        · split at h
          · split at h
            · next hvalue =>
              obtain ⟨p, hread, hp⟩ := Option.map_eq_some_iff.mp h
              cases hp
              exact List.forall_mem_cons.mpr ⟨(ih.value hvalue).ne_null, ih.members hread⟩
            · next hvalue =>
              cases h
              exact List.forall_mem_singleton.mpr (ih.value hvalue).ne_null
            · cases h
          · cases h

lemma typed_value (text : String) : Typed (value text) := by
  rw [value]
  split
  · next v h => exact (readsTyped _).value h
  · exact typed_of_ne Json.noConfusion fun _ => Json.noConfusion

/-! ### Parts -/

/-- The value of the last variable for a part of the settings. -/
def given? (env : Environment) (part : String) : Option Json :=
  (env.reverse.find? fun v => setting? v.1 = some part).map fun v => value v.2

/-- The parts that are given by variables. -/
def parts (env : Environment) : Parts :=
  inserted (env.filterMap fun v => (setting? v.1).map fun part => (part, value v.2))

lemma nodup_parts (env : Environment) : (env.parts.map Prod.fst).Nodup :=
  nodup_inserted _

lemma lookup_filterMap (vs : List (String × String)) (part : String) :
    (vs.filterMap fun v => (setting? v.1).map fun part => (part, value v.2)).lookup part =
      (vs.find? fun v => setting? v.1 = some part).map fun v => value v.2 := by
  induction vs with
  | nil => rfl
  | cons v vs ih =>
    cases hv : setting? v.1 with
    | none =>
      rw [List.filterMap_cons_none (by rw [hv]; rfl), ih, List.find?_cons_of_neg (by simp [hv])]
    | some p =>
      rw [List.filterMap_cons_some (b := (p, value v.2)) (by rw [hv]; rfl)]
      by_cases hp : part = p
      · subst hp
        rw [List.lookup_cons_self, List.find?_cons_of_pos (by simp [hv])]
        rfl
      · rw [List.lookup_cons, beq_eq_false_iff_ne.mpr hp, ih,
          List.find?_cons_of_neg (by simp [hv, Ne.symm hp])]

lemma lookup_parts (env : Environment) (part : String) :
    env.parts.lookup part = env.given? part := by
  rw [parts, lookup_inserted, ← List.filterMap_reverse, lookup_filterMap]
  rfl

lemma typed_of_given? {env : Environment} {part : String} {v : Json}
    (h : env.given? part = some v) : Typed v := by
  obtain ⟨source, _, rfl⟩ := Option.map_eq_some_iff.mp h
  exact typed_value _

/-- Variables give three parts of the settings. -/
lemma setting?_eq_some {name part : String} (h : setting? name = some part) :
    part ∈ ["outDir", "format", "maxDepth"] := by
  obtain ⟨s, hs, rfl⟩ := Option.map_eq_some_iff.mp h
  have hmem := List.mem_of_find?_eq_some hs
  have hall : ∀ s ∈ settingNames, s.2 ∈ ["outDir", "format", "maxDepth"] := by decide
  exact hall s hmem

lemma given?_eq_none {part : String} (h : part ∉ ["outDir", "format", "maxDepth"])
    (env : Environment) : env.given? part = none := by
  rw [given?, Option.map_eq_none_iff, List.find?_eq_none]
  intro v _ hv
  exact h (setting?_eq_some (of_decide_eq_true hv))

lemma setting?_eq_none {name : String}
    (h : name.map Char.toLower ∉ settingNames.map fun s => namePrefix ++ s.1) :
    setting? name = none := by
  rw [setting?, Option.map_eq_none_iff, List.find?_eq_none]
  intro s hs heq
  exact h (List.mem_map.mpr ⟨s, hs, of_decide_eq_true heq⟩)

lemma given?_eq_none_of_forall {env : Environment} (h : ∀ v ∈ env, setting? v.1 = none)
    (part : String) : env.given? part = none := by
  rw [given?, Option.map_eq_none_iff, List.find?_eq_none]
  intro v hv
  simp [h v (List.mem_reverse.mp hv)]

/-- A variable that gives no part of the settings has no effect. -/
lemma settings_append_cons {name : String} (h : setting? name = none) (text : String)
    (before after : Environment) :
    settings (before ++ (name, text) :: after) = settings (before ++ after) := by
  rw [settings, settings, List.filterMap_append, List.filterMap_append,
    List.filterMap_cons_none (by simp [h])]

end ServiceDocs.Environment
