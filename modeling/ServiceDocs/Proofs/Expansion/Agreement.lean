import Mathlib.Data.Set.Basic
import ServiceDocs.Generation
import ServiceDocs.Proofs.Expansion.Trail

/-!
# Sources of types that agree

An expansion asks about a type, then about the types of its members and elements, and so on. Two
sources that give the same answers about the types of a set, where no answer leads out of the set,
thus expand these types to the same fields, and document the same methods in the same way.
-/

namespace ServiceDocs.TypeSource

/-- The sources give the same answers about the types of a set, and the types in these answers
belong to the set. -/
structure AgreeOn (s : Set TypeExpr) (src src' : TypeSource) : Prop where
  element? : ∀ t ∈ s, src'.element? t = src.element? t
  isTerminal : ∀ t ∈ s, src'.isTerminal t = src.isTerminal t
  sample : ∀ t ∈ s, src'.sample t = src.sample t
  members? : ∀ t ∈ s, src'.members? t = src.members? t
  element_mem : ∀ t ∈ s, ∀ e, src.element? t = some e → e ∈ s
  member_mem : ∀ t ∈ s, ∀ ms, src.members? t = some ms → ∀ m ∈ ms, m.type ∈ s

/-- The types that a method is declared with belong to the set. -/
structure TypedIn (s : Set TypeExpr) (m : Method) : Prop where
  result : m.returnType ∈ s
  parameter : ∀ p ∈ m.parameters, p.type ∈ s

namespace AgreeOn

variable {s : Set TypeExpr} {src src' : TypeSource}

/-! ### Fields -/

lemma fieldBelow_eq_of (h : AgreeOn s src src') {room : ℕ} {trail : Trail}
    (hbelow : ∀ t ∈ s, src'.fieldsBelow room trail t = src.fieldsBelow room trail t)
    {m : Member} (hm : m.type ∈ s) :
    src'.fieldBelow room trail m = src.fieldBelow room trail m := by
  rw [fieldBelow_eq, fieldBelow_eq, h.element? _ hm]
  cases he : src.element? m.type with
  | some e =>
    have hmem : e ∈ s := h.element_mem _ hm e he
    simp only [h.isTerminal e hmem, h.sample e hmem, hbelow e hmem]
  | none => simp only [h.isTerminal _ hm, h.sample _ hm, hbelow _ hm]

lemma fieldsBelow_eq (h : AgreeOn s src src') (room : ℕ) (trail : Trail) {t : TypeExpr}
    (ht : t ∈ s) : src'.fieldsBelow room trail t = src.fieldsBelow room trail t := by
  induction room generalizing trail t with
  | zero => rw [fieldsBelow_zero, fieldsBelow_zero]
  | succ room ih =>
    rw [fieldsBelow_succ, fieldsBelow_succ, h.members? t ht]
    split_ifs with hmem
    · rfl
    · cases hms : src.members? t with
      | none => rw [Option.map_none, Option.map_none]
      | some ms =>
        rw [Option.map_some, Option.map_some]
        congr 1
        apply List.map_congr_left
        intro c hc
        exact h.fieldBelow_eq_of (fun u hu => ih (t :: trail) hu) (h.member_mem t ht ms hms c hc)

lemma field_eq (h : AgreeOn s src src') (depth : ℕ) {m : Member} (hm : m.type ∈ s) :
    src'.field depth m = src.field depth m :=
  h.fieldBelow_eq_of (fun _ ht => h.fieldsBelow_eq depth [] ht) hm

/-! ### Methods -/

lemma response_eq (h : AgreeOn s src src') (depth : ℕ) {m : Method} (hm : m.returnType ∈ s) :
    src'.response depth m = src.response depth m := by
  have hobject : src'.isObject m.returnType = src.isObject m.returnType := by
    rw [isObject, isObject, h.element? _ hm, h.isTerminal _ hm]
  have hresult : src'.resultField depth m = src.resultField depth m := h.field_eq depth hm
  have hfields := h.fieldsBelow_eq depth [] hm
  rw [fieldsBelow, fieldsBelow] at hfields
  rw [response, response, hobject, hresult, hfields]

lemma entry_eq (h : AgreeOn s src src') (depth : ℕ) {m : Method} (hm : TypedIn s m) :
    src'.entry depth m = src.entry depth m := by
  have hrequest : m.parameters.map (src'.field depth) = m.parameters.map (src.field depth) :=
    List.map_congr_left fun p hp => h.field_eq depth (hm.parameter p hp)
  rw [entry, entry, hrequest, h.response_eq depth hm.result]

/-- What is documented of a type is the same, whether or not this succeeds, if both sources know
the same methods of the type. -/
lemma entriesFor_eq (h : AgreeOn s src src') {type : String}
    (hmethods : src'.methods? type = src.methods? type)
    (htyped : ∀ ms, src.methods? type = some ms → ∀ m ∈ ms, TypedIn s m) (depth : ℕ)
    (method : Option String) :
    Generation.entriesFor src' depth type method = Generation.entriesFor src depth type method := by
  have hof : src'.methodsOf type = src.methodsOf type := by
    rw [methodsOf, methodsOf, hmethods]
  have hentry : ∀ ms, src.methodsOf type = .ok ms →
      ∀ m ∈ ms, src'.entry depth m = src.entry depth m := by
    intro ms hms m hm
    rw [methodsOf] at hms
    cases hsome : src.methods? type with
    | none => simp [hsome] at hms
    | some ms' =>
      obtain rfl : ms' = ms := by simpa [hsome] using hms
      exact h.entry_eq depth (htyped ms' hsome m hm)
  cases method with
  | none =>
    simp only [Generation.entriesFor, entries, hof]
    cases hms : src.methodsOf type with
    | error e => simp only [bind, Except.bind]
    | ok ms =>
      have hmap := List.map_congr_left (hentry ms hms)
      simp only [bind, Except.bind, hmap]
  | some method =>
    simp only [Generation.entriesFor, entriesNamed, hof]
    cases hms : src.methodsOf type with
    | error e => simp only [bind, Except.bind]
    | ok ms =>
      have hnamed : ∀ m ∈ ms.filter (·.name = method), src'.entry depth m = src.entry depth m :=
        fun m hm => hentry ms hms m (List.mem_filter.mp hm).1
      simp only [bind, Except.bind]
      generalize ms.filter (·.name = method) = named at hnamed
      cases named with
      | nil => simp only
      | cons m rest =>
        have hmap := List.map_congr_left hnamed
        simp only [hmap]

end AgreeOn

end ServiceDocs.TypeSource
