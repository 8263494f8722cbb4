import Mathlib.Data.List.Induction
import Mathlib.Data.List.Perm.Basic
import Mathlib.Tactic.Common
import ServiceDocs.Constraint

/-!
# Limits that annotations give

A value and its length can be limited from below and from above. Of the annotations about a limit
the last one decides: it gives the limit, or it leaves the limit open, whatever has been said in
front of it. A range is about those limits only that it gives, and a length is always about both.

So the order of annotations does not matter as long as at most one of them is about each limit. If
a limit is given once, it can still be lost, to a later annotation that leaves it open.
-/

namespace ServiceDocs

/-! ### Limits -/

/-- The limits that annotations can give. -/
inductive Limit where
  | leastValue
  | greatestValue
  | leastLength
  | greatestLength

namespace Limit

/-- The names of the annotations that are about the limit even if they do not give it. -/
def names : Limit → List String
  | leastValue                   => ["Min", "DecimalMin"]
  | greatestValue                => ["Max", "DecimalMax"]
  | leastLength | greatestLength => ["Size", "Length"]

/-- The key of the argument by which they give it. -/
def key : Limit → String
  | leastValue | greatestValue => "value"
  | leastLength                => "min"
  | greatestLength             => "max"

/-- The key of the argument by which a range gives the limit. -/
def rangeKey? : Limit → Option String
  | leastValue                   => some "min"
  | greatestValue                => some "max"
  | leastLength | greatestLength => none

/-- The text that an annotation gives for the limit. -/
def given? (l : Limit) (a : AnnotationUse) : Option String :=
  if a.name ∈ l.names then a.argument? l.key
  else if a.name = "Range" then l.rangeKey?.bind a.argument?
  else none

/-- The names of all annotations that can give the limit. -/
def allNames (l : Limit) : List String :=
  l.names ++ if l.rangeKey?.isSome then ["Range"] else []

/-- The annotation is about the limit. -/
def isSubject (l : Limit) (a : AnnotationUse) : Bool :=
  a.name ∈ l.names || (l.given? a).isSome

variable {l : Limit} {a : AnnotationUse}

lemma isSubject_of_given? {t : String} (h : l.given? a = some t) : l.isSubject a = true := by
  simp [isSubject, h]

lemma given?_of_not_isSubject (h : ¬ l.isSubject a = true) : l.given? a = none := by
  by_contra hne
  obtain ⟨t, ht⟩ := Option.ne_none_iff_exists'.mp hne
  exact h (isSubject_of_given? ht)

lemma name_mem_allNames (h : l.isSubject a = true) : a.name ∈ l.allNames := by
  by_cases hname : a.name ∈ l.names
  · exact List.mem_append_left _ hname
  · have hgiven : (l.given? a).isSome = true := by simpa [isSubject, hname] using h
    rw [given?, if_neg hname] at hgiven
    split_ifs at hgiven with hrange
    · have hkey : l.rangeKey?.isSome = true := Option.isSome_of_isSome_bind hgiven
      rw [hrange, allNames, if_pos hkey]
      exact List.mem_append_right _ List.mem_cons_self
    · cases hgiven

end Limit

/-- The pattern that an annotation gives. -/
def AnnotationUse.pattern? (a : AnnotationUse) : Option String :=
  if a.name = "Pattern" then a.argument? "regexp" else none

namespace Constraint

/-- A limit of a constraint. -/
def limit (c : Constraint) : Limit → Option String
  | .leastValue     => c.value.low
  | .greatestValue  => c.value.high
  | .leastLength    => c.length.low
  | .greatestLength => c.length.high

lemma eq_of_limit_eq {c d : Constraint} (hlimit : ∀ l, c.limit l = d.limit l)
    (hpatterns : c.patterns = d.patterns) : c = d := by
  have hvalue : c.value = d.value :=
    congrArg₂ Bounds.mk (hlimit .leastValue) (hlimit .greatestValue)
  have hlength : c.length = d.length :=
    congrArg₂ Bounds.mk (hlimit .leastLength) (hlimit .greatestLength)
  cases c
  cases d
  simp_all

/-! ### The annotation that decides -/

/-- An annotation decides the limits that it is about. -/
lemma limit_add (c : Constraint) (a : AnnotationUse) (l : Limit) :
    (c.add a).limit l = if l.isSubject a then l.given? a else c.limit l := by
  have hor : ∀ x y : Option String, x.or y = if x.isSome then x else y := by
    intro x y
    cases x <;> rfl
  rw [add]
  split <;> cases l <;>
    simp_all [limit, Limit.isSubject, Limit.given?, Limit.names, Limit.key, Limit.rangeKey?]

lemma patterns_add (c : Constraint) (a : AnnotationUse) :
    (c.add a).patterns = c.patterns ++ a.pattern?.toList := by
  rw [add]
  split <;> simp_all [AnnotationUse.pattern?]

lemma ofAnnotations_concat (as : List AnnotationUse) (a : AnnotationUse) :
    ofAnnotations (as ++ [a]) = (ofAnnotations as).add a :=
  List.foldl_concat ..

/-- The last annotation about a limit decides it. -/
lemma limit_ofAnnotations (as : List AnnotationUse) (l : Limit) :
    (ofAnnotations as).limit l = (as.filter l.isSubject).getLast?.bind l.given? := by
  induction as using List.reverseRecOn with
  | nil => cases l <;> rfl
  | append_singleton as a ih =>
    rw [ofAnnotations_concat, limit_add, ih, List.filter_append]
    split_ifs with ha
    · rw [List.filter_cons_of_pos ha, List.filter_nil, List.getLast?_concat]
      rfl
    · rw [List.filter_cons_of_neg ha, List.filter_nil, List.append_nil]

lemma patterns_ofAnnotations (as : List AnnotationUse) :
    (ofAnnotations as).patterns = as.filterMap AnnotationUse.pattern? := by
  induction as using List.reverseRecOn with
  | nil => rfl
  | append_singleton as a ih =>
    rw [ofAnnotations_concat, patterns_add, ih, List.filterMap_append]
    cases ha : a.pattern? <;> simp [ha]

/-- The annotation that decides a limit has no other one about this limit behind it. -/
lemma limit_eq_some_iff {as : List AnnotationUse} {l : Limit} {t : String} :
    (ofAnnotations as).limit l = some t ↔ ∃ before a after, as = before ++ a :: after ∧
      l.given? a = some t ∧ ∀ b ∈ after, l.isSubject b = false := by
  rw [limit_ofAnnotations, List.getLast?_filter, Option.bind_eq_some_iff]
  constructor
  · rintro ⟨a, hfind, ha⟩
    obtain ⟨_, xs, ys, hreverse, hxs⟩ := List.find?_eq_some_iff_append.mp hfind
    refine ⟨ys.reverse, a, xs.reverse, ?_, ha, by simpa using hxs⟩
    rw [← List.reverse_reverse as, hreverse]
    simp
  · rintro ⟨before, a, after, rfl, ha, hafter⟩
    refine ⟨a, List.find?_eq_some_iff_append.mpr ⟨Limit.isSubject_of_given? ha, ?_⟩, ha⟩
    exact ⟨after.reverse, before.reverse, by simp, by simpa using hafter⟩

/-- Of a limit that one annotation is about, all that is said is what this one gives. -/
lemma limit_of_countP_le_one {as : List AnnotationUse} {l : Limit}
    (h : as.countP l.isSubject ≤ 1) : (ofAnnotations as).limit l = as.findSome? l.given? := by
  have hgiven : as.filterMap l.given? = (as.filter l.isSubject).filterMap l.given? := by
    rw [List.filterMap_filter]
    apply List.filterMap_congr
    intro a _
    split_ifs with ha
    · rfl
    · exact Limit.given?_of_not_isSubject ha
  rw [limit_ofAnnotations, ← List.head?_filterMap, hgiven]
  rw [List.countP_eq_length_filter] at h
  match hfilter : as.filter l.isSubject, h with
  | [], _  => rfl
  | [a], _ => cases ha : l.given? a <;> simp [ha]

/-! ### In words -/

/-- Limits from below and from above in words, with some words in front of them. -/
def limitsInWords (front : String) : Option String → Option String → List String
  | some low, some high => [front ++ "[" ++ low ++ ", " ++ high ++ "]"]
  | some low, none      => [front ++ ">= " ++ low]
  | none,     some high => [front ++ "<= " ++ high]
  | none,     none      => []

/-- The parts of a description; `none` if there are none. -/
def joined (parts : List String) : Option String :=
  if parts = [] then none else some ("; ".intercalate parts)

lemma limitsInWords_eq_nil_iff {front : String} {low high : Option String} :
    limitsInWords front low high = [] ↔ low = none ∧ high = none := by
  cases low <;> cases high <;> simp [limitsInWords]

lemma limitsInWords_findSome?_ne_nil_iff {front : String} {as : List AnnotationUse} {l m : Limit} :
    limitsInWords front (as.findSome? l.given?) (as.findSome? m.given?) ≠ [] ↔
      ∃ k ∈ [l, m], ∃ a ∈ as, k.given? a ≠ none := by
  rw [Ne, limitsInWords_eq_nil_iff, List.findSome?_eq_none_iff, List.findSome?_eq_none_iff,
    not_and_or, not_forall, not_forall]
  simp only [List.mem_cons, List.not_mem_nil, or_false, exists_eq_or_imp, exists_eq_left,
    Classical.not_imp, ne_eq]

lemma toList_text? (b : Bounds) : b.text?.toList = limitsInWords "" b.low b.high := by
  obtain ⟨low, high⟩ := b
  cases low <;> cases high <;> simp [Bounds.text?, limitsInWords]

lemma toList_map_text? (front : String) (b : Bounds) :
    (b.text?.map (front ++ ·)).toList = limitsInWords front b.low b.high := by
  obtain ⟨low, high⟩ := b
  cases low <;> cases high <;> simp [Bounds.text?, limitsInWords, String.append_assoc]

lemma text?_eq (c : Constraint) :
    c.text? = joined (limitsInWords "" (c.limit .leastValue) (c.limit .greatestValue)
      ++ c.patterns.map ("pattern: " ++ ·)
      ++ limitsInWords "length " (c.limit .leastLength) (c.limit .greatestLength)) := by
  rw [text?, parts, toList_text?, toList_map_text?, joined]
  simp only [List.isEmpty_iff]
  rfl

end Constraint

namespace AnnotationUse

open Constraint

/-! ### The order of annotations -/

lemma eq_of_perm_of_length_le_one {α : Type} {xs ys : List α} (h : xs.Perm ys)
    (hlength : ys.length ≤ 1) : xs = ys := by
  match ys, hlength with
  | [], _  => exact h.eq_nil
  | [y], _ => exact List.perm_singleton.mp h

/-- At most one annotation is about each of the limits, and at most one gives a pattern. A range is
about both limits of the value. -/
structure SaysOnce (as : List AnnotationUse) : Prop where
  leastValue : as.countP (fun a => a.name ∈ ["Min", "DecimalMin", "Range"]) ≤ 1
  greatestValue : as.countP (fun a => a.name ∈ ["Max", "DecimalMax", "Range"]) ≤ 1
  length : as.countP (fun a => a.name ∈ ["Size", "Length"]) ≤ 1
  pattern : as.countP (fun a => a.name ∈ ["Pattern"]) ≤ 1

namespace SaysOnce

variable {as : List AnnotationUse} (h : SaysOnce as)

include h

lemma countP_isSubject (l : Limit) : as.countP l.isSubject ≤ 1 := by
  have hle : as.countP l.isSubject ≤ as.countP fun a => a.name ∈ l.allNames :=
    List.countP_mono_left fun a _ ha => decide_eq_true (Limit.name_mem_allNames ha)
  apply Nat.le_trans hle
  cases l with
  | leastValue     => exact h.leastValue
  | greatestValue  => exact h.greatestValue
  | leastLength    => exact h.length
  | greatestLength => exact h.length

lemma length_patterns : (as.filterMap pattern?).length ≤ 1 := by
  have hle : as.countP (fun a => a.pattern?.isSome) ≤ as.countP fun a => a.name ∈ ["Pattern"] := by
    refine List.countP_mono_left fun a _ ha => decide_eq_true ?_
    by_contra hname
    simp [pattern?, List.mem_singleton.not.mp hname] at ha
  rw [List.length_filterMap_eq_countP]
  exact Nat.le_trans hle h.pattern

lemma ofAnnotations_eq {bs : List AnnotationUse} (hperm : bs.Perm as) :
    ofAnnotations bs = ofAnnotations as := by
  apply eq_of_limit_eq
  · intro l
    have hfilter := eq_of_perm_of_length_le_one (hperm.filter l.isSubject)
      (List.countP_eq_length_filter ▸ h.countP_isSubject l)
    rw [limit_ofAnnotations, limit_ofAnnotations, hfilter]
  · rw [patterns_ofAnnotations, patterns_ofAnnotations]
    exact eq_of_perm_of_length_le_one (hperm.filterMap pattern?) h.length_patterns

end SaysOnce

/-- If annotations say everything at most once, their order does not matter. The limits of the
value come first, then the pattern, then the limits of the length, as far as they are given. -/
theorem rangeText?_of_perm {as bs : List AnnotationUse} (h : SaysOnce as) (hperm : bs.Perm as) :
    let given (l : Limit) := as.findSome? l.given?
    let value := limitsInWords "" (given .leastValue) (given .greatestValue)
    let pattern := ((as.findSome? pattern?).map ("pattern: " ++ ·)).toList
    let length := limitsInWords "length " (given .leastLength) (given .greatestLength)
    rangeText? bs = rangeText? as ∧ rangeText? as = joined (value ++ pattern ++ length) ∧
      (value ≠ [] ↔ ∃ l ∈ [Limit.leastValue, .greatestValue], ∃ a ∈ as, l.given? a ≠ none) ∧
      (pattern ≠ [] ↔ ∃ a ∈ as, a.pattern? ≠ none) ∧
      (length ≠ [] ↔ ∃ l ∈ [Limit.leastLength, .greatestLength], ∃ a ∈ as, l.given? a ≠ none) := by
  intro given value pattern length
  have hlimit : ∀ l, (ofAnnotations as).limit l = given l := fun l =>
    limit_of_countP_le_one (h.countP_isSubject l)
  have hpatterns : (ofAnnotations as).patterns.map ("pattern: " ++ ·) = pattern := by
    have hlength := h.length_patterns
    simp only [pattern, patterns_ofAnnotations, ← List.head?_filterMap]
    match as.filterMap pattern?, hlength with
    | [], _  => rfl
    | [p], _ => rfl
  refine ⟨?_, ?_, limitsInWords_findSome?_ne_nil_iff, ?_, limitsInWords_findSome?_ne_nil_iff⟩
  · rw [rangeText?, rangeText?, h.ofAnnotations_eq hperm]
  · rw [rangeText?, text?_eq, hpatterns, hlimit, hlimit, hlimit, hlimit]
  · have hpattern : pattern = [] ↔ ∀ a ∈ as, a.pattern? = none := by
      rw [← List.findSome?_eq_none_iff, Option.toList_eq_nil_iff, Option.map_eq_none_iff]
    rw [Ne, hpattern, not_forall]
    simp only [Classical.not_imp, ne_eq]

/-- Annotations that have nothing to do with limits may stand in between, and a bound may be
missing. -/
theorem rangeText?_of_perm_mixed :
    let as : List AnnotationUse := [
      ⟨"Size", [("max", "9")]⟩, ⟨"Pattern", [("flags", "I"), ("regexp", "[a-z]*")]⟩,
      ⟨"NotNull", []⟩, ⟨"Range", [("min", "1"), ("max", "5")]⟩]
    SaysOnce as ∧ as.reverse.Perm as ∧ rangeText? as.reverse = rangeText? as ∧
      rangeText? as = some "[1, 5]; pattern: [a-z]*; length <= 9" := by
  intro as
  have h : SaysOnce as := by constructor <;> decide
  have hperm := List.reverse_perm as
  refine ⟨h, hperm, (rangeText?_of_perm h hperm).1, ?_⟩
  rw [(rangeText?_of_perm h hperm).2.1]
  decide +kernel

/-! ### Limits that are lost -/

/-- Behind an annotation that gives a limit no other one gives it. -/
lemma given?_eq_none_of_countP {l : Limit} {before after : List AnnotationUse} {a : AnnotationUse}
    {t : String}
    (h : (before ++ a :: after).countP (fun a => (l.given? a).isSome) ≤ 1)
    (ha : l.given? a = some t) : ∀ b ∈ after, l.given? b = none := by
  rw [List.countP_append, List.countP_cons_of_pos (by rw [ha]; rfl)] at h
  have hafter : after.countP (fun a => (l.given? a).isSome) = 0 := by omega
  simpa using List.countP_eq_zero.mp hafter

/-- A limit that is given at most once is shown, unless an annotation behind it leaves it open. So
it is shown if all annotations whose kind is about the limit give it. -/
theorem rangeText?_shows_limits {as : List AnnotationUse}
    (h : ∀ l : Limit, as.countP (fun a => (l.given? a).isSome) ≤ 1) :
    ∃ shown : Limit → Option String,
      rangeText? as = joined (limitsInWords "" (shown .leastValue) (shown .greatestValue)
        ++ (as.filterMap pattern?).map ("pattern: " ++ ·)
        ++ limitsInWords "length " (shown .leastLength) (shown .greatestLength)) ∧
      (∀ l t, shown l = some t ↔ ∃ before a after, as = before ++ a :: after ∧
        l.given? a = some t ∧ ∀ b ∈ after, b.name ∉ l.names) ∧
      ∀ l, (∀ b ∈ as, b.name ∈ l.names → l.given? b ≠ none) →
        ∀ a ∈ as, ∀ t, l.given? a = some t → shown l = some t := by
  have hshown : ∀ l t, (ofAnnotations as).limit l = some t ↔ ∃ before a after,
      as = before ++ a :: after ∧ l.given? a = some t ∧ ∀ b ∈ after, b.name ∉ l.names := by
    intro l t
    rw [limit_eq_some_iff]
    constructor
    · rintro ⟨before, a, after, rfl, ha, hafter⟩
      refine ⟨before, a, after, rfl, ha, fun b hb hname => ?_⟩
      have hsubject := hafter b hb
      simp [Limit.isSubject, hname] at hsubject
    · rintro ⟨before, a, after, rfl, ha, hafter⟩
      have hnone := given?_eq_none_of_countP (h l) ha
      refine ⟨before, a, after, rfl, ha, fun b hb => ?_⟩
      simp [Limit.isSubject, hafter b hb, hnone b hb]
  refine ⟨(ofAnnotations as).limit, ?_, hshown, ?_⟩
  · rw [rangeText?, text?_eq, patterns_ofAnnotations]
  · intro l hgiven a ha t ht
    obtain ⟨before, after, rfl⟩ := List.append_of_mem ha
    have hnone := given?_eq_none_of_countP (h l) ht
    refine (hshown l t).mpr ⟨before, a, after, rfl, ht, fun b hb hname => ?_⟩
    exact hgiven b (by simp [hb]) hname (hnone b hb)

/-- A range gives the least value, and another annotation the greatest one. -/
theorem rangeText?_shows_limits_range :
    let as : List AnnotationUse := [
      ⟨"Range", [("min", "1")]⟩, ⟨"Pattern", [("regexp", "a")]⟩, ⟨"Max", [("value", "9")]⟩,
      ⟨"Pattern", [("regexp", "b")]⟩, ⟨"Size", [("min", "2"), ("max", "4")]⟩]
    (∀ l : Limit, as.countP (fun a => (l.given? a).isSome) ≤ 1) ∧
      rangeText? as = some "[1, 9]; pattern: a; pattern: b; length [2, 4]" := by
  intro as
  have h : ∀ l : Limit, as.countP (fun a => (l.given? a).isSome) ≤ 1 := by
    intro l
    cases l <;> decide
  have hnames : ∀ l : Limit, ∀ b ∈ as, b.name ∈ l.names → l.given? b ≠ none := by
    intro l
    cases l <;> decide
  refine ⟨h, ?_⟩
  obtain ⟨shown, htext, _, hshown⟩ := rangeText?_shows_limits h
  rw [htext, hshown .leastValue (hnames _) as[0] (by simp) "1" (by decide),
    hshown .greatestValue (hnames _) as[2] (by simp) "9" (by decide),
    hshown .leastLength (hnames _) as[4] (by simp) "2" (by decide),
    hshown .greatestLength (hnames _) as[4] (by simp) "4" (by decide)]
  decide +kernel

/-- Two annotations give one limit of the length each, and the second one leaves the limit of the
first one open. -/
theorem split_length_loses_limit :
    let as : List AnnotationUse := [⟨"Size", [("min", "1")]⟩, ⟨"Length", [("max", "5")]⟩]
    (∀ l : Limit, as.countP (fun a => (l.given? a).isSome) ≤ 1) ∧
      as.findSome? Limit.leastLength.given? = some "1" ∧
      as.findSome? Limit.greatestLength.given? = some "5" ∧ rangeText? as = some "length <= 5" := by
  intro as
  refine ⟨?_, by decide, by decide, by decide +kernel⟩
  intro l
  cases l <;> decide

end AnnotationUse
end ServiceDocs
