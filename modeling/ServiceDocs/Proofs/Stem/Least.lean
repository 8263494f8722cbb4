import ServiceDocs.Proofs.Stem

/-!
# Least free numbers

The plain rule for stems is: a name that is free is its own stem, and a name that is taken gets the
least number from two on for which it is free. The run of `issueAll` does not look for this number
from two on; for each name it remembers the last number that it has tried and goes on behind it.

This is the same, since a number that has been passed over stays taken: by a stem of the same name,
by a method that is really called so, or by a numbered stem of another name.
-/

namespace ServiceDocs.Stem

/-! ### The plain rule -/

section Rule

variable (given : List String) (name : String)

lemma exists_free_number : ∃ k, 2 ≤ k ∧ numbered name k ∉ given := by
  obtain ⟨k, hk, _, hfree⟩ := exists_free given name 1
  exact ⟨k, hk, hfree⟩

/-- The least number from two on whose stem is none of the given ones. -/
def leastFree : ℕ :=
  Nat.find (exists_free_number given name)

/-- The stem of a name by the plain rule, where some stems have been given before. -/
def leastStem : String :=
  if name ∈ given then numbered name (leastFree given name) else name

end Rule

/-- The stems of names by the plain rule, one after the other. -/
def leastStems (given : List String) : List String → List String
  | []            => []
  | name :: names => leastStem given name :: leastStems (leastStem given name :: given) names

/-! ### Runs -/

namespace Issued

/-- What has been issued behind stems for the given names. -/
def after (s : Issued) (names : List String) : Issued :=
  names.foldl (fun s name => (s.issue name).2) s

variable (s : Issued)

@[simp] lemma after_nil : s.after [] = s := rfl

@[simp] lemma after_cons (name : String) (names : List String) :
    s.after (name :: names) = (s.issue name).2.after names := rfl

end Issued

lemma issueAll_append (s : Issued) (before names : List String) :
    issueAll s (before ++ names) = issueAll s before ++ issueAll (s.after before) names := by
  induction before generalizing s with
  | nil => rfl
  | cons name before ih =>
    rw [List.cons_append, issueAll_cons, issueAll_cons, ih, s.after_cons, List.cons_append]

/-- The stems of a run are those that it has given, the last one first. -/
lemma stems_after (s : Issued) (names : List String) :
    (s.after names).stems = (issueAll s names).reverse ++ s.stems := by
  induction names generalizing s with
  | nil => rfl
  | cons name names ih =>
    rw [s.after_cons, ih, (issue_spec s name).2, issueAll_cons, List.reverse_cons,
      List.append_assoc, List.singleton_append]

/-! ### Numbers that have been passed over -/

lemma counter_cons (stems : List String) (counters : List (String × ℕ)) (name other : String)
    (k : ℕ) :
    Issued.counter ⟨stems, (name, k) :: counters⟩ other =
      if other = name then k else Issued.counter ⟨stems, counters⟩ other := by
  by_cases h : other = name
  · rw [Issued.counter, h, List.lookup_cons_self, if_pos rfl]
    rfl
  · rw [Issued.counter, List.lookup_cons, beq_eq_false_iff_ne.mpr h, if_neg h]
    rfl

namespace Issued

/-- No number up to the last one tried is free, and none below two has been tried. -/
structure PassesOverTaken (s : Issued) : Prop where
  countsFromOne : s.CountsFromOne
  taken : ∀ name k, 2 ≤ k → k ≤ s.counter name → numbered name k ∈ s.stems

namespace PassesOverTaken

lemma start : PassesOverTaken {} where
  countsFromOne := List.forall_mem_nil _
  taken := by
    intro name k hk hcounter
    have hone : Issued.counter {} name = 1 := rfl
    omega

variable {s : Issued} (hs : s.PassesOverTaken) (name : String)

include hs

/-- The number that is found behind the last one tried is the least free one. -/
lemma leastFree_eq_of_finds {k : ℕ} (hk : Finds s.stems name (s.counter name) k) :
    leastFree s.stems name = k := by
  obtain ⟨hlt, hfree, hbehind⟩ := hk.spec
  have hone := one_le_counter hs.countsFromOne name
  rw [leastFree, Nat.find_eq_iff]
  refine ⟨⟨by omega, hfree⟩, ?_⟩
  rintro i hi ⟨htwo, hnotMem⟩
  -- a smaller number has been passed over in this search or in an earlier one
  by_cases hcounter : i ≤ s.counter name
  · exact hnotMem (hs.taken name i htwo hcounter)
  · exact hnotMem (hbehind i (by omega) hi)

lemma fst_issue : (s.issue name).1 = leastStem s.stems name := by
  rw [leastStem]
  split_ifs with htaken
  · have hk := finds_nextFree s.stems name (s.counter name)
    rw [issue_of_finds htaken hk, hs.leastFree_eq_of_finds name hk]
  · rw [issue_of_notMem htaken]

/-- The search for a free number passes over taken ones only, and the number it finds is taken
afterwards. -/
lemma issue : (s.issue name).2.PassesOverTaken where
  countsFromOne := (of_issue hs.countsFromOne name).2
  taken := by
    intro other k htwo hcounter
    have hgrows : ∀ stem ∈ s.stems, stem ∈ (s.issue name).2.stems := by
      intro stem hstem
      rw [(issue_spec s name).2]
      exact List.mem_cons_of_mem _ hstem
    by_cases htaken : name ∈ s.stems
    · have hfinds := finds_nextFree s.stems name (s.counter name)
      obtain ⟨_, _, hbehind⟩ := hfinds.spec
      rw [issue_of_finds htaken hfinds] at hcounter hgrows ⊢
      rw [counter_cons] at hcounter
      split_ifs at hcounter with hother
      · subst hother
        by_cases hold : k ≤ s.counter other
        · exact hgrows _ (hs.taken other k htwo hold)
        · by_cases hlast : k = nextFree s.stems other (s.stems.length + 1) (s.counter other)
          · rw [hlast]
            exact List.mem_cons_self
          · exact hgrows _ (hbehind k (by omega) (by omega))
      · exact hgrows _ (hs.taken other k htwo hcounter)
    · rw [issue_of_notMem htaken] at hcounter hgrows ⊢
      exact hgrows _ (hs.taken other k htwo hcounter)

lemma after (names : List String) : (s.after names).PassesOverTaken := by
  induction names generalizing s with
  | nil => exact hs
  | cons name names ih => exact ih (hs.issue name)

end PassesOverTaken

/-- The last number tried for a name never becomes smaller. -/
lemma counter_le_counter_after (s : Issued) (names : List String) (name : String) :
    s.counter name ≤ (s.after names).counter name := by
  induction names generalizing s with
  | nil => exact le_refl _
  | cons other names ih =>
    refine le_trans ?_ (ih (s.issue other).2)
    by_cases htaken : other ∈ s.stems
    · have hfinds := finds_nextFree s.stems other (s.counter other)
      rw [issue_of_finds htaken hfinds, counter_cons]
      split_ifs with h
      · rw [h]
        exact hfinds.spec.1.le
      · exact le_refl _
    · rw [issue_of_notMem htaken]
      exact le_refl _

end Issued

/-! ### Stems by the plain rule -/

lemma issueAll_eq_leastStems {s : Issued} (hs : s.PassesOverTaken) (names : List String) :
    issueAll s names = leastStems s.stems names := by
  induction names generalizing s with
  | nil => rfl
  | cons name names ih =>
    rw [issueAll_cons, leastStems, ih (hs.issue name), (issue_spec s name).2, hs.fst_issue name]

/-- The stems of methods are those that the plain rule gives. When the first names have been given
their stems, all numbers from two on up to the last one that is remembered for a name have been
given as well, and what is remembered only grows. -/
theorem ofNames_eq_leastStems :
    (∀ names, ofNames names = leastStems [] names) ∧
      ∀ before names,
        let s := ({} : Issued).after before
        ofNames (before ++ names) = ofNames before ++ issueAll s names ∧
          ∀ name, s.counter name ≤ (s.after names).counter name ∧
            ∀ k, 2 ≤ k → k ≤ s.counter name → numbered name k ∈ ofNames before := by
  refine ⟨issueAll_eq_leastStems .start, ?_⟩
  intro before names s
  refine ⟨issueAll_append {} before names, ?_⟩
  intro name
  refine ⟨s.counter_le_counter_after names name, ?_⟩
  intro k htwo hcounter
  have hs : s.PassesOverTaken := Issued.PassesOverTaken.start.after before
  have hmem := hs.taken name k htwo hcounter
  rw [stems_after, List.append_nil, List.mem_reverse] at hmem
  exact hmem

/-- The number two of `find` is passed over, since a method is called `find_2`. A method that is
called like the stem with the number three comes too late and gets a number of its own. -/
theorem ofNames_eq_leastStems_find :
    let before := ["find_2", "find", "find"]
    (({} : Issued).after before).counter "find" = 3 ∧
      numbered "find" 2 ∈ ofNames before ∧
      leastStems [] (before ++ ["find_3", "find"]) =
        ["find_2", "find", "find_3", "find_3_2", "find_4"] := by
  intro before
  have hcounter : (({} : Issued).after before).counter "find" = 3 := by decide +kernel
  refine ⟨hcounter, ?_, ?_⟩
  · apply ((ofNames_eq_leastStems.2 before []).2 "find").2 2
    · exact le_refl 2
    · rw [hcounter]
      exact Nat.le_succ 2
  · rw [← ofNames_eq_leastStems.1]
    decide +kernel

end ServiceDocs.Stem
