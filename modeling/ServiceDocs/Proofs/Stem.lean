import Mathlib
import ServiceDocs.Stem

/-!
# Distinct stems

A stem that is issued has not been issued before: a name that is taken is numbered, and since only
finitely many stems have been given, one of the numbers that are tried is free. So the search for a
number needs no bound: `Gives` is the same run with a search that goes on until it finds a number.
-/

namespace ServiceDocs.Stem

/-! ### Numbered names -/

lemma numbered_injective (name : String) : Function.Injective (numbered name) := by
  intro k l h
  unfold numbered at h
  rw [String.append_right_inj] at h
  exact Nat.repr_injective h

/-- A number adds an underscore and digits. -/
lemma mem_numbered {name : String} {k : Nat} {c : Char} (h : c ∈ (numbered name k).toList) :
    c ∈ name.toList ∨ c = '_' ∨ c.isDigit := by
  rw [numbered] at h
  rw [String.toList_append, String.toList_append, List.mem_append, List.mem_append] at h
  rcases h with (h | h) | h
  · exact .inl h
  · exact .inr (.inl (List.mem_singleton.mp h))
  · rw [show (toString k).toList = Nat.toDigits 10 k from Nat.toList_repr] at h
    exact .inr (.inr (Nat.isDigit_of_mem_toDigits (by omega) (by omega) h))

/-! ### The next free number -/

/-- Among more numbers than there are stems one is free. -/
lemma exists_free (stems : List String) (name : String) (k : Nat) :
    ∃ j, k < j ∧ j ≤ k + (stems.length + 1) ∧ numbered name j ∉ stems := by
  by_contra hnone
  push Not at hnone
  let tried := (List.range (stems.length + 1)).map fun i => numbered name (k + 1 + i)
  have hnodup : tried.Nodup := by
    apply List.Nodup.map _ List.nodup_range
    intro i j hij
    have := numbered_injective name hij
    omega
  have hsub : tried ⊆ stems := by
    intro stem hstem
    obtain ⟨i, hi, rfl⟩ := List.mem_map.mp hstem
    rw [List.mem_range] at hi
    exact hnone (k + 1 + i) (by omega) (by omega)
  have hle := (hnodup.subperm hsub).length_le
  simp only [tried, List.length_map, List.length_range] at hle
  omega

/-- The numbers behind `k` are tried one after the other until one of them is free; this is `j`. -/
inductive Finds (stems : List String) (name : String) : ℕ → ℕ → Prop where
  | free {k : ℕ} (h : numbered name (k + 1) ∉ stems) : Finds stems name k (k + 1)
  | taken {k j : ℕ} (h : numbered name (k + 1) ∈ stems) (hj : Finds stems name (k + 1) j) :
      Finds stems name k j

section Finds

variable {stems : List String} {name : String} {k j : ℕ}

/-- The number that is found is free, and all numbers that have been tried before are taken. -/
lemma Finds.spec (h : Finds stems name k j) :
    k < j ∧ numbered name j ∉ stems ∧ ∀ i, k < i → i < j → numbered name i ∈ stems := by
  induction h with
  | free hfree => exact ⟨by omega, hfree, fun i hki hi => by omega⟩
  | @taken k j htaken _ ih =>
    obtain ⟨hlt, hnotMem, hbelow⟩ := ih
    refine ⟨by omega, hnotMem, fun i hki hi => ?_⟩
    by_cases hik : i = k + 1
    · exact hik ▸ htaken
    · exact hbelow i (by omega) hi

lemma Finds.unique {i : ℕ} (hj : Finds stems name k j) (hi : Finds stems name k i) : j = i := by
  induction hj with
  | free hfree =>
    cases hi with
    | free _ => rfl
    | taken htaken _ => exact absurd htaken hfree
  | taken htaken _ ih =>
    cases hi with
    | free hfree => exact absurd htaken hfree
    | taken _ hi => exact ih hi

/-- The search finds a number as soon as one behind `k` is free. -/
lemma finds_nextFree_of_free {fuel : ℕ} (hk : k < j) (hj : j ≤ k + fuel)
    (hfree : numbered name j ∉ stems) : Finds stems name k (nextFree stems name fuel k) := by
  induction fuel generalizing k with
  | zero => omega
  | succ fuel ih =>
    rw [nextFree]
    by_cases htaken : numbered name (k + 1) ∈ stems
    · have hne : j ≠ k + 1 := by
        rintro rfl
        exact hfree htaken
      rw [if_pos (by simpa using htaken)]
      exact .taken htaken (ih (by omega) (by omega))
    · rw [if_neg (by simpa using htaken)]
      exact .free htaken

/-- Among finitely many stems every search comes to an end. -/
lemma finds_nextFree (stems : List String) (name : String) (k : ℕ) :
    Finds stems name k (nextFree stems name (stems.length + 1) k) := by
  obtain ⟨j, hk, hj, hfree⟩ := exists_free stems name k
  exact finds_nextFree_of_free hk hj hfree

end Finds

/-- Stems are given to names one after the other, where a search goes on until it finds a
number. -/
inductive Gives : Issued → List String → List String → Prop where
  | done {s : Issued} : Gives s [] []
  | bare {s : Issued} {name : String} {names stems : List String} (hnew : name ∉ s.stems)
      (rest : Gives { s with stems := name :: s.stems } names stems) :
      Gives s (name :: names) (name :: stems)
  | numbered {s : Issued} {name : String} {names stems : List String} {k : ℕ}
      (htaken : name ∈ s.stems) (hk : Finds s.stems name (s.counter name) k)
      (rest : Gives ⟨numbered name k :: s.stems, (name, k) :: s.counters⟩ names stems) :
      Gives s (name :: names) (numbered name k :: stems)

/-! ### Issued stems -/

/-- A name gives its stem as it is, or with a number from two on behind it. -/
def Of (name stem : String) : Prop :=
  stem = name ∨ ∃ k, 2 ≤ k ∧ stem = numbered name k

section Issue

variable {s : Issued} {name : String}

lemma issue_of_notMem (h : name ∉ s.stems) :
    s.issue name = (name, { s with stems := name :: s.stems }) := by
  rw [Issued.issue, if_neg (by simpa using h)]

lemma issue_of_finds {k : ℕ} (h : name ∈ s.stems)
    (hk : Finds s.stems name (s.counter name) k) :
    s.issue name =
      (numbered name k, ⟨numbered name k :: s.stems, (name, k) :: s.counters⟩) := by
  have hnext := (finds_nextFree s.stems name (s.counter name)).unique hk
  rw [Issued.issue, if_pos (by simpa using h), hnext]

variable (s name)

/-- What is issued is new and is remembered. -/
lemma issue_spec :
    (s.issue name).1 ∉ s.stems ∧ (s.issue name).2.stems = (s.issue name).1 :: s.stems := by
  by_cases htaken : name ∈ s.stems
  · have hk := finds_nextFree s.stems name (s.counter name)
    rw [issue_of_finds htaken hk]
    exact ⟨hk.spec.2.1, rfl⟩
  · rw [issue_of_notMem htaken]
    exact ⟨htaken, rfl⟩

lemma issueAll_cons (names : List String) :
    issueAll s (name :: names) =
      (s.issue name).1 :: issueAll (s.issue name).2 names := rfl

/-- The bound on the search is never reached: the stems are those that are given without it. -/
theorem gives_iff {s : Issued} {names stems : List String} :
    Gives s names stems ↔ stems = issueAll s names := by
  constructor
  · intro h
    induction h with
    | done => rfl
    | bare hnew _ ih => rw [issueAll_cons, issue_of_notMem hnew, ih]
    | numbered htaken hk _ ih => rw [issueAll_cons, issue_of_finds htaken hk, ih]
  · rintro rfl
    induction names generalizing s with
    | nil => exact .done
    | cons name names ih =>
      rw [issueAll_cons]
      by_cases htaken : name ∈ s.stems
      · have hk := finds_nextFree s.stems name (s.counter name)
        rw [issue_of_finds htaken hk]
        exact .numbered htaken hk ih
      · rw [issue_of_notMem htaken]
        exact .bare htaken ih

end Issue

/-! ### Counters -/

/-- The last number tried for a name is at least one, so the next one is at least two. -/
def Issued.CountsFromOne (s : Issued) : Prop :=
  ∀ p ∈ s.counters, 1 ≤ p.2

section Counters

variable {s : Issued} (hs : s.CountsFromOne) (name : String)

include hs

lemma one_le_counter : 1 ≤ s.counter name := by
  rw [Issued.counter]
  cases hlookup : s.counters.lookup name with
  | none => exact le_refl 1
  | some k =>
    obtain ⟨l, _, hl, _⟩ := List.lookup_eq_some_iff.mp hlookup
    exact hs (name, k) (hl ▸ by simp)

lemma of_issue : Of name (s.issue name).1 ∧ (s.issue name).2.CountsFromOne := by
  by_cases htaken : name ∈ s.stems
  · have hk := finds_nextFree s.stems name (s.counter name)
    have hlt := hk.spec.1
    have hone := one_le_counter hs name
    rw [issue_of_finds htaken hk]
    refine ⟨.inr ⟨_, by omega, rfl⟩, ?_⟩
    exact List.forall_mem_cons.mpr ⟨by dsimp only; omega, hs⟩
  · rw [issue_of_notMem htaken]
    exact ⟨.inl rfl, hs⟩

end Counters

/-- Names are given stems that are pairwise distinct and differ from those given before. -/
lemma nodup_issueAll (s : Issued) (names : List String) :
    (issueAll s names).Nodup ∧ ∀ stem ∈ issueAll s names, stem ∉ s.stems := by
  induction names generalizing s with
  | nil => exact ⟨List.nodup_nil, by simp [issueAll]⟩
  | cons name names ih =>
    obtain ⟨hnew, hstems⟩ := issue_spec s name
    obtain ⟨hnodup, hrest⟩ := ih (s.issue name).2
    rw [hstems] at hrest
    rw [issueAll_cons]
    refine ⟨List.nodup_cons.mpr ⟨fun hmem => ?_, hnodup⟩, ?_⟩
    · exact hrest _ hmem List.mem_cons_self
    · intro stem hstem
      rcases List.mem_cons.mp hstem with rfl | hstem
      · exact hnew
      · exact fun hmem => hrest stem hstem (List.mem_cons_of_mem _ hmem)

/-- Each name has a stem of its own. -/
lemma forall₂_issueAll {s : Issued} (hs : s.CountsFromOne) (names : List String) :
    List.Forall₂ Of names (issueAll s names) := by
  induction names generalizing s with
  | nil => exact .nil
  | cons name names ih =>
    obtain ⟨hof, hs'⟩ := of_issue hs name
    exact .cons hof (ih hs')

theorem nodup_ofNames (names : List String) : (ofNames names).Nodup :=
  (nodup_issueAll {} names).1

theorem forall₂_ofNames (names : List String) : List.Forall₂ Of names (ofNames names) :=
  forall₂_issueAll (by simp [Issued.CountsFromOne]) names

lemma length_ofNames (names : List String) : (ofNames names).length = names.length :=
  (forall₂_ofNames names).length_eq.symm

/-- Every stem stands for one of the names. -/
lemma exists_of_mem_ofNames {names : List String} {stem : String} (h : stem ∈ ofNames names) :
    ∃ name ∈ names, Of name stem := by
  obtain ⟨i, hi, rfl⟩ := List.getElem_of_mem h
  have hi' : i < names.length := length_ofNames names ▸ hi
  exact ⟨names[i], List.getElem_mem hi', (forall₂_ofNames names).get hi' hi⟩

end ServiceDocs.Stem
