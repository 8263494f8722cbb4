import Mathlib.Data.List.Nodup
import ServiceDocs.FileTree.Basic
import ServiceDocs.Proofs.Steps

/-!
# Links

A link leads to another place, where there can be a link again. Either this ends at a place without
a link, or the links lead round in a circle. A way that ends meets no link twice, so it is no longer
than the number of entries, and following that many links comes to its end.
-/

namespace ServiceDocs.FileTree

variable {fs fs' : FileTree}

/-! ### The way along links -/

lemma mem_of_get? {p : Place} {e : Entry} (hp : p ≠ []) (he : fs.get? p = some e) :
    (p, e) ∈ fs.entries := by
  rw [get?_of_ne_nil fs hp] at he
  obtain ⟨before, after, hentries, _⟩ := List.lookup_eq_some_iff.mp he
  rw [hentries]
  simp

lemma mem_of_get?_link {p t : Place} (h : fs.get? p = some (.link t)) :
    (p, .link t) ∈ fs.entries := by
  refine mem_of_get? ?_ h
  rintro rfl
  cases h

/-- The links at some places, one after the other, lead from a place to one without a link. -/
inductive LinkTrail (fs : FileTree) : List Place → Place → Place → Prop where
  | here {p : Place} (hp : ∀ t, fs.get? p ≠ some (.link t)) : LinkTrail fs [] p p
  | link {p t q : Place} {ps : List Place} (hp : fs.get? p = some (.link t))
    (htrail : LinkTrail fs ps t q) : LinkTrail fs (p :: ps) p q

lemma LinkTrail.unique {ps ps' : List Place} {p q q' : Place} (h : LinkTrail fs ps p q)
    (h' : LinkTrail fs ps' p q') : ps = ps' ∧ q = q' := by
  induction h generalizing ps' with
  | here hp =>
    cases h' with
    | here _ => exact ⟨rfl, rfl⟩
    | link hp' _ => exact absurd hp' (hp _)
  | link hp _ ih =>
    cases h' with
    | here hp' => exact absurd hp (hp' _)
    | link hp' htrail' =>
      rw [hp] at hp'
      cases hp'
      obtain ⟨rfl, hq⟩ := ih htrail'
      exact ⟨rfl, hq⟩

lemma LinkTrail.noLink {ps : List Place} {p q : Place} (h : LinkTrail fs ps p q) :
    ∀ t, fs.get? q ≠ some (.link t) := by
  induction h with
  | here hp => exact hp
  | link _ _ ih => exact ih

/-- From each place on the way the rest of the way leads to the same end. -/
lemma LinkTrail.exists_of_mem {ps : List Place} {p q r : Place} (h : LinkTrail fs ps p q)
    (hr : r ∈ ps) : ∃ rs, LinkTrail fs rs r q ∧ rs.length ≤ ps.length := by
  induction h with
  | here _ => cases hr
  | link hp htrail ih =>
    rcases List.mem_cons.mp hr with rfl | hr
    · exact ⟨_, .link hp htrail, Nat.le_refl _⟩
    · obtain ⟨rs, hrs, hlength⟩ := ih hr
      exact ⟨rs, hrs, Nat.le_succ_of_le hlength⟩

lemma LinkTrail.nodup {ps : List Place} {p q : Place} (h : LinkTrail fs ps p q) : ps.Nodup := by
  induction h with
  | here _ => exact List.nodup_nil
  | link hp htrail ih =>
    refine List.nodup_cons.mpr ⟨fun hmem => ?_, ih⟩
    -- the way from the place would be a proper part of itself
    obtain ⟨rs, hrs, hlength⟩ := htrail.exists_of_mem hmem
    obtain ⟨rfl, _⟩ := hrs.unique (.link hp htrail)
    exact absurd hlength (by simp)

lemma LinkTrail.subset {ps : List Place} {p q : Place} (h : LinkTrail fs ps p q) :
    ps ⊆ fs.entries.map Prod.fst := by
  induction h with
  | here _ => exact List.nil_subset _
  | link hp _ ih =>
    exact List.cons_subset.mpr ⟨List.mem_map_of_mem (mem_of_get?_link hp), ih⟩

lemma LinkTrail.length_le {ps : List Place} {p q : Place} (h : LinkTrail fs ps p q) :
    ps.length ≤ fs.entries.length := by
  simpa using h.nodup.length_le_of_subset h.subset

/-! ### The end of the way -/

lemma follow_of_noLink {p : Place} (hp : ∀ t, fs.get? p ≠ some (.link t)) (n : ℕ) :
    fs.follow n p = p := by
  cases n with
  | zero => rfl
  | succ n =>
    rw [follow]
    split
    · rename_i t ht
      exact absurd ht (hp t)
    · rfl

lemma follow_of_trail {ps : List Place} {p q : Place} (h : LinkTrail fs ps p q) {n : ℕ}
    (hn : ps.length ≤ n) : fs.follow n p = q := by
  induction h generalizing n with
  | here hp => exact follow_of_noLink hp n
  | link hp _ ih =>
    obtain ⟨k, rfl⟩ : ∃ k, n = k + 1 := Nat.exists_eq_add_one.mpr (Nat.lt_of_lt_of_le (by simp) hn)
    rw [follow, hp]
    exact ih (Nat.le_of_succ_le_succ hn)

lemma exists_trail_of_follow {n : ℕ} {p : Place}
    (h : ∀ t, fs.get? (fs.follow n p) ≠ some (.link t)) :
    ∃ ps, LinkTrail fs ps p (fs.follow n p) := by
  induction n generalizing p with
  | zero => exact ⟨[], .here h⟩
  | succ n ih =>
    rw [follow] at h ⊢
    split at h
    · rename_i t ht
      obtain ⟨ps, hps⟩ := ih h
      exact ⟨p :: ps, .link ht hps⟩
    · rename_i hp
      exact ⟨[], .here hp⟩

lemma LinkTrail.linkEnd_eq {ps : List Place} {p q : Place} (h : LinkTrail fs ps p q) :
    fs.linkEnd p = q :=
  follow_of_trail h h.length_le

/-- Either the way along the links ends, or a link stands where it is given up. -/
lemma exists_trail_or_link (fs : FileTree) (p : Place) :
    (∃ ps, LinkTrail fs ps p (fs.linkEnd p)) ∨ ∃ t, fs.get? (fs.linkEnd p) = some (.link t) := by
  by_cases h : ∃ t, fs.get? (fs.linkEnd p) = some (.link t)
  · exact .inr h
  · exact .inl (exists_trail_of_follow (not_exists.mp h))

lemma linkEnd_of_noLink {p : Place} (hp : ∀ t, fs.get? p ≠ some (.link t)) : fs.linkEnd p = p :=
  follow_of_noLink hp _

lemma linkEnd_of_file {p : Place} {c : Contents} {m : ℕ} (hp : fs.get? p = some (.file c m)) :
    fs.linkEnd p = p :=
  linkEnd_of_noLink (by simp [hp])

/-- When a file or a directory is set at the end of the way, it ends there as before. -/
lemma LinkTrail.set {ps : List Place} {p q : Place} (h : LinkTrail fs ps p q) (hq : q ≠ [])
    {e : Entry} (he : ∀ t, e ≠ .link t) : LinkTrail (fs.set q e) ps p q := by
  induction h with
  | here _ =>
    refine .here fun t ht => he t ?_
    rw [get?_set_self fs hq] at ht
    exact Option.some.inj ht
  | link hp htrail ih =>
    refine .link ?_ (ih hq)
    rw [get?_set_of_ne, hp]
    rintro rfl
    exact htrail.noLink _ hp

/-! ### What is found behind a link -/

lemma behind_of_noLink {p : Place} {e : Entry} (he : ∀ t, e ≠ .link t) :
    fs.behind (p, e) = .ok (p, e) := by
  cases e with
  | file c m => rfl
  | directory m => rfl
  | link t => exact absurd rfl (he t)

lemma behind_link_eq_ok_iff {p t q : Place} {e : Entry} :
    fs.behind (p, .link t) = .ok (q, e) ↔
      q = fs.linkEnd p ∧ fs.get? q = some e ∧ ∃ c m, e = .file c m := by
  rw [behind]
  constructor
  · intro h
    split at h
    · rename_i c m hfile
      cases h
      exact ⟨rfl, hfile, c, m, rfl⟩
    · cases h
    · cases h
  · rintro ⟨rfl, hfile, c, m, rfl⟩
    rw [hfile]

lemma exists_noDirectory_eq (fs : FileTree) (p : Place) (e : Entry) :
    ∃ error, ∀ {α : Type}, fs.noDirectory (α := α) p e = .error error := by
  cases hbehind : fs.behind (p, e) with
  | error error =>
    refine ⟨error, fun {α} => ?_⟩
    rw [noDirectory, hbehind]
    rfl
  | ok found =>
    refine ⟨.notADirectory, fun {α} => ?_⟩
    rw [noDirectory, hbehind]
    rfl

lemma noDirectory_ne_ok {α : Type} {p : Place} {e : Entry} (a : α) :
    fs.noDirectory p e ≠ .ok a := by
  obtain ⟨error, herror⟩ := fs.exists_noDirectory_eq p e
  rw [herror]
  exact nofun

/-! ### Trees without links -/

/-- There are no links in the tree. -/
def HasNoLinks (fs : FileTree) : Prop :=
  ∀ p t, fs.get? p ≠ some (.link t)

end ServiceDocs.FileTree
