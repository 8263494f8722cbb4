import ServiceDocs.Proofs.Java.Addresses
import ServiceDocs.Proofs.Java.Comments

/-!
# Declarations that are found

A type is found if it stands at the top of a source or is a member of a type that is found. Each of
them is found once, behind the types in its body, and what stands directly in the body of one stands
directly in the body of no other.
-/

namespace ServiceDocs.Java.Tree

open Address

/-! ### What is found -/

/-- At the address there is a tree that stands directly in the body. What is behind the constants of
an enum stands in its body as well. -/
inductive IsMember : Tree → Address → Prop
  | child {t u : Tree} {i : ℕ} (hu : t.children[i]? = some u)
    (hkind : u.kind ≠ .enumBodyDeclarations) : IsMember t [i]
  | behindConstants {t u : Tree} {i : ℕ} {a : Address} (hu : t.children[i]? = some u)
    (hkind : u.kind = .enumBodyDeclarations) (ha : IsMember u a) : IsMember t (i :: a)

/-- The tree is the declaration of a type, and it has a name. -/
def Declares (t : Tree) : Prop :=
  t.kind ∈ [.classDeclaration, .interfaceDeclaration, .enumDeclaration, .recordDeclaration] ∧
    (t.child? .name).isSome

/-- The tree is the first child that has a role, such as the body of a declaration. -/
structure IsChild (r : Role) (t : Tree) (i : ℕ) (u : Tree) : Prop where
  getElem? : t.children[i]? = some u
  role : u.role = some r
  first : ∀ j < i, ∀ v, t.children[j]? = some v → v.role ≠ some r

/-- At the second address there is a member in the body of the declaration at the first one. -/
def IsMemberOf (unit : Tree) (a b : Address) : Prop :=
  ∃ p i body c, unit.place? a = some p ∧ IsChild .body p.tree i body ∧ IsMember body c ∧
    b = a ++ i :: c

/-- At the address there is a declaration at the top of the source or in the body of a declaration
that is found. -/
inductive IsFound (unit : Tree) : Address → Prop
  | top {a : Address} {p : Placed} (ha : IsMember unit a) (hp : unit.place? a = some p)
    (hd : p.tree.Declares) : IsFound unit a
  | nested {a b : Address} {p : Placed} (ha : IsFound unit a) (hb : IsMemberOf unit a b)
    (hp : unit.place? b = some p) (hd : p.tree.Declares) : IsFound unit b

/-- The declaration at an address, with what is in front of it and in its body. -/
def declarationAt? (package path : String) (unit : Tree) (a : Address) : Option Declaration :=
  (unit.place? a).bind fun p => (declarationKind? p.tree.kind).bind fun k =>
    (p.tree.child? .name).map fun name => declaration package path k name.text p.before p.tree

lemma declares_iff {t : Tree} :
    t.Declares ↔ (declarationKind? t.kind).isSome ∧ (t.child? .name).isSome := by
  rw [Declares]
  cases t.kind <;> simp [declarationKind?]

/-! ### Members -/

lemma not_isMember_nil (t : Tree) : ¬ IsMember t [] := by
  rintro ⟨⟩

lemma IsMember.ne_nil {t : Tree} {a : Address} (h : IsMember t a) : a ≠ [] := by
  rintro rfl
  exact not_isMember_nil t h

lemma isMember_cons {t : Tree} {i : ℕ} {a : Address} :
    IsMember t (i :: a) ↔ ∃ u, t.children[i]? = some u ∧
      if u.kind = .enumBodyDeclarations then IsMember u a else a = [] := by
  constructor
  · rintro (⟨hu, hkind⟩ | ⟨hu, hkind, ha⟩)
    · exact ⟨_, hu, by rw [if_neg hkind]⟩
    · exact ⟨_, hu, by rwa [if_pos hkind]⟩
  · rintro ⟨u, hu, ha⟩
    split_ifs at ha with hkind
    · exact .behindConstants hu hkind ha
    · exact ha ▸ .child hu hkind

/-- On the way to a member there are only the members of enums behind their constants. -/
lemma IsMember.kind_of_append {t : Tree} {a b : Address} (h : IsMember t (a ++ b)) (ha : a ≠ [])
    (hb : b ≠ []) {p : Placed} (hp : t.place? a = some p) :
    p.tree.kind = .enumBodyDeclarations := by
  induction a generalizing t with
  | nil => exact absurd rfl ha
  | cons i a ih =>
    rw [List.cons_append, isMember_cons] at h
    obtain ⟨u, hu, h⟩ := h
    split_ifs at h with hkind
    · cases a with
      | nil =>
        rw [place?, hu, Option.map_some, Option.some.injEq] at hp
        rw [← hp]
        exact hkind
      | cons j a =>
        rw [place?_cons hu (List.cons_ne_nil j a)] at hp
        exact ih h (List.cons_ne_nil j a) hp
    · exact absurd h (List.append_ne_nil_of_right_ne_nil a hb)

mutual

/-- The members of a body are the trees at the addresses of members, in order. -/
lemma exists_members : (t : Tree) →
    ∃ as, Enumerates Earlier (IsMember t) as ∧ t.members.map some = as.map t.place?
  | .leaf role kind gap text => by
    refine ⟨[], .nil fun a ha => ?_, rfl⟩
    cases ha with
    | child hu _ => cases hu
    | behindConstants hu _ _ => cases hu
  | .node role kind ts => by
    obtain ⟨as, has, hplaces⟩ := exists_membersBehind (.node role kind ts) [] ts rfl
    refine ⟨as, has.congr fun a => ?_, hplaces⟩
    constructor
    · exact And.left
    · intro ha
      obtain ⟨i, b, rfl⟩ := List.exists_cons_of_ne_nil ha.ne_nil
      exact ⟨ha, i, b, rfl, Nat.zero_le i⟩

lemma exists_membersBehind (t : Tree) (before : List Tree) : (ts : List Tree) →
    t.children = before.reverse ++ ts →
    ∃ as, Enumerates Earlier
        (fun a => IsMember t a ∧ ∃ i b, a = i :: b ∧ before.length ≤ i) as ∧
      (membersBehind before ts).map some = as.map t.place?
  | [],      hts => by
    refine ⟨[], .nil ?_, rfl⟩
    rintro a ⟨ha, i, b, rfl, hi⟩
    obtain ⟨u, hu, _⟩ := isMember_cons.mp ha
    rw [hts, List.append_nil, List.getElem?_eq_none (by rwa [List.length_reverse])] at hu
    cases hu
  | u :: ts, hts => by
    have hu : t.children[before.length]? = some u := by simp [hts]
    have htake : (t.children.take before.length).reverse = before := by simp [hts]
    obtain ⟨bs, hbs, hplaces⟩ := exists_membersBehind t (u :: before) ts (by simp [hts])
    -- the members that the first tree is or has
    obtain ⟨cs, hcs, hfirst⟩ : ∃ cs, Enumerates Earlier
          (fun c => if u.kind = .enumBodyDeclarations then IsMember u c else c = []) cs ∧
        (if u.kind = .enumBodyDeclarations then u.members else [⟨before, u⟩]).map some =
          cs.map fun c => t.place? (before.length :: c) := by
      by_cases hkind : u.kind = .enumBodyDeclarations
      · obtain ⟨cs, hcs, hplaces⟩ := exists_members u
        refine ⟨cs, hcs.congr fun c => by rw [if_pos hkind], ?_⟩
        rw [if_pos hkind, hplaces]
        refine List.map_congr_left fun c hc => ?_
        rw [place?_cons hu ((hcs.mem_iff c).mp hc).ne_nil]
      · refine ⟨[[]], (Enumerates.singleton []).congr fun c => by rw [if_neg hkind], ?_⟩
        simp [hkind, place?, hu, htake]
    refine ⟨cs.map (before.length :: ·) ++ bs, ((hcs.map ?_).append hbs ?_).congr ?_, ?_⟩
    · intro a b hab
      exact .tail _ hab
    · rintro _ _ ⟨a, _, rfl⟩ ⟨_, i, b, rfl, hi⟩
      exact .head hi a b
    · intro a
      constructor
      · rintro (⟨c, hc, rfl⟩ | ⟨ha, i, b, rfl, hi⟩)
        · exact ⟨isMember_cons.mpr ⟨u, hu, hc⟩, before.length, c, rfl, Nat.le_refl _⟩
        · exact ⟨ha, i, b, rfl, Nat.le_of_succ_le hi⟩
      · rintro ⟨ha, i, b, rfl, hi⟩
        obtain rfl | hlt := Nat.eq_or_lt_of_le hi
        · obtain ⟨v, hv, hb⟩ := isMember_cons.mp ha
          obtain rfl : u = v := Option.some.inj (hu.symm.trans hv)
          exact .inl ⟨b, hb, rfl⟩
        · exact .inr ⟨ha, i, b, rfl, hlt⟩
    · rw [membersBehind, List.map_append, hfirst, hplaces, List.map_append, List.map_map]
      rfl

end

lemma flatMap_of_map_some {α β γ : Type} {xs : List β} {as : List α} {f : α → Option β}
    (h : xs.map some = as.map f) (g : β → List γ) :
    xs.flatMap g = as.flatMap fun a => ((f a).map g).getD [] := by
  have hsome : xs.flatMap g = (xs.map some).flatMap fun x? => (x?.map g).getD [] := by
    rw [List.flatMap_map]
    rfl
  rw [hsome, h, List.flatMap_map]

/-! ### Bodies -/

lemma exists_isChild {r : Role} {t u : Tree} (h : t.child? r = some u) : ∃ i, IsChild r t i u := by
  obtain ⟨hrole, i, hi, hu, hfirst⟩ := List.find?_eq_some_iff_getElem.mp h
  refine ⟨i, by rw [List.getElem?_eq_getElem hi, hu], by simpa using hrole, ?_⟩
  intro j hj v hv
  obtain ⟨hlt, rfl⟩ := List.getElem?_eq_some_iff.mp hv
  simpa using hfirst j hj

lemma IsChild.unique {r : Role} {t u u' : Tree} {i j : ℕ} (h : IsChild r t i u)
    (h' : IsChild r t j u') : i = j ∧ u = u' := by
  obtain hlt | rfl | hlt := Nat.lt_trichotomy i j
  · exact absurd h.role (h'.first i hlt u h.getElem?)
  · exact ⟨rfl, Option.some.inj (h.getElem?.symm.trans h'.getElem?)⟩
  · exact absurd h'.role (h.first j hlt u' h'.getElem?)

lemma IsChild.child?_eq {r : Role} {t u : Tree} {i : ℕ} (h : IsChild r t i u) :
    t.child? r = some u := by
  cases hchild : t.child? r with
  | none =>
    have hnone := List.find?_eq_none.mp hchild u (List.mem_of_getElem? h.getElem?)
    exact absurd h.role (by simpa using hnone)
  | some u' =>
    obtain ⟨j, h'⟩ := exists_isChild hchild
    rw [(h.unique h').2]

section Bodies

variable {unit : Tree} {a : Address} {p : Placed} (hp : unit.place? a = some p)

include hp

lemma ne_nil_of_place? : a ≠ [] := by
  rintro rfl
  cases hp

lemma place?_child {i : ℕ} {u : Tree} (hu : p.tree.children[i]? = some u) {b : Address}
    (hb : b ≠ []) : unit.place? (a ++ i :: b) = u.place? b := by
  rw [place?_append unit (ne_nil_of_place? hp) (List.cons_ne_nil i b), hp, Option.bind_some,
    place?_cons hu hb]

lemma place?_body {i : ℕ} {body : Tree} (hbody : IsChild .body p.tree i body) {c : Address}
    (hc : c ≠ []) : unit.place? (a ++ i :: c) = body.place? c :=
  place?_child hp hbody.getElem? hc

lemma IsMemberOf.of_body {i : ℕ} {body : Tree} (hbody : IsChild .body p.tree i body) {c d : Address}
    (h : IsMemberOf body c d) : IsMemberOf unit (a ++ i :: c) (a ++ i :: d) := by
  obtain ⟨q, j, body', e, hq, hbody', he, rfl⟩ := h
  refine ⟨q, j, body', e, ?_, hbody', he, by simp⟩
  rw [place?_body hp hbody (ne_nil_of_place? hq), hq]

end Bodies

lemma IsMemberOf.ne_nil {unit : Tree} {a b : Address} (h : IsMemberOf unit a b) : b ≠ [] := by
  obtain ⟨p, i, body, c, _, _, _, rfl⟩ := h
  simp

/-! ### Found declarations -/

/-- At the second address is the declaration at the first one, or one that is found in its body. -/
def IsFoundFrom (unit : Tree) (a b : Address) : Prop :=
  ∃ p, unit.place? a = some p ∧ p.tree.Declares ∧
    (b = a ∨ ∃ i body c, IsChild .body p.tree i body ∧ IsFound body c ∧ b = a ++ i :: c)

lemma IsFound.exists_place {unit : Tree} {a : Address} (h : IsFound unit a) :
    ∃ p, unit.place? a = some p ∧ p.tree.Declares := by
  cases h with
  | top _ hp hd => exact ⟨_, hp, hd⟩
  | nested _ _ hp hd => exact ⟨_, hp, hd⟩

lemma IsFound.ne_nil {unit : Tree} {a : Address} (h : IsFound unit a) : a ≠ [] := by
  obtain ⟨p, hp, _⟩ := h.exists_place
  exact ne_nil_of_place? hp

lemma isFound_of_body {unit : Tree} {a : Address} (ha : IsFound unit a) {p : Placed}
    (hp : unit.place? a = some p) {i : ℕ} {body : Tree} (hbody : IsChild .body p.tree i body)
    {c : Address} (hc : IsFound body c) : IsFound unit (a ++ i :: c) := by
  induction hc with
  | top hc hq hd =>
    refine .nested ha ⟨p, i, body, _, hp, hbody, hc, rfl⟩ ?_ hd
    rw [place?_body hp hbody hc.ne_nil, hq]
  | nested _ hc hq hd ih =>
    refine .nested ih (hc.of_body hp hbody) ?_ hd
    rw [place?_body hp hbody hc.ne_nil, hq]

/-- All that is found is found from a member of the source. -/
lemma isFound_iff {unit : Tree} {b : Address} :
    IsFound unit b ↔ ∃ a, IsMember unit a ∧ IsFoundFrom unit a b := by
  constructor
  · intro h
    induction h with
    | top ha hp hd => exact ⟨_, ha, _, hp, hd, .inl rfl⟩
    | @nested a b q _ hb hq hd ih =>
      obtain ⟨m, hm, p, hp, hdeclares, hfrom⟩ := ih
      rcases hfrom with rfl | ⟨i, body, c, hbody, hc, rfl⟩
      · obtain ⟨p', i, body, c, hp', hbody, hc, rfl⟩ := hb
        obtain rfl : p = p' := Option.some.inj (hp.symm.trans hp')
        rw [place?_body hp hbody hc.ne_nil] at hq
        exact ⟨a, hm, p, hp, hdeclares, .inr ⟨i, body, c, hbody, .top hc hq hd, rfl⟩⟩
      · obtain ⟨p', j, body', d, hp', hbody', hd', rfl⟩ := hb
        rw [place?_body hp hbody hc.ne_nil] at hp'
        have hmember : IsMemberOf body c (c ++ j :: d) := ⟨p', j, body', d, hp', hbody', hd', rfl⟩
        rw [List.append_assoc, List.cons_append, place?_body hp hbody hmember.ne_nil] at hq
        exact ⟨m, hm, p, hp, hdeclares,
          .inr ⟨i, body, _, hbody, .nested hc hmember hq hd, by simp⟩⟩
  · rintro ⟨a, ha, p, hp, hd, rfl | ⟨i, body, c, hbody, hc, rfl⟩⟩
    · exact .top ha hp hd
    · exact isFound_of_body (.top ha hp hd) hp hbody hc

/-- What is found from different members is at different places. -/
lemma IsFoundFrom.foundBefore {unit : Tree} {a b c d : Address} (hab : Earlier a b)
    (hc : IsFoundFrom unit a c) (hd : IsFoundFrom unit b d) : FoundBefore c d := by
  have hbelow : ∀ {a b}, IsFoundFrom unit a b → ∃ e, b = a ++ e := by
    rintro a b ⟨_, _, _, rfl | ⟨i, _, e, _, _, rfl⟩⟩
    · exact ⟨[], (List.append_nil b).symm⟩
    · exact ⟨i :: e, rfl⟩
  obtain ⟨e, rfl⟩ := hbelow hc
  obtain ⟨f, rfl⟩ := hbelow hd
  exact .inl (hab.append e f)

section Enumeration

variable (package path : String) {t : Tree} {a : Address} {p : Placed}
  (hp : t.place? a = some p)
  (ih : ∀ body, sizeOf body < sizeOf t → ∃ as, Enumerates FoundBefore (IsFound body) as ∧
    (declarationsIn package path body).map some = as.map (declarationAt? package path body))

include hp ih

/-- The declarations in the body of a declaration, by their addresses in the source. -/
lemma exists_foundInBody :
    ∃ as, Enumerates FoundBefore
        (fun b => ∃ i body c, IsChild .body p.tree i body ∧ IsFound body c ∧ b = a ++ i :: c) as ∧
      (((p.tree.child? .body).map (declarationsIn package path)).getD []).map some =
        as.map (declarationAt? package path t) := by
  cases hchild : p.tree.child? .body with
  | none =>
    refine ⟨[], .nil ?_, rfl⟩
    rintro b ⟨i, body, c, hbody, _⟩
    rw [hbody.child?_eq] at hchild
    cases hchild
  | some body =>
    obtain ⟨i, hbody⟩ := exists_isChild hchild
    have hsize := Nat.lt_trans (sizeOf_lt_of_getElem? hbody.getElem?) (sizeOf_lt_of_place? hp)
    obtain ⟨as, has, hdeclarations⟩ := ih body hsize
    have hmap := has.map (f := fun c => a ++ i :: c) fun c d hcd =>
      (FoundBefore.append_left hcd [i]).append_left a
    refine ⟨_, hmap.congr fun b => ?_, ?_⟩
    · constructor
      · rintro ⟨c, hc, rfl⟩
        exact ⟨i, body, c, hbody, hc, rfl⟩
      · rintro ⟨j, body', c, hbody', hc, rfl⟩
        obtain ⟨rfl, rfl⟩ := hbody.unique hbody'
        exact ⟨c, hc, rfl⟩
    · rw [Option.map_some, Option.getD_some, hdeclarations, List.map_map]
      refine List.map_congr_left fun c hc => ?_
      rw [Function.comp_apply, declarationAt?, declarationAt?,
        place?_body hp hbody ((has.mem_iff c).mp hc).ne_nil]

/-- What a member gives rise to: nothing, or the declarations in its body and then its own. -/
lemma exists_foundFrom :
    ∃ as, Enumerates FoundBefore (IsFoundFrom t a) as ∧
      (declarationsAt package path p.before p.tree).map some =
        as.map (declarationAt? package path t) := by
  by_cases hd : p.tree.Declares
  · obtain ⟨k, hk⟩ := Option.isSome_iff_exists.mp (declares_iff.mp hd).1
    obtain ⟨n, hn⟩ := Option.isSome_iff_exists.mp (declares_iff.mp hd).2
    obtain ⟨as, has, hinside⟩ := exists_foundInBody package path hp ih
    refine ⟨as ++ [a], (has.append (.singleton a) ?_).congr fun b => ?_, ?_⟩
    · rintro b _ ⟨i, body, c, _, _, rfl⟩ rfl
      exact .inr ⟨i :: c, List.cons_ne_nil i c, rfl⟩
    · constructor
      · rintro (hinside | rfl)
        · exact ⟨p, hp, hd, .inr hinside⟩
        · exact ⟨p, hp, hd, .inl rfl⟩
      · rintro ⟨q, hq, _, hfrom⟩
        obtain rfl : p = q := Option.some.inj (hp.symm.trans hq)
        exact hfrom.symm
    · have hown : declarationAt? package path t a =
          some (declaration package path k n.text p.before p.tree) := by
        rw [declarationAt?, hp, Option.bind_some, hk, Option.bind_some, hn, Option.map_some]
      rw [declarationsAt_eq, hk, Option.bind_some, hn, Option.map_some, Option.map_some,
        Option.getD_some, List.map_append, List.map_append, List.map_singleton,
        List.map_singleton, hown, ← hinside]
      rfl
  · refine ⟨[], .nil ?_, ?_⟩
    · rintro b ⟨q, hq, hdeclares, _⟩
      obtain rfl : p = q := Option.some.inj (hp.symm.trans hq)
      exact hd hdeclares
    · rw [declarationsAt_eq]
      cases hk : declarationKind? p.tree.kind with
      | none => rfl
      | some k =>
        cases hn : p.tree.child? .name with
        | none => rfl
        | some n => exact absurd (declares_iff.mpr ⟨by rw [hk]; rfl, by rw [hn]; rfl⟩) hd

end Enumeration

/-- The declarations that are found are those at the addresses of found declarations, in order. -/
lemma exists_found (package path : String) (t : Tree) :
    ∃ as, Enumerates FoundBefore (IsFound t) as ∧
      (declarationsIn package path t).map some = as.map (declarationAt? package path t) := by
  induction h : sizeOf t using Nat.strongRecOn generalizing t with
  | ind n ih =>
    subst h
    obtain ⟨ms, hms, hplaces⟩ := exists_members t
    have hplace : ∀ a, IsMember t a → ∃ p, t.place? a = some p := by
      intro a ha
      have hmem : t.place? a ∈ t.members.map some :=
        hplaces ▸ List.mem_map_of_mem ((hms.mem_iff a).mpr ha)
      obtain ⟨p, _, hp⟩ := List.mem_map.mp hmem
      exact ⟨p, hp.symm⟩
    have hfrom : ∀ a, IsMember t a → ∃ as, Enumerates FoundBefore (IsFoundFrom t a) as ∧
        ∀ p, t.place? a = some p → (declarationsAt package path p.before p.tree).map some =
          as.map (declarationAt? package path t) := by
      intro a ha
      obtain ⟨p, hp⟩ := hplace a ha
      obtain ⟨as, has, hdeclarations⟩ :=
        exists_foundFrom package path hp fun body hbody => ih _ hbody body rfl
      refine ⟨as, has, fun q hq => ?_⟩
      obtain rfl : p = q := Option.some.inj (hp.symm.trans hq)
      exact hdeclarations
    choose! f hf hdeclarations using hfrom
    refine ⟨ms.flatMap f, (hms.flatMap hf fun _ _ _ _ hab hc hd => hc.foundBefore hab hd).congr
      fun b => isFound_iff.symm, ?_⟩
    rw [declarationsIn_eq, flatMap_of_map_some hplaces, List.map_flatMap, List.map_flatMap]
    refine List.flatMap_congr fun a ha => ?_
    have ha := (hms.mem_iff a).mp ha
    obtain ⟨p, hp⟩ := hplace a ha
    rw [hp, ← hdeclarations a ha p hp]
    rfl

/-! ### Owners -/

lemma IsFound.declares {unit : Tree} {a : Address} (h : IsFound unit a) {p : Placed}
    (hp : unit.place? a = some p) : p.tree.Declares := by
  obtain ⟨q, hq, hd⟩ := h.exists_place
  obtain rfl : p = q := Option.some.inj (hp.symm.trans hq)
  exact hd

/-- No declaration is on the way from a body to one of its members. -/
lemma not_declares_of_isMember_append {t : Tree} {a b : Address} (h : IsMember t (a ++ b))
    (ha : a ≠ []) (hb : b ≠ []) {p : Placed} (hp : t.place? a = some p) : ¬ p.tree.Declares := by
  intro hd
  rw [declares_iff, h.kind_of_append ha hb hp] at hd
  cases hd.1

/-- The body of a declaration is not taken for a declaration itself. -/
lemma not_isFound_body {unit : Tree} {a : Address} (ha : IsFound unit a) {p : Placed}
    (hp : unit.place? a = some p) {i : ℕ} {body : Tree} (hbody : IsChild .body p.tree i body) :
    ¬ IsFound unit (a ++ [i]) := by
  induction h : a.length using Nat.strongRecOn generalizing a p i body with
  | ind n ih =>
    subst h
    have hi : [i] ≠ [] := List.cons_ne_nil i []
    intro hfound
    generalize hb : a ++ [i] = b at hfound
    cases hfound with
    | top hmember _ _ =>
      subst hb
      exact not_declares_of_isMember_append hmember ha.ne_nil hi hp (ha.declares hp)
    | @nested e _ _ he hmember _ _ =>
      obtain ⟨q, j, body', c, hq, hbody', hc, rfl⟩ := hmember
      -- the last step of the way to the body leads to a member of the outer declaration
      obtain rfl | ⟨d, k, rfl⟩ := List.eq_nil_or_concat c
      · exact not_isMember_nil _ hc
      rw [List.concat_eq_append] at hb hc
      obtain ⟨rfl, hk⟩ : a = e ++ j :: d ∧ i = k := by
        have hend : a ++ [i] = (e ++ j :: d) ++ [k] := by simpa using hb
        simpa using List.append_inj' hend rfl
      cases d with
      | nil =>
        have hshorter : e.length < (e ++ [j]).length := by simp
        exact ih _ hshorter he hq hbody' rfl ha
      | cons l d =>
        rw [place?_body hq hbody' (List.cons_ne_nil l d)] at hp
        exact not_declares_of_isMember_append hc (List.cons_ne_nil l d) (List.cons_ne_nil k [])
          hp (ha.declares (by rw [place?_body hq hbody' (List.cons_ne_nil l d), hp]))

/-- A member of two declarations, the second one not further up than the first, is a member of one
of them only. -/
lemma eq_nil_of_isMemberOf {unit : Tree} {a d b : Address} (ha : IsFound unit a)
    (had : IsFound unit (a ++ d)) (h : IsMemberOf unit a b) (h' : IsMemberOf unit (a ++ d) b) :
    d = [] := by
  obtain ⟨p, i, body, c, hp, hbody, hc, rfl⟩ := h
  obtain ⟨q, j, body', c', hq, hbody', hc', heq⟩ := h'
  cases d with
  | nil => rfl
  | cons k d =>
    rw [List.append_assoc, List.append_cancel_left_eq, List.cons_append, List.cons.injEq] at heq
    obtain ⟨rfl, rfl⟩ := heq
    cases d with
    | nil => exact absurd had (not_isFound_body ha hp hbody)
    | cons l d =>
      have hd := had.declares hq
      rw [place?_body hp hbody (List.cons_ne_nil l d)] at hq
      exact absurd hd
        (not_declares_of_isMember_append hc (List.cons_ne_nil l d) (List.cons_ne_nil j c') hq)

/-- A member belongs to one declaration. -/
lemma IsMemberOf.owner_unique {unit : Tree} {a a' b : Address} (ha : IsFound unit a)
    (ha' : IsFound unit a') (h : IsMemberOf unit a b) (h' : IsMemberOf unit a' b) : a = a' := by
  have hsplit : ∃ e f : Address, a ++ e = a' ++ f := by
    obtain ⟨_, i, _, c, _, _, _, rfl⟩ := h
    obtain ⟨_, j, _, d, _, _, _, heq⟩ := h'
    exact ⟨i :: c, j :: d, heq⟩
  obtain ⟨e, f, hef⟩ := hsplit
  rcases List.append_eq_append_iff.mp hef with ⟨d, rfl, _⟩ | ⟨d, rfl, _⟩
  · rw [eq_nil_of_isMemberOf ha ha' h h', List.append_nil]
  · rw [eq_nil_of_isMemberOf ha' ha h' h, List.append_nil]

end ServiceDocs.Java.Tree
