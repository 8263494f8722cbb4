import Mathlib.Data.List.Chain
import Mathlib.Data.List.Induction
import Mathlib.Tactic.Common
import ServiceDocs.Page.Cell
import ServiceDocs.Proofs.Text.Replacement
import ServiceDocs.Proofs.Text.Words

/-!
# Cells keep their texts

The characters with a meaning are replaced one after the other, each in all that has been written so
far. None of them occurs in what is written for an earlier one, so the outcome is the text with each
of its characters written for itself. What is written for a character is found nowhere else: undoing
the replacements, the last one first, gives the text back, apart from its white space.
-/

namespace ServiceDocs.Page

open Text

/-! ### What is written for a character -/

/-- What is written for a character if these characters are escaped. -/
def escaped (es : List Escape) (c : Char) : List Char :=
  ((es.find? (·.character = c)).map (·.text)).getD [c]

section Escaped

variable {es : List Escape} {c d : Char}

lemma escaped_cons (e : Escape) (es : List Escape) (c : Char) :
    escaped (e :: es) c = if c = e.character then e.text else escaped es c := by
  by_cases hc : c = e.character
  · subst hc
    simp [escaped]
  · simp [escaped, hc, Ne.symm hc]

lemma escaped_of_forall_ne (h : ∀ e ∈ es, e.character ≠ c) : escaped es c = [c] := by
  have hnone : es.find? (·.character = c) = none := by simpa using h
  rw [escaped, hnone]
  rfl

lemma escaped_cases (es : List Escape) (c : Char) :
    (∃ e ∈ es, e.character = c ∧ escaped es c = e.text) ∨
      (∀ e ∈ es, e.character ≠ c) ∧ escaped es c = [c] := by
  cases hfind : es.find? (·.character = c) with
  | none =>
    have hnone : ∀ e ∈ es, e.character ≠ c := by simpa using hfind
    exact .inr ⟨hnone, escaped_of_forall_ne hnone⟩
  | some e =>
    have hc : e.character = c := by simpa using List.find?_some hfind
    exact .inl ⟨e, List.mem_of_find?_eq_some hfind, hc, by rw [escaped, hfind]; rfl⟩

/-- One character more is escaped, and the others are written as before. -/
lemma escaped_concat (h : ∀ e' ∈ es, e'.character ≠ c) (e : Escape) :
    escaped (es ++ [e]) c = escaped [e] c := by
  have hnone : es.find? (·.character = c) = none := by simpa using h
  rw [escaped, escaped, List.find?_append, hnone, Option.none_or]

lemma escaped_concat_of_ne {e : Escape} (hc : c ≠ e.character) :
    escaped (es ++ [e]) c = escaped es c := by
  have hnone : [e].find? (·.character = c) = none := by simp [Ne.symm hc]
  rw [escaped, escaped, List.find?_append, hnone, Option.or_none]

end Escaped

/-! ### One replacement behind the other -/

/-- If no character is written with a later one, replacing the characters one after the other writes
each of them for itself. -/
lemma foldl_replace {es : List Escape}
    (h : es.Pairwise fun e e' => e'.character ∉ e.text) (cs : List Char) :
    es.foldl (fun cs e => replace [e.character] e.text cs) cs = cs.flatMap (escaped es) := by
  induction es generalizing cs with
  | nil => exact (List.flatMap_singleton' cs).symm
  | cons e es ih =>
    rw [List.pairwise_cons] at h
    have hkept : e.text.flatMap (escaped es) = e.text := by
      have hplain : ∀ d ∈ e.text, escaped es d = [d] := fun d hd =>
        escaped_of_forall_ne fun e' he' hchar => h.1 e' he' (hchar ▸ hd)
      rw [List.flatMap_congr hplain, List.flatMap_singleton']
    rw [List.foldl_cons, ih h.2, replace_singleton, List.flatMap_assoc]
    refine List.flatMap_congr fun d _ => ?_
    rw [escaped_cons]
    split_ifs
    · exact hkept
    · exact List.flatMap_singleton _ _

lemma cellChars_eq (cs : List Char) : cellChars cs = (flatten cs).flatMap (escaped escapes) :=
  foldl_replace (by decide) _

/-! ### Undoing the replacements -/

/-- Undo the replacements, the last one first. -/
def unescape (cs : List Char) : List Char :=
  escapes.foldr (fun e cs => replace e.text [e.character] cs) cs

/-- An entity begins with its ampersand, has no other one, and is no beginning of another entity. -/
lemma entity_text : ∀ e ∈ entities, ∃ name, e.text = '&' :: name ∧ '&' ∉ name ∧
    ∀ e' ∈ entities, e'.text <+: e.text → e' = e := by
  intro e he
  simp only [entities, List.mem_cons, List.not_mem_nil, or_false] at he
  rcases he with rfl | rfl | rfl <;> exact ⟨_, rfl, by decide, by decide⟩

/-- No entity begins inside another one, or where there is no ampersand. -/
lemma not_entity_prefix {e : Escape} (he : e ∈ entities) {part : List Char}
    (hpart : (∃ e' ∈ entities, e' ≠ e ∧ part = e'.text) ∨ '&' ∉ part) {us : List Char}
    (hne : us ≠ []) (hus : us <:+ part) (rest : List Char) : ¬ e.text <+: us ++ rest := by
  intro hprefix
  obtain ⟨name, htext, _, hunique⟩ := entity_text e he
  obtain ⟨u, us, rfl⟩ := List.exists_cons_of_ne_nil hne
  have hu : '&' = u := by
    rw [htext, List.cons_append, List.cons_prefix_cons] at hprefix
    exact hprefix.1
  subst hu
  rcases hpart with ⟨e', he', hdiff, rfl⟩ | hfree
  · obtain ⟨name', htext', hname', hunique'⟩ := entity_text e' he'
    rw [htext', List.suffix_cons_iff, ← htext'] at hus
    rcases hus with hwhole | hinside
    · rw [hwhole] at hprefix
      rcases List.prefix_or_prefix_of_prefix hprefix (List.prefix_append e'.text rest) with h | h
      · exact hdiff (hunique' e he h).symm
      · exact hdiff (hunique e' he' h)
    · exact hname' (hinside.subset List.mem_cons_self)
  · exact hfree (hus.subset List.mem_cons_self)

/-- The last entity that has been written is undone. -/
lemma replace_entity {es : List Escape} {e : Escape} (hes : es ++ [e] <+: entities)
    (cs : List Char) :
    replace e.text [e.character] (cs.flatMap (escaped (es ++ [e]))) =
      cs.flatMap (escaped es) := by
  have hmem : ∀ e' ∈ es ++ [e], e' ∈ entities := fun e' he' => hes.subset he'
  have he : e ∈ entities := hmem e (by simp)
  have hkeys : ∀ e' ∈ es, e'.character ≠ e.character := by
    have hnodup : (entities.map (·.character)).Nodup := by decide
    have hsub := hnodup.sublist (hes.sublist.map (·.character))
    rw [List.map_append, List.nodup_append] at hsub
    exact fun e' he' => hsub.2.2 _ (List.mem_map_of_mem he') _ (List.mem_singleton_self _)
  -- The ampersand comes first, so it is escaped whenever anything is.
  have hampersand : ∃ e' ∈ es ++ [e], e'.character = '&' := by
    obtain ⟨first, rest, hcons⟩ := List.exists_cons_of_ne_nil (show es ++ [e] ≠ [] by simp)
    rw [hcons, entities, List.cons_prefix_cons] at hes
    exact ⟨first, by simp [hcons], by rw [hes.1]⟩
  apply replace_flatMap
  · obtain ⟨name, htext, _⟩ := entity_text e he
    simp [htext]
  · intro c
    by_cases hc : c = e.character
    · subst hc
      have hwritten : escaped (es ++ [e]) e.character = e.text := by
        rw [escaped_concat hkeys, escaped_cons, if_pos rfl]
      exact .inl ⟨hwritten, escaped_of_forall_ne hkeys⟩
    · refine .inr ⟨(escaped_concat_of_ne hc).symm, fun us hne hus cs => ?_⟩
      refine not_entity_prefix he ?_ hne hus _
      rcases escaped_cases (es ++ [e]) c with ⟨e', he', hchar, htext⟩ | ⟨hnone, hself⟩
      · refine .inl ⟨e', hmem e' he', ?_, htext⟩
        rintro rfl
        exact hc hchar.symm
      · obtain ⟨e', he', hchar⟩ := hampersand
        refine .inr ?_
        rw [hself, List.mem_singleton]
        exact fun hamp => hnone e' he' (hchar.trans hamp)

lemma undo_entities {es : List Escape} (hes : es <+: entities) (cs : List Char) :
    es.foldr (fun e cs => replace e.text [e.character] cs) (cs.flatMap (escaped es)) = cs := by
  induction es using List.reverseRecOn with
  | nil => exact List.flatMap_singleton' cs
  | append_singleton es e ih =>
    rw [List.foldr_append, List.foldr_cons, List.foldr_nil, replace_entity hes]
    exact ih ((List.prefix_append es [e]).trans hes)

/-- What is written for a character begins with a bar for no character. -/
lemma head?_flatMap_escaped (cs : List Char) : (cs.flatMap (escaped escapes)).head? ≠ some '|' := by
  cases cs with
  | nil => simp
  | cons c cs =>
    rw [List.flatMap_cons]
    rcases escaped_cases escapes c with ⟨e, he, _, htext⟩ | ⟨hnone, hself⟩
    · have hhead : ∀ e ∈ escapes, ∃ d, e.text.head? = some d ∧ d ≠ '|' := by
        simp [escapes, entities, escapedBar]
      obtain ⟨d, hd, hne⟩ := hhead e he
      rw [htext, List.head?_append, hd]
      simpa using hne
    · have hbar : c ≠ '|' := fun hc => hnone escapedBar (by decide) hc.symm
      rw [hself]
      simpa using hbar

/-- The bars, which have been written last, are undone. -/
lemma replace_bar (cs : List Char) :
    replace escapedBar.text [escapedBar.character] (cs.flatMap (escaped escapes)) =
      cs.flatMap (escaped entities) := by
  apply replace_flatMap
  · exact List.cons_ne_nil _ _
  · intro c
    by_cases hc : c = escapedBar.character
    · subst hc
      exact .inl ⟨by decide, by decide⟩
    · refine .inr ⟨(escaped_concat_of_ne hc).symm, fun us hne hus cs hprefix => ?_⟩
      obtain ⟨u, us, rfl⟩ := List.exists_cons_of_ne_nil hne
      rw [escapedBar, List.cons_append, List.cons_prefix_cons] at hprefix
      obtain ⟨rfl, hbar⟩ := hprefix
      have hbackslash : '\\' ∈ escaped escapes c := hus.subset List.mem_cons_self
      rcases escaped_cases escapes c with ⟨e, he, hchar, htext⟩ | ⟨_, hself⟩
      · have honly : ∀ e ∈ escapes, '\\' ∈ e.text → e.character = escapedBar.character := by decide
        exact hc (hchar.symm.trans (honly e he (htext ▸ hbackslash)))
      · -- A backslash of the text, with something behind it that begins with no bar.
        have hnil : us = [] := by
          have hlength := hus.length_le
          rw [hself] at hlength
          simpa using hlength
        rw [hnil, List.nil_append] at hbar
        obtain ⟨rest, hrest⟩ := hbar
        exact head?_flatMap_escaped cs (by rw [← hrest]; rfl)

lemma unescape_cellChars (cs : List Char) : unescape (cellChars cs) = flatten cs := by
  have hbar := replace_bar (flatten cs)
  rw [← cellChars_eq] at hbar
  rw [unescape, escapes, List.foldr_append, List.foldr_cons, List.foldr_nil, hbar]
  exact undo_entities List.prefix_rfl (flatten cs)

/-! ### Characters of a cell -/

/-- White space is kept as it is, and stands for nothing else. -/
lemma eq_of_mem_escaped {c d : Char} (h : c ∈ escaped escapes d) (hblank : isBlank c = true) :
    c = d := by
  rcases escaped_cases escapes d with ⟨e, he, _, htext⟩ | ⟨_, hself⟩
  · have hfree : ∀ e ∈ escapes, e.text.any isBlank = false := by decide
    exact absurd hblank (List.any_eq_false.mp (hfree e he) c (htext ▸ h))
  · exact List.mem_singleton.mp (hself ▸ h)

/-- All white space in a cell is spaces. -/
lemma eq_space_of_mem_cell {text : String} {c : Char} (h : c ∈ (cell text).toList)
    (hblank : isBlank c = true) : c = ' ' := by
  rw [cell, String.toList_ofList, cellChars_eq, List.mem_flatMap] at h
  obtain ⟨d, hd, hc⟩ := h
  obtain rfl := eq_of_mem_escaped hc hblank
  exact eq_space_of_mem_flatten hd hblank

/-- A character of the outcome belongs to what is written for one character. -/
lemma exists_of_flatMap_eq {f : Char → List Char} {cs front back : List Char} {c : Char}
    (h : cs.flatMap f = front ++ c :: back) :
    ∃ d before behind, f d = before ++ c :: behind ∧ before <:+ front ∧ behind <+: back := by
  induction cs generalizing front with
  | nil => simp at h
  | cons d cs ih =>
    rw [List.flatMap_cons, List.append_eq_append_iff] at h
    rcases h with ⟨front', rfl, hrest⟩ | ⟨part, hd, hrest⟩
    · obtain ⟨d', before, behind, hf, hbefore, hbehind⟩ := ih hrest
      exact ⟨d', before, behind, hf, hbefore.trans (List.suffix_append _ _), hbehind⟩
    · cases part with
      | nil =>
        have hbehindAll : cs.flatMap f = [] ++ c :: back := hrest.symm
        obtain ⟨d', before, behind, hf, hbefore, hbehind⟩ := ih hbehindAll
        exact ⟨d', before, behind, hf, hbefore.trans List.nil_suffix, hbehind⟩
      | cons x behind =>
        obtain ⟨rfl, rfl⟩ := List.cons.inj hrest
        exact ⟨d, front, behind, hd, List.suffix_rfl, List.prefix_append _ _⟩

/-- Of two neighbours one at most is white space. -/
def Apart (a b : Char) : Prop :=
  ¬ (isBlank a = true ∧ isBlank b = true)

lemma isChain_append_of_notBlank {xs ys : List Char} (hxs : ∀ c ∈ xs, isBlank c = false)
    (hys : ys.IsChain Apart) : (xs ++ ys).IsChain Apart := by
  induction xs with
  | nil => exact hys
  | cons x xs ih =>
    rw [List.forall_mem_cons] at hxs
    rw [List.cons_append, List.isChain_cons]
    refine ⟨fun y _ hblank => ?_, ih hxs.2⟩
    rw [hxs.1] at hblank
    cases hblank.1

lemma isChain_join {ws : List (List Char)}
    (h : ∀ w ∈ ws, w ≠ [] ∧ ∀ c ∈ w, isBlank c = false) : (join [' '] ws).IsChain Apart := by
  induction ws with
  | nil => exact .nil
  | cons w ws ih =>
    rw [List.forall_mem_cons] at h
    cases ws with
    | nil =>
      have hword := isChain_append_of_notBlank h.1.2 .nil
      rwa [List.append_nil] at hword
    | cons v vs =>
      rw [join, List.append_assoc, List.singleton_append]
      refine isChain_append_of_notBlank h.1.2 (List.isChain_cons.mpr ⟨?_, ih h.2⟩)
      obtain ⟨hne, hv⟩ := h.2 v List.mem_cons_self
      obtain ⟨c, v, rfl⟩ := List.exists_cons_of_ne_nil hne
      have hhead : (join [' '] ((c :: v) :: vs)).head? = some c := by cases vs <;> rfl
      intro y hy hblank
      obtain rfl : c = y := Option.some.inj (hhead.symm.trans hy)
      rw [hv c List.mem_cons_self] at hblank
      cases hblank.2

lemma isChain_flatten (cs : List Char) : (flatten cs).IsChain Apart :=
  isChain_join fun _ => not_blank_of_mem_words

lemma notBlank_of_mem_escaped {d : Char} (hd : isBlank d = false) :
    ∀ c ∈ escaped escapes d, isBlank c = false := by
  intro c hc
  rw [Bool.eq_false_iff]
  intro hblank
  rw [← eq_of_mem_escaped hc hblank, hblank] at hd
  cases hd

lemma escaped_of_blank {c : Char} (hc : isBlank c = true) : escaped escapes c = [c] := by
  apply escaped_of_forall_ne
  rintro e he rfl
  have hvisible : ∀ e ∈ escapes, isBlank e.character = false := by decide
  rw [hvisible e he] at hc
  cases hc

lemma escaped_ne_nil (c : Char) : escaped escapes c ≠ [] := by
  rcases escaped_cases escapes c with ⟨e, he, _, htext⟩ | ⟨_, hself⟩
  · have hne : ∀ e ∈ escapes, e.text ≠ [] := by decide
    rw [htext]
    exact hne e he
  · rw [hself]
    exact List.cons_ne_nil c []

lemma isChain_flatMap_escaped {cs : List Char} (h : cs.IsChain Apart) :
    (cs.flatMap (escaped escapes)).IsChain Apart := by
  induction cs with
  | nil => exact .nil
  | cons c cs ih =>
    rw [List.isChain_cons] at h
    rw [List.flatMap_cons]
    cases hc : isBlank c with
    | false => exact isChain_append_of_notBlank (notBlank_of_mem_escaped hc) (ih h.2)
    | true =>
      -- What is written behind white space begins with the text for a visible character.
      rw [escaped_of_blank hc, List.singleton_append, List.isChain_cons]
      refine ⟨fun y hy hblank => ?_, ih h.2⟩
      cases cs with
      | nil => cases hy
      | cons d cs =>
        have hd : isBlank d = false := by
          rw [Bool.eq_false_iff]
          exact fun hd => h.1 d rfl ⟨hc, hd⟩
        rw [List.flatMap_cons, List.head?_append_of_ne_nil _ (escaped_ne_nil d)] at hy
        rw [notBlank_of_mem_escaped hd y (List.mem_of_mem_head? hy)] at hblank
        cases hblank.2

/-- The characters of a cell: no line ends in it, and nothing in it has a meaning for the table or
for a browser. -/
structure IsCellText (out : List Char) : Prop where
  space : ∀ c ∈ out, isBlank c = true → c = ' '
  apart : out.IsChain Apart
  noAngle : '<' ∉ out ∧ '>' ∉ out
  bar : ∀ front back, out = front ++ '|' :: back → ['\\'] <:+ front
  ampersand : ∀ front back, out = front ++ '&' :: back → ∃ e ∈ entities, e.text <+: '&' :: back

/-- A character with a meaning is only found in what is written for such characters. -/
lemma exists_escape_of_mem {c d : Char} (hc : ∃ e ∈ escapes, e.character = c)
    (h : c ∈ escaped escapes d) : ∃ e ∈ escapes, escaped escapes d = e.text ∧ c ∈ e.text := by
  rcases escaped_cases escapes d with ⟨e, he, _, htext⟩ | ⟨hnone, hself⟩
  · exact ⟨e, he, htext, htext ▸ h⟩
  · obtain ⟨e, he, hchar⟩ := hc
    rw [hself, List.mem_singleton] at h
    exact absurd (hchar.trans h) (hnone e he)

lemma isCellText_cell (text : String) : IsCellText (cell text).toList := by
  have hchars : (cell text).toList = (flatten text.toList).flatMap (escaped escapes) := by
    rw [cell, String.toList_ofList, cellChars_eq]
  have hnone : ∀ c, (∃ e ∈ escapes, e.character = c) → (∀ e ∈ escapes, c ∉ e.text) →
      c ∉ (cell text).toList := by
    intro c hkey hfree hc
    rw [hchars, List.mem_flatMap] at hc
    obtain ⟨d, _, hd⟩ := hc
    obtain ⟨e, he, _, hmem⟩ := exists_escape_of_mem hkey hd
    exact hfree e he hmem
  constructor
  · exact fun c => eq_space_of_mem_cell
  · rw [hchars]
    exact isChain_flatMap_escaped (isChain_flatten _)
  · exact ⟨hnone '<' (by decide) (by decide), hnone '>' (by decide) (by decide)⟩
  · intro front back hout
    rw [hchars] at hout
    obtain ⟨d, before, behind, hd, hbefore, _⟩ := exists_of_flatMap_eq hout
    obtain ⟨e, he, htext, hmem⟩ :=
      exists_escape_of_mem (c := '|') (d := d) (by decide) (by rw [hd]; simp)
    have honly : ∀ e ∈ escapes, '|' ∈ e.text → e = escapedBar := by decide
    rw [hd, honly e he hmem, escapedBar, List.append_eq_cons_iff] at htext
    rcases htext with ⟨_, hcons⟩ | ⟨before', rfl, hrest⟩
    · cases hcons
    · have hnil : before' = [] := by
        have hlength := congrArg List.length hrest
        simp only [List.length_cons, List.length_nil, List.length_append] at hlength
        exact List.eq_nil_of_length_eq_zero (by omega)
      rwa [hnil] at hbefore
  · intro front back hout
    rw [hchars] at hout
    obtain ⟨d, before, behind, hd, _, hbehind⟩ := exists_of_flatMap_eq hout
    obtain ⟨e, he, htext, hmem⟩ :=
      exists_escape_of_mem (c := '&') (d := d) (by decide) (by rw [hd]; simp)
    have hentity : ∀ e ∈ escapes, '&' ∈ e.text → e ∈ entities := by decide
    obtain ⟨name, hname, hfree, _⟩ := entity_text e (hentity e he hmem)
    rw [hd, hname, List.append_eq_cons_iff] at htext
    rcases htext with ⟨_, hcons⟩ | ⟨before', _, hrest⟩
    · refine ⟨e, hentity e he hmem, ?_⟩
      rw [hname, ← hcons, List.cons_prefix_cons]
      exact ⟨rfl, hbehind⟩
    · exact absurd (by rw [hrest]; simp) hfree

/-- A cell is written on one line, and without anything that has a meaning of its own. Undoing the
replacements gives the text with its white space flattened, so two texts have the same cell if and
only if they have the same words. -/
theorem cell_eq_iff_words (text : String) :
    IsCellText (cell text).toList ∧ unescape (cell text).toList = flatten text.toList ∧
      ∀ other, cell text = cell other ↔ words text.toList = words other.toList := by
  have hunescape : ∀ t, unescape (cell t).toList = flatten t.toList := by
    intro t
    rw [cell, String.toList_ofList, unescape_cellChars]
  refine ⟨isCellText_cell text, hunescape text, fun other => ⟨fun h => ?_, fun h => ?_⟩⟩
  · rw [← words_flatten, ← hunescape, h, hunescape, words_flatten]
  · rw [cell, cell, cellChars_eq, cellChars_eq, flatten, flatten, h]

/-- Entities and backslashes of the text are kept apart from those of the cell. -/
example :
    cell "&lt;b>\t a\\|b" = "&amp;lt;b&gt; a\\\\|b" ∧
      String.ofList (unescape "&amp;lt;b&gt; a\\\\|b".toList) = "&lt;b> a\\|b" := by
  decide +kernel

end ServiceDocs.Page
