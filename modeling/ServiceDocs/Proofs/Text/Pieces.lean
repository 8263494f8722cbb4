import Mathlib.Tactic.Common
import ServiceDocs.Text.Blank

/-!
# Pieces of a text

The pieces between separators hold no separator, and a text that is put together from such pieces
is cut into them again. For lines this means that a text of lines has exactly these lines.
-/

namespace ServiceDocs.Text

section Pieces

variable {p : Char → Bool}

lemma consHead_append (c : Char) {ws : List (List Char)} (hne : ws ≠ [])
    (vs : List (List Char)) : consHead c (ws ++ vs) = consHead c ws ++ vs := by
  cases ws with
  | nil => exact absurd rfl hne
  | cons w ws => rfl

lemma length_consHead (c : Char) {ws : List (List Char)} (hne : ws ≠ []) :
    (consHead c ws).length = ws.length := by
  cases ws with
  | nil => exact absurd rfl hne
  | cons w ws => rfl

/-- A separator cuts a text into two texts with pieces of their own. -/
lemma pieces_append_cons {c : Char} (hc : p c = true) (xs ys : List Char) :
    pieces p (xs ++ c :: ys) = pieces p xs ++ pieces p ys := by
  induction xs with
  | nil => exact pieces_cons_of_pos hc ys
  | cons x xs ih =>
    rw [List.cons_append]
    cases hx : p x with
    | true => rw [pieces_cons_of_pos hx, pieces_cons_of_pos hx, ih, List.cons_append]
    | false =>
      rw [pieces_cons_of_neg hx, pieces_cons_of_neg hx, ih, consHead_append x (pieces_ne_nil p xs)]

lemma pieces_eq_singleton {cs : List Char} (h : ∀ c ∈ cs, p c = false) : pieces p cs = [cs] := by
  induction cs with
  | nil => rfl
  | cons c cs ih =>
    rw [List.forall_mem_cons] at h
    rw [pieces_cons_of_neg h.1, ih h.2]
    rfl

lemma pieces_of_notMem {sep : Char} {cs : List Char} (h : sep ∉ cs) :
    pieces (· = sep) cs = [cs] := by
  apply pieces_eq_singleton
  intro c hc
  rw [decide_eq_false_iff_not]
  rintro rfl
  exact h hc

lemma join_consHead (sep : List Char) (c : Char) {ws : List (List Char)} (hne : ws ≠ []) :
    join sep (consHead c ws) = c :: join sep ws := by
  cases ws with
  | nil => exact absurd rfl hne
  | cons w ws => cases ws <;> rfl

/-- The pieces of a text with the separators between them are the text. -/
lemma join_pieces (sep : Char) (cs : List Char) : join [sep] (pieces (· = sep) cs) = cs := by
  induction cs with
  | nil => rfl
  | cons c cs ih =>
    by_cases hc : c = sep
    · rw [pieces_cons_of_pos (decide_eq_true hc)]
      obtain ⟨w, ws, hrest⟩ := List.exists_cons_of_ne_nil (pieces_ne_nil (· = sep) cs)
      rw [hrest] at ih
      rw [hrest, join, ih, hc]
      rfl
    · rw [pieces_cons_of_neg (decide_eq_false hc), join_consHead _ _ (pieces_ne_nil _ cs), ih]

/-- Texts without the separator are the pieces of the text that is joined from them. -/
lemma pieces_join {sep : Char} {ws : List (List Char)} (hne : ws ≠ []) (h : ∀ w ∈ ws, sep ∉ w) :
    pieces (· = sep) (join [sep] ws) = ws := by
  induction ws with
  | nil => exact absurd rfl hne
  | cons w ws ih =>
    rw [List.forall_mem_cons] at h
    cases ws with
    | nil => exact pieces_of_notMem h.1
    | cons v ws =>
      rw [join, List.append_assoc, List.singleton_append, pieces_append_cons (decide_eq_true rfl),
        pieces_of_notMem h.1, ih (List.cons_ne_nil v ws) h.2]
      rfl

lemma forall_mem_consHead {P : List Char → Prop} {c : Char} {ws : List (List Char)}
    (hc : ∀ w, P w → P (c :: w)) (hnil : P []) (hws : ∀ w ∈ ws, P w) : ∀ w ∈ consHead c ws, P w := by
  cases ws with
  | nil => exact List.forall_mem_singleton.mpr (hc [] hnil)
  | cons w ws =>
    obtain ⟨hw, hws⟩ := List.forall_mem_cons.mp hws
    exact List.forall_mem_cons.mpr ⟨hc w hw, hws⟩

/-- Together the pieces are what is between the separators. -/
lemma flatten_pieces (cs : List Char) : (pieces p cs).flatten = cs.filter fun c => !p c := by
  induction cs with
  | nil => rfl
  | cons c cs ih =>
    cases hc : p c with
    | true => simp [pieces_cons_of_pos hc, ih, hc]
    | false =>
      obtain ⟨w, ws, hrest⟩ := List.exists_cons_of_ne_nil (pieces_ne_nil p cs)
      rw [hrest, List.flatten_cons] at ih
      simp [pieces_cons_of_neg hc, hrest, consHead, ih, hc]

lemma not_of_mem_pieces (cs : List Char) : ∀ w ∈ pieces p cs, ∀ c ∈ w, p c = false := by
  induction cs with
  | nil => simp
  | cons c cs ih =>
    cases hc : p c with
    | true =>
      rw [pieces_cons_of_pos hc, List.forall_mem_cons]
      exact ⟨List.forall_mem_nil _, ih⟩
    | false =>
      rw [pieces_cons_of_neg hc]
      apply forall_mem_consHead _ (List.forall_mem_nil _) ih
      intro w hw
      exact List.forall_mem_cons.mpr ⟨hc, hw⟩

lemma mem_of_mem_pieces (cs : List Char) : ∀ w ∈ pieces p cs, ∀ c ∈ w, c ∈ cs := by
  induction cs with
  | nil => simp
  | cons c cs ih =>
    have hcs : ∀ w ∈ pieces p cs, ∀ d ∈ w, d ∈ c :: cs := fun w hw d hd =>
      List.mem_cons_of_mem c (ih w hw d hd)
    cases hc : p c with
    | true =>
      rw [pieces_cons_of_pos hc, List.forall_mem_cons]
      exact ⟨List.forall_mem_nil _, hcs⟩
    | false =>
      rw [pieces_cons_of_neg hc]
      apply forall_mem_consHead _ (List.forall_mem_nil _) hcs
      intro w hw
      exact List.forall_mem_cons.mpr ⟨List.mem_cons_self, hw⟩

end Pieces

/-! ### Words -/

lemma mem_join {sep : List Char} {ws : List (List Char)} {c : Char} (h : c ∈ join sep ws) :
    c ∈ sep ∨ ∃ w ∈ ws, c ∈ w := by
  induction ws with
  | nil => cases h
  | cons w ws ih =>
    cases ws with
    | nil => exact .inr ⟨w, List.mem_singleton_self w, h⟩
    | cons v ws =>
      rw [join, List.mem_append, List.mem_append] at h
      rcases h with (hw | hsep) | hrest
      · exact .inr ⟨w, List.mem_cons_self, hw⟩
      · exact .inl hsep
      · rcases ih hrest with hsep | ⟨u, hu, hc⟩
        · exact .inl hsep
        · exact .inr ⟨u, List.mem_cons_of_mem w hu, hc⟩

/-- Of all white space only spaces are left in a flattened text. -/
lemma eq_space_of_mem_flatten {cs : List Char} {c : Char} (h : c ∈ flatten cs)
    (hblank : isBlank c = true) : c = ' ' := by
  rcases mem_join h with hsep | ⟨w, hw, hc⟩
  · exact List.mem_singleton.mp hsep
  · have hfalse := not_of_mem_pieces cs w (List.mem_filter.mp hw |>.1) c hc
    rw [hblank] at hfalse
    cases hfalse

/-! ### Lines -/

/-- The lines of a text, without their line feeds. -/
def lines : List Char → List (List Char) :=
  pieces (· = '\n')

/-- The lines of a text that ends with a line feed: those in front of the line feed, and those of
the text behind it. -/
lemma lines_append_cons {line : List Char} (hline : '\n' ∉ line) (cs : List Char) :
    lines (line ++ '\n' :: cs) = line :: lines cs := by
  rw [lines, pieces_append_cons (decide_eq_true rfl), pieces_of_notMem hline]
  rfl

lemma exists_lines_cons {c : Char} (hc : c ≠ '\n') (cs : List Char) :
    ∃ w ws, lines cs = w :: ws ∧ lines (c :: cs) = (c :: w) :: ws := by
  have hcons : lines (c :: cs) = consHead c (lines cs) := pieces_cons_of_neg (decide_eq_false hc) cs
  cases hlines : lines cs with
  | nil => exact absurd hlines (pieces_ne_nil _ cs)
  | cons w ws =>
    rw [hlines] at hcons
    exact ⟨w, ws, rfl, hcons⟩

/-- A line feed between two texts ends a line. -/
lemma lines_append_lineFeed (xs ys : List Char) :
    lines (xs ++ '\n' :: ys) = lines xs ++ lines ys :=
  pieces_append_cons (decide_eq_true rfl) xs ys

/-- Behind the last line end there may be one line more between line feeds, and a line may have a
carriage return more. -/
lemma exists_endedLines_append (cs : List Char) :
    ∃ rest, (rest = [] ∨ rest = [[]]) ∧
      List.Forall₂ (fun w v => v = w ∨ v = w ++ ['\r']) (endedLines cs ++ rest) (lines cs) := by
  induction cs using endedLines.induct with
  | case1 => exact ⟨[[]], .inr rfl, .cons (.inl rfl) .nil⟩
  | case2 cs ih =>
    obtain ⟨rest, hrest, hlines⟩ := ih
    exact ⟨rest, hrest, .cons (.inr rfl) hlines⟩
  | case3 cs ih =>
    obtain ⟨rest, hrest, hlines⟩ := ih
    exact ⟨rest, hrest, .cons (.inl rfl) hlines⟩
  | case4 c cs hreturn hfeed ih =>
    obtain ⟨rest, hrest, hlines⟩ := ih
    obtain ⟨v, vs, hcons, hconsHead⟩ := exists_lines_cons hfeed cs
    have hended : endedLines (c :: cs) = consHead c (endedLines cs) := by
      rw [endedLines]
      exacts [hreturn, hfeed]
    have hlonger : ∀ {w}, v = w ∨ v = w ++ ['\r'] →
        c :: v = c :: w ∨ c :: v = c :: w ++ ['\r'] := by
      rintro w (rfl | rfl)
      exacts [.inl rfl, .inr rfl]
    rw [hcons] at hlines
    rw [hended, hconsHead]
    cases hws : endedLines cs with
    | nil =>
      -- The character is the first one of a line that has no end.
      rw [hws] at hlines
      rcases hrest with rfl | rfl
      · cases hlines
      · obtain ⟨hhead, htail⟩ := List.forall₂_cons.mp hlines
        exact ⟨[], .inl rfl, .cons (hlonger hhead) htail⟩
    | cons w ws =>
      rw [hws] at hlines
      obtain ⟨hhead, htail⟩ := List.forall₂_cons.mp hlines
      exact ⟨rest, hrest, .cons (hlonger hhead) htail⟩

end ServiceDocs.Text
