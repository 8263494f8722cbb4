import ServiceDocs.Proofs.Json.Written
import ServiceDocs.Proofs.Text.Pieces

/-!
# Lines of the pretty form

Strings hold no line feeds, since these are escaped, and every line feed of the pretty form is
followed by an indentation. So the pretty form of an object with members begins with the line of its
opening bracket, ends with the line of its closing one, and all lines in between are indented.
-/

namespace ServiceDocs.Json

/-! ### Texts on one line -/

lemma hexDigit_ne_lineFeed {n : ℕ} (h : n < 16) : hexDigit n ≠ '\n' := by
  have hall : ∀ m < 16, hexDigit m ≠ '\n' := by decide
  exact hall n h

lemma noLineFeed_escapeChar (c : Char) : '\n' ∉ escapeChar c := by
  rw [escapeChar]
  split_ifs with hquote hslash hfeed hreturn htab hback hform hcontrol
  all_goals try decide
  · have hhigh := hexDigit_ne_lineFeed (n := c.toNat / 16) (by omega)
    have hlow := hexDigit_ne_lineFeed (n := c.toNat % 16) (by omega)
    simp [hhigh.symm, hlow.symm]
  · simpa using Ne.symm hfeed

lemma noLineFeed_quote (s : String) : '\n' ∉ quote s := by
  have hchars : '\n' ∉ s.toList.flatMap escapeChar := by
    rw [List.mem_flatMap]
    rintro ⟨c, _, hc⟩
    exact noLineFeed_escapeChar c hc
  simpa [quote] using hchars

/-! ### Indentation -/

/-- Every line feed of the text is followed by a space. -/
def Indented : List Char → Prop
  | []      => True
  | c :: cs => (c = '\n' → cs.head? = some ' ') ∧ Indented cs

lemma indented_of_notMem {cs : List Char} (h : '\n' ∉ cs) : Indented cs := by
  induction cs with
  | nil => trivial
  | cons c cs ih =>
    rw [List.mem_cons, not_or] at h
    exact ⟨fun hc => absurd hc.symm h.1, ih h.2⟩

lemma Indented.cons {c : Char} (hc : c ≠ '\n') {cs : List Char} (h : Indented cs) :
    Indented (c :: cs) :=
  ⟨fun heq => absurd heq hc, h⟩

lemma Indented.append {cs ds : List Char} (hcs : Indented cs) (hds : Indented ds) :
    Indented (cs ++ ds) := by
  induction cs with
  | nil => exact hds
  | cons c cs ih =>
    refine ⟨fun hc => ?_, ih hcs.2⟩
    show (cs ++ ds).head? = some ' '
    rw [List.head?_append, hcs.1 hc]
    rfl

lemma indented_member (k : String) {cs : List Char} (h : Indented cs) :
    Indented (quote k ++ ':' :: ' ' :: cs) := by
  apply (indented_of_notMem (noLineFeed_quote k)).append
  apply Indented.cons (by decide)
  exact h.cons (by decide)

lemma indented_newline (level : ℕ) : Indented (newline (level + 1)) :=
  ⟨fun _ => rfl, indented_of_notMem (by simp)⟩

mutual

lemma indented_prettyChars (level : ℕ) :
    (j : Json) → j.Proper → Indented (j.prettyChars (level + 1))
  | .null,          _ => indented_of_notMem (by simp [prettyChars, compactChars])
  | .bool b,        _ => indented_of_notMem (by cases b <;> simp [prettyChars, compactChars])
  | .num n,         h => indented_of_notMem (noLineFeed_of_readNumber (readNumber_num h.1 h.2))
  | .real l,        h => indented_of_notMem (noLineFeed_of_readNumber h)
  | .str s,         _ => indented_of_notMem (noLineFeed_quote s)
  | .arr [],        _ => indented_of_notMem (by simp [prettyChars])
  | .arr (x :: xs), h => by
    have hitems := indented_prettyItems (level + 1) (x :: xs) h
    have hopen : Indented ('[' :: newline (level + 2)) :=
      (indented_newline (level + 1)).cons (by decide)
    have hclose : Indented [']'] := indented_of_notMem (by decide)
    exact ((hopen.append hitems).append (indented_newline level)).append hclose
  | .obj [],        _ => indented_of_notMem (by simp [prettyChars])
  | .obj (m :: ms), h => by
    have hmembers := indented_prettyMembers (level + 1) (m :: ms) h.2
    have hopen : Indented ('\x7b' :: newline (level + 2)) :=
      (indented_newline (level + 1)).cons (by decide)
    have hclose : Indented ['\x7d'] := indented_of_notMem (by decide)
    exact ((hopen.append hmembers).append (indented_newline level)).append hclose

lemma indented_prettyItems (level : ℕ) :
    (xs : List Json) → ProperItems xs → Indented (prettyItems (level + 1) xs)
  | [],           _ => trivial
  | [x],          h => indented_prettyChars level x h.1
  | x :: y :: xs, h => by
    have hx := indented_prettyChars level x h.1
    have hrest := indented_prettyItems level (y :: xs) h.2
    have hcomma : Indented (',' :: newline (level + 1)) :=
      (indented_newline level).cons (by decide)
    exact (hx.append hcomma).append hrest

lemma indented_prettyMembers (level : ℕ) :
    (ms : List (String × Json)) → ProperMembers ms → Indented (prettyMembers (level + 1) ms)
  | [],                _ => trivial
  | [(k, v)],          h => indented_member k (indented_prettyChars level v h.1)
  | (k, v) :: m :: ms, h => by
    have hmember := indented_member k (indented_prettyChars level v h.1)
    have hrest := indented_prettyMembers level (m :: ms) h.2
    have hcomma : Indented (',' :: newline (level + 1)) :=
      (indented_newline level).cons (by decide)
    exact (hmember.append hcomma).append hrest

end

/-! ### Lines -/

/-- The lines of an indented text but the first begin with a space. -/
lemma Indented.head?_of_mem_tail {cs : List Char} (h : Indented cs) :
    ∀ l ∈ (Text.lines cs).tail, l.head? = some ' ' := by
  induction cs with
  | nil => exact List.forall_mem_nil _
  | cons c cs ih =>
    obtain ⟨hfeed, hcs⟩ := h
    by_cases hc : c = '\n'
    · -- the next line is what the text goes on with, so it is not the first one any more
      obtain ⟨ds, rfl⟩ := List.head?_eq_some_iff.mp (hfeed hc)
      obtain ⟨w, ws, _, hlines⟩ := Text.exists_lines_cons (c := ' ') (by decide) ds
      have hws := ih hcs
      rw [hlines] at hws
      rw [hc, Text.lines, Text.pieces_cons_of_pos rfl, ← Text.lines, hlines]
      exact List.forall_mem_cons.mpr ⟨rfl, hws⟩
    · obtain ⟨w, ws, hlines, hcons⟩ := Text.exists_lines_cons hc cs
      have hws := ih hcs
      rw [hlines] at hws
      rw [hcons]
      exact hws

/-- The pretty form of an object with members has a line for each of its brackets, and the lines
between them begin with spaces. -/
theorem lines_pretty {m : String × Json} {ms : List (String × Json)}
    (h : (Json.obj (m :: ms)).Proper) :
    ∃ inner, Text.lines (Json.obj (m :: ms)).pretty.toList = ['\x7b'] :: (inner ++ [['\x7d']]) ∧
      ∀ l ∈ inner, l.head? = some ' ' := by
  have hmembers := indented_prettyMembers 0 (m :: ms) h.2
  have hbody : Indented (' ' :: ' ' :: prettyMembers 1 (m :: ms)) :=
    (hmembers.cons (by decide)).cons (by decide)
  have htext : (Json.obj (m :: ms)).pretty.toList =
      ['\x7b'] ++ '\n' :: ((' ' :: ' ' :: prettyMembers 1 (m :: ms)) ++ '\n' :: ['\x7d']) := by
    rw [pretty, String.toList_ofList]
    simp [prettyChars, newline, List.replicate]
  obtain ⟨w, ws, _, hlines⟩ := Text.exists_lines_cons (c := ' ') (by decide)
    (' ' :: prettyMembers 1 (m :: ms))
  refine ⟨Text.lines (' ' :: ' ' :: prettyMembers 1 (m :: ms)), ?_, ?_⟩
  · rw [htext, Text.lines_append_lineFeed, Text.lines_append_lineFeed]
    rfl
  · have hws := hbody.head?_of_mem_tail
    rw [hlines] at hws
    rw [hlines]
    exact List.forall_mem_cons.mpr ⟨rfl, hws⟩

end ServiceDocs.Json
